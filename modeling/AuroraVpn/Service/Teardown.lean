import AuroraVpn.Lib.Runs
import Mathlib.Data.List.Basic

/-!
# Teardown — stopping a session while another one begins

`stopFromUser` and `giveUp` move the generation at once and leave the rest to a coroutine: the
teardown.  Everything runs on the main thread (`Dispatchers.Main.immediate`), so that a coroutine is
only left at a suspension point, and a run is a list of turns, each from one suspension point to the
next.

* `touches`: whether a turn of a teardown touches a session that `replaceSession` began after the
  teardown was launched.
* `teardown_apart_iff`: in which runs none does.
-/

namespace AuroraVpn
namespace Service
namespace Teardown

open Runs

/-! ## The service -/

/-- `EngineStage`, as far as the status goes through it. -/
inductive EngineStage
  | idle
  | preparing
  | connecting
  | connected
  | stopping
  | error
  deriving DecidableEq, Repr

/-- What a session may have going: each is one slot of the process, so that the next session to use
it takes it over. -/
inductive Slot
  | engine
  | chain
  | carriers
  | protector
  deriving DecidableEq, Repr

/-- A coroutine that runs a session.  A retry is a new job of the same session; the sessions are
numbered in the order in which `replaceSession` begins them. -/
structure Job where
  session : Nat
  serial : Nat
  deriving DecidableEq, Repr

/-- The suspension point at which a teardown is parked. -/
inductive Point
  /-- `withTimeoutOrNull(STOP_GRACE_MS)`, around the job there was. -/
  | joining
  /-- `withContext(Dispatchers.IO)`, before and after `chain.stop()`. -/
  | stoppingChain
  | stoppedChain
  /-- The coroutine of `giveUp`, which has no suspension point once it runs. -/
  | launched (blocking : Bool)
  deriving DecidableEq, Repr

/-- A teardown in flight, and how many sessions had begun when it was launched. -/
structure Parked where
  begunBefore : Nat
  point : Point
  deriving DecidableEq, Repr

structure State where
  generation : Nat
  sessionJob : Option Job
  /-- The jobs that have not completed. -/
  live : List Job
  launched : Nat
  begun : Nat
  /-- The generation that the session last begun runs under. -/
  sessionGeneration : Option Nat
  /-- The session that took a slot last, as long as it holds it. -/
  held : Slot → Option Nat
  stage : EngineStage
  blackhole : Bool
  blockOnFailure : Bool
  blockAfterStop : Bool
  foreground : Bool
  stopped : Bool
  /-- The `replaceSession` that holds `commandMutex`: the job it joins. -/
  commandMutex : Option (Option Job)
  waiting : Nat
  teardowns : List Parked

def fresh : State where
  generation := 0
  sessionJob := none
  live := []
  launched := 0
  begun := 0
  sessionGeneration := none
  held := fun _ => none
  stage := .idle
  blackhole := false
  blockOnFailure := false
  blockAfterStop := false
  foreground := false
  stopped := false
  commandMutex := none
  waiting := 0
  teardowns := []

namespace State

def release (slot : Slot) (s : State) : State :=
  { s with held := fun slot' => if slot' = slot then none else s.held slot' }

def take (slot : Slot) (session : Nat) (s : State) : State :=
  { s with held := fun slot' => if slot' = slot then some session else s.held slot' }

end State

/-! ## What a teardown does -/

inductive Deed
  | forgetJob
  | stop (slot : Slot)
  | raiseBlackhole
  | publish (stage : EngineStage)
  | startForeground
  | stopForeground
  | stopSelf
  deriving DecidableEq, Repr

def Deed.perform : Deed → State → State
  | .forgetJob, s => { s with sessionJob := none }
  | .stop slot, s => s.release slot
  | .raiseBlackhole, s => { s with blackhole := true }
  | .publish stage, s => { s with stage := stage }
  | .startForeground, s => { s with foreground := true }
  | .stopForeground, s => { s with foreground := false }
  | .stopSelf, s => { s with stopped := true }

def performAll (deeds : List Deed) (s : State) : State :=
  deeds.foldl (fun s deed => deed.perform s) s

/-- `clearSocketProtector`. -/
def clearSocketProtector (sessionGeneration : Nat) (s : State) : List Deed :=
  if sessionGeneration ≠ s.generation then [] else [.stop .protector]

/-- `raiseBlackhole`: what it does, and whether traffic is blocked then.  The system may refuse the
interface. -/
def raiseBlackhole (established : Bool) (s : State) : List Deed × Bool :=
  if s.blackhole then ([], true)
  else if established then ([.raiseBlackhole], true) else ([], false)

/-- The last segment of the teardown of `stopFromUser`. -/
def finishStop (established : Bool) (s : State) : List Deed :=
  let stopped := .stop .carriers :: clearSocketProtector s.generation s
  let (raised, blocked) := if s.blockAfterStop then raiseBlackhole established s else ([], false)
  if blocked then stopped ++ raised ++ [.publish .idle, .startForeground]
  else stopped ++ [.publish .idle, .stopForeground, .stopSelf]

/-- The coroutine that `giveUp` launches. -/
def finishGiveUp (blocking : Bool) (s : State) : List Deed :=
  [.stop .chain, .stop .engine, .stop .carriers] ++ clearSocketProtector s.generation s ++
    .forgetJob :: if blocking then [.startForeground] else [.stopForeground, .stopSelf]

/-- What a teardown does from the point at which it is parked to the next, where it is parked
again, or has completed. -/
def Point.segment (established : Bool) (s : State) : Point → List Deed × Option Point
  | .joining => ([.forgetJob], some .stoppingChain)
  | .stoppingChain => ([.stop .chain], some .stoppedChain)
  | .stoppedChain => (finishStop established s, none)
  | .launched blocking => (finishGiveUp blocking s, none)

/-- Whether a deed touches a session that was begun when `n` had begun already. -/
def Deed.touches (n : Nat) (s : State) : Deed → Bool
  | .forgetJob => s.sessionJob.any fun job => n ≤ job.session
  | .stop slot => (s.held slot).any fun session => n ≤ session
  -- These are about whichever session there is.
  | .raiseBlackhole | .publish _ | .startForeground | .stopForeground | .stopSelf => n < s.begun

def touchesAny (n : Nat) : List Deed → State → Bool
  | [], _ => false
  | deed :: deeds, s => deed.touches n s || touchesAny n deeds (deed.perform s)

/-! ## The turns -/

/-- What the coroutines and callbacks of a session do, between its suspension points. -/
inductive Act
  | take (slot : Slot)
  | release (slot : Slot)
  | publish (stage : EngineStage)
  | dropBlackhole

def Act.perform (session : Nat) : Act → State → State
  | .take slot, s => s.take slot session
  | .release slot, s => s.release slot
  | .publish stage, s => { s with stage := stage }
  | .dropBlackhole, s => { s with blackhole := false }

inductive Turn
  /-- `ACTION_START`: `replaceSession`, up to the lock. -/
  | start (killSwitch strictKill : Bool)
  /-- The next `replaceSession` in line has the lock. -/
  | locked
  /-- The job that the `replaceSession` with the lock joins has completed. -/
  | joined
  /-- `ACTION_STOP`, `onRevoke`: `stopFromUser` with its teardown up to the join. -/
  | stop
  /-- `giveUp`, in the generation of the session. -/
  | giveUp (established : Bool)
  /-- `leash`: the session goes on under a new generation. -/
  | leash
  /-- `replaceParkedSession`: the next attempt of the session. -/
  | retry
  | teardown (index : Nat) (established : Bool)
  | act (session : Nat) (act : Act)
  | complete (job : Job)

/-- The critical section of `replaceSession` up to `sessionJob?.join()`. -/
def replace (s : State) : State :=
  { ((s.release .engine).release .chain).release .carriers with
    generation := s.generation + 1
    commandMutex := some s.sessionJob }

def launch (session : Nat) (s : State) : State :=
  { s with
    sessionJob := some ⟨session, s.launched⟩
    live := ⟨session, s.launched⟩ :: s.live
    launched := s.launched + 1 }

/-- The rest of the critical section, with the generation as it stands now. -/
def begin (s : State) : State :=
  { launch s.begun s with
    begun := s.begun + 1
    sessionGeneration := some s.generation
    commandMutex := none }

def stopFromUser (s : State) : State :=
  { s.release .engine with
    stage := .stopping
    foreground := true
    generation := s.generation + 1
    teardowns := s.teardowns ++ [⟨s.begun, .joining⟩] }

def giveUp (established : Bool) (s : State) : State :=
  let raised := if s.blockOnFailure then raiseBlackhole established s else ([], false)
  { performAll raised.1 s with
    generation := s.generation + 1
    stage := .error
    teardowns := s.teardowns ++ [⟨s.begun, .launched raised.2⟩] }

/-- The session last begun still runs under the generation there is. -/
def Current (s : State) : Prop :=
  s.sessionGeneration = some s.generation

instance (s : State) : Decidable (Current s) := inferInstanceAs (Decidable (_ = _))

/-- A teardown goes on from where it is parked. -/
def resume (established : Bool) (index : Nat) (parked : Parked) (s : State) : State :=
  let segment := parked.point.segment established s
  { performAll segment.1 s with
    teardowns :=
      match segment.2 with
      | some point => s.teardowns.set index { parked with point := point }
      | none => s.teardowns.eraseIdx index }

def turn : Turn → State → Option State
  | .start killSwitch strictKill, s =>
      let s := { s with foreground := true, blockOnFailure := killSwitch, blockAfterStop := strictKill }
      -- while the mutex is held the start waits
      some (if s.commandMutex.isSome then { s with waiting := s.waiting + 1 } else replace s)
  | .locked, s =>
      if s.commandMutex.isNone ∧ 0 < s.waiting then some (replace { s with waiting := s.waiting - 1 })
      else none
  | .joined, s =>
      match s.commandMutex with
      | some job => if job.all (· ∉ s.live) then some (begin s) else none
      | none => none
  | .stop, s => some (stopFromUser s)
  | .giveUp established, s => if Current s then some (giveUp established s) else none
  | .leash, s =>
      if Current s then
        some { s with generation := s.generation + 1, sessionGeneration := some (s.generation + 1) }
      else none
  | .retry, s => if Current s then some (launch (s.begun - 1) s) else none
  -- a parked teardown goes on with its next segment
  | .teardown index established, s =>
      s.teardowns[index]?.map fun parked => resume established index parked s
  | .act session act, s => if session < s.begun then some (act.perform session s) else none
  | .complete job, s => if job ∈ s.live then some { s with live := s.live.erase job } else none

def machine : Machine State Turn where
  init s := s = fresh
  enabled _ _ := True
  step := turn

/-- Whether a turn of a teardown touches a session that was begun after the teardown was launched. -/
def touches (s : State) : Turn → Bool
  | .teardown index established =>
      s.teardowns[index]?.any fun parked =>
        touchesAny parked.begunBefore (parked.point.segment established s).1 s
  | _ => false

/-- No session begins while a teardown is in flight. -/
def Apart (s : State) : Turn → Prop
  | .joined => s.teardowns = []
  | _ => True

instance (s : State) : (t : Turn) → Decidable (Apart s t)
  | .joined => inferInstanceAs (Decidable (s.teardowns = []))
  | .start _ _ | .locked | .stop | .giveUp _ | .leash | .retry | .teardown _ _ | .act _ _
  | .complete _ => .isTrue trivial

section Invariants

variable {s s' : State} {t : Turn} {deeds : List Deed} {n : Nat}

/-! ## What the sessions hold -/

/-- What is held, is held by a session that has begun. -/
structure Owned (s : State) : Prop where
  held : ∀ slot session, s.held slot = some session → session < s.begun
  sessionJob : ∀ job, s.sessionJob = some job → job.session < s.begun
  begun : s.sessionGeneration.isSome → 0 < s.begun

theorem Owned.release (h : Owned s) (slot : Slot) : Owned (s.release slot) where
  held slot' session hheld := by
    simp only [State.release] at hheld
    split_ifs at hheld
    exact h.held slot' session hheld
  sessionJob := h.sessionJob
  begun := h.begun

theorem Owned.take (h : Owned s) (slot : Slot) (hn : n < s.begun) : Owned (s.take slot n) where
  held slot' session hheld := by
    simp only [State.take] at hheld
    split_ifs at hheld
    · cases hheld
      exact hn
    · exact h.held slot' session hheld
  sessionJob := h.sessionJob
  begun := h.begun

theorem Owned.perform (h : Owned s) (deed : Deed) : Owned (deed.perform s) := by
  cases deed with
  | forgetJob => exact { h with sessionJob := nofun }
  | stop slot => exact h.release slot
  | _ => exact { h with }

theorem Owned.performAll (h : Owned s) (deeds : List Deed) : Owned (performAll deeds s) := by
  induction deeds generalizing s with
  | nil => exact h
  | cons deed deeds ih => exact ih (h.perform deed)

theorem Owned.launch (h : Owned s) (hn : n < s.begun) : Owned (launch n s) where
  held := h.held
  sessionJob job hjob := by
    cases hjob
    exact hn
  begun := h.begun

@[simp]
theorem begun_perform (deed : Deed) (s : State) : (deed.perform s).begun = s.begun := by
  cases deed <;> rfl

@[simp]
theorem begun_performAll (deeds : List Deed) (s : State) :
    (performAll deeds s).begun = s.begun := by
  induction deeds generalizing s with
  | nil => rfl
  | cons deed deeds ih => exact (ih _).trans (begun_perform deed s)

theorem Owned.begin (h : Owned s) : Owned (begin s) where
  held slot session hheld := Nat.lt_succ_of_lt (h.held slot session hheld)
  sessionJob job hjob := by
    cases hjob
    exact Nat.lt_succ_self _
  begun _ := Nat.succ_pos _

theorem Owned.replace (h : Owned s) : Owned (replace s) :=
  { ((h.release .engine).release .chain).release .carriers with }

theorem Owned.giveUp (h : Owned s) (established : Bool) : Owned (giveUp established s) :=
  { h.performAll _ with }

theorem Owned.resume (h : Owned s) (established : Bool) (index : Nat) (parked : Parked) :
    Owned (resume established index parked s) :=
  { h.performAll _ with }

theorem Owned.act (h : Owned s) (act : Act) (hn : n < s.begun) : Owned (act.perform n s) := by
  cases act with
  | take slot => exact h.take slot hn
  | release slot => exact h.release slot
  | publish stage => exact { h with }
  | dropBlackhole => exact { h with }

theorem Owned.turn (h : Owned s) (hturn : turn t s = some s') : Owned s' := by
  -- by the turn: what a session owns was given to it, and what is released is owned by nobody
  cases t with
  | start killSwitch strictKill =>
      simp only [Teardown.turn, Option.some.injEq] at hturn
      subst hturn
      have hset : Owned { s with
          foreground := true, blockOnFailure := killSwitch, blockAfterStop := strictKill } :=
        { h with }
      split_ifs
      -- a start within a session only changes the kill switch
      · exact { hset with }
      · exact hset.replace
  | locked =>
      simp only [Teardown.turn] at hturn
      split_ifs at hturn
      cases hturn
      exact Owned.replace { h with }
  | joined =>
      simp only [Teardown.turn] at hturn
      split at hturn
      · split_ifs at hturn
        cases hturn
        exact h.begin
      · cases hturn
  | stop =>
      cases hturn
      exact { h.release .engine with }
  | giveUp established =>
      simp only [Teardown.turn] at hturn
      split_ifs at hturn
      cases hturn
      exact h.giveUp established
  | leash =>
      simp only [Teardown.turn] at hturn
      split_ifs at hturn with hcurrent
      cases hturn
      -- the leash is one of a session that has begun
      exact { h with begun := fun _ => h.begun (by rw [hcurrent]; rfl) }
  | retry =>
      simp only [Teardown.turn] at hturn
      split_ifs at hturn with hcurrent
      cases hturn
      have hbegun : 0 < s.begun := h.begun (by rw [hcurrent]; rfl)
      exact h.launch (Nat.sub_lt hbegun Nat.one_pos)
  | teardown index established =>
      obtain ⟨parked, -, rfl⟩ := Option.map_eq_some_iff.1 hturn
      exact h.resume established index parked
  | act session act =>
      simp only [Teardown.turn] at hturn
      split_ifs at hturn with hsession
      cases hturn
      exact h.act act hsession
  | complete job =>
      -- a job that completes frees what is waited for, and owns nothing
      simp only [Teardown.turn] at hturn
      split_ifs at hturn
      cases hturn
      exact { h with }

/-! ## Deeds that touch a later session -/

theorem touches_of_owned (h : Owned s) (deed : Deed) : deed.touches s.begun s = false := by
  cases deed with
  | forgetJob =>
      cases hjob : s.sessionJob with
      | none => simp [Deed.touches, hjob]
      | some job => simpa [Deed.touches, hjob] using h.sessionJob job hjob
  | stop slot =>
      cases hheld : s.held slot with
      | none => simp [Deed.touches, hheld]
      | some session => simpa [Deed.touches, hheld] using h.held slot session hheld
  | _ => simp [Deed.touches]

/-- Without a session that was begun since, there is nothing that could be touched. -/
theorem touchesAny_of_owned (h : Owned s) (deeds : List Deed) :
    touchesAny s.begun deeds s = false := by
  induction deeds generalizing s with
  | nil => rfl
  | cons deed deeds ih =>
      have hrest := ih (h.perform deed)
      rw [begun_perform] at hrest
      rw [touchesAny, touches_of_owned h deed, hrest, Bool.or_self]

/-- A deed that is about whichever session there is. -/
def Deed.Shared : Deed → Prop
  | .forgetJob | .stop _ => False
  | _ => True

theorem touchesAny_of_shared (deed : Deed) (hn : n < s.begun) (hmem : deed ∈ deeds)
    (hshared : deed.Shared) :
    touchesAny n deeds s = true := by
  induction deeds generalizing s with
  | nil => cases hmem
  | cons first deeds ih =>
      rw [touchesAny, Bool.or_eq_true]
      rcases List.mem_cons.1 hmem with rfl | hmem
      · left
        cases deed <;> first | exact hshared.elim | exact decide_eq_true hn
      · right
        exact ih (by rwa [begun_perform]) hmem

/-- The last segment of a teardown touches a session that was begun since. -/
theorem segment_touches {point : Point} {established : Bool}
    (hlast : (point.segment established s).2 = none) (hn : n < s.begun) :
    touchesAny n (point.segment established s).1 s = true := by
  cases point with
  | joining => cases hlast
  | stoppingChain => cases hlast
  | stoppedChain =>
      refine touchesAny_of_shared (.publish .idle) hn ?_ trivial
      simp only [Point.segment, finishStop]
      split_ifs <;> simp
  | launched blocking =>
      cases blocking with
      | true =>
          exact touchesAny_of_shared .startForeground hn
            (by simp [Point.segment, finishGiveUp]) trivial
      | false =>
          exact touchesAny_of_shared .stopSelf hn
            (by simp [Point.segment, finishGiveUp]) trivial

/-! ## The teardowns in flight -/

/-- **What a turn does to the teardowns in flight**: it launches some, or it begins a session, or it
is a turn of one of them. -/
theorem turn_teardowns (h : turn t s = some s') :
    (s'.begun = s.begun ∧ ∃ new : List Parked, s'.teardowns = s.teardowns ++ new ∧
        ∀ parked ∈ new, parked.begunBefore = s.begun) ∨
      (t = .joined ∧ s'.begun = s.begun + 1 ∧ s'.teardowns = s.teardowns) ∨
      ∃ index established parked, t = .teardown index established ∧
        s.teardowns[index]? = some parked ∧ s' = resume established index parked s := by
  -- by the turn: three of them launch a teardown, one begins a session
  cases t with
  | start killSwitch strictKill =>
      simp only [turn, Option.some.injEq] at h
      subst h
      refine .inl ⟨?_, [], ?_, nofun⟩ <;> split_ifs <;> simp [replace, State.release]
  | locked =>
      simp only [turn] at h
      split_ifs at h
      cases h
      exact .inl ⟨rfl, [], by simp [replace, State.release], nofun⟩
  | joined =>
      simp only [turn] at h
      split at h
      · split_ifs at h
        cases h
        exact .inr (.inl ⟨rfl, rfl, rfl⟩)
      · cases h
  | stop =>
      cases h
      -- the teardown of a stop knows how many sessions had begun
      exact .inl ⟨rfl, [⟨s.begun, .joining⟩], rfl, by simp⟩
  | giveUp established =>
      simp only [turn] at h
      split_ifs at h
      cases h
      exact .inl ⟨begun_performAll _ s, [_], rfl, by simp⟩
  | leash =>
      simp only [turn] at h
      split_ifs at h
      cases h
      exact .inl ⟨rfl, [], (List.append_nil _).symm, nofun⟩
  | retry =>
      simp only [turn] at h
      split_ifs at h
      cases h
      exact .inl ⟨rfl, [], (List.append_nil _).symm, nofun⟩
  | teardown index established =>
      obtain ⟨parked, hparked, rfl⟩ := Option.map_eq_some_iff.1 h
      exact .inr (.inr ⟨index, established, parked, rfl, hparked, rfl⟩)
  | act session act =>
      -- what an engine is taken for or released from leaves the teardowns
      simp only [turn] at h
      split_ifs at h
      cases h
      refine .inl ⟨?_, [], ?_, nofun⟩ <;> cases act <;> simp [Act.perform, State.take, State.release]
  | complete job =>
      simp only [turn] at h
      split_ifs at h
      cases h
      exact .inl ⟨rfl, [], (List.append_nil _).symm, nofun⟩

/-- No session has begun since a teardown in flight was launched. -/
structure Alone (s : State) : Prop where
  owned : Owned s
  launched : ∀ parked ∈ s.teardowns, parked.begunBefore = s.begun

/-- A teardown goes on as itself or is over. -/
theorem mem_resume {established : Bool} {index : Nat} {parked parked' : Parked}
    (hparked : s.teardowns[index]? = some parked)
    (h : parked' ∈ (resume established index parked s).teardowns) :
    ∃ old ∈ s.teardowns, old.begunBefore = parked'.begunBefore := by
  simp only [resume] at h
  split at h
  · rcases List.mem_or_eq_of_mem_set h with hold | rfl
    · exact ⟨parked', hold, rfl⟩
    · exact ⟨parked, List.mem_of_getElem? hparked, rfl⟩
  · exact ⟨parked', List.mem_of_mem_eraseIdx h, rfl⟩

theorem Alone.turn (h : Alone s) (hapart : Apart s t) (hturn : turn t s = some s') :
    Alone s' := by
  refine ⟨h.owned.turn hturn, fun parked hmem => ?_⟩
  rcases turn_teardowns hturn with ⟨hbegun, new, hnew, hfresh⟩ | ⟨rfl, -, hsame⟩ |
      ⟨index, established, parked', rfl, hparked', rfl⟩
  · rw [hnew] at hmem
    rw [hbegun]
    exact (List.mem_append.1 hmem).elim (h.launched parked) (hfresh parked)
  · rw [hsame, show s.teardowns = [] from hapart] at hmem
    cases hmem
  · obtain ⟨old, hold, hsame⟩ := mem_resume hparked' hmem
    rw [← hsame]
    exact (h.launched old hold).trans (begun_performAll _ s).symm

/-- A teardown without a later session touches none. -/
theorem Alone.harmless (h : Alone s) (t : Turn) : touches s t = false := by
  cases t with
  | teardown index established =>
      cases hparked : s.teardowns[index]? with
      | none => simp [touches, hparked]
      | some parked =>
          have hlaunched := h.launched parked (List.mem_of_getElem? hparked)
          simp [touches, hparked, hlaunched, touchesAny_of_owned h.owned]
  | _ => rfl

/-- A session has begun since a teardown in flight was launched. -/
def Overtaken (s : State) : Prop :=
  ∃ parked ∈ s.teardowns, parked.begunBefore < s.begun

/-- **Only a turn that touches a later session ends a teardown that was overtaken.** -/
theorem Overtaken.turn (h : Overtaken s) (hharmless : touches s t = false)
    (hturn : turn t s = some s') : Overtaken s' := by
  obtain ⟨parked, hmem, hlater⟩ := h
  rcases turn_teardowns hturn with ⟨hbegun, new, hnew, -⟩ | ⟨rfl, hbegun, hsame⟩ |
      ⟨index, established, parked', rfl, hparked', rfl⟩
  -- its place and what began behind it are as before
  · exact ⟨parked, by rw [hnew]; exact List.mem_append_left _ hmem, by rwa [hbegun]⟩
  · exact ⟨parked, by rwa [hsame], by omega⟩
  · obtain ⟨i, hi⟩ := List.mem_iff_getElem?.1 hmem
    have hbegun : (resume established index parked' s).begun = s.begun := begun_performAll _ s
    by_cases hindex : index = i
    · -- its own turn: it touches nothing, so that it is not the last one
      obtain rfl : parked' = parked := by
        subst hindex
        exact Option.some.inj (hparked'.symm.trans hi)
      have hnext : (parked'.point.segment established s).2 ≠ none := by
        intro hlast
        simp [touches, hparked', segment_touches hlast hlater] at hharmless
      obtain ⟨point, hpoint⟩ := Option.ne_none_iff_exists'.1 hnext
      refine ⟨{ parked' with point := point }, ?_, by rwa [hbegun]⟩
      simp only [resume, hpoint]
      exact List.mem_set (List.getElem?_eq_some_iff.1 hparked').1 _
    -- the turn of another teardown: it is only found at another place
    · refine ⟨parked, ?_, by rwa [hbegun]⟩
      simp only [resume]
      split
      · exact List.mem_iff_getElem?.2 ⟨i, by rw [List.getElem?_set_ne hindex, hi]⟩
      · exact List.mem_eraseIdx_iff_getElem?.2 ⟨i, Ne.symm hindex, hi⟩

/-- A teardown was launched when no more sessions had begun than now. -/
def Earlier (s : State) : Prop :=
  ∀ parked ∈ s.teardowns, parked.begunBefore ≤ s.begun

theorem Earlier.turn (h : Earlier s) (hturn : turn t s = some s') : Earlier s' := by
  intro parked hmem
  rcases turn_teardowns hturn with ⟨hbegun, new, hnew, hfresh⟩ | ⟨rfl, hbegun, hsame⟩ |
      ⟨index, established, parked', rfl, hparked', rfl⟩
  · rw [hnew] at hmem
    rw [hbegun]
    exact (List.mem_append.1 hmem).elim (h parked) fun hmem => Nat.le_of_eq (hfresh parked hmem)
  · rw [hsame] at hmem
    rw [hbegun]
    exact Nat.le_succ_of_le (h parked hmem)
  · obtain ⟨old, hold, hsame⟩ := mem_resume hparked' hmem
    rw [← hsame]
    exact Nat.le_trans (h old hold) (Nat.le_of_eq (begun_performAll _ s).symm)

/-- A session that begins overtakes the teardowns in flight. -/
theorem Earlier.overtaken (h : Earlier s) (happart : ¬ Apart s t)
    (hturn : Teardown.turn t s = some s') : Overtaken s' := by
  cases t with
  | joined =>
      obtain ⟨parked, hmem⟩ := List.exists_mem_of_ne_nil _ happart
      simp only [Teardown.turn] at hturn
      split at hturn
      · split_ifs at hturn
        cases hturn
        exact ⟨parked, hmem, Nat.lt_succ_of_le (h parked hmem)⟩
      · cases hturn
  | _ => exact absurd trivial happart

theorem alone_fresh : Alone fresh :=
  ⟨⟨nofun, nofun, nofun⟩, nofun⟩

end Invariants

/-- **A run whose teardowns have all completed leaves every later session alone exactly when no
session began while a teardown was in flight.** -/
theorem teardown_apart_iff (turns : List Turn) (s : State)
    (hrun : machine.runs turns fresh = some s) (hdone : s.teardowns = []) :
    machine.Along (fun s t => touches s t = false) turns fresh ↔
      machine.Along Apart turns fresh := by
  constructor
  · intro hharmless
    refine Along.of_settled (P := Earlier) (D := Overtaken) (fun _ _ _ h hturn => h.turn hturn)
      (fun _ _ _ h happart hturn => h.overtaken happart hturn)
      (fun _ _ _ h hharmless hturn => h.turn hharmless hturn) nofun hharmless hrun ?_
    rintro ⟨parked, hmem, -⟩
    rw [hdone] at hmem
    cases hmem
  · exact Along.imp (P := Alone) (fun _ _ _ h happart hturn => h.turn happart hturn)
      (fun _ t h _ => h.harmless t) alone_fresh

/-- The user stops a session that is inside a native call, and connects again before the call has
returned. -/
def tappedAgain : List Turn :=
  [.start false false, .joined, .act 0 (.take .protector), .act 0 (.publish .preparing),
    .stop, .start false false, .complete ⟨0, 0⟩, .teardown 0 false,
    .joined, .act 1 (.take .protector), .act 1 (.publish .preparing),
    .teardown 0 false, .teardown 0 false]

/-- The teardown of the first session leaves the second without its protector, shown as idle, in a
service that has stopped itself. -/
theorem tappedAgain_touches :
    ¬ machine.Along (fun s t => touches s t = false) tappedAgain fresh ∧
      (machine.runs tappedAgain fresh).any (fun s =>
        s.sessionJob = some ⟨1, 1⟩ ∧ ⟨1, 1⟩ ∈ s.live ∧ s.held .protector = none ∧
          s.stage = .idle ∧ s.stopped) = true := by
  decide

/-- The user stops the session and connects again once it is over. -/
def tappedLater : List Turn :=
  [.start true false, .joined, .act 0 (.take .protector), .stop, .complete ⟨0, 0⟩,
    .teardown 0 false, .teardown 0 false, .teardown 0 false,
    .start true false, .joined, .act 1 (.take .engine), .giveUp true, .teardown 0 false]

theorem tappedLater_runs : (machine.runs tappedLater fresh).isSome = true := by
  decide

theorem tappedLater_apart :
    machine.Along (fun s t => touches s t = false) tappedLater fresh :=
  (teardown_apart_iff tappedLater ((machine.runs tappedLater fresh).get tappedLater_runs)
    (Option.some_get tappedLater_runs).symm (by decide)).2 (by decide)

end Teardown
end Service
end AuroraVpn
