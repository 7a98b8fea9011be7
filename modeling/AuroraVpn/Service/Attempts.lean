import AuroraVpn.Lib.Runs
import Mathlib.Data.List.Basic

/-!
# Attempts — the attempts of a session, and what counts as a failure of one

A session whose attempt failed asks `scheduleReconnect` for the next one.  An attempt that is carried
by hops is watched by a coroutine for each of them (`watchHop`), besides the coroutine of the session
itself, and the two can both see the same failure.

A run is about one session, in one generation, and about what its coroutines do between their
suspension points.  Where a branch first stops the hops and then schedules, these are two turns, so
that a watcher that reacts to the stop may come before or after.  The sessions of Automatic do not
use the retry counter and are left out.

* `Fair`: what one attempt may cost.
* `Clean`: the turns that do not have one failure seen twice.
* `attempts_fair`: clean runs are fair.
-/

namespace AuroraVpn
namespace Service
namespace Attempts

open Runs

def MAX_RECONNECT_ATTEMPTS : Nat := 8

/-! ## The hops -/

inductive Carrier
  | aether
  | psiphon
  | tor
  deriving DecidableEq, Repr

inductive CarrierStage
  | stopped
  | connecting
  | connected
  | failed
  deriving DecidableEq, Repr

/-- What a watcher takes for the end of its hop. -/
def CarrierStage.Down (stage : CarrierStage) : Prop :=
  stage = .failed ∨ stage = .stopped

instance (stage : CarrierStage) : Decidable stage.Down := inferInstanceAs (Decidable (_ ∨ _))

/-- A `CarrierClient` that some attempt has built, and whether it is watched since it came up. -/
structure Client where
  attempt : Nat
  carrier : Carrier
  stage : CarrierStage
  watched : Bool
  deriving DecidableEq, Repr

/-- What carries the session: the engine alone, behind the exit chain or not, or hops. -/
inductive Kind
  | engine
  | carriers (carrier : Carrier) (secondCarrier : Option Carrier)
  deriving DecidableEq, Repr

def Kind.hops : Kind → List Carrier
  | .engine => []
  | .carriers carrier secondCarrier => carrier :: secondCarrier.toList

/-! ## The session -/

/-- Where the coroutine of an attempt is suspended. -/
inductive Point
  /-- `client.start`, of the hop with this number. -/
  | starting (hop : Nat)
  /-- `chain.startCarrier`. -/
  | startingChain
  /-- `awaitCancellation`. -/
  | parked
  /-- `NativeAetherBridge.prepare`. -/
  | preparing
  /-- `NativeAetherBridge.run`, with the exit chain or without. -/
  | running
  /-- In front of `scheduleReconnect`, with everything stopped. -/
  | reconnecting
  deriving DecidableEq, Repr

structure Session where
  attempt : Nat
  point : Point
  deriving DecidableEq, Repr

structure State where
  kind : Kind
  /-- The session's generation is the current one. -/
  current : Bool
  reconnectAttempt : Nat
  /-- `hopAttempt`, which counts the attempts of an engine session as well. -/
  attempt : Nat
  collapsedAttempt : Option Nat
  sessionCancellable : Bool
  sessionJob : Option Nat
  /-- The attempts that are scheduled and have not begun. -/
  waiting : Nat
  sessions : List Session
  clients : List Client
  /-- How often `scheduleReconnect` ran to completion for an attempt. -/
  scheduled : Nat → Nat
  /-- The attempts that failed since the last that connected. -/
  failed : Nat
  gaveUp : Bool

/-- `replaceSession` has just launched the session. -/
def fresh (kind : Kind) : State where
  kind := kind
  current := true
  reconnectAttempt := 0
  attempt := 0
  collapsedAttempt := none
  sessionCancellable := false
  sessionJob := none
  waiting := 1
  sessions := []
  clients := []
  scheduled := fun _ => 0
  failed := 0
  gaveUp := false

/-! ## The code -/

/-- One more failure, which is booked on an attempt. -/
def charge (attempt : Nat) (s : State) : State :=
  { s with
    reconnectAttempt := s.reconnectAttempt + 1
    scheduled := fun a => if a = attempt then s.scheduled a + 1 else s.scheduled a
    failed := if s.scheduled attempt = 0 then s.failed + 1 else s.failed }

/-- `giveUp`, which moves the generation on. -/
def giveUp (s : State) : State :=
  { s with current := false, gaveUp := true }

/-- `scheduleReconnect`, on behalf of an attempt. -/
def scheduleReconnect (attempt : Nat) (s : State) : State :=
  if s.current then
    let s := charge attempt s
    if MAX_RECONNECT_ATTEMPTS < s.reconnectAttempt then giveUp s
    else { s with waiting := s.waiting + 1 }
  else s

/-- `stopCarrier`: every client that was not stopped is in `startedHops` or is the last of its
carrier. -/
def stopCarrier (s : State) : State :=
  { s with clients := s.clients.map fun client => { client with stage := .stopped } }

/-- `buildCarrier`, and the start of what it built.  The last client of the same carrier is
stopped. -/
def buildCarrier (carrier : Carrier) (s : State) : State :=
  { s with
    clients :=
      (s.clients.map fun client =>
        if client.carrier = carrier then { client with stage := .stopped } else client) ++
      [⟨s.attempt, carrier, .connecting, false⟩] }

def moveTo (session : Session) (point : Point) (s : State) : State :=
  { s with
    sessions := s.sessions.map fun session' =>
      if session' = session then { session with point := point } else session' }

/-- `watchHop`, for the client of an attempt that was built last. -/
def watchHop (attempt : Nat) (carrier : Carrier) (s : State) : State :=
  { s with
    clients := s.clients.map fun client =>
      if client.attempt = attempt ∧ client.carrier = carrier then { client with watched := true }
      else client }

/-- The loop over the hops, at the hop with number `hop`, and what comes behind it. -/
def dialHop (hop : Nat) (s : State) : Point × State :=
  match s.kind.hops[hop]? with
  | some carrier => (.starting hop, buildCarrier carrier s)
  | none => (.startingChain, s)

/-- `replaceParkedSession`: the session that is parked is cancelled. -/
def replaceParkedSession (s : State) : State :=
  { s with
    sessions :=
      if s.sessionCancellable then
        s.sessions.filter fun session => s.sessionJob ≠ some session.attempt
      else s.sessions
    sessionJob := some (s.attempt + 1) }

/-- `newHopAttempt`: the watchers of earlier attempts are cancelled. -/
def newHopAttempt (s : State) : State :=
  { s with attempt := s.attempt + 1, collapsedAttempt := none }

/-- `runSession`, up to its first suspension point. -/
def runSession (s : State) : State :=
  let s := newHopAttempt { s with sessionCancellable := false }
  let entered : Point × State :=
    match s.kind with
    | .engine => (.preparing, s)
    | .carriers _ _ => dialHop 0 s
  { entered.2 with sessions := ⟨s.attempt, entered.1⟩ :: entered.2.sessions }

/-- The watcher of a hop that has gone down. -/
def collapse (client : Client) (s : State) : State :=
  scheduleReconnect client.attempt
    (stopCarrier { s with collapsedAttempt := some client.attempt })

/-! ## The turns -/

/-- With what a coroutine is resumed. -/
inductive Outcome
  | ok
  | failed
  /-- The engine has called its listener, and goes on. -/
  | up
  deriving DecidableEq, Repr

/-- What the coroutine of a session does when it is resumed. -/
def resume (session : Session) (s : State) : Point → Outcome → Option State
  | .starting hop, .ok =>
      s.kind.hops[hop]?.map fun carrier =>
        let dialled := dialHop (hop + 1) (watchHop session.attempt carrier s)
        moveTo session dialled.1 dialled.2
  | .starting _, .failed => some (moveTo session .reconnecting (stopCarrier s))
  | .startingChain, .ok =>
      some (moveTo session .parked
        { s with reconnectAttempt := 0, failed := 0, sessionCancellable := true })
  | .startingChain, .failed =>
      some (moveTo session .reconnecting
        (stopCarrier { s with collapsedAttempt := some session.attempt }))
  | .preparing, .ok => some (moveTo session .running s)
  | .preparing, .failed => some (moveTo session .reconnecting s)
  | .running, .up => some { s with reconnectAttempt := 0, failed := 0 }
  -- However the engine ends: a closed route is a failure too.
  | .running, .ok | .running, .failed => some (moveTo session .reconnecting s)
  | .reconnecting, .ok =>
      some (scheduleReconnect session.attempt { s with sessions := s.sessions.erase session })
  | _, _ => none

inductive Turn
  /-- The delay of a scheduled attempt is over. -/
  | relaunch
  /-- A client reports a stage. -/
  | report (client : Nat) (stage : CarrierStage)
  /-- The watcher of a client is resumed, with the stage there is then. -/
  | watch (client : Nat)
  | resume (session : Session) (outcome : Outcome)
  /-- The session is replaced or stopped, or ends with an error that no retry could mend. -/
  | finish
  deriving DecidableEq, Repr

/-- What a watcher acts on: its hop is down, its attempt is the current one, and no one has claimed
the failure. -/
def Collapses (s : State) (client : Client) : Prop :=
  client.watched ∧ client.attempt = s.attempt ∧ client.stage.Down ∧
    s.collapsedAttempt ≠ some client.attempt

instance (s : State) (client : Client) : Decidable (Collapses s client) :=
  inferInstanceAs (Decidable (_ ∧ _ ∧ _ ∧ _))

def turnOf (s : State) : Turn → Option State
  | .relaunch =>
      if 0 < s.waiting then some (runSession (replaceParkedSession { s with waiting := s.waiting - 1 }))
      else none
  | .report i stage =>
      s.clients[i]?.map fun client =>
        { s with clients := s.clients.set i { client with stage := stage } }
  | .watch i =>
      match s.clients[i]? with
      | some client => if Collapses s client then some (collapse client s) else none
      | none => none
  | .resume session outcome =>
      if session ∈ s.sessions then Attempts.resume session s session.point outcome else none
  | .finish => some { s with current := false }

/-- Once the generation has moved on, the attempts of the session are over. -/
def turn (t : Turn) (s : State) : Option State :=
  if s.current then turnOf s t else none

def machine : Machine State Turn where
  init s := ∃ kind, s = fresh kind
  enabled _ _ := True
  step := turn

/-! ## What is claimed of the attempts -/

/-- A session that is neither over nor parked. -/
def Session.Busy (session : Session) : Prop :=
  session.point ≠ .parked

instance (session : Session) : Decidable session.Busy := inferInstanceAs (Decidable (_ ≠ _))

/-- Every failed attempt has scheduled one next attempt, and has cost one of the retries there are
before the session gives up. -/
structure Fair (s : State) : Prop where
  once : ∀ attempt, s.scheduled attempt ≤ 1
  single : s.current → s.waiting + (s.sessions.filter (·.Busy)).length ≤ 1
  counter : s.reconnectAttempt = s.failed
  all : s.gaveUp → s.failed = MAX_RECONNECT_ATTEMPTS + 1

/-- The next failure is the last one. -/
def Spent (s : State) : Prop :=
  s.reconnectAttempt = MAX_RECONNECT_ATTEMPTS

/-- A turn that leaves no failure to be seen twice: unless the next failure is the last, no start
fails with an earlier hop up, and no hop that is up goes down before the session is parked, be it on
its own or because the next hop is the same carrier. -/
def Clean (s : State) : Turn → Prop
  | .report i stage =>
      stage.Down → ∀ client ∈ s.clients[i]?, client.watched → client.attempt = s.attempt →
        Spent s ∨ s.collapsedAttempt = some s.attempt ∨ ⟨s.attempt, .parked⟩ ∈ s.sessions
  | .resume ⟨attempt, .starting hop⟩ .ok =>
      Spent s ∨ s.kind.hops.Nodup ∧
        ∀ client ∈ s.clients, client.attempt = attempt → s.kind.hops[hop]? = some client.carrier →
          ¬ client.stage.Down
  | .resume ⟨_, .starting hop⟩ .failed => Spent s ∨ hop = 0
  | _ => True

instance (s : State) : Decidable (Spent s) := inferInstanceAs (Decidable (_ = _))

instance decidableClean (s : State) : (t : Turn) → Decidable (Clean s t)
  | .report i stage =>
      inferInstanceAs (Decidable (stage.Down → ∀ client ∈ s.clients[i]?, client.watched →
        client.attempt = s.attempt → Spent s ∨ s.collapsedAttempt = some s.attempt ∨
          ⟨s.attempt, .parked⟩ ∈ s.sessions))
  | .resume ⟨attempt, .starting hop⟩ .ok =>
      inferInstanceAs (Decidable (Spent s ∨ s.kind.hops.Nodup ∧
        ∀ client ∈ s.clients, client.attempt = attempt →
          s.kind.hops[hop]? = some client.carrier → ¬ client.stage.Down))
  | .resume ⟨_, .starting hop⟩ .failed => inferInstanceAs (Decidable (Spent s ∨ hop = 0))
  | .resume ⟨_, .starting _⟩ .up | .resume ⟨_, .startingChain⟩ _ | .resume ⟨_, .parked⟩ _
  | .resume ⟨_, .preparing⟩ _ | .resume ⟨_, .running⟩ _ | .resume ⟨_, .reconnecting⟩ _
  | .relaunch | .watch _ | .finish => .isTrue trivial

section Invariants

variable {s s' : State} {t : Turn} {session : Session} {client : Client} {point : Point}

/-! ## The books -/

/-- The books of the attempts, whatever the coroutines are at. -/
structure Books (s : State) : Prop where
  once : ∀ attempt, s.scheduled attempt ≤ 1
  future : ∀ attempt, s.attempt < attempt → s.scheduled attempt = 0
  counter : s.reconnectAttempt = s.failed
  bounded : s.current → s.reconnectAttempt ≤ MAX_RECONNECT_ATTEMPTS
  all : s.gaveUp → s.current = false ∧ s.failed = MAX_RECONNECT_ATTEMPTS + 1
  clients : ∀ client ∈ s.clients, client.attempt ≤ s.attempt

@[simp]
theorem charge_first (hfirst : s.scheduled s.attempt = 0) :
    (charge s.attempt s).failed = s.failed + 1 :=
  if_pos hfirst

theorem charge_once (h : Books s) (hfirst : s.scheduled s.attempt = 0) (a : Nat) :
    (charge s.attempt s).scheduled a ≤ 1 := by
  simp only [charge]
  split_ifs with ha
  · exact Nat.le_of_eq (by rw [ha, hfirst])
  · exact h.once a

theorem charge_future (h : Books s) (a : Nat) (ha : s.attempt < a) :
    (charge s.attempt s).scheduled a = 0 := by
  simp only [charge]
  rw [if_neg (Nat.ne_of_gt ha)]
  exact h.future a ha

/-- **The first failure of an attempt keeps the books.** -/
theorem Books.scheduleReconnect (h : Books s) (hcurrent : s.current)
    (hfirst : s.scheduled s.attempt = 0) : Books (scheduleReconnect s.attempt s) := by
  have hcounter : (charge s.attempt s).reconnectAttempt = (charge s.attempt s).failed := by
    rw [charge_first hfirst]
    exact congrArg (· + 1) h.counter
  have hbounded := h.bounded hcurrent
  rw [Attempts.scheduleReconnect, if_pos hcurrent]
  dsimp only
  -- either this was the last attempt and the search gives up, or one more is left
  split_ifs with hspent
  · have hlast : (charge s.attempt s).failed = MAX_RECONNECT_ATTEMPTS + 1 := by
      rw [← hcounter]
      simp only [charge] at hspent ⊢
      omega
    -- it gave up, so the session is the current one no more
    exact {
      once := charge_once h hfirst
      future := charge_future h
      counter := hcounter
      bounded := nofun
      all := fun _ => ⟨rfl, hlast⟩
      clients := h.clients }
  · exact {
      once := charge_once h hfirst
      future := charge_future h
      counter := hcounter
      bounded := fun _ => Nat.le_of_not_lt hspent
      all := fun hgave => absurd hcurrent (by rw [(h.all hgave).1]; exact Bool.false_ne_true)
      clients := h.clients }

/-- The session goes on only with one attempt more that waits, and not if this was the last. -/
theorem scheduleReconnect_current (hcurrent : s.current)
    (h : (scheduleReconnect s.attempt s).current) :
    ¬ Spent s ∧ scheduleReconnect s.attempt s =
      { charge s.attempt s with waiting := s.waiting + 1 } := by
  rw [scheduleReconnect, if_pos hcurrent] at h ⊢
  dsimp only at h ⊢
  split_ifs at h ⊢ with hspent
  · cases h
  · refine ⟨fun hlast => hspent ?_, rfl⟩
    simp only [charge]
    rw [hlast]
    exact Nat.lt_succ_self _

/-! ## Where the coroutines are -/

/-- A watched hop of this attempt that is down. -/
def WatchedDown (s : State) : Prop :=
  ∃ client ∈ s.clients, client.watched ∧ client.attempt = s.attempt ∧ client.stage.Down

/-- Every hop of this attempt that is watched, is watched in vain. -/
def Settled (s : State) : Prop :=
  ∀ client ∈ s.clients, client.watched → client.attempt = s.attempt →
    s.collapsedAttempt = some s.attempt

/-- The hops of the attempt are the first ones of the path. -/
def Dialled (s : State) (n : Nat) : Prop :=
  ∀ client ∈ s.clients, client.attempt = s.attempt → client.carrier ∈ s.kind.hops.take n

/-- No hop has gone down, unless the next failure is the last. -/
structure Up (s : State) : Prop where
  unclaimed : s.collapsedAttempt ≠ some s.attempt
  down : WatchedDown s → Spent s

/-- What holds while the coroutine of an attempt is suspended at a point. -/
def AtPoint (s : State) : Point → Prop
  | .starting hop =>
      Up s ∧ Dialled s (hop + 1) ∧
        ∀ client ∈ s.clients, client.watched → client.attempt = s.attempt →
          client.carrier ∈ s.kind.hops.take hop
  | .startingChain => Up s
  | .preparing | .running => ∀ client ∈ s.clients, client.attempt ≠ s.attempt
  | .parked => s.sessionCancellable
  | .reconnecting => Settled s ∨ Spent s

/-- There is one coroutine that is busy or waits to be, besides one that may be parked. -/
inductive Phase (s : State) : Prop
  | waiting (hwaiting : s.waiting = 1) (hsessions : s.sessions = []) (hsettled : Settled s)
  | busy (point : Point) (hwaiting : s.waiting = 0) (hsessions : s.sessions = [⟨s.attempt, point⟩])
      (hjob : s.sessionJob = some s.attempt) (hfirst : s.scheduled s.attempt = 0)
      (hpoint : AtPoint s point)
  | leftBehind (hwaiting : s.waiting = 1) (hsessions : s.sessions = [⟨s.attempt, .parked⟩])
      (hsettled : Settled s) (hcancellable : s.sessionCancellable)
      (hjob : s.sessionJob = some s.attempt)

/-- The invariant of clean runs. -/
structure Orderly (s : State) : Prop where
  books : Books s
  phase : s.current → Phase s

theorem moveTo_sessions (hsessions : s.sessions = [session]) (point : Point) :
    (moveTo session point s).sessions = [⟨session.attempt, point⟩] := by
  simp [moveTo, hsessions]

theorem Books.clients_map (h : Books s) {f : Client → Client} (hf : ∀ client, (f client).attempt = client.attempt) :
    Books { s with clients := s.clients.map f } :=
  { h with
    clients := by
      intro client hmem
      obtain ⟨old, hold, rfl⟩ := List.mem_map.1 hmem
      exact (hf old).symm ▸ h.clients old hold }

theorem Books.stopCarrier (h : Books s) : Books (stopCarrier s) :=
  h.clients_map fun _ => rfl

theorem Books.buildCarrier (h : Books s) (carrier : Carrier) : Books (buildCarrier carrier s) where
  once := h.once
  future := h.future
  counter := h.counter
  bounded := h.bounded
  all := h.all
  clients := by
    intro client hmem
    rcases List.mem_append.1 hmem with hmem | hmem
    · obtain ⟨old, hold, rfl⟩ := List.mem_map.1 hmem
      have := h.clients old hold
      split_ifs <;> exact this
    · rw [List.mem_singleton.1 hmem]
      exact Nat.le_refl _

theorem Books.dialHop (h : Books s) (hop : Nat) : Books (dialHop hop s).2 := by
  unfold Attempts.dialHop
  split
  · exact h.buildCarrier _
  · exact h

theorem dialHop_some {hop : Nat} {carrier : Carrier} (h : s.kind.hops[hop]? = some carrier) :
    dialHop hop s = (.starting hop, buildCarrier carrier s) := by
  simp only [dialHop, h]

theorem dialHop_none {hop : Nat} (h : s.kind.hops[hop]? = none) :
    dialHop hop s = (.startingChain, s) := by
  simp only [dialHop, h]

theorem Books.newHopAttempt (h : Books s) :
    Books (newHopAttempt { s with sessionCancellable := false }) :=
  { h with
    future := fun a ha => h.future a (Nat.lt_of_succ_lt ha)
    clients := fun client hmem => Nat.le_succ_of_le (h.clients client hmem) }

theorem Books.runSession (h : Books s) : Books (runSession s) := by
  unfold Attempts.runSession
  dsimp only
  split
  · exact { h.newHopAttempt with }
  · exact { h.newHopAttempt.dialHop 0 with }

theorem mem_buildCarrier {carrier : Carrier} (hmem : client ∈ (buildCarrier carrier s).clients) :
    (∃ old ∈ s.clients, client.attempt = old.attempt ∧ client.carrier = old.carrier ∧
        client.watched = old.watched ∧ (client.carrier ≠ carrier → client.stage = old.stage)) ∨
      client = ⟨s.attempt, carrier, .connecting, false⟩ := by
  rcases List.mem_append.1 hmem with hmem | hmem
  · obtain ⟨old, hold, rfl⟩ := List.mem_map.1 hmem
    refine .inl ⟨old, hold, ?_⟩
    split_ifs with hsame
    · exact ⟨rfl, rfl, rfl, fun hother => absurd hsame hother⟩
    · exact ⟨rfl, rfl, rfl, fun _ => rfl⟩
  · exact .inr (List.mem_singleton.1 hmem)

theorem mem_take_succ {hops : List Carrier} {hop : Nat} {carrier : Carrier}
    (h : hops[hop]? = some carrier) : carrier ∈ hops.take (hop + 1) := by
  rw [List.take_add_one, h]
  exact List.mem_append_right _ (List.mem_singleton.2 rfl)

/-- **The loop over the hops comes to its next point**: of the hops before, none is stopped. -/
theorem atPoint_dialHop {hop : Nat} (hup : Up s) (hdialled : Dialled s hop)
    (hother : Spent s ∨ ∀ carrier, s.kind.hops[hop]? = some carrier → carrier ∉ s.kind.hops.take hop) :
    AtPoint (dialHop hop s).2 (dialHop hop s).1 := by
  -- there is a further hop, or the engine is what comes next
  cases hhop : s.kind.hops[hop]? with
  | none =>
      rw [dialHop_none hhop]
      exact hup
  | some carrier =>
      rw [dialHop_some hhop]
      refine ⟨⟨hup.unclaimed, ?_⟩, ?_, ?_⟩
      · rintro ⟨client, hmem, hwatched, hattempt, hdown⟩
        -- the session has spent its attempt, or no carrier is dialled twice
        rcases hother with hspent | hother
        · exact hspent
        -- a client that is dialled again is watched no more
        · rcases mem_buildCarrier hmem with ⟨old, hold, hsame, hcarrier, hwas, hstage⟩ | rfl
          · have hbefore := hdialled old hold (hsame.symm.trans hattempt)
            have hne : client.carrier ≠ carrier := by
              rintro rfl
              exact hother _ hhop (hcarrier ▸ hbefore)
            -- the other clients are in the stage that they were in
            exact hup.down ⟨old, hold, hwas ▸ hwatched, hsame.symm.trans hattempt, hstage hne ▸ hdown⟩
          · cases hwatched
      · intro client hmem hattempt
        rcases mem_buildCarrier hmem with ⟨old, hold, hsame, hcarrier, -⟩ | rfl
        · rw [hcarrier]
          exact List.take_subset_take_left _ (Nat.le_succ hop)
            (hdialled old hold (hsame.symm.trans hattempt))
        · exact mem_take_succ hhop
      · intro client hmem hwatched hattempt
        rcases mem_buildCarrier hmem with ⟨old, hold, hsame, hcarrier, -⟩ | rfl
        · rw [hcarrier]
          exact hdialled old hold (hsame.symm.trans hattempt)
        · cases hwatched

/-- The loop over the hops touches the clients alone. -/
theorem dialHop_frame (hop : Nat) (s : State) :
    (dialHop hop s).2 = { s with clients := (dialHop hop s).2.clients } := by
  unfold dialHop
  split <;> rfl

theorem AtPoint.withSessions (h : AtPoint s point) (sessions : List Session) :
    AtPoint { s with sessions := sessions } point := by
  cases point with
  | starting hop => exact ⟨{ h.1 with }, h.2⟩
  | startingChain => exact { h with }
  | preparing => exact h
  | running => exact h
  | parked => exact h
  | reconnecting => exact h

theorem Phase.enter {entered : Point × State} {clients : List Client} (hwaiting : s.waiting = 0)
    (hsessions : s.sessions = []) (hjob : s.sessionJob = some s.attempt)
    (hfirst : s.scheduled s.attempt = 0) (hframe : entered.2 = { s with clients := clients })
    (hpoint : AtPoint entered.2 entered.1) :
    Phase { entered.2 with sessions := ⟨s.attempt, entered.1⟩ :: entered.2.sessions } := by
  refine .busy entered.1 ?_ ?_ ?_ ?_ (hpoint.withSessions _)
  · rw [hframe]
    exact hwaiting
  · rw [hframe, hsessions]
  · rw [hframe]
    exact hjob
  · rw [hframe]
    exact hfirst

theorem Phase.runSession (h : Books s) (hwaiting : s.waiting = 0) (hsessions : s.sessions = [])
    (hjob : s.sessionJob = some (s.attempt + 1)) : Phase (runSession s) := by
  have hnone : ∀ client ∈ s.clients, client.attempt ≠ s.attempt + 1 := fun client hmem =>
    Nat.ne_of_lt (Nat.lt_succ_of_le (h.clients client hmem))
  have hup : Up (newHopAttempt { s with sessionCancellable := false }) :=
    ⟨nofun, fun ⟨client, hmem, _, hattempt, _⟩ => absurd hattempt (hnone client hmem)⟩
  have hfirst : s.scheduled (s.attempt + 1) = 0 := h.future _ (Nat.lt_succ_self _)
  unfold Attempts.runSession
  dsimp only
  split
  · exact .enter (s := newHopAttempt { s with sessionCancellable := false }) hwaiting hsessions
      hjob hfirst rfl hnone
  · refine .enter (s := newHopAttempt { s with sessionCancellable := false }) hwaiting hsessions
      hjob hfirst (dialHop_frame _ _) (atPoint_dialHop hup ?_ (.inr ?_))
    · exact fun client hmem hattempt => absurd hattempt (hnone client hmem)
    · exact fun _ _ => List.not_mem_nil

/-! ## The turns -/

theorem Orderly.relaunch (h : Orderly s) (hcurrent : s.current) (hwaiting : 0 < s.waiting) :
    Orderly (Attempts.runSession (replaceParkedSession { s with waiting := s.waiting - 1 })) := by
  have hbooks : Books (replaceParkedSession { s with waiting := s.waiting - 1 }) :=
    { h.books with }
  refine ⟨hbooks.runSession, fun _ => .runSession hbooks ?_ ?_ rfl⟩
  · rcases h.phase hcurrent with ⟨hone, -, -⟩ | ⟨-, hnone, -, -, -, -⟩ | ⟨hone, -, -, -, -⟩
    · simp [replaceParkedSession, hone]
    · omega
    · simp [replaceParkedSession, hone]
  · rcases h.phase hcurrent with ⟨-, hsessions, -⟩ | ⟨-, hnone, -, -, -, -⟩ |
        ⟨-, hsessions, -, hcancellable, hjob⟩
    · simp [replaceParkedSession, hsessions]
    · omega
    · simp [replaceParkedSession, hsessions, hcancellable, hjob]

/-- What a failure is booked on, where it is the first of its attempt. -/
theorem Orderly.schedule (hbooks : Books s) (hcurrent : s.current) (hfirst : s.scheduled s.attempt = 0)
    (hphase : ¬ Spent s → Phase { charge s.attempt s with waiting := s.waiting + 1 }) :
    Orderly (scheduleReconnect s.attempt s) := by
  refine ⟨hbooks.scheduleReconnect hcurrent hfirst, fun h => ?_⟩
  obtain ⟨hmore, heq⟩ := scheduleReconnect_current hcurrent h
  rw [heq]
  exact hphase hmore

theorem Orderly.watch (h : Orderly s) (hcurrent : s.current) (hmem : client ∈ s.clients)
    (hcollapses : Collapses s client) : Orderly (collapse client s) := by
  obtain ⟨hwatched, hattempt, hdown, hunclaimed⟩ := hcollapses
  rw [hattempt] at hunclaimed
  have hsettled : Settled (stopCarrier { s with collapsedAttempt := some s.attempt }) :=
    fun _ _ _ _ => rfl
  have hbooks : Books (stopCarrier { s with collapsedAttempt := some s.attempt }) :=
    Books.stopCarrier { h.books with }
  rw [collapse, hattempt]
  rcases h.phase hcurrent with ⟨-, -, hclaimed⟩ |
      ⟨point, hwaiting, hsessions, hjob, hfirst, hpoint⟩ | ⟨-, -, hclaimed, -, -⟩
  · exact absurd (hclaimed client hmem hwatched hattempt) hunclaimed
  · refine Orderly.schedule hbooks hcurrent hfirst fun hmore => ?_
    have hspent : WatchedDown s → ¬ (WatchedDown s → Spent s) :=
      fun hdown hall => hmore (hall hdown)
    have hdown : WatchedDown s := ⟨client, hmem, hwatched, hattempt, hdown⟩
    -- Only at the end of the attempt may a hop be down with a retry left.
    cases point with
    | parked =>
        exact .leftBehind (by simp [stopCarrier, hwaiting]) hsessions hsettled hpoint hjob
    | reconnecting =>
        rcases hpoint with hclaimed | hlast
        · exact absurd (hclaimed client hmem hwatched hattempt) hunclaimed
        · exact absurd hlast hmore
    | starting hop => exact absurd hpoint.1.down (hspent hdown)
    | startingChain => exact absurd hpoint.down (hspent hdown)
    | preparing => exact absurd hattempt (hpoint client hmem)
    | running => exact absurd hattempt (hpoint client hmem)
  · exact absurd (hclaimed client hmem hwatched hattempt) hunclaimed

theorem Orderly.report {i : Nat} {stage : CarrierStage} (h : Orderly s) (hcurrent : s.current)
    (hclient : s.clients[i]? = some client) (hclean : Clean s (.report i stage)) :
    Orderly { s with clients := s.clients.set i { client with stage := stage } } := by
  have hold := List.mem_of_getElem? hclient
  have hmem : ∀ client' ∈ s.clients.set i { client with stage := stage },
      client' ∈ s.clients ∨ client' = { client with stage := stage } :=
    fun client' hmem => List.mem_or_eq_of_mem_set hmem
  -- Beside the stage of the one client nothing has changed.
  have hsettled : Settled s → Settled { s with
      clients := s.clients.set i { client with stage := stage } } := by
    intro hsettled client' hmem' hwatched hattempt
    rcases hmem client' hmem' with hin | rfl
    · exact hsettled client' hin hwatched hattempt
    · exact hsettled client hold hwatched hattempt
  have hdown : ∀ point, s.sessions = [⟨s.attempt, point⟩] → point ≠ .parked → Up s →
      Up { s with clients := s.clients.set i { client with stage := stage } } := by
    rintro point hsessions hpoint ⟨hunclaimed, hdown⟩
    refine ⟨hunclaimed, fun ⟨client', hmem', hwatched, hattempt, hstage⟩ => ?_⟩
    rcases hmem client' hmem' with hin | rfl
    · exact hdown ⟨client', hin, hwatched, hattempt, hstage⟩
    · rcases hclean hstage client hclient hwatched hattempt with hspent | hclaimed | hparked
      · exact hspent
      · exact absurd hclaimed hunclaimed
      · rw [hsessions, List.mem_singleton] at hparked
        exact absurd (congrArg Session.point hparked).symm hpoint
  have hother : (∀ client' ∈ s.clients, client'.attempt ≠ s.attempt) →
      ∀ client' ∈ s.clients.set i { client with stage := stage }, client'.attempt ≠ s.attempt := by
    intro hnone client' hmem'
    rcases hmem client' hmem' with hin | rfl
    · exact hnone client' hin
    · exact hnone client hold
  refine ⟨{ h.books with clients := ?_ }, fun _ => ?_⟩
  · intro client' hmem'
    rcases hmem client' hmem' with hin | rfl
    · exact h.books.clients client' hin
    · exact h.books.clients client hold
  · rcases h.phase hcurrent with ⟨hwaiting, hsessions, hclaimed⟩ |
        ⟨point, hwaiting, hsessions, hjob, hfirst, hpoint⟩ |
        ⟨hwaiting, hsessions, hclaimed, hcancel, hjob⟩
    · exact .waiting hwaiting hsessions (hsettled hclaimed)
    · refine .busy point hwaiting hsessions hjob hfirst ?_
      cases point with
      | starting hop =>
          refine ⟨hdown _ hsessions nofun hpoint.1, fun client' hmem' hattempt => ?_,
            fun client' hmem' hwatched hattempt => ?_⟩
          · rcases hmem client' hmem' with hin | rfl
            · exact hpoint.2.1 client' hin hattempt
            · exact hpoint.2.1 client hold hattempt
          · rcases hmem client' hmem' with hin | rfl
            · exact hpoint.2.2 client' hin hwatched hattempt
            · exact hpoint.2.2 client hold hwatched hattempt
      | startingChain => exact hdown _ hsessions nofun hpoint
      | preparing => exact hother hpoint
      | running => exact hother hpoint
      | parked => exact hpoint
      | reconnecting => exact hpoint.imp hsettled id
    · exact .leftBehind hwaiting hsessions (hsettled hclaimed) hcancel hjob

theorem Books.moveTo (h : Books s) (session : Session) (point : Point) :
    Books (moveTo session point s) :=
  { h with }

theorem Books.connected (h : Books s) (hgoes : s.current) :
    Books { s with reconnectAttempt := 0, failed := 0 } where
  once := h.once
  future := h.future
  counter := rfl
  bounded _ := Nat.zero_le _
  all hgave := absurd hgoes (by rw [(h.all hgave).1]; exact Bool.false_ne_true)
  clients := h.clients

theorem Books.watchHop (h : Books s) (attempt : Nat) (carrier : Carrier) :
    Books (watchHop attempt carrier s) :=
  h.clients_map fun client => by split_ifs <;> rfl

/-- A session that is resumed comes to its next point. -/
theorem Orderly.move {next : Point} (hbooks : Books s) (hwaiting : s.waiting = 0)
    (hsessions : s.sessions = [⟨s.attempt, point⟩]) (hjob : s.sessionJob = some s.attempt)
    (hfirst : s.scheduled s.attempt = 0) (hnext : AtPoint s next) :
    Orderly (moveTo ⟨s.attempt, point⟩ next s) where
  books := hbooks.moveTo _ _
  phase _ := .busy next hwaiting (moveTo_sessions hsessions next) hjob hfirst (hnext.withSessions _)

theorem mem_watchHop {attempt : Nat} {carrier : Carrier}
    (hmem : client ∈ (watchHop attempt carrier s).clients) :
    ∃ old ∈ s.clients, client.attempt = old.attempt ∧ client.carrier = old.carrier ∧
      client.stage = old.stage ∧
      (client.watched → old.watched ∨ (old.attempt = attempt ∧ old.carrier = carrier)) := by
  obtain ⟨old, hold, rfl⟩ := List.mem_map.1 hmem
  refine ⟨old, hold, ?_⟩
  split_ifs with hsame
  · exact ⟨rfl, rfl, rfl, fun _ => .inr hsame⟩
  · exact ⟨rfl, rfl, rfl, .inl⟩

/-- A hop is watched from when it is up. -/
theorem up_watchHop {hop : Nat} {carrier : Carrier} (hup : Up s)
    (hclean : Clean s (.resume ⟨s.attempt, .starting hop⟩ .ok))
    (hcarrier : s.kind.hops[hop]? = some carrier) : Up (watchHop s.attempt carrier s) := by
  refine ⟨hup.unclaimed, fun ⟨client, hmem, hwatched, hattempt, hdown⟩ => ?_⟩
  rcases hclean with hspent | ⟨-, hstage⟩
  · exact hspent
  · obtain ⟨old, hold, hsame, -, hstill, hwas⟩ := mem_watchHop hmem
    rw [hstill] at hdown
    rcases hwas hwatched with hwas | ⟨hthis, rfl⟩
    · exact hup.down ⟨old, hold, hwas, hsame.symm.trans hattempt, hdown⟩
    · exact absurd hdown (hstage old hold hthis hcarrier)

theorem Orderly.started {hop : Nat} {carrier : Carrier} (h : Orderly s) (hwaiting : s.waiting = 0)
    (hsessions : s.sessions = [⟨s.attempt, .starting hop⟩]) (hjob : s.sessionJob = some s.attempt)
    (hfirst : s.scheduled s.attempt = 0) (hpoint : AtPoint s (.starting hop))
    (hclean : Clean s (.resume ⟨s.attempt, .starting hop⟩ .ok))
    (hcarrier : s.kind.hops[hop]? = some carrier) :
    Orderly (moveTo ⟨s.attempt, .starting hop⟩
      (dialHop (hop + 1) (Attempts.watchHop s.attempt carrier s)).1
      (dialHop (hop + 1) (Attempts.watchHop s.attempt carrier s)).2) := by
  have hbooks := (h.books.watchHop s.attempt carrier).dialHop (hop + 1)
  have hdialled : Dialled (Attempts.watchHop s.attempt carrier s) (hop + 1) := by
    intro client hmem hattempt
    -- a client that was there has its hop watched, and stays what it is
    obtain ⟨old, hold, hsame, hsameCarrier, -⟩ := mem_watchHop hmem
    rw [hsameCarrier]
    exact hpoint.2.1 old hold (hsame.symm.trans hattempt)
  have hother : Spent s ∨ ∀ next, s.kind.hops[hop + 1]? = some next →
      next ∉ s.kind.hops.take (hop + 1) := by
    -- no carrier comes twice among the hops, unless the attempt is spent already
    refine hclean.imp id fun ⟨hnodup, _⟩ next hnext hbefore => ?_
    have hbehind : next ∈ s.kind.hops.drop (hop + 1) :=
      List.mem_of_getElem? (i := 0) (by rw [List.getElem?_drop, Nat.add_zero, hnext])
    exact List.disjoint_take_drop hnodup (Nat.le_refl _) hbefore hbehind
  have hnext := atPoint_dialHop (up_watchHop hpoint.1 hclean hcarrier) hdialled hother
  rw [dialHop_frame] at hnext hbooks ⊢
  exact .move hbooks hwaiting hsessions hjob hfirst hnext

/-- What a session does when it is resumed at a point, where it is the only one. -/
theorem Orderly.resume {outcome : Outcome} (h : Orderly s) (hcurrent : s.current)
    (hmem : session ∈ s.sessions) (hclean : Clean s (.resume session outcome))
    (hresume : Attempts.resume session s session.point outcome = some s') : Orderly s' := by
  -- no session at all, one that waits for an answer, or one that stands still
  rcases h.phase hcurrent with ⟨-, hsessions, -⟩ |
      ⟨point, hwaiting, hsessions, hjob, hfirst, hpoint⟩ | ⟨-, hsessions, -, -, -⟩
  · rw [hsessions] at hmem
    cases hmem
  · rw [hsessions, List.mem_singleton] at hmem
    subst hmem
    -- by the point at which it waits, and by the answer that it gets
    cases point with
    | starting hop =>
        cases outcome with
        | ok =>
            -- the hop is up: the loop comes to its next point
            obtain ⟨carrier, hcarrier, rfl⟩ := Option.map_eq_some_iff.1 hresume
            exact h.started hwaiting hsessions hjob hfirst hpoint hclean hcarrier
        | failed =>
            cases hresume
            refine .move h.books.stopCarrier hwaiting hsessions hjob hfirst ?_
            rcases hclean with hspent | rfl
            · exact .inr hspent
            · -- No hop was up: there is none that is watched.
              refine .inl fun client hmem hwatched hattempt => ?_
              obtain ⟨old, hold, rfl⟩ := List.mem_map.1 hmem
              exact absurd (hpoint.2.2 old hold hwatched hattempt) List.not_mem_nil
        | up => cases hresume
    | startingChain =>
        cases outcome with
        | ok =>
            -- the chain takes over, and the session is connected
            cases hresume
            exact .move { h.books.connected hcurrent with } hwaiting hsessions hjob hfirst rfl
        | failed =>
            cases hresume
            exact .move (Books.stopCarrier { h.books with }) hwaiting hsessions hjob hfirst
              (.inl fun _ _ _ _ => rfl)
        | up => cases hresume
    | parked => cases outcome <;> cases hresume
    | preparing =>
        cases outcome with
        | ok =>
            cases hresume
            exact .move h.books hwaiting hsessions hjob hfirst hpoint
        | failed =>
            cases hresume
            exact .move h.books hwaiting hsessions hjob hfirst
              (.inl fun client hmem _ hattempt => absurd hattempt (hpoint client hmem))
        | up => cases hresume
    -- nothing is dialled any more, so nobody watches a hop
    | running =>
        have hsettled : Settled s :=
          fun client hmem _ hattempt => absurd hattempt (hpoint client hmem)
        cases outcome with
        | up =>
            cases hresume
            exact ⟨h.books.connected hcurrent, fun _ => .busy _ hwaiting hsessions hjob hfirst hpoint⟩
        | ok =>
            cases hresume
            exact .move h.books hwaiting hsessions hjob hfirst (.inl hsettled)
        | failed =>
            cases hresume
            exact .move h.books hwaiting hsessions hjob hfirst (.inl hsettled)
    | reconnecting =>
        cases outcome with
        -- a further attempt is charged, if there is one
        | ok =>
            cases hresume
            refine Orderly.schedule (s := { s with sessions := _ }) { h.books with } hcurrent hfirst
              fun hmore => ?_
            refine .waiting (by simp [hwaiting]) (by simp [charge, hsessions]) ?_
            exact hpoint.resolve_right hmore
        | failed => cases hresume
        | up => cases hresume
  · rw [hsessions, List.mem_singleton] at hmem
    subst hmem
    cases outcome <;> cases hresume

theorem Orderly.turn (h : Orderly s) (hclean : Clean s t) (hturn : machine.step t s = some s') :
    Orderly s' := by
  simp only [machine, Attempts.turn] at hturn
  split_ifs at hturn with hcurrent
  -- by the turn; of what a session does there is a lemma for each point
  cases t with
  | relaunch =>
      simp only [turnOf] at hturn
      split_ifs at hturn with hwaiting
      cases hturn
      exact h.relaunch hcurrent hwaiting
  | report i stage =>
      obtain ⟨client, hclient, rfl⟩ := Option.map_eq_some_iff.1 hturn
      exact h.report hcurrent hclient hclean
  | watch i =>
      simp only [turnOf] at hturn
      split at hturn
      · rename_i client hclient
        split_ifs at hturn with hcollapses
        cases hturn
        exact h.watch hcurrent (List.mem_of_getElem? hclient) hcollapses
      · cases hturn
  | resume session outcome =>
      simp only [turnOf] at hturn
      split_ifs at hturn with hmem
      exact h.resume hcurrent hmem hclean hturn
  | finish =>
      cases hturn
      exact ⟨{ h.books with bounded := nofun, all := fun hgave => ⟨rfl, (h.books.all hgave).2⟩ }, nofun⟩

end Invariants

end Attempts
end Service
end AuroraVpn
