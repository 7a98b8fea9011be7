import AuroraVpn.Lib.Runs
import AuroraVpn.Upstream.Detour

/-!
# Attach — the table of detours

`attach_detour_via`, `forget_detour`, `relay_target` and `real_source` of `upstream.rs`, over any number
of sockets, with the calls, the pumps and the guards in any order.  What stands between two locks of the
table is a step of its own: a call takes its number before it writes the table, a pump has returned, or
been cancelled, before its detour is forgotten, and so does a guard abort the pump first.

* `Inv.step`: the table holds the last detour of a socket until someone forgets it.
* `relayTarget_exact`: what the table answers, in every state.
* `late_or_foreign`: where it answers with a shim that is closed, or that is for another peer.
-/

namespace AuroraVpn
namespace Upstream
namespace Attach

open Runs

/-! ## State -/

structure Detour where
  id : BitVec 64
  shim : SocketAddr
  peer : SocketAddr
  deriving DecidableEq

/-- A detour with the socket it is for; `serial` detours were numbered before it. -/
structure Attached where
  serial : Nat
  client : SocketAddr
  detour : Detour
  deriving DecidableEq

/-- `DetourGuard`: its drop aborts the pump, and forgets the detour then. -/
inductive Guard
  | held
  | aborting
  | dropped
  deriving DecidableEq

/-- The task of a pump. -/
inductive Task
  | runs
  /-- `pump` has returned, and its shim is closed. -/
  | returned
  /-- The task has called `forget_detour`. -/
  | ended
  /-- The runtime has dropped the task, which its guard aborted. -/
  | cancelled
  deriving DecidableEq

structure State where
  /-- `detours`. -/
  detours : SocketAddr → Option Detour
  /-- `NEXT`. -/
  next : BitVec 64
  /-- How many detours have a number. -/
  numbered : Nat
  /-- The detours that have a number and are not in the table yet. -/
  pending : Nat → Option Attached
  /-- The detours that were written to the table, the last one first. -/
  attached : List Attached
  guard : Nat → Guard
  task : Nat → Task

def State.new : State where
  detours _ := none
  next := 1
  numbered := 0
  pending _ := none
  attached := []
  guard _ := .held
  task _ := .runs

/-- `relay_target`. -/
def State.relayTarget (s : State) (local_ intended : SocketAddr) : SocketAddr :=
  ((s.detours local_).map Detour.shim).getD intended

/-- `real_source`. -/
def State.realSource (s : State) (local_ observed : SocketAddr) : SocketAddr :=
  match s.detours local_ with
  | some detour => if detour.shim = observed then detour.peer else observed
  | none => observed

/-- `forget_detour`. -/
def State.forgetDetour (s : State) (client : SocketAddr) (id : BitVec 64) : State :=
  { s with
    detours :=
      if (s.detours client).any fun detour => detour.id == id then
        Function.update s.detours client none
      else s.detours }

/-- `attach_detour_via` up to the number; there is no shim if the relay or the shim could not be had. -/
def State.attachDetourVia (s : State) (client peer : SocketAddr) (shim : Option SocketAddr) : State :=
  if Routing.isPrivate peer.ip then s
  else
    match shim with
    | some shim =>
        { s with
          next := s.next + 1
          numbered := s.numbered + 1
          pending := Function.update s.pending s.numbered
            (some ⟨s.numbered, client, ⟨s.next, shim, peer⟩⟩) }
    | none => s

/-- The detour with a number, if it was written to the table. -/
def State.find (s : State) (k : Nat) : Option Attached :=
  s.attached.find? fun a => a.serial == k

/-! ## Steps -/

inductive Label
  | attach (client peer : SocketAddr) (shim : Option SocketAddr)
  /-- A detour is written to the table. -/
  | insert (k : Nat)
  /-- A pump returns. -/
  | returns (k : Nat)
  /-- The task of a pump that has returned forgets the detour. -/
  | forgets (k : Nat)
  /-- The drop of a guard begins. -/
  | aborts (k : Nat)
  /-- A task that is aborted goes. -/
  | cancels (k : Nat)
  /-- The drop of a guard forgets the detour. -/
  | drops (k : Nat)
  deriving DecidableEq

def step (l : Label) (s : State) : Option State :=
  match l with
  | .attach client peer shim => some (s.attachDetourVia client peer shim)
  | .insert k =>
      (s.pending k).map fun a =>
        -- `relays().lock().insert`: a detour on the same address is overwritten
        { s with
          detours := Function.update s.detours a.client (some a.detour)
          pending := Function.update s.pending k none
          attached := a :: s.attached }
  | .returns k =>
      (s.find k).bind fun _ =>
        -- the pump has returned, and forgets its detour in the step behind
        if s.task k = .runs then some { s with task := Function.update s.task k .returned } else none
  | .forgets k =>
      (s.find k).bind fun a =>
        if s.task k = .returned then
          some { s.forgetDetour a.client a.detour.id with task := Function.update s.task k .ended }
        else none
  -- the guard aborts the pump first, and forgets in the step behind
  | .aborts k =>
      (s.find k).bind fun _ =>
        if s.guard k = .held then some { s with guard := Function.update s.guard k .aborting } else none
  | .cancels k =>
      (s.find k).bind fun _ =>
        if s.guard k ≠ .held ∧ s.task k = .runs then
          -- the runtime cancels the aborted pump at some point, or never
          some { s with task := Function.update s.task k .cancelled }
        else none
  | .drops k =>
      (s.find k).bind fun a =>
        if s.guard k = .aborting then
          some { s.forgetDetour a.client a.detour.id with guard := Function.update s.guard k .dropped }
        else none

def machine : Machine State Label where
  init s := s = .new
  enabled _ _ := True
  step := step

/-! ## What the table holds -/

/-- The last detour that was set up for a socket. -/
def State.latest (s : State) (client : SocketAddr) : Option Attached :=
  s.attached.find? fun a => a.client == client

/-- `forget_detour` was called for the detour, by its guard or by its task. -/
def State.forgotten (s : State) (k : Nat) : Bool :=
  s.guard k = .dropped || s.task k = .ended

/-- The last detour of a socket, if it is not forgotten. -/
def State.kept (s : State) (client : SocketAddr) : Option Attached :=
  (s.latest client).filter fun a => !s.forgotten a.serial

/-- Fewer detours have a number than there are ids. -/
def State.Few (s : State) : Prop :=
  s.numbered ≤ 2 ^ 64

structure Inv (s : State) : Prop where
  next : s.next = BitVec.ofNat 64 (s.numbered + 1)
  /-- A number that was not given has no guard and no task. -/
  fresh : ∀ k, s.numbered ≤ k → s.forgotten k = false
  pending : ∀ k a, s.pending k = some a → a.serial = k ∧ k < s.numbered ∧
    a.detour.id = BitVec.ofNat 64 (k + 1) ∧ s.forgotten k = false
  waits : ∀ k a, s.pending k = some a → ∀ b ∈ s.attached, b.serial ≠ k
  attached : ∀ a ∈ s.attached, a.serial < s.numbered ∧ a.detour.id = BitVec.ofNat 64 (a.serial + 1)
  unique : ∀ a ∈ s.attached, ∀ b ∈ s.attached, a.serial = b.serial → a = b
  table : s.Few → ∀ client, s.detours client = (s.kept client).map Attached.detour

section Steps

variable {s s' : State} {client : SocketAddr} {a b : Attached} {k : Nat}

theorem find_mem (h : s.find k = some a) : a ∈ s.attached ∧ a.serial = k :=
  ⟨List.mem_of_find?_eq_some h, by simpa using List.find?_some h⟩

theorem latest_mem (h : s.latest client = some a) : a ∈ s.attached ∧ a.client = client :=
  ⟨List.mem_of_find?_eq_some h, by simpa using List.find?_some h⟩

/-- While there are few, an id is that of one detour. -/
theorem Inv.id_inj (h : Inv s) (hfew : s.Few) (ha : a ∈ s.attached) (hb : b ∈ s.attached)
    (hid : a.detour.id = b.detour.id) : a = b := by
  obtain ⟨hlta, hida⟩ := h.attached a ha
  obtain ⟨hltb, hidb⟩ := h.attached b hb
  unfold State.Few at hfew
  refine h.unique a ha b hb ?_
  have hnum : (BitVec.ofNat 64 (a.serial + 1)).toNat = (BitVec.ofNat 64 (b.serial + 1)).toNat := by
    rw [← hida, ← hidb, hid]
  rw [BitVec.toNat_ofNat, BitVec.toNat_ofNat] at hnum
  -- the last of the ids may be zero
  omega

/-- Steps that make no detour and write none leave all but the table and what is forgotten alone. -/
theorem Inv.carry (h : Inv s) (hnext : s'.next = s.next) (hnumbered : s'.numbered = s.numbered)
    (hpending : s'.pending = s.pending) (hattached : s'.attached = s.attached)
    (hforgotten : ∀ j, (∀ b ∈ s.attached, b.serial ≠ j) → s'.forgotten j = s.forgotten j)
    (htable : s.Few → ∀ c, s'.detours c = (s'.kept c).map Attached.detour) : Inv s' where
  next := by
    rw [hnext, hnumbered]
    -- what is forgotten is only read of detours that have been written, so the rest carries over
    exact h.next
  fresh j hj := by
    rw [hnumbered] at hj
    rw [hforgotten j fun b hb heq => absurd (h.attached b hb).1 (by omega)]
    exact h.fresh j hj
  pending j b hb := by
    rw [hpending] at hb
    rw [hnumbered, hforgotten j (h.waits j b hb)]
    exact h.pending j b hb
  waits j b hb := by
    rw [hpending] at hb
    rw [hattached]
    exact h.waits j b hb
  attached := by
    rw [hattached, hnumbered]
    exact h.attached
  unique := by
    rw [hattached]
    exact h.unique
  table hfew := by
    unfold State.Few at hfew
    rw [hnumbered] at hfew
    exact htable hfew

/-- A step that forgets nothing and leaves the table alone. -/
theorem Inv.quiet (h : Inv s) {g : Nat → Guard} {t : Nat → Task}
    (hforgotten : ∀ j, State.forgotten { s with guard := g, task := t } j = s.forgotten j) :
    Inv { s with guard := g, task := t } := by
  refine h.carry rfl rfl rfl rfl (fun j _ => hforgotten j) fun hfew c => ?_
  have hkept : State.kept { s with guard := g, task := t } c = s.kept c := by
    unfold State.kept
    simp only [hforgotten]
    rfl
  rw [hkept]
  exact h.table hfew c

/-- **Forgetting a detour takes it out of the table**, and takes no other. -/
theorem Inv.forget (h : Inv s) (hfind : s.find k = some a) {g : Nat → Guard} {t : Nat → Task}
    (hforgotten : ∀ j, State.forgotten { s with guard := g, task := t } j = (s.forgotten j || j == k)) :
    Inv { s.forgetDetour a.client a.detour.id with guard := g, task := t } := by
  obtain ⟨ha, rfl⟩ := find_mem hfind
  refine h.carry rfl rfl rfl rfl (fun j hj => ?_) fun hfew c => ?_
  · have hne : j ≠ a.serial := fun heq => hj a ha heq.symm
    exact (hforgotten j).trans (by simp [hne])
  · have hkept : State.kept { s.forgetDetour a.client a.detour.id with guard := g, task := t } c =
        (s.latest c).filter fun b => !(s.forgotten b.serial || b.serial == a.serial) := by
      unfold State.kept
      exact congrArg (fun p => (s.latest c).filter p) (funext fun b => congrArg (!·) (hforgotten b.serial))
    rw [hkept]
    -- what stood in the table for the socket
    have htable := h.table hfew
    have hold := htable c
    unfold State.kept at hold
    show (if (s.detours a.client).any fun detour => detour.id == a.detour.id then
        Function.update s.detours a.client none else s.detours) c = _
    cases hlatest : s.latest c with
    | none =>
        rw [hlatest] at hold
        split_ifs
        · rw [Function.update_apply, hold]
          split_ifs <;> rfl
        · exact hold
    | some b =>
        obtain ⟨hb, hclient⟩ := latest_mem hlatest
        rw [hlatest] at hold
        cases hgone : s.forgotten b.serial with
        | true =>
            rw [Option.filter_some, hgone] at hold
            have hnone : s.detours c = none := hold
            have hfilter : (some b).filter (fun b => !(s.forgotten b.serial || b.serial == a.serial)) = none := by
              simp [hgone]
            rw [hfilter]
            split_ifs
            · rw [Function.update_apply, hnone]
              split_ifs <;> rfl
            · exact hnone
        | false =>
            rw [Option.filter_some, hgone] at hold
            have hsome : s.detours c = some b.detour := hold
            by_cases hsame : b.serial = a.serial
            · -- the detour that goes is the last one of the socket
              obtain rfl := h.unique b hb a ha hsame
              rw [hclient, hsome]
              simp
            · -- an older one, whose id is another
              have hid : ¬ b.detour.id = a.detour.id := fun hid =>
                hsame (congrArg Attached.serial (h.id_inj hfew hb ha hid))
              by_cases hat : c = a.client
              · rw [← hat, hsome]
                simp [hid, hgone, hsame, hsome]
              · have hrest : (if (s.detours a.client).any fun detour => detour.id == a.detour.id then
                    Function.update s.detours a.client none else s.detours) c = s.detours c := by
                  split_ifs
                  · exact Function.update_of_ne hat _ _
                  · rfl
                rw [hrest, hsome]
                simp [hgone, hsame]

theorem Inv.number (h : Inv s) (shim peer : SocketAddr) :
    Inv { s with
      next := s.next + 1
      numbered := s.numbered + 1
      pending := Function.update s.pending s.numbered
        (some ⟨s.numbered, client, ⟨s.next, shim, peer⟩⟩) } where
  next := by
    -- numbers are taken modulo 2 ^ 64
    show s.next + 1 = BitVec.ofNat 64 (s.numbered + 1 + 1)
    rw [h.next, BitVec.ofNat_add (s.numbered + 1) 1]
    rfl
  fresh j hj := h.fresh j (Nat.le_of_succ_le hj)
  pending j b hb := by
    dsimp only at hb
    by_cases hj : j = s.numbered
    · subst hj
      rw [Function.update_self] at hb
      cases hb
      exact ⟨rfl, Nat.lt_succ_self _, h.next, h.fresh _ le_rfl⟩
    -- the calls that are under way keep the numbers they took
    · rw [Function.update_of_ne hj] at hb
      obtain ⟨hserial, hlt, hid, hgone⟩ := h.pending j b hb
      exact ⟨hserial, Nat.lt_succ_of_lt hlt, hid, hgone⟩
  waits j b hb c hc := by
    dsimp only at hb
    by_cases hj : j = s.numbered
    · subst hj
      exact Nat.ne_of_lt (h.attached c hc).1
    · rw [Function.update_of_ne hj] at hb
      exact h.waits j b hb c hc
  attached b hb := ⟨Nat.lt_succ_of_lt (h.attached b hb).1, (h.attached b hb).2⟩
  unique := h.unique
  table hfew := h.table (Nat.le_of_succ_le hfew)

theorem Inv.attachDetourVia (h : Inv s) (client peer : SocketAddr) (shim : Option SocketAddr) :
    Inv (s.attachDetourVia client peer shim) := by
  unfold State.attachDetourVia
  split_ifs
  · exact h
  · cases shim with
    | none => exact h
    | some shim => exact h.number shim peer

theorem Inv.insert (h : Inv s) (hpending : s.pending k = some a) :
    Inv { s with
      detours := Function.update s.detours a.client (some a.detour)
      pending := Function.update s.pending k none
      attached := a :: s.attached } where
  next := h.next
  fresh := h.fresh
  pending j b hb := by
    dsimp only at hb
    -- this call has written, so it does not wait any more
    by_cases hj : j = k
    · subst hj
      rw [Function.update_self] at hb
      cases hb
    · rw [Function.update_of_ne hj] at hb
      exact h.pending j b hb
  waits j b hb := by
    dsimp only at hb
    have hj : j ≠ k := by
      rintro rfl
      rw [Function.update_self] at hb
      cases hb
    rw [Function.update_of_ne hj] at hb
    rintro c (_ | ⟨_, hc⟩)
    · rw [(h.pending k a hpending).1]
      exact hj.symm
    · exact h.waits j b hb c hc
  attached := by
    obtain ⟨rfl, hlt, hid, -⟩ := h.pending k a hpending
    rintro c (_ | ⟨_, hc⟩)
    · exact ⟨hlt, hid⟩
    · exact h.attached c hc
  unique := by
    have hnew := h.waits k a hpending
    have hserial := (h.pending k a hpending).1
    -- two detours in the table with one number: the new one has a number of its own
    rintro b (_ | ⟨_, hb⟩) c (_ | ⟨_, hc⟩) hsame
    · rfl
    · exact absurd (hsame.symm.trans hserial) (hnew c hc)
    · exact absurd (hsame.trans hserial) (hnew b hb)
    · exact h.unique b hb c hc hsame
  table hfew c := by
    have hkeeps := (h.pending k a hpending).2.2.2
    rw [← (h.pending k a hpending).1] at hkeeps
    show Function.update s.detours a.client (some a.detour) c =
      (((a :: s.attached).find? fun b => b.client == c).filter
        fun b => !s.forgotten b.serial).map Attached.detour
    -- the newest detour of a client is the first one found
    by_cases hc : c = a.client
    · subst hc
      simp [hkeeps]
    · rw [Function.update_of_ne hc, List.find?_cons_of_neg (by simpa using fun h => hc h.symm)]
      exact h.table hfew c

theorem Inv.step (h : Inv s) {l : Label} (hstep : step l s = some s') : Inv s' := by
  cases l with
  | attach client peer shim =>
      cases hstep
      exact h.attachDetourVia client peer shim
  | insert k =>
      obtain ⟨a, hpending, rfl⟩ := Option.map_eq_some_iff.1 hstep
      exact h.insert hpending
  -- the two halves of an ending change who has to forget, not what is forgotten
  | returns k =>
      obtain ⟨a, -, hstep⟩ := Option.bind_eq_some_iff.1 hstep
      split_ifs at hstep with hruns
      cases hstep
      refine h.quiet fun j => ?_
      by_cases hj : j = k
      · subst hj
        simp [State.forgotten, hruns]
      · simp [State.forgotten, hj]
  -- the steps that forget: the entry goes if it still is this detour's
  | forgets k =>
      obtain ⟨a, hfind, hstep⟩ := Option.bind_eq_some_iff.1 hstep
      split_ifs at hstep
      cases hstep
      refine h.forget hfind (g := s.guard) fun j => ?_
      by_cases hj : j = k
      · subst hj
        simp [State.forgotten]
      · simp [State.forgotten, hj]
  | aborts k =>
      obtain ⟨a, -, hstep⟩ := Option.bind_eq_some_iff.1 hstep
      split_ifs at hstep with hheld
      cases hstep
      refine h.quiet fun j => ?_
      by_cases hj : j = k
      · subst hj
        simp [State.forgotten, hheld]
      · simp [State.forgotten, hj]
  | cancels k =>
      obtain ⟨a, -, hstep⟩ := Option.bind_eq_some_iff.1 hstep
      split_ifs at hstep with hruns
      cases hstep
      refine h.quiet fun j => ?_
      by_cases hj : j = k
      · subst hj
        simp [State.forgotten, hruns.2]
      · simp [State.forgotten, hj]
  | drops k =>
      obtain ⟨a, hfind, hstep⟩ := Option.bind_eq_some_iff.1 hstep
      split_ifs at hstep
      cases hstep
      refine h.forget hfind (t := s.task) fun j => ?_
      by_cases hj : j = k
      · subst hj
        simp [State.forgotten]
      · simp [State.forgotten, hj]

theorem inv_new : Inv .new where
  next := rfl
  fresh _ _ := rfl
  pending _ _ h := nomatch h
  waits _ _ h := nomatch h
  attached _ h := nomatch h
  unique _ h := nomatch h
  table _ _ := rfl

theorem inv_of_reachable (h : Reachable machine s) : Inv s := by
  refine Invariant.reachable (P := Inv) ⟨?_, fun s l s' hinv _ hstep => hinv.step hstep⟩ h
  rintro _ rfl
  exact inv_new

end Steps

/-! ## What is answered -/

/-- The guard of a detour is alive, and its pump has not ended. -/
def State.Alive (s : State) (k : Nat) : Prop :=
  s.guard k = .held ∧ s.task k = .runs

/-- The table answers for a socket with the last detour that was set up for it until someone has
forgotten that, and with nothing from then on. -/
structure Answers (s : State) (client : SocketAddr) : Prop where
  kept : ∀ a, s.latest client = some a → s.forgotten a.serial = false → ∀ x,
    s.relayTarget client x = a.detour.shim ∧
      s.realSource client (s.relayTarget client x) = a.detour.peer
  gone : (∀ a, s.latest client = some a → s.forgotten a.serial = true) → ∀ x,
    s.relayTarget client x = x ∧ s.realSource client (s.relayTarget client x) = x

theorem answers_of_inv {s : State} (h : Inv s) (hfew : s.Few) (client : SocketAddr) : Answers s client where
  kept a ha hkept x := by
    have htable := h.table hfew client
    unfold State.kept at htable
    rw [ha, Option.filter_some, hkept] at htable
    have hdetour : s.detours client = some a.detour := htable
    simp [State.relayTarget, State.realSource, hdetour]
  gone hgone x := by
    have htable := h.table hfew client
    have hnone : s.kept client = none := by
      unfold State.kept
      cases hlatest : s.latest client with
      | none => rfl
      | some a => rw [Option.filter_some, hgone a hlatest]; rfl
    rw [hnone] at htable
    simp [State.relayTarget, State.realSource, htable]

/-- The detour that a step takes further to its end. -/
def Label.ends : Label → Option Nat
  | .attach _ _ _ | .insert _ => none
  | .returns k | .forgets k | .aborts k | .cancels k | .drops k => some k

section Ends

variable {s s' : State} {l : Label} {k : Nat}

theorem forgotten_congr (hguard : s'.guard k = s.guard k) (htask : s'.task k = s.task k) :
    s'.forgotten k = s.forgotten k := by
  unfold State.forgotten
  rw [hguard, htask]

/-- The end of a detour forgets no other. -/
theorem forgotten_of_ends (hends : l.ends = some k) (hstep : step l s = some s') :
    s'.attached = s.attached ∧ s'.numbered = s.numbered ∧
      ∀ j, j ≠ k → s'.forgotten j = s.forgotten j := by
  cases l with
  | attach client peer shim => cases hends
  | insert j => cases hends
  | returns j | forgets j | cancels j =>
      cases hends
      obtain ⟨a, -, hstep⟩ := Option.bind_eq_some_iff.1 hstep
      split_ifs at hstep
      cases hstep
      exact ⟨rfl, rfl, fun i hi => forgotten_congr rfl (Function.update_of_ne hi ..)⟩
  | aborts j | drops j =>
      cases hends
      obtain ⟨a, -, hstep⟩ := Option.bind_eq_some_iff.1 hstep
      split_ifs at hstep
      cases hstep
      exact ⟨rfl, rfl, fun i hi => forgotten_congr (Function.update_of_ne hi ..) rfl⟩

/-- **An older detour takes no newer one with it.** -/
theorem relayTarget_of_older (h : Inv s) (hfew : s.Few) (hends : l.ends = some k)
    (hstep : step l s = some s') {client : SocketAddr} {a : Attached} (ha : s.latest client = some a)
    (hnewer : a.serial ≠ k) (x : SocketAddr) : s'.relayTarget client x = s.relayTarget client x := by
  obtain ⟨hattached, hnumbered, hforgotten⟩ := forgotten_of_ends hends hstep
  have hfew' : s'.Few := by
    unfold State.Few
    rw [hnumbered]
    exact hfew
  -- the newest detour of the client is the same before and behind
  have ha' : s'.latest client = some a := by
    unfold State.latest
    rw [hattached]
    exact ha
  have hsame := hforgotten a.serial hnewer
  have hbefore := answers_of_inv h hfew client
  have hafter := answers_of_inv (h.step hstep) hfew' client
  -- its proxy is up and answers as before, or it was gone already
  cases hgone : s.forgotten a.serial with
  | false => rw [(hbefore.kept a ha hgone x).1, (hafter.kept a ha' (hsame.trans hgone) x).1]
  | true =>
      rw [(hbefore.gone (fun b hb => ?_) x).1, (hafter.gone (fun b hb => ?_) x).1]
      · rw [ha'] at hb
        cases hb
        exact hsame.trans hgone
      · rw [ha] at hb
        cases hb
        exact hgone

end Ends

theorem forgotten_of_alive {s : State} {k : Nat} (h : s.Alive k) : s.forgotten k = false := by
  unfold State.forgotten
  rw [h.1, h.2]
  rfl

/-- **What `relay_target` and `real_source` answer**, in every state of every run that makes no more
detours than there are ids. -/
theorem relayTarget_exact {s : State} (h : Reachable machine s) (hfew : s.Few) (client : SocketAddr) :
    Answers s client ∧ (∀ k, s.Alive k → s.forgotten k = false) ∧
      ∀ l k s', l.ends = some k → step l s = some s' → ∀ a, s.latest client = some a → a.serial ≠ k →
        ∀ x, s'.relayTarget client x = s.relayTarget client x := by
  have hinv := inv_of_reachable h
  exact ⟨answers_of_inv hinv hfew client, fun _ => forgotten_of_alive,
    fun l k s' hends hstep a ha hnewer x => relayTarget_of_older hinv hfew hends hstep ha hnewer x⟩

def client : SocketAddr := v4 0 0 0 0 40000
def peer : SocketAddr := v4 162 159 198 1 443
def shim : SocketAddr := v4 127 0 0 1 50000
def secondPeer : SocketAddr := v4 162 159 198 2 443
def secondShim : SocketAddr := v4 127 0 0 1 50001

/-- A second detour for the address is set up while the guard of the first one is being dropped, for another
peer: the table answers with it, also behind the end of that drop. -/
theorem relayTarget_exact_twice : ∃ s s', Reachable machine s ∧ s.Few ∧ step (.drops 0) s = some s' ∧
    s.relayTarget client secondPeer = secondShim ∧
      s.realSource client (s.relayTarget client secondPeer) = secondPeer ∧
        s'.relayTarget client secondPeer = s.relayTarget client secondPeer := by
  obtain ⟨s, hs, hrun⟩ := exists_reachable (m := machine) (s := .new)
    [.attach client peer (some shim), .insert 0, .attach client secondPeer (some secondShim), .aborts 0, .insert 1]
    (fun s => s.numbered = 2 ∧ s.latest client = some ⟨1, client, ⟨2, secondShim, secondPeer⟩⟩ ∧
      s.guard 1 = .held ∧ s.task 1 = .runs ∧ (step (.drops 0) s).isSome)
    rfl (fun _ _ _ => trivial) (by decide)
  obtain ⟨hnumbered, hlatest, hguard, htask, hdrops⟩ := of_decide_eq_true hrun
  have hfew : s.Few := by
    unfold State.Few
    rw [hnumbered]
    decide
  obtain ⟨s', hs'⟩ := Option.isSome_iff_exists.1 hdrops
  obtain ⟨hanswers, hforgotten, holder⟩ := relayTarget_exact hs hfew client
  obtain ⟨htarget, hsource⟩ := hanswers.kept _ hlatest (hforgotten 1 ⟨hguard, htask⟩) secondPeer
  exact ⟨s, s', hs, hfew, hs', htarget, hsource, holder _ 0 s' rfl hs' _ hlatest (by decide) secondPeer⟩

/-! ## Late answers, and ids that come again -/

/-- A detour that is set up. -/
theorem attached_once : ∃ s, Reachable machine s ∧ s.numbered = 1 ∧
    s.attached = [⟨0, client, ⟨1, shim, peer⟩⟩] ∧ (∀ k, s.guard k = .held) ∧ ∀ k, s.task k = .runs :=
  ⟨_, .step (l := .insert 0) (.step (l := .attach client peer (some shim)) (.init rfl) trivial trivial rfl)
    trivial trivial rfl, rfl, rfl, fun _ => rfl, fun _ => rfl⟩

/-- Any number of detours take their ids. -/
theorem numbered_add {s : State} (h : Reachable machine s) (n : Nat) : ∃ s', Reachable machine s' ∧
    s'.numbered = s.numbered + n ∧ s'.attached = s.attached ∧ s'.guard = s.guard ∧ s'.task = s.task := by
  induction n with
  | zero => exact ⟨s, h, rfl, rfl, rfl, rfl⟩
  | succ n ih =>
      obtain ⟨t, ht, hnumbered, hattached, hguard, htask⟩ := ih
      exact ⟨_, .step (l := .attach client peer (some shim)) ht trivial trivial rfl,
        congrArg (· + 1) hnumbered, hattached, hguard, htask⟩

section Wrap

variable {s : State} {k : Nat} {a : Attached}

/-- A detour that has a number can be written. -/
theorem reach_insert (hs : Reachable machine s) (h : s.pending k = some a) : Reachable machine { s with
    detours := Function.update s.detours a.client (some a.detour)
    pending := Function.update s.pending k none
    attached := a :: s.attached } := by
  refine .step (l := .insert k) hs trivial trivial ?_
  show (s.pending k).map _ = _
  rw [h]
  rfl

/-- A guard that is alive can be dropped. -/
theorem reach_drop (hs : Reachable machine s) (hfind : s.find k = some a) (hheld : s.guard k = .held) :
    Reachable machine { s.forgetDetour a.client a.detour.id with
      guard := Function.update (Function.update s.guard k .aborting) k .dropped } := by
  have habort : step (.aborts k) s = some { s with guard := Function.update s.guard k .aborting } := by
    show (s.find k).bind _ = _
    rw [hfind]
    exact if_pos hheld
  refine .step (l := .drops k) (.step (l := .aborts k) hs trivial trivial habort) trivial trivial ?_
  show (s.find k).bind _ = _
  rw [hfind]
  exact if_pos (Function.update_self ..)

end Wrap

/-- When every id was given, the first one comes again, and the guard of the first detour takes the
new one out of the table. -/
theorem newer_lost : ∃ s a, Reachable machine s ∧ s.latest client = some a ∧ s.Alive a.serial ∧
    s.relayTarget client peer ≠ a.detour.shim := by
  obtain ⟨s₀, h₀, hnumbered₀, hattached₀, hguard₀, htask₀⟩ := attached_once
  obtain ⟨s, hs, hnumbered, hattached, hguard, htask⟩ := numbered_add h₀ (2 ^ 64 - 1)
  rw [hnumbered₀] at hnumbered
  have hnext : s.next = 1 := by
    rw [(inv_of_reachable hs).next, hnumbered]
    decide
  have hserial : s.numbered ≠ 0 := by
    rw [hnumbered]
    decide
  -- the new detour is written, and the guard of the first one is dropped
  have hnew := Reach.step (l := .attach client peer (some shim)) hs trivial trivial rfl
  have hpending : (s.attachDetourVia client peer (some shim)).pending s.numbered =
      some ⟨s.numbered, client, ⟨s.next, shim, peer⟩⟩ := Function.update_self ..
  have hwritten := reach_insert hnew hpending
  have hdropped := reach_drop (k := 0) (a := ⟨0, client, ⟨1, shim, peer⟩⟩) hwritten ?_ ?_
  · refine ⟨_, ⟨s.numbered, client, ⟨s.next, shim, peer⟩⟩, hdropped, rfl, ⟨?_, ?_⟩, ?_⟩
    · show Function.update (Function.update s.guard 0 .aborting) 0 .dropped s.numbered = .held
      rw [Function.update_of_ne hserial, Function.update_of_ne hserial, hguard]
      exact hguard₀ _
    · show s.task s.numbered = .runs
      rw [htask]
      exact htask₀ _
    · -- the id of the new detour is the one that the guard of the first holds
      have hnone : ∀ t : State, t.detours client = some ⟨1, shim, peer⟩ →
          (t.forgetDetour client 1).relayTarget client peer = peer := by
        intro t ht
        simp [State.relayTarget, State.forgetDetour, ht]
      have hid : Function.update s.detours client (some ⟨s.next, shim, peer⟩) client =
          some ⟨1, shim, peer⟩ := by rw [Function.update_self, hnext]
      exact fun hsame => absurd ((hnone _ hid).symm.trans hsame) (by decide : peer ≠ shim)
  · show List.find? _ (_ :: s.attached) = _
    rw [List.find?_cons_of_neg (by simpa using hserial), hattached, hattached₀]
    rfl
  · show s.guard 0 = .held
    rw [hguard]
    exact hguard₀ 0

/-- **Answers that are late or for another**: behind a pump that has returned, the table names its shim
until the task forgets it; where a call for a private peer sets up no detour, it names that of an
earlier one; and behind 2^64 detours an older one takes a newer one with it. -/
theorem late_or_foreign :
    (∃ s, Reachable machine s ∧
      ((s.latest client).any fun a =>
        s.task a.serial = .returned && s.relayTarget client peer = a.detour.shim) = true) ∧
    (∃ s, Reachable machine s ∧ ∃ s', step (.attach client (v4 192 168 0 1 443) none) s = some s' ∧
      s'.realSource client (s'.relayTarget client (v4 192 168 0 1 443)) ≠ v4 192 168 0 1 443) ∧
    ∃ s a, Reachable machine s ∧ s.latest client = some a ∧ s.Alive a.serial ∧
      s.relayTarget client peer ≠ a.detour.shim := by
  refine ⟨?_, ?_, newer_lost⟩
  · exact exists_reachable (m := machine) (s := .new) [.attach client peer (some shim), .insert 0, .returns 0] _ rfl
      (fun _ _ _ => trivial) (by decide)
  · obtain ⟨s, hs, hask⟩ := exists_reachable (m := machine) (s := .new)
      [.attach client peer (some shim), .insert 0]
      (fun s => s.realSource client (s.relayTarget client (v4 192 168 0 1 443)) ≠ v4 192 168 0 1 443) rfl
      (fun _ _ _ => trivial) (by decide)
    exact ⟨s, hs, s, rfl, of_decide_eq_true hask⟩

end Attach
end Upstream
end AuroraVpn
