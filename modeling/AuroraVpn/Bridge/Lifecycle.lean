import AuroraVpn.Bridge.Config
import AuroraVpn.Lib.Runs

/-!
# Lifecycle — runs of the engine, and the sender that stops one

`nativeRun` and `nativeStop` of the Android bridge.  Any number of calls are under way, and each lock
of `STOP_SENDER` is one step; the engine ends by itself at any time.

* `Alone`: the conditions under which the calls of a run keep out of each other's way.
* `runs_sound`: under these the engine runs once at a time, and each run ends by its own cause.
-/

namespace AuroraVpn
namespace Bridge
namespace Lifecycle

/-! ## The calls -/

/-- Where a call of `nativeRun` is. -/
inductive Phase
  | idle
  /-- It has its strings, or was refused them. -/
  | reading (raw peer : Except String Text) (fd : Int)
  | applying (config : BridgeConfig) (peer : SocketAddr) (fd : Int)
  | preparing (config : BridgeConfig) (peer : SocketAddr) (fd : Int)
  /-- About to look at `STOP_SENDER`. -/
  | guarding (config : BridgeConfig) (fd : Int)
  /-- Its sender is installed. -/
  | starting (config : BridgeConfig) (fd : Int)
  /-- Its engine runs, and has been ready or not. -/
  | running (ready : Bool)
  /-- Its engine has ended. -/
  | closing (outcome : Except String Unit)
  /-- In the handler that every error comes to. -/
  | failing (error : String)
  | returned (result : Except String Unit)
  deriving DecidableEq

/-- Before the sender is installed. -/
def Phase.early : Phase → Bool
  | .idle | .reading .. | .applying .. | .preparing .. | .guarding .. => true
  | _ => false

/-- From the sender's installation to the end of the engine. -/
def Phase.alive : Phase → Bool
  | .starting .. | .running _ => true
  | _ => false

def Phase.runs : Phase → Bool
  | .running _ => true
  | _ => false

def Phase.failed : Phase → Bool
  | .failing _ | .returned (.error _) => true
  | _ => false

/-- What became of the sender of a run. -/
inductive Told
  | held
  /-- `nativeStop` took it, and sent. -/
  | sent
  /-- A call of `nativeRun` took it, and let it go. -/
  | dropped (call : Nat)
  deriving DecidableEq, Repr

/-- What a run ended of. -/
inductive Cause
  | engine
  | callback
  | stopped
  | dropped (call : Nat)
  deriving DecidableEq, Repr

/-- The process.  What `appliers` and `ended` record is read by no call. -/
structure State where
  env : Environment
  /-- The call whose sender is in `STOP_SENDER`. -/
  slot : Option Nat := none
  phase : Nat → Phase := fun _ => .idle
  told : Nat → Told := fun _ => .held
  /-- The calls that applied their environment, the last one first. -/
  appliers : List Nat := []
  ended : List (Nat × Cause) := []

namespace State

def goto (s : State) (i : Nat) (p : Phase) : State :=
  { s with phase := Function.update s.phase i p }

/-- `STOP_SENDER.lock().take()`, where the sender is let go. -/
def take (s : State) (i : Nat) : State :=
  { s with
    slot := none
    told := s.slot.elim s.told fun j => Function.update s.told j (.dropped i) }

def finish (s : State) (i : Nat) (outcome : Except String Unit) (cause : Cause) : State :=
  { s.goto i (.closing outcome) with ended := (i, cause) :: s.ended }

/-- The calls that applied their environment since a call did. -/
def appliedSince (s : State) (i : Nat) : List Nat :=
  s.appliers.takeWhile (· ≠ i)

end State

/-! ## The steps -/

/-- What a call does next, and what it meets there. -/
inductive Act
  | enter (raw peer : Except String Text) (fd : Int)
  | read
  | apply
  /-- The virtual machine, the listener and the runtime, one of which may fail. -/
  | prepare (failure : Option String)
  | guard
  /-- The packet pump, where there is one, which may fail to start. -/
  | start (failure : Option String)
  /-- The engine is ready, and the callback is called. -/
  | ready (failure : Option String)
  | finish (outcome : Except String Unit)
  | stopped
  | close
  | fail
  deriving DecidableEq

inductive Label
  | call (i : Nat) (act : Act)
  /-- `nativeStop`. -/
  | stop

/-- What `nativeRun` reads of its arguments. -/
def readRun (serde : Serde) (raw peer : Except String Text) : Except String (BridgeConfig × SocketAddr) := do
  let raw ← raw
  let peer ← peer
  let some address := parseSocketAddr peer | throw "prepared peer is invalid"
  let config ← BridgeConfig.parse serde raw
  pure (config, address)

section Steps

variable (serde : Serde)

/-- A step of `nativeRun`, where the call has come to it. -/
def stepRun (s : State) (i : Nat) (act : Act) : Option State :=
  match act, s.phase i with
  | .enter raw peer fd, .idle => some (s.goto i (.reading raw peer fd))
  | .read, .reading raw peer fd =>
      match readRun serde raw peer with
      | .ok (config, address) => some (s.goto i (.applying config address fd))
      | .error e => some (s.goto i (.failing e))
  | .apply, .applying config peer fd =>
      some { s.goto i (.preparing config peer fd) with
        env := config.applyEnvironment
        appliers := i :: s.appliers }
  | .prepare failure, .preparing config peer fd =>
      match config.embedded (some peer), failure with
      | .error e, _ => some (s.goto i (.failing e))
      | .ok _, some e => some (s.goto i (.failing e))
      | .ok _, none => some (s.goto i (.guarding config fd))
  | .guard, .guarding config fd =>
      if s.slot.isSome then
        some (s.goto i (.failing "engine is already running"))
      else
        some { s.goto i (.starting config fd) with slot := some i }
  | .start failure, .starting config fd =>
      if config.mode = "tun".toList then
        if fd < 0 then
          some ((s.goto i (.failing "TUN mode requires a valid file descriptor")).take i)
        else
          match failure with
          | some e => some (s.goto i (.failing ("failed to start TUN pump: " ++ e)))
          | none => some (s.goto i (.running false))
      else
        some (s.goto i (.running false))
  | .ready failure, .running false =>
      match failure with
      | some e => some (s.finish i (.error e) .callback)
      | none => some (s.goto i (.running true))
  | .finish outcome, .running _ => some (s.finish i outcome .engine)
  | .stopped, .running _ =>
      match s.told i with
      | .held => none
      | .sent => some (s.finish i (.ok ()) .stopped)
      -- a receiver whose sender is gone is done as well
      | .dropped call => some (s.finish i (.ok ()) (.dropped call))
  | .close, .closing outcome =>
      match outcome with
      | .ok _ => some ((s.goto i (.returned (.ok ()))).take i)
      | .error e => some ((s.goto i (.failing e)).take i)
  | .fail, .failing e => some ((s.goto i (.returned (.error e))).take i)
  | _, _ => none

/-- `nativeStop`. -/
def stepStop (s : State) : State :=
  { s with
    slot := none
    told := s.slot.elim s.told fun j => Function.update s.told j .sent }

def step : Label → State → Option State
  | .call i act, s => stepRun serde s i act
  | .stop, s => some (stepStop s)

/-- Any interleaving of any calls. -/
def lifecycle : Runs.Machine State Label where
  init s := ∃ env, s = { env := env }
  enabled l s := (step serde l s).isSome
  step := step serde

end Steps

/-! ## What is wanted -/

/-- One engine runs at a time, none ended because of another call, the sender of a run is where
`nativeStop` finds it, and no call that failed has changed the environment of a run. -/
structure Sound (s : State) : Prop where
  one : ∀ i j, (s.phase i).runs → (s.phase j).runs → i = j
  ended : ∀ i cause, (i, cause) ∈ s.ended → ∀ k, cause ≠ .dropped k
  found : ∀ i, (s.phase i).alive → s.told i ≠ .sent → s.slot = some i
  environment : ∀ i k, (s.phase i).alive → (s.phase k).failed → k ∉ s.appliedSince i

/-- A run that has not been told to stop. -/
def Waits (s : State) (j : Nat) : Prop :=
  (s.phase j).alive ∧ s.told j = .held

/-- **Calls that keep out of each other's way.**  None applies its environment or installs its sender
while another's engine is started or runs, the last environment to be applied is that of the one that
installs, and none empties the slot, at its end or in the handler, while another run waits. -/
def Alone (s : State) : Label → Prop
  | .call i .apply => ∀ j, j ≠ i → ¬(s.phase j).alive
  | .call i .guard => s.slot = none → (∀ j, j ≠ i → ¬(s.phase j).alive) ∧ s.appliers.head? = some i
  | .call i .close => ∀ j, j ≠ i → ¬Waits s j
  | .call i .fail => ∀ j, j ≠ i → ¬Waits s j
  | _ => True

/-! ## The invariant -/

structure Inv (s : State) : Prop where
  one : ∀ i j, (s.phase i).alive → (s.phase j).alive → i = j
  slot : ∀ i, s.slot = some i → (s.phase i).early = false ∧ s.told i = .held
  early : ∀ i, (s.phase i).early → s.told i = .held
  told : ∀ i, (s.phase i).alive → s.slot = some i ∨ s.told i = .sent
  applied : ∀ i, (s.phase i).alive → s.appliers.head? = some i
  ended : ∀ i cause, (i, cause) ∈ s.ended → ∀ k, cause ≠ .dropped k

section Proofs

variable {serde : Serde} {s s' : State} {i : Nat} {p : Phase}

theorem goto_phase (s : State) (i : Nat) (p : Phase) (j : Nat) :
    (s.goto i p).phase j = if j = i then p else s.phase j :=
  Function.update_apply ..

theorem take_told (s : State) (i j : Nat) :
    (s.take i).told j = if s.slot = some j then .dropped i else s.told j := by
  unfold State.take
  cases hslot : s.slot with
  | none => rfl
  | some k => simp only [Option.elim_some, Function.update_apply, Option.some.injEq, eq_comm]

theorem stepStop_told (s : State) (j : Nat) :
    (stepStop s).told j = if s.slot = some j then .sent else s.told j := by
  unfold stepStop
  cases hslot : s.slot with
  | none => rfl
  | some k => simp only [Option.elim_some, Function.update_apply, Option.some.injEq, eq_comm]

theorem runs_alive (h : p.runs = true) : p.alive = true := by
  cases p with
  | running ready => rfl
  | _ => cases h

theorem alive_early (h : p.alive = true) : p.early = false := by
  cases p with
  | starting config fd => rfl
  | running ready => rfl
  | _ => cases h

/-- A sound state is one where nobody has come between. -/
theorem Inv.sound (h : Inv s) : Sound s where
  one i j hi hj := h.one i j (runs_alive hi) (runs_alive hj)
  ended := h.ended
  found i hi hsent := (h.told i hi).resolve_right hsent
  environment i k hi _ hk := by
    have hhead := h.applied i hi
    unfold State.appliedSince at hk
    cases happliers : s.appliers with
    | nil => rw [happliers] at hk; cases hk
    | cons a rest =>
        rw [happliers] at hhead hk
        cases hhead
        rw [List.takeWhile_cons_of_neg (by simp)] at hk
        cases hk

theorem Inv.slot_ne (h : Inv s) (hearly : (s.phase i).early) : s.slot ≠ some i := by
  intro hslot
  rw [(h.slot i hslot).1] at hearly
  cases hearly

/-- A call goes on, and neither comes alive nor goes back. -/
theorem Inv.goto (h : Inv s) (halive : p.alive → (s.phase i).alive)
    (hearly : p.early → (s.phase i).early) : Inv (s.goto i p) := by
  -- the call was alive before if it is alive behind the step, and as early
  have hback : ∀ j, ((s.goto i p).phase j).alive → (s.phase j).alive := by
    intro j
    rw [goto_phase]
    split_ifs with hj
    · exact hj ▸ halive
    · exact id
  have hfront : ∀ j, ((s.goto i p).phase j).early → (s.phase j).early := by
    intro j
    rw [goto_phase]
    split_ifs with hj
    · exact hj ▸ hearly
    · exact id
  exact
    { one := fun j k hj hk => h.one j k (hback j hj) (hback k hk)
      slot := fun j hj => ⟨Bool.eq_false_iff.2 (mt (hfront j) (Bool.eq_false_iff.1 (h.slot j hj).1)),
        (h.slot j hj).2⟩
      early := fun j hj => h.early j (hfront j hj)
      told := fun j hj => h.told j (hback j hj)
      applied := fun j hj => h.applied j (hback j hj)
      ended := h.ended }

/-- A call empties the slot while no run waits. -/
theorem Inv.take (h : Inv s) (hwaits : ∀ j, ¬Waits s j) : Inv (s.take i) where
  one := h.one
  slot _ hj := nomatch hj
  early j hj := by
    rw [take_told, if_neg (h.slot_ne hj)]
    exact h.early j hj
  told j hj := by
    have hslot : s.slot ≠ some j := fun hj' => hwaits j ⟨hj, (h.slot j hj').2⟩
    rw [take_told, if_neg hslot]
    exact .inr ((h.told j hj).resolve_left hslot)
  applied := h.applied
  ended := h.ended

theorem Inv.stop (h : Inv s) : Inv (stepStop s) where
  one := h.one
  slot _ hj := nomatch hj
  early j hj := by
    rw [stepStop_told, if_neg (h.slot_ne hj)]
    exact h.early j hj
  told j hj := by
    rw [stepStop_told]
    split_ifs with hslot
    · exact .inr rfl
    · exact .inr ((h.told j hj).resolve_left hslot)
  applied := h.applied
  ended := h.ended

theorem Inv.finish {outcome : Except String Unit} {cause : Cause} (h : Inv s)
    (hcause : ∀ k, cause ≠ .dropped k) : Inv (s.finish i outcome cause) :=
  have hgoto : Inv (s.goto i (.closing outcome)) := h.goto nofun nofun
  { hgoto with
    ended := fun j c hmem => by
      rcases List.mem_cons.1 hmem with hnew | hold
      · cases hnew
        exact hcause
      · exact h.ended j c hold }

/-- The environment is applied while no run is alive. -/
theorem Inv.apply {env : Environment} (h : Inv s) (halone : ∀ j, j ≠ i → ¬(s.phase j).alive)
    (hphase : p.alive = false) (hearly : p.early → (s.phase i).early) :
    Inv { s.goto i p with env := env, appliers := i :: s.appliers } := by
  have hgoto : Inv (s.goto i p) := h.goto (by rw [hphase]; nofun) hearly
  refine { hgoto with applied := fun j hj => ?_ }
  have hj' : ((s.goto i p).phase j).alive := hj
  rw [goto_phase] at hj'
  split_ifs at hj' with heq
  · rw [hphase] at hj'
    cases hj'
  · exact absurd hj' (halone j heq)

theorem Inv.install (h : Inv s) (halone : ∀ j, j ≠ i → ¬(s.phase j).alive)
    (hlast : s.appliers.head? = some i) (hearly : (s.phase i).early) (hphase : p.early = false) :
    Inv { s.goto i p with slot := some i } := by
  -- of all runs only the one that fills the slot is alive
  have honly : ∀ j, ((s.goto i p).phase j).alive → j = i := by
    intro j hj
    rw [goto_phase] at hj
    split_ifs at hj with heq
    · exact heq
    · exact absurd hj (halone j heq)
  -- and nobody comes before its guard by this step
  have hfront : ∀ j, ((s.goto i p).phase j).early → (s.phase j).early := by
    intro j hj
    rw [goto_phase] at hj
    split_ifs at hj with heq
    · rw [hphase] at hj
      cases hj
    · exact hj
  exact
    { one := fun j k hj hk => (honly j hj).trans (honly k hk).symm
      slot := fun j hj => by
        cases hj
        refine ⟨?_, h.early i hearly⟩
        change ((s.goto i p).phase i).early = false
        rw [goto_phase, if_pos rfl]
        exact hphase
      early := fun j hj => h.early j (hfront j hj)
      told := fun j hj => .inl (by rw [honly j hj])
      applied := fun j hj => by
        rw [honly j hj]
        exact hlast
      ended := h.ended }

/-- While a run is alive no other one is, so none waits. -/
theorem Inv.alone (h : Inv s) (halive : (s.phase i).alive) (hphase : p.alive = false) (j : Nat) :
    ¬Waits (s.goto i p) j := by
  rintro ⟨hj, -⟩
  rw [goto_phase] at hj
  split_ifs at hj with heq
  · rw [hphase] at hj
    cases hj
  · exact heq (h.one j i hj halive)

/-- A call that is not alive empties the slot, where no other run waits. -/
theorem waits_goto (hphase : p.alive = false) (halone : ∀ j, j ≠ i → ¬Waits s j) (j : Nat) :
    ¬Waits (s.goto i p) j := by
  rintro ⟨hj, htold⟩
  rw [goto_phase] at hj
  split_ifs at hj with heq
  · rw [hphase] at hj
    cases hj
  · exact halone j heq ⟨hj, htold⟩

/-- What a step does: the call goes on, lets go of what is in the slot, ends its engine, applies its
environment or installs its sender. -/
inductive Moves (s : State) (i : Nat) : Act → State → Prop
  | goes {act : Act} {p : Phase} (halive : p.alive → (s.phase i).alive)
      (hearly : p.early → (s.phase i).early) (hguard : act = .guard → s.slot.isSome) :
      Moves s i act (s.goto i p)
  | takes {act : Act} {p : Phase} (halive : p.alive = false) (hearly : p.early = false)
      (hact : act = .close ∨ act = .fail ∨ (s.phase i).alive) : Moves s i act ((s.goto i p).take i)
  | ends {act : Act} {outcome : Except String Unit} {cause : Cause} (halive : (s.phase i).alive)
      (hcause : ∀ k, cause = .dropped k → s.told i = .dropped k) : Moves s i act (s.finish i outcome cause)
  | applies {p : Phase} {env : Environment} (halive : p.alive = false)
      (hearly : (s.phase i).early) :
      Moves s i .apply { s.goto i p with env := env, appliers := i :: s.appliers }
  | installs {p : Phase} (hslot : s.slot = none) (hearly : (s.phase i).early) (halive : p.alive) :
      Moves s i .guard { s.goto i p with slot := some i }

theorem stepRun_moves {act : Act} (hstep : stepRun serde s i act = some s') : Moves s i act s' := by
  -- by the action, and under each by the phase that it asks for
  cases act with
  | enter raw peer fd =>
      cases hphase : s.phase i with
      | idle =>
          simp only [stepRun, hphase, Option.some.injEq] at hstep
          subst hstep
          exact .goes nofun (by rw [hphase]; exact id) nofun
      | _ => simp [stepRun, hphase] at hstep
  | read =>
      cases hphase : s.phase i with
      | reading raw peer fd =>
          simp only [stepRun, hphase] at hstep
          cases hread : readRun serde raw peer with
          | ok found =>
              rw [hread] at hstep
              cases hstep
              exact .goes nofun (fun _ => by rw [hphase]; rfl) nofun
          | error e =>
              rw [hread] at hstep
              cases hstep
              exact .goes nofun nofun nofun
      | _ => simp [stepRun, hphase] at hstep
  | apply =>
      cases hphase : s.phase i with
      | applying config peer fd =>
          simp only [stepRun, hphase, Option.some.injEq] at hstep
          subst hstep
          exact .applies rfl (by rw [hphase]; rfl)
      | _ => simp [stepRun, hphase] at hstep
  | prepare failure =>
      cases hphase : s.phase i with
      | preparing config peer fd =>
          simp only [stepRun, hphase] at hstep
          split at hstep <;> cases hstep
          · exact .goes nofun nofun nofun
          · exact .goes nofun nofun nofun
          · exact .goes nofun (fun _ => by rw [hphase]; rfl) nofun
      | _ => simp [stepRun, hphase] at hstep
  | guard =>
      cases hphase : s.phase i with
      | guarding config fd =>
          simp only [stepRun, hphase] at hstep
          split_ifs at hstep with hslot
          · cases hstep
            -- a slot that is taken refuses the run
            exact .goes nofun nofun fun _ => hslot
          · cases hstep
            -- an empty one is filled, and the run is alive from here on
            exact .installs (Option.not_isSome_iff_eq_none.1 hslot) (by rw [hphase]; rfl) rfl
      | _ => simp [stepRun, hphase] at hstep
  | start failure =>
      cases hphase : s.phase i with
      | starting config fd =>
          simp only [stepRun, hphase] at hstep
          have halive : (s.phase i).alive = true := by rw [hphase]; rfl
          split_ifs at hstep with htun hfd
          · cases hstep
            -- no descriptor: the failure empties the slot
            exact .takes rfl rfl (.inr (.inr halive))
          · cases failure with
            | none =>
                cases hstep
                exact .goes (fun _ => halive) nofun nofun
            | some e =>
                cases hstep
                exact .goes nofun nofun nofun
          · cases hstep
            exact .goes (fun _ => halive) nofun nofun
      | _ => simp [stepRun, hphase] at hstep
  | ready failure =>
      cases hphase : s.phase i with
      | running ready =>
          have halive : (s.phase i).alive = true := by rw [hphase]; rfl
          cases ready with
          | true => simp [stepRun, hphase] at hstep
          | false =>
              simp only [stepRun, hphase] at hstep
              cases failure with
              | none =>
                  cases hstep
                  exact .goes (fun _ => halive) nofun nofun
              | some e =>
                  cases hstep
                  exact .ends halive nofun
      | _ => simp [stepRun, hphase] at hstep
  | finish outcome =>
      cases hphase : s.phase i with
      | running ready =>
          simp only [stepRun, hphase, Option.some.injEq] at hstep
          subst hstep
          exact .ends (by rw [hphase]; rfl) nofun
      | _ => simp [stepRun, hphase] at hstep
  | stopped =>
      cases hphase : s.phase i with
      | running ready =>
          simp only [stepRun, hphase] at hstep
          have halive : (s.phase i).alive = true := by rw [hphase]; rfl
          cases htold : s.told i with
          | held =>
              rw [htold] at hstep
              cases hstep
          | sent =>
              rw [htold] at hstep
              cases hstep
              exact .ends halive nofun
          | dropped call =>
              rw [htold] at hstep
              -- the sender was dropped: by whom is on record
              cases hstep
              exact .ends halive fun k hk => htold.trans (congrArg Told.dropped (Cause.dropped.inj hk))
      | _ => simp [stepRun, hphase] at hstep
  | close =>
      cases hphase : s.phase i with
      | closing outcome =>
          simp only [stepRun, hphase] at hstep
          cases outcome with
          | ok _ =>
              cases hstep
              exact .takes rfl rfl (.inl rfl)
          | error e =>
              cases hstep
              exact .takes rfl rfl (.inl rfl)
      | _ => simp [stepRun, hphase] at hstep
  | fail =>
      cases hphase : s.phase i with
      | failing e =>
          simp only [stepRun, hphase, Option.some.injEq] at hstep
          subst hstep
          exact .takes rfl rfl (.inr (.inl rfl))
      | _ => simp [stepRun, hphase] at hstep

/-- A step of a call leaves the others where they are. -/
theorem Moves.others {act : Act} (hmoves : Moves s i act s') {j : Nat} (hj : j ≠ i) : s'.phase j = s.phase j := by
  cases hmoves with
  | goes | takes | ends | applies | installs => exact (goto_phase s i _ j).trans (if_neg hj)

/-- **Every step** of a call that keeps out of the way of the others keeps the invariant. -/
theorem Moves.inv {act : Act} (hmoves : Moves s i act s') (h : Inv s) (halone : Alone s (.call i act)) :
    Inv s' := by
  cases hmoves with
  | goes halive hearly _ => exact h.goto halive hearly
  | @takes act p hp hearly hact =>
      have hgoto : Inv (s.goto i p) := h.goto (by rw [hp]; nofun) (by rw [hearly]; nofun)
      refine hgoto.take ?_
      rcases hact with rfl | rfl | halive
      · exact waits_goto hp halone
      · exact waits_goto hp halone
      · exact h.alone halive hp
  | ends halive hcause =>
      refine h.finish fun k hk => ?_
      -- the sender of a run that is alive is in the slot, or was taken to be sent
      have hdropped := hcause k hk
      rcases h.told i halive with hslot | hsent
      · cases hdropped.symm.trans (h.slot i hslot).2
      · cases hdropped.symm.trans hsent
  | applies hp hearly => exact h.apply halone hp fun _ => hearly
  | @installs p hslot hearly halive =>
      obtain ⟨hothers, hlast⟩ := halone hslot
      exact h.install hothers hlast hearly (alive_early halive)

/-- **Runs that keep out of each other's way.**  Whatever calls are under way and however they
interleave: while the conditions are met one engine runs at a time, each run ends of its own engine, its
own callback or the `nativeStop` that took its sender, and `nativeStop` finds the sender of every run
that was not stopped before. -/
theorem runs_sound (h : Runs.Reach (lifecycle serde) Alone s) : Sound s := by
  refine Inv.sound ?_
  induction h with
  | init h =>
      obtain ⟨env, rfl⟩ := h
      exact
        { one := nofun
          slot := nofun
          early := fun _ _ => rfl
          told := nofun
          applied := nofun
          ended := nofun }
  | @step s s' l hs hl hok hstep ih =>
      cases l with
      | call i act => exact (stepRun_moves hstep).inv ih hok
      | stop =>
          cases hstep
          exact ih.stop

end Proofs

/-! ## Runs that come between -/

section Collide

def plainConfig : BridgeConfig where
  mode := "proxy".toList
  configPath := "/data/aether.toml".toList

def plainText : Text :=
  "\x7b\"mode\":\"proxy\",\"configPath\":\"/data/aether.toml\"\x7d".toList

/-- The decoding of one configuration. -/
def plainSerde : Serde := fun raw =>
  if raw = plainText then .ok plainConfig else .error "expected value at line 1 column 1"

def peerText : Text :=
  "162.159.198.1:443".toList

/-- A call up to the guard. -/
def arrives (i : Nat) : List Label :=
  [.call i (.enter (.ok plainText) (.ok peerText) (-1)), .call i .read, .call i .apply,
    .call i (.prepare none)]

/-- A call up to its engine. -/
def begins (i : Nat) : List Label :=
  arrives i ++ [.call i .guard, .call i (.start none)]

/-- A call whose peer is no address. -/
def mistyped (i : Nat) : List Label :=
  [.call i (.enter (.ok plainText) (.ok []) (-1)), .call i .read, .call i .fail]

def plainPeer : SocketAddr :=
  .new (.v4 (IpAddr.quad 162 159 198 1)) 443

theorem readRun_plain :
    readRun plainSerde (.ok plainText) (.ok peerText) = .ok (plainConfig, plainPeer) := by
  decide

/-- Three calls and no more. -/
def Small (s : State) : Prop :=
  ∀ j, 3 ≤ j → s.phase j = .idle

instance (s : State) (j : Nat) : Decidable (Waits s j) :=
  inferInstanceAs (Decidable (_ ∧ _))

/-- The conditions, for the steps of three calls. -/
def checkAlone (s : State) : Label → Bool
  | .stop => true
  | .call i act =>
      i < 3 && match act with
        | .apply => decide (∀ j ∈ List.range 3, j ≠ i → ¬(s.phase j).alive)
        | .guard => s.slot.isSome ||
            (decide (∀ j ∈ List.range 3, j ≠ i → ¬(s.phase j).alive) && decide (s.appliers.head? = some i))
        | .close | .fail => decide (∀ j ∈ List.range 3, j ≠ i → ¬Waits s j)
        | _ => true

theorem alone_of_check (s : State) (l : Label) (hsmall : Small s) (h : checkAlone s l = true) : Alone s l := by
  -- calls that were never made are not under way
  have hlate {i : Nat} (hall : ∀ j ∈ List.range 3, j ≠ i → ¬(s.phase j).alive) : ∀ j, j ≠ i → ¬(s.phase j).alive := by
    intro j hj
    by_cases hlt : j < 3
    · exact hall j (List.mem_range.2 hlt) hj
    · rw [hsmall j (not_lt.1 hlt)]
      exact Bool.false_ne_true
  have hlateWaits {i : Nat} (hall : ∀ j ∈ List.range 3, j ≠ i → ¬Waits s j) : ∀ j, j ≠ i → ¬Waits s j := by
    intro j hj hwaits
    by_cases hlt : j < 3
    · exact hall j (List.mem_range.2 hlt) hj hwaits
    · obtain ⟨halive, -⟩ := hwaits
      rw [hsmall j (not_lt.1 hlt)] at halive
      exact Bool.false_ne_true halive
  cases l with
  | stop => trivial
  | call i act =>
      obtain ⟨-, hact⟩ := Bool.and_eq_true_iff.1 h
      cases act with
      | apply => exact hlate (of_decide_eq_true hact)
      | guard =>
          intro hslot
          rw [hslot] at hact
          obtain ⟨hall, hlast⟩ := Bool.and_eq_true_iff.1 hact
          exact ⟨hlate (of_decide_eq_true hall), of_decide_eq_true hlast⟩
      | close => exact hlateWaits (of_decide_eq_true hact)
      | fail => exact hlateWaits (of_decide_eq_true hact)
      | _ => trivial

theorem Small.step {s s' : State} {l : Label} (h : Small s) (hcheck : checkAlone s l = true)
    (hstep : (lifecycle plainSerde).step l s = some s') : Small s' := by
  intro j hj
  cases l with
  | stop =>
      cases hstep
      exact h j hj
  | call i act =>
      have hi : i < 3 := of_decide_eq_true (Bool.and_eq_true_iff.1 hcheck).1
      exact ((stepRun_moves hstep).others (by omega)).trans (h j hj)

/-- A run that is stopped, a call that is refused for its peer, and a run behind them that is told to stop. -/
theorem runs_sound_again : ∃ s : State, (s.ended = [(0, .stopped)] ∧ (s.phase 1).failed = true ∧
    (s.phase 2).runs = true ∧ s.told 2 = .sent) ∧ Sound s := by
  have hrun : ∃ s, Runs.Reach (lifecycle plainSerde) Alone s ∧ decide (s.ended = [(0, .stopped)] ∧
      (s.phase 1).failed = true ∧ (s.phase 2).runs = true ∧ s.told 2 = .sent) = true :=
    Runs.exists_reach_of_keeps
      (begins 0 ++ [.call 0 (.ready none), .stop, .call 0 .stopped, .call 0 .close] ++
        mistyped 1 ++ begins 2 ++ [.stop])
      _ ⟨fun _ => none, rfl⟩ (fun _ _ hsome => hsome) (fun _ _ _ => Small.step) alone_of_check
      (fun _ _ => rfl) (by decide)
  obtain ⟨s, hreach, hpoints⟩ := hrun
  exact ⟨s, of_decide_eq_true hpoints, runs_sound hreach⟩

/-- A run of such steps from a process that has done nothing. -/
theorem exists_run (steps : List Label) (p : State → Bool)
    (h : ((lifecycle plainSerde).follow (fun _ _ => true) steps { env := fun _ => none }).any p = true) :
    ∃ s, Runs.Reachable (lifecycle plainSerde) s ∧ p s = true :=
  Runs.exists_reachable steps p ⟨_, rfl⟩ (fun _ _ hsome => hsome) h

/-- A call that fails stops the run of another one; two engines run when a run is begun before the one
that was stopped has ended; a call that is refused has changed the environment of the run; and the end
of a stopped run takes the sender of the next one. -/
theorem runs_collide :
    (∃ s, Runs.Reachable (lifecycle plainSerde) s ∧ (0, .dropped 1) ∈ s.ended) ∧
      (∃ s, Runs.Reachable (lifecycle plainSerde) s ∧ (s.phase 0).runs ∧ (s.phase 1).runs) ∧
      (∃ s, Runs.Reachable (lifecycle plainSerde) s ∧ (s.phase 0).alive ∧ (s.phase 1).failed ∧
        1 ∈ s.appliedSince 0) ∧
      (∃ s, Runs.Reachable (lifecycle plainSerde) s ∧ (s.phase 1).alive ∧ s.told 1 ≠ .sent ∧
        s.slot = none) := by
  refine ⟨?_, ?_, ?_, ?_⟩
  · have hrun := exists_run (begins 0 ++ mistyped 1 ++ [.call 0 .stopped])
      (fun s => (0, .dropped 1) ∈ s.ended) (by decide)
    simpa only [decide_eq_true_eq] using hrun
  · have hrun := exists_run (begins 0 ++ [.stop] ++ begins 1)
      (fun s => (s.phase 0).runs ∧ (s.phase 1).runs) (by decide)
    simpa only [decide_eq_true_eq] using hrun
  · have hrun := exists_run (begins 0 ++ arrives 1 ++ [.call 1 .guard])
      (fun s => (s.phase 0).alive ∧ (s.phase 1).failed ∧ 1 ∈ s.appliedSince 0) (by decide)
    simpa only [decide_eq_true_eq] using hrun
  · have hrun := exists_run (begins 0 ++ [.stop] ++ begins 1 ++ [.call 0 .stopped, .call 0 .close])
      (fun s => (s.phase 1).alive ∧ s.told 1 ≠ .sent ∧ s.slot = none) (by decide)
    simpa only [decide_eq_true_eq] using hrun

end Collide

end Lifecycle
end Bridge
end AuroraVpn
