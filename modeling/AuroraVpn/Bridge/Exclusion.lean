import AuroraVpn.Bridge.Lifecycle

/-!
# Exclusion — preparing, provisioning, scanning and running keep out of each other's way

`nativePrepare`, `nativeProvision`, `nativeScan`, `nativeTestEndpoint`, `nativeCancelPrepare` and
`nativeCancelScan` of the Android bridge, beside `nativeRun`.  Each load, store and swap of a flag and
each lock of `STOP_SENDER` is one step.

* `Orderly`: the steps that must not come between those of another call: a claim between a guard's looks
  and its own claim, and the reset or the end of an operation between the halves of a cancel.
* `operations_kept`: under these the guards do what they are for: no two operations are past them, no call
  that is refused changes a flag, and the operations that end as cancelled are those that a cancel saw.
-/

namespace AuroraVpn
namespace Bridge
namespace Exclusion

open Lifecycle (Act)

/-! ## The calls -/

/-- `PREPARE_RUNNING` with `PREPARE_CANCELLED`, and `SCAN_RUNNING` with `SCAN_CANCELLED`. -/
inductive Flag
  | prepare
  | scan
  deriving DecidableEq, Repr

/-- What an entry point looks at, claims, and says when it is refused. -/
structure Entry where
  engineText : String
  asks : Flag
  asksText : String
  claims : Option Flag
  claimsText : String
  deriving DecidableEq, Repr

def nativePrepare : Entry where
  engineText := "engine is already running"
  asks := .scan
  asksText := "endpoint scan is already running"
  claims := some .prepare
  claimsText := "route preparation is already running"

def nativeProvision : Entry :=
  nativePrepare

def nativeScan : Entry where
  engineText := "disconnect before scanning endpoints"
  asks := .prepare
  asksText := "route preparation is already running"
  claims := some .scan
  claimsText := "endpoint scan is already running"

/-- It claims nothing. -/
def nativeTestEndpoint : Entry where
  engineText := "disconnect and stop scanning before testing an endpoint"
  asks := .scan
  asksText := "disconnect and stop scanning before testing an endpoint"
  claims := none
  claimsText := ""

inductive Kind
  | prepare
  | provision
  | scan
  | test
  deriving DecidableEq, Repr

def Kind.entry : Kind → Entry
  | .prepare => nativePrepare
  | .provision => nativeProvision
  | .scan => nativeScan
  | .test => nativeTestEndpoint

inductive Response
  | prepared (ipv4 ipv6 : Text) (peer : SocketAddr)
  | devices (names : List Text)
  | results (found : List (SocketAddr × Nat))
  | tested (peer : SocketAddr) (rttMs : Nat)
  deriving DecidableEq

/-- How an operation that was not refused ended. -/
inductive Ending
  | completed (result : Except String Response)
  | cancelled
  deriving DecidableEq

/-- What the app is told of it. -/
def Ending.result (kind : Kind) : Ending → Except String Response
  | .completed result => result
  | .cancelled =>
      match kind with
      | .provision => .error "provisioning was cancelled"
      | .scan => .error "other: endpoint scan cancelled"
      | _ => .error "route preparation was cancelled"

/-- What a scan answers with. -/
def scanResult (found : List (SocketAddr × Nat)) : Except String Response :=
  if found = [] then .error "prober: no clean endpoint found" else .ok (.results found)

/-- Where a call is. -/
inductive Phase
  | idle
  /-- About to look at `STOP_SENDER`. -/
  | looking (kind : Kind)
  /-- About to look at the flag that it does not claim. -/
  | asking (kind : Kind)
  | claiming (kind : Kind) (flag : Flag)
  /-- Its flag is claimed, and the cancel flag not yet reset. -/
  | clearing (kind : Kind) (flag : Flag)
  | reading (kind : Kind)
  /-- A scan that loads its identity. -/
  | opening (config : EmbeddedConfig)
  | working (kind : Kind) (config : EmbeddedConfig)
  /-- About to reset its flag. -/
  | ending (kind : Kind) (how : Ending)
  | returned (kind : Kind) (how : Ending)
  | refused (text : String)
  deriving DecidableEq

/-- Where a cancel is. -/
inductive CancelPhase
  | idle
  /-- It saw that the flag was claimed. -/
  | storing (flag : Flag) (op : Nat)
  | returned (answer : Bool)
  deriving DecidableEq, Repr

inductive Caller
  | run (i : Nat)
  | op (i : Nat)
  | cancel (i : Nat)
  deriving DecidableEq, Repr

/-- The process.  A flag that is set is kept with the call that set it; `seen`, `refused` and `changed`
are read by no call. -/
structure State where
  engine : Lifecycle.State
  running : Flag → Option Nat := fun _ => none
  cancelled : Flag → Bool := fun _ => false
  op : Nat → Phase := fun _ => .idle
  cancel : Nat → CancelPhase := fun _ => .idle
  /-- The operations that a cancel saw and returned true for. -/
  seen : List Nat := []
  refused : List Caller := []
  /-- The calls that changed a flag. -/
  changed : List Caller := []

namespace State

def goto (s : State) (i : Nat) (p : Phase) : State :=
  { s with op := Function.update s.op i p }

def setRunning (s : State) (flag : Flag) (owner : Option Nat) : State :=
  { s with running := Function.update s.running flag owner }

def setCancelled (s : State) (flag : Flag) (value : Bool) : State :=
  { s with cancelled := Function.update s.cancelled flag value }

/-- A call is refused. -/
def refuse (s : State) (i : Nat) (text : String) : State :=
  { s.goto i (.refused text) with refused := .op i :: s.refused }

def setEnv (s : State) (env : Environment) : State :=
  { s with engine := { s.engine with env := env } }

/-- The values that the calls look at: whether a sender is installed, and the four flags. -/
def flags (s : State) : Bool × (Bool × Bool) × Bool × Bool :=
  (s.engine.slot.isSome, ((s.running .prepare).isSome, (s.running .scan).isSome),
    s.cancelled .prepare, s.cancelled .scan)

end State

/-! ## The steps -/

/-- What a call does next, and what it meets there. -/
inductive OpAct
  | enter (kind : Kind)
  | look
  | ask
  | claim
  | clear
  /-- The configuration is read, and the runtime is started or not. -/
  | read (raw : Except String Text) (failure : Option String)
  /-- A scan is opened, or fails before it looks at its flag. -/
  | opened (failure : Option String)
  /-- The cancel flag is looked at; what a WireGuard scan has found by then. -/
  | poll (found : List (SocketAddr × Nat))
  /-- The work is done, for a scan with what it found. -/
  | complete (result : Except String Response) (found : List (SocketAddr × Nat))
  | leave

inductive Label
  | run (i : Nat) (act : Act)
  | op (i : Nat) (act : OpAct)
  | load (i : Nat) (flag : Flag)
  | store (i : Nat)

section Steps

variable (serde : Serde)

/-- What a configuration that is read leads to. -/
def readOp (kind : Kind) (raw : Except String Text) (failure : Option String) : Except String Phase := do
  let raw ← raw
  let config ← BridgeConfig.parse serde raw
  let embedded ← config.embedded none
  match failure with
  | some e => throw e
  | none => pure (if kind = .scan then .opening embedded else .working kind embedded)

/-- The environment is applied as soon as the configuration is parsed. -/
def appliedBy (raw : Except String Text) (env : Environment) : Environment :=
  match raw.bind (BridgeConfig.parse serde) with
  | .ok config => config.applyEnvironment
  | .error _ => env

/-- Whether the results of an operation are given up when it finds that it was cancelled. -/
def givesUp (kind : Kind) (config : EmbeddedConfig) : Bool :=
  match kind with
  | .scan => config.protocolOf = .masque
  | _ => true

def stepOp (s : State) (i : Nat) (act : OpAct) : Option State :=
  match act, s.op i with
  | .enter kind, .idle => some (s.goto i (.looking kind))
  | .look, .looking kind =>
      if s.engine.slot.isSome then
        some (s.refuse i kind.entry.engineText)
      else
        some (s.goto i (.asking kind))
  | .ask, .asking kind =>
      if (s.running kind.entry.asks).isSome then
        some (s.refuse i kind.entry.asksText)
      else
        match kind.entry.claims with
        | some flag => some (s.goto i (.claiming kind flag))
        | none => some (s.goto i (.reading kind))
  | .claim, .claiming kind flag =>
      match s.running flag with
      | some _ => some (s.refuse i kind.entry.claimsText)
      | none => some ((s.goto i (.clearing kind flag)).setRunning flag (some i))
  | .clear, .clearing kind flag => some ((s.goto i (.reading kind)).setCancelled flag false)
  | .read raw failure, .reading kind =>
      let env := appliedBy serde raw s.engine.env
      match readOp serde kind raw failure with
      | .ok p => some ((s.setEnv env).goto i p)
      | .error e => some ((s.setEnv env).goto i (.ending kind (.completed (.error e))))
  | .opened failure, .opening config =>
      match failure with
      | some e => some (s.goto i (.ending .scan (.completed (.error e))))
      | none => some (s.goto i (.working .scan config))
  | .poll found, .working kind config =>
      match kind.entry.claims with
      | none => none
      | some flag =>
          if s.cancelled flag then
            if givesUp kind config then
              some (s.goto i (.ending kind .cancelled))
            else
              some (s.goto i (.ending kind (.completed (scanResult found))))
          else
            some (s.goto i (.working kind config))
  | .complete result found, .working kind config =>
      if kind = .scan then
        -- the scan over MASQUE looks at its flag once more before it answers
        if s.cancelled .scan ∧ givesUp kind config then
          some (s.goto i (.ending kind .cancelled))
        else
          some (s.goto i (.ending kind (.completed (scanResult found))))
      else
        some (s.goto i (.ending kind (.completed result)))
  | .leave, .ending kind how =>
      match kind.entry.claims with
      | some flag => some ((s.goto i (.returned kind how)).setRunning flag none)
      | none => some (s.goto i (.returned kind how))
  | _, _ => none

/-- After a step of `nativeRun`, which is refused by its guard alone. -/
def State.ran (s : State) (i : Nat) (act : Act) (engine : Lifecycle.State) : State :=
  { s with
    engine := engine
    refused := if act = .guard ∧ s.engine.slot.isSome then .run i :: s.refused else s.refused }

def stepEngine (s : State) (i : Nat) (act : Act) : Option State :=
  (Lifecycle.stepRun serde s.engine i act).map (s.ran i act)

/-- The first half of a cancel. -/
def stepLoad (s : State) (i : Nat) (flag : Flag) : Option State :=
  match s.cancel i with
  | .idle =>
      match s.running flag with
      | some j => some { s with cancel := Function.update s.cancel i (.storing flag j) }
      | none => some { s with cancel := Function.update s.cancel i (.returned false) }
  | _ => none

def stepStore (s : State) (i : Nat) : Option State :=
  match s.cancel i with
  | .storing flag j =>
      some { s.setCancelled flag true with
        cancel := Function.update s.cancel i (.returned true)
        seen := j :: s.seen }
  | _ => none

def Label.caller : Label → Caller
  | .run i _ => .run i
  | .op i _ => .op i
  | .load i _ => .cancel i
  | .store i => .cancel i

def move (s : State) : Label → Option State
  | .run i act => stepEngine serde s i act
  | .op i act => stepOp serde s i act
  | .load i flag => stepLoad s i flag
  | .store i => stepStore s i

/-- A step, with the record of who changed a flag. -/
def step (l : Label) (s : State) : Option State :=
  (move serde s l).map fun t =>
    { t with changed := if t.flags = s.flags then t.changed else l.caller :: t.changed }

/-- Any interleaving of any calls. -/
def bridge : Runs.Machine State Label where
  init s := ∃ env, s = { engine := { env := env } }
  enabled l s := (step serde l s).isSome
  step := step serde

end Steps

/-! ## What is wanted -/

/-- What a call has claimed. -/
def Phase.holds : Phase → Option Flag
  | .clearing _ flag => some flag
  | .reading kind | .working kind _ | .ending kind _ => kind.entry.claims
  | .opening _ => some .scan
  | _ => none

/-- How far a call has come: it can be cancelled from where its cancel flag is reset to its end. -/
inductive Stage
  | early
  | begun
  | ended (how : Ending)
  deriving DecidableEq

def Phase.stage : Phase → Stage
  | .reading _ | .opening _ | .working _ _ => .begun
  | .ending _ how | .returned _ how => .ended how
  | _ => .early

/-- Before anything is claimed. -/
def Phase.unclaimed : Phase → Bool
  | .idle | .looking _ | .asking _ | .claiming _ _ | .refused _ => true
  | _ => false

/-- A call is past its guard. -/
def Past (s : State) : Caller → Prop
  | .run i => (s.engine.phase i).alive ∨ s.engine.slot = some i
  | .op i => (s.op i).holds.isSome
  | .cancel _ => False

structure Kept (s : State) : Prop where
  exclusive : ∀ a b, Past s a → Past s b → a = b
  refused : ∀ a ∈ s.refused, a ∉ s.changed
  cancelled : ∀ i how, i ∈ s.seen → (s.op i).stage = .ended how → how = .cancelled
  later : ∀ i, (s.op i).stage = .ended .cancelled → i ∈ s.seen

/-- It has found no sender, and is about to claim a flag. -/
def Phase.looked : Phase → Bool
  | .asking kind => kind.entry.claims.isSome
  | .claiming _ _ => true
  | _ => false

/-- The step ends a call, whatever its cancel flag says. -/
def OpAct.completes (serde : Serde) (act : OpAct) (p : Phase) : Bool :=
  match act, p with
  | .read raw failure, .reading kind => !(readOp serde kind raw failure).isOk
  | .opened failure, .opening _ => failure.isSome
  | .poll _, .working kind config => !givesUp kind config
  | .complete _ _, .working kind config => kind ≠ .scan || !givesUp kind config
  | _, _ => false

/-- **Orderly calls.**  No flag is claimed between another guard's look at it and that guard's own claim,
and no sender is installed between a guard's look at the slot and its claim, nor while a flag is set, which
`nativeRun` does not look at.  A run empties the slot of no other one.  A cancel stores neither between the
claim of the operation that it saw and the reset of its cancel flag, nor when that one has made up its
answer, unless it was cancelled and no later one has passed its reset; and an operation that was told looks
at its cancel flag before it ends. -/
def Orderly (serde : Serde) (s : State) : Label → Prop
  | .run _ .guard => s.engine.slot = none → (∀ f, s.running f = none) ∧ ∀ j, (s.op j).looked = false
  | .run i .close => s.engine.slot = none ∨ s.engine.slot = some i
  | .run i .fail => s.engine.slot = none ∨ s.engine.slot = some i
  | .run _ _ => True
  | .op i .claim => ∀ kind flag, s.op i = .claiming kind flag →
      ∀ j kind' flag', s.op j = .claiming kind' flag' → kind'.entry.asks ≠ flag
  | .op i act => i ∈ s.seen → act.completes serde (s.op i) = false
  | .load _ _ => True
  | .store i => ∀ flag j, s.cancel i = .storing flag j →
      (s.running flag = some j ∧ (s.op j).stage = .begun) ∨
        ((s.op j).stage = .ended .cancelled ∧ ∀ k, s.running flag = some k → (s.op k).stage ≠ .begun)

/-! ## What a step does -/

section Moves

variable {serde : Serde} {s s' : State} {i : Nat} {p : Phase}

theorem goto_op (s : State) (i : Nat) (p : Phase) (j : Nat) :
    (s.goto i p).op j = if j = i then p else s.op j :=
  Function.update_apply ..

/-- How a call goes on without a claim: at the same stage, begun without one, ended by the work, or
cancelled. -/
inductive Goes (serde : Serde) (s : State) (i : Nat) (act : OpAct) (p : Phase) : Prop
  | stays (h : p.stage = (s.op i).stage)
  | begins (h : p.stage = .begun) (hearly : (s.op i).stage = .early) (hholds : p.holds = none)
  | completes {result : Except String Response} (h : p.stage = .ended (.completed result))
      (hbegun : (s.op i).stage = .begun)
      (hunset : act.completes serde (s.op i) = false →
        ∀ f, (s.op i).holds = some f → s.cancelled f = false)
  | cancels {flag : Flag} (h : p.stage = .ended .cancelled) (hbegun : (s.op i).stage = .begun)
      (hflag : (s.op i).holds = some flag) (hset : s.cancelled flag = true)

/-- What a step of a call does: the call goes on, is refused, claims its flag, resets its cancel flag or
gives its flag back. -/
inductive OpMoves (serde : Serde) (s : State) (i : Nat) (act : OpAct) : State → Prop
  | goes {p : Phase} {env : Environment} (hgoes : Goes serde s i act p) (hact : act ≠ .claim)
      (hholds : p.holds = (s.op i).holds) (hunclaimed : p.unclaimed → (s.op i).unclaimed)
      (hclaims : ∀ kind flag, p = .claiming kind flag →
        kind.entry.claims = some flag ∧ s.running kind.entry.asks = none)
      (hlooked : p.looked → (s.op i).looked ∨ s.engine.slot = none)
      (hclears : ∀ kind flag, p ≠ .clearing kind flag) :
      OpMoves serde s i act ((s.setEnv env).goto i p)
  | refuses {text : String} (hearly : (s.op i).stage = .early) (hunclaimed : (s.op i).unclaimed) :
      OpMoves serde s i act (s.refuse i text)
  | claims {kind : Kind} {flag : Flag} (hact : act = .claim) (hphase : s.op i = .claiming kind flag)
      (hfree : s.running flag = none) :
      OpMoves serde s i act ((s.goto i (.clearing kind flag)).setRunning flag (some i))
  | clears {kind : Kind} {flag : Flag} (hphase : s.op i = .clearing kind flag) :
      OpMoves serde s i act ((s.goto i (.reading kind)).setCancelled flag false)
  | leaves {kind : Kind} {how : Ending} {flag : Flag} (hphase : s.op i = .ending kind how)
      (hclaims : kind.entry.claims = some flag) :
      OpMoves serde s i act ((s.goto i (.returned kind how)).setRunning flag none)

theorem readOp_ok {kind : Kind} {raw : Except String Text} {failure : Option String}
    (h : readOp serde kind raw failure = .ok p) :
    ∃ embedded, p = if kind = .scan then .opening embedded else .working kind embedded := by
  unfold readOp at h
  cases raw with
  | error e => cases h
  | ok raw =>
      cases hparse : BridgeConfig.parse serde raw with
      | error e => simp [hparse, bind, Except.bind] at h
      | ok config =>
          cases hembedded : config.embedded none with
          | error e => simp [hparse, hembedded, bind, Except.bind] at h
          | ok embedded =>
              cases failure with
              | some e => simp [hparse, hembedded, bind, Except.bind, throw, throwThe,
                  MonadExceptOf.throw] at h
              | none =>
                  simp only [hparse, hembedded, bind, Except.bind, pure, Except.pure,
                    Except.ok.injEq] at h
                  exact ⟨embedded, h.symm⟩

theorem stepOp_moves {act : OpAct} (hstep : stepOp serde s i act = some s') :
    OpMoves serde s i act s' := by
  -- by the action, and under each by the phase that it asks for
  cases act with
  | enter kind =>
      cases hphase : s.op i with
      | idle =>
          simp only [stepOp, hphase, Option.some.injEq] at hstep
          subst hstep
          exact .goes (.stays (by rw [hphase]; rfl)) nofun (by rw [hphase]; rfl)
            (by rw [hphase]; exact id) nofun nofun nofun
      | _ => simp [stepOp, hphase] at hstep
  | look =>
      cases hphase : s.op i with
      | looking kind =>
          simp only [stepOp, hphase] at hstep
          split_ifs at hstep with hslot
          · cases hstep
            exact .refuses (by rw [hphase]; rfl) (by rw [hphase]; rfl)
          · cases hstep
            exact .goes (.stays (by rw [hphase]; rfl)) nofun (by rw [hphase]; rfl)
              (by rw [hphase]; exact id) nofun (fun _ => .inr (Option.not_isSome_iff_eq_none.1 hslot)) nofun
      | _ => simp [stepOp, hphase] at hstep
  | ask =>
      cases hphase : s.op i with
      | asking kind =>
          simp only [stepOp, hphase] at hstep
          split_ifs at hstep with hasks
          · cases hstep
            exact .refuses (by rw [hphase]; rfl) (by rw [hphase]; rfl)
          -- a call that claims a flag goes on to claim it; the cancel has none and begins at once
          · cases hclaims : kind.entry.claims with
            | some flag =>
                simp only [hclaims, Option.some.injEq] at hstep
                subst hstep
                exact .goes (.stays (by rw [hphase]; rfl)) nofun (by rw [hphase]; rfl)
                  (by rw [hphase]; exact id)
                  (by rintro _ _ ⟨⟩; exact ⟨hclaims, Option.not_isSome_iff_eq_none.1 hasks⟩)
                  (fun _ => .inl (by rw [hphase]; exact Option.isSome_of_eq_some hclaims)) nofun
            | none =>
                simp only [hclaims, Option.some.injEq] at hstep
                subst hstep
                exact .goes (.begins rfl (by rw [hphase]; rfl) hclaims) nofun
                  (by rw [hphase]; exact hclaims) nofun nofun nofun nofun
      | _ => simp [stepOp, hphase] at hstep
  | claim =>
      cases hphase : s.op i with
      | claiming kind flag =>
          simp only [stepOp, hphase] at hstep
          -- the flag may have been claimed since it was looked at
          cases hrunning : s.running flag with
          | some j =>
              simp only [hrunning, Option.some.injEq] at hstep
              subst hstep
              exact .refuses (by rw [hphase]; rfl) (by rw [hphase]; rfl)
          | none =>
              simp only [hrunning, Option.some.injEq] at hstep
              subst hstep
              exact .claims rfl hphase hrunning
      | _ => simp [stepOp, hphase] at hstep
  | clear =>
      cases hphase : s.op i with
      | clearing kind flag =>
          simp only [stepOp, hphase, Option.some.injEq] at hstep
          subst hstep
          exact .clears hphase
      | _ => simp [stepOp, hphase] at hstep
  | read raw failure =>
      cases hphase : s.op i with
      | reading kind =>
          simp only [stepOp, hphase] at hstep
          cases hread : readOp serde kind raw failure with
          | ok p =>
              simp only [hread, Option.some.injEq] at hstep
              subst hstep
              obtain ⟨embedded, rfl⟩ := readOp_ok hread
              -- the scan opens no identity, so it begins its work here
              by_cases hscan : kind = .scan
              · subst hscan
                exact .goes (.stays (by rw [hphase]; rfl)) nofun (by rw [hphase]; rfl) nofun nofun nofun nofun
              · rw [if_neg hscan]
                exact .goes (.stays (by rw [hphase]; rfl)) nofun (by rw [hphase]; rfl) nofun nofun nofun nofun
          | error e =>
              simp only [hread, Option.some.injEq] at hstep
              subst hstep
              refine .goes (.completes rfl (by rw [hphase]; rfl) fun hnot => ?_) nofun
                (by rw [hphase]; rfl) nofun nofun nofun nofun
              simp [OpAct.completes, hphase, hread, Except.isOk, Except.toBool] at hnot
      | _ => simp [stepOp, hphase] at hstep
  | opened failure =>
      cases hphase : s.op i with
      | opening config =>
          simp only [stepOp, hphase] at hstep
          cases failure with
          | some e =>
              cases hstep
              refine .goes (.completes rfl (by rw [hphase]; rfl) fun hnot => ?_) nofun
                (by rw [hphase]; rfl) nofun nofun nofun nofun
              simp [OpAct.completes, hphase] at hnot
          | none =>
              cases hstep
              exact .goes (.stays (by rw [hphase]; rfl)) nofun (by rw [hphase]; rfl) nofun nofun nofun nofun
      | _ => simp [stepOp, hphase] at hstep
  | poll found =>
      cases hphase : s.op i with
      | working kind config =>
          simp only [stepOp, hphase] at hstep
          cases hclaims : kind.entry.claims with
          | none => simp [hclaims] at hstep
          | some flag =>
              simp only [hclaims] at hstep
              have hholds : (s.op i).holds = some flag := by rw [hphase]; exact hclaims
              -- a flag that was set is seen at a poll; a body that has given up completes
              split_ifs at hstep with hset hgives
              · cases hstep
                exact .goes (.cancels rfl (by rw [hphase]; rfl) hholds hset) nofun
                  (by rw [hphase]; rfl) nofun nofun nofun nofun
              · cases hstep
                refine .goes (.completes rfl (by rw [hphase]; rfl) fun hnot => ?_) nofun
                  (by rw [hphase]; rfl) nofun nofun nofun nofun
                simp [OpAct.completes, hphase, hgives] at hnot
              · cases hstep
                exact .goes (.stays (by rw [hphase])) nofun (by rw [hphase]) nofun nofun nofun nofun
      | _ => simp [stepOp, hphase] at hstep
  | complete result found =>
      cases hphase : s.op i with
      | working kind config =>
          simp only [stepOp, hphase] at hstep
          -- the scan sees the flag at its end alone
          split_ifs at hstep with hscan hset
          · cases hstep
            subst hscan
            exact .goes (.cancels rfl (by rw [hphase]; rfl) (by rw [hphase]; rfl) hset.1) nofun
              (by rw [hphase]; rfl) nofun nofun nofun nofun
          · cases hstep
            subst hscan
            refine .goes (.completes rfl (by rw [hphase]; rfl) fun hnot => ?_) nofun
              (by rw [hphase]; rfl) nofun nofun nofun nofun
            rw [hphase]
            rintro _ ⟨⟩
            have hgives : givesUp .scan config = true := by
              simpa [OpAct.completes, hphase] using hnot
            simpa [hgives] using hset
          · cases hstep
            refine .goes (.completes rfl (by rw [hphase]; rfl) fun hnot => ?_) nofun
              (by rw [hphase]; rfl) nofun nofun nofun nofun
            simp [OpAct.completes, hphase, hscan] at hnot
      | _ => simp [stepOp, hphase] at hstep
  | leave =>
      cases hphase : s.op i with
      | ending kind how =>
          simp only [stepOp, hphase] at hstep
          cases hclaims : kind.entry.claims with
          | some flag =>
              simp only [hclaims, Option.some.injEq] at hstep
              subst hstep
              exact .leaves hphase hclaims
          | none =>
              simp only [hclaims, Option.some.injEq] at hstep
              subst hstep
              exact .goes (.stays (by rw [hphase]; rfl)) nofun (by rw [hphase]; exact hclaims.symm)
                nofun nofun nofun nofun
      | _ => simp [stepOp, hphase] at hstep

end Moves

/-! ## The invariants -/

/-- Who holds what: each flag is set by the call that has claimed it, a run that is alive has its sender
in the slot, and one thing at most is held. -/
structure Held (s : State) : Prop where
  holds : ∀ i f, (s.op i).holds = some f ↔ s.running f = some i
  claims : ∀ i kind flag, s.op i = .claiming kind flag ∨ s.op i = .clearing kind flag →
    kind.entry.claims = some flag
  alive : ∀ i, (s.engine.phase i).alive → s.engine.slot = some i
  slot : ∀ i, s.engine.slot = some i → (s.engine.phase i).early = false
  apart : ∀ f, s.running f ≠ none → s.engine.slot = none ∧ ∀ g, s.running g ≠ none → g = f

/-- What the guards found is still so: no sender for a call that has looked, and for one that is about to
claim not the flag that it has asked for either. -/
structure Checked (s : State) : Prop where
  looked : ∀ i, (s.op i).looked → s.engine.slot = none
  asked : ∀ i kind flag, s.op i = .claiming kind flag → s.running kind.entry.asks = none

/-- Who was told: a call that can be cancelled finds its flag set when a cancel saw it, and one that has
ended was cancelled when a cancel saw it. -/
structure Cancels (s : State) : Prop where
  early : ∀ i, (s.op i).stage = .early → i ∉ s.seen
  begun : ∀ i, (s.op i).stage = .begun →
    (i ∈ s.seen ↔ ∃ f, (s.op i).holds = some f ∧ s.cancelled f = true)
  ended : ∀ i how, (s.op i).stage = .ended how → (i ∈ s.seen ↔ how = .cancelled)

/-- Who changed nothing: the calls that have claimed nothing, and the runs that were refused. -/
structure Unchanged (s : State) : Prop where
  op : ∀ i, (s.op i).unclaimed → .op i ∉ s.changed
  run : ∀ i, (s.engine.phase i).early → .run i ∉ s.changed
  refusedOp : ∀ i, .op i ∈ s.refused → ∃ text, s.op i = .refused text
  refusedRun : ∀ i, .run i ∈ s.refused → (s.engine.phase i).early = false ∧
    (s.engine.phase i).alive = false ∧ s.engine.slot ≠ some i ∧ .run i ∉ s.changed
  refusedCancel : ∀ i, .cancel i ∉ s.refused

section Proofs

variable {serde : Serde} {s s' : State} {i : Nat} {p : Phase}

theorem Held.kept (h : Held s) (hcancels : Cancels s) (hunchanged : Unchanged s) : Kept s where
  exclusive a b ha hb := by
    have hrun : ∀ i, Past s (.run i) → s.engine.slot = some i :=
      fun i hi => hi.elim (h.alive i) id
    have hop : ∀ i, Past s (.op i) → ∃ f, s.running f = some i := fun i hi => by
      -- who is past its guard holds a flag, and a flag names one call
      obtain ⟨f, hf⟩ := Option.isSome_iff_exists.1 hi
      exact ⟨f, (h.holds i f).1 hf⟩
    -- while a flag is held the slot is empty, so no run is past its guard
    have hboth : ∀ i j, Past s (.run i) → ¬Past s (.op j) := by
      intro i j hi hj
      obtain ⟨f, hf⟩ := hop j hj
      have hnone := (h.apart f (by rw [hf]; nofun)).1
      cases hnone.symm.trans (hrun i hi)
    -- by the two callers: two runs, a run and a call, two calls
    cases a with
    | run i =>
        cases b with
        | run j => rw [Option.some.inj ((hrun i ha).symm.trans (hrun j hb))]
        | op j => exact absurd hb (hboth i j ha)
        | cancel j => exact hb.elim
    | op i =>
        cases b with
        | run j => exact absurd ha (hboth j i hb)
        | op j =>
            obtain ⟨f, hf⟩ := hop i ha
            obtain ⟨g, hg⟩ := hop j hb
            have hsame : g = f := (h.apart f (by rw [hf]; nofun)).2 g (by rw [hg]; nofun)
            rw [hsame] at hg
            rw [Option.some.inj (hf.symm.trans hg)]
        | cancel j => exact hb.elim
    | cancel i => exact ha.elim
  refused a ha := by
    cases a with
    | run i => exact (hunchanged.refusedRun i ha).2.2.2
    | op i =>
        obtain ⟨text, htext⟩ := hunchanged.refusedOp i ha
        exact hunchanged.op i (by rw [htext]; rfl)
    | cancel i => exact absurd ha (hunchanged.refusedCancel i)
  cancelled i how hseen hended := (hcancels.ended i how hended).1 hseen
  later i hended := (hcancels.ended i _ hended).2 rfl

theorem holds_unclaimed (h : p.unclaimed = true) : p.holds = none := by
  cases p with
  | idle | looking | asking | claiming | refused => rfl
  | _ => cases h

theorem setRunning_running (s : State) (flag : Flag) (owner : Option Nat) (f : Flag) :
    (s.setRunning flag owner).running f = if f = flag then owner else s.running f :=
  Function.update_apply ..

theorem setCancelled_cancelled (s : State) (flag : Flag) (value : Bool) (f : Flag) :
    (s.setCancelled flag value).cancelled f = if f = flag then value else s.cancelled f :=
  Function.update_apply ..

/-- A call that goes on with what it holds. -/
theorem Held.goto {env : Environment} (h : Held s) (hholds : p.holds = (s.op i).holds)
    (hclaims : ∀ kind flag, p = .claiming kind flag ∨ p = .clearing kind flag →
      kind.entry.claims = some flag) :
    Held ((s.setEnv env).goto i p) where
  holds j f := by
    refine Iff.trans ?_ (h.holds j f)
    rw [goto_op]
    split_ifs with hj
    · rw [hj, hholds]
    · rfl
  claims j kind flag hphase := by
    rw [goto_op] at hphase
    split_ifs at hphase with hj
    · exact hclaims kind flag hphase
    · exact h.claims j kind flag hphase
  alive := h.alive
  slot := h.slot
  apart := h.apart

/-- A call claims a flag while nothing is held. -/
theorem Held.claim {kind : Kind} {flag : Flag} (h : Held s) (hphase : s.op i = .claiming kind flag)
    (hslot : s.engine.slot = none) (hfree : ∀ f, s.running f = none) :
    Held ((s.goto i (.clearing kind flag)).setRunning flag (some i)) where
  holds j f := by
    have hold := h.holds j f
    rw [hfree f] at hold
    rw [setRunning_running]
    change ((s.goto i (.clearing kind flag)).op j).holds = some f ↔ _
    rw [goto_op]
    split_ifs with hj hf hf
    · rw [hj, hf]
      exact iff_of_true rfl rfl
    -- another flag, which nobody holds
    · change some flag = some f ↔ s.running f = some j
      rw [hfree f]
      exact iff_of_false (fun heq => hf (Option.some.inj heq).symm) nofun
    -- another call, which held none
    · exact iff_of_false (fun hh => nomatch hold.1 hh) fun heq => hj (Option.some.inj heq).symm
    · exact hold.trans (by
        change none = some j ↔ s.running f = some j
        rw [hfree f])
  claims j kind' flag' hphase' := by
    change (s.goto i (.clearing kind flag)).op j = _ ∨ (s.goto i (.clearing kind flag)).op j = _ at hphase'
    rw [goto_op] at hphase'
    split_ifs at hphase' with hj
    · rcases hphase' with heq | heq
      · cases heq
      · cases heq
        exact h.claims i kind flag (.inl hphase)
    · exact h.claims j kind' flag' hphase'
  alive := h.alive
  slot := h.slot
  apart f hf := by
    -- the flag that was claimed is the only one
    have hone : ∀ f', ((s.goto i (.clearing kind flag)).setRunning flag (some i)).running f' ≠ none →
        f' = flag := by
      intro f' hf'
      rw [setRunning_running] at hf'
      split_ifs at hf' with heq
      · exact heq
      · exact absurd (hfree f') hf'
    exact ⟨hslot, fun g hg => by rw [hone g hg, hone f hf]⟩

/-- A call gives its flag back. -/
theorem Held.leave {kind : Kind} {how : Ending} {flag : Flag} (h : Held s)
    (hphase : s.op i = .ending kind how) (hclaims : kind.entry.claims = some flag) :
    Held ((s.goto i (.returned kind how)).setRunning flag none) where
  holds j f := by
    have hown : s.running flag = some i := (h.holds i flag).1 (by rw [hphase]; exact hclaims)
    rw [setRunning_running]
    change ((s.goto i (.returned kind how)).op j).holds = some f ↔ _
    rw [goto_op]
    -- the flag of this call, another flag of its own, and the flags of others
    split_ifs with hj hf hf
    · exact iff_of_false nofun nofun
    · refine iff_of_false nofun fun heq => ?_
      have hholds := (h.holds i f).2 (hj ▸ heq)
      rw [hphase] at hholds
      exact hf (Option.some.inj (hholds.symm.trans hclaims))
    · rw [hf]
      refine iff_of_false (fun hh => ?_) nofun
      exact hj (Option.some.inj (((h.holds j flag).1 hh).symm.trans hown))
    · exact h.holds j f
  claims j kind' flag' hphase' := by
    change (s.goto i (.returned kind how)).op j = _ ∨ (s.goto i (.returned kind how)).op j = _ at hphase'
    rw [goto_op] at hphase'
    split_ifs at hphase' with hj
    · rcases hphase' with heq | heq <;> cases heq
    · exact h.claims j kind' flag' hphase'
  alive := h.alive
  slot := h.slot
  apart f hf := by
    -- a flag that is held afterwards was held before
    have hback : ∀ f', ((s.goto i (.returned kind how)).setRunning flag none).running f' ≠ none →
        s.running f' ≠ none := by
      intro f' hf'
      rw [setRunning_running] at hf'
      split_ifs at hf' with heq
      · exact absurd rfl hf'
      · exact hf'
    obtain ⟨hslot, hone⟩ := h.apart f (hback f hf)
    exact ⟨hslot, fun g hg => hone g (hback g hg)⟩

/-- A call that is about to claim has found nothing set. -/
theorem Checked.free {kind : Kind} {flag : Flag} (h : Checked s) (hphase : s.op i = .claiming kind flag)
    (hclaims : kind.entry.claims = some flag) (hfree : s.running flag = none) :
    s.engine.slot = none ∧ ∀ f, s.running f = none := by
  have hasked := h.asked i kind flag hphase
  refine ⟨h.looked i (by rw [hphase]; rfl), fun f => ?_⟩
  -- of the two flags a guard asks for the one that it does not claim
  cases kind with
  | test => cases hclaims
  | prepare | provision =>
      obtain rfl := Option.some.inj hclaims
      cases f with
      | prepare => exact hfree
      | scan => exact hasked
  | scan =>
      obtain rfl := Option.some.inj hclaims
      cases f with
      | prepare => exact hasked
      | scan => exact hfree

/-- A call that goes on, where it has looked and asked if it is about to claim. -/
theorem Checked.goto (h : Checked s) (hlooked : p.looked → s.engine.slot = none)
    (hasked : ∀ kind flag, p = .claiming kind flag → s.running kind.entry.asks = none) : Checked (s.goto i p) where
  looked j hj := by
    rw [goto_op] at hj
    split_ifs at hj with heq
    · exact hlooked hj
    · exact h.looked j hj
  asked j kind flag hphase := by
    rw [goto_op] at hphase
    split_ifs at hphase with heq
    · exact hasked kind flag hphase
    · exact h.asked j kind flag hphase

/-- What is set is set where no other guard has asked for it. -/
theorem Checked.setRunning {flag : Flag} {owner : Option Nat} (h : Checked s)
    (hfree : ∀ j kind flag', s.op j = .claiming kind flag' → owner ≠ none → kind.entry.asks ≠ flag) :
    Checked (s.setRunning flag owner) where
  looked := h.looked
  asked j kind flag' hphase := by
    rw [setRunning_running]
    split_ifs with hsame
    · by_contra howner
      exact hfree j kind flag' hphase howner hsame
    · exact h.asked j kind flag' hphase

theorem OpMoves.checked {act : OpAct} (hmoves : OpMoves serde s i act s') (h : Checked s)
    (horderly : Orderly serde s (.op i act)) : Checked s' := by
  cases hmoves with
  | @goes p env hgoes hact hholds hunclaimed hclaims hlooked hclears =>
      -- what a call has looked at is true still: no flag was set in the step
      have henv : Checked (s.setEnv env) := ⟨h.looked, h.asked⟩
      refine henv.goto (fun hp => ?_) fun kind flag hphase => (hclaims kind flag hphase).2
      exact (hlooked hp).elim (h.looked i) id
  | @refuses text hearly hunclaimed =>
      have hgoto : Checked (s.goto i (.refused text)) := h.goto nofun nofun
      exact ⟨hgoto.looked, hgoto.asked⟩
  | @claims kind flag hact hphase hfree =>
      subst hact
      have hgoto : Checked (s.goto i (.clearing kind flag)) := h.goto nofun nofun
      refine hgoto.setRunning fun j kind' flag' hj _ => ?_
      rw [goto_op] at hj
      split_ifs at hj with heq
      -- nobody else is between a look at the flag and its claim
      exact horderly kind flag hphase j kind' flag' hj
  | @clears kind flag hphase =>
      have hgoto : Checked (s.goto i (.reading kind)) := h.goto nofun nofun
      exact ⟨hgoto.looked, hgoto.asked⟩
  | @leaves kind how flag hphase hclaims =>
      have hgoto : Checked (s.goto i (.returned kind how)) := h.goto nofun nofun
      exact hgoto.setRunning fun _ _ _ _ howner => absurd rfl howner

/-- A step of a run. -/
theorem Checked.run {act : Act} {engine : Lifecycle.State} (h : Checked s)
    (hmoves : Lifecycle.Moves s.engine i act engine) (horderly : Orderly serde s (.run i act)) :
    Checked (s.ran i act engine) := by
  refine ⟨fun j hj => ?_, h.asked⟩
  have hslot : s.engine.slot = none := h.looked j hj
  change engine.slot = none
  cases hmoves with
  | goes _ _ _ => exact hslot
  | takes _ _ _ => rfl
  | ends _ _ => exact hslot
  | applies _ _ => exact hslot
  | installs hnone _ _ =>
      have hquiet := (horderly hnone).2 j
      cases hquiet.symm.trans hj

theorem OpMoves.held {act : OpAct} (hmoves : OpMoves serde s i act s') (h : Held s) (hchecked : Checked s) :
    Held s' := by
  cases hmoves with
  | goes hgoes hact hholds hunclaimed hclaims hlooked hclears =>
      refine h.goto hholds fun kind flag hphase => ?_
      exact hphase.elim (fun heq => (hclaims kind flag heq).1) fun heq => absurd heq (hclears kind flag)
  | @refuses text hearly hunclaimed =>
      have hgoto : Held ((s.setEnv s.engine.env).goto i (.refused text)) :=
        h.goto (holds_unclaimed hunclaimed).symm (by rintro _ _ (heq | heq) <;> cases heq)
      exact ⟨hgoto.holds, hgoto.claims, h.alive, h.slot, h.apart⟩
  | claims hact hphase hfree =>
      obtain ⟨hslot, hfree⟩ := hchecked.free hphase (h.claims i _ _ (.inl hphase)) hfree
      exact h.claim hphase hslot hfree
  | @clears kind flag hphase =>
      have hclaims := h.claims i kind flag (.inr hphase)
      have hgoto : Held ((s.setEnv s.engine.env).goto i (.reading kind)) :=
        h.goto (by rw [hphase]; exact hclaims) (by rintro _ _ (heq | heq) <;> cases heq)
      exact ⟨hgoto.holds, hgoto.claims, h.alive, h.slot, h.apart⟩
  | leaves hphase hclaims => exact h.leave hphase hclaims

/-- The sender of a run that is alive is the one in the slot. -/
theorem Held.alive_eq {j : Nat} (h : Held s) (hslot : s.engine.slot = none ∨ s.engine.slot = some i)
    (hj : (s.engine.phase j).alive) : j = i := by
  have hown := h.alive j hj
  rcases hslot with hnone | hsome
  · cases hnone.symm.trans hown
  · exact Option.some.inj (hown.symm.trans hsome)

/-- What a run that empties the slot finds there. -/
theorem Held.slot_own {act : Act} (h : Held s) (horderly : Orderly serde s (.run i act))
    (hact : act = .close ∨ act = .fail ∨ (s.engine.phase i).alive) :
    s.engine.slot = none ∨ s.engine.slot = some i := by
  rcases hact with rfl | rfl | halive
  · exact horderly
  · exact horderly
  · exact .inr (h.alive i halive)

/-- A step of a run. -/
theorem Held.run {act : Act} {engine : Lifecycle.State} (h : Held s)
    (hmoves : Lifecycle.Moves s.engine i act engine) (horderly : Orderly serde s (.run i act)) :
    Held (s.ran i act engine) := by
  -- by what the step does to the slot and to the phase
  cases hmoves with
  | @goes _ p halive hearly _ =>
      refine ⟨h.holds, h.claims, fun j hj => ?_, fun j hj => ?_, h.apart⟩
      · change ((s.engine.goto i p).phase j).alive = true at hj
        rw [Lifecycle.goto_phase] at hj
        split_ifs at hj with heq
        · exact h.alive j (heq ▸ halive hj)
        · exact h.alive j hj
      · have hold := h.slot j hj
        change ((s.engine.goto i p).phase j).early = false
        rw [Lifecycle.goto_phase]
        split_ifs with heq
        -- a phase that is past its guard does not get before it again
        · rw [heq] at hold
          exact Bool.eq_false_iff.2 (mt hearly (Bool.eq_false_iff.1 hold))
        · exact hold
  | @takes _ p hp hearly hact =>
      refine ⟨h.holds, h.claims, fun j hj => ?_, nofun, fun f hf => ⟨rfl, (h.apart f hf).2⟩⟩
      change ((s.engine.goto i p).phase j).alive = true at hj
      rw [Lifecycle.goto_phase] at hj
      split_ifs at hj with heq
      · rw [hp] at hj
        cases hj
      -- whoever is alive owns the slot, and the slot is this run's
      · exact absurd (h.alive_eq (h.slot_own horderly hact) hj) heq
  | @ends _ outcome cause halive hcause =>
      refine ⟨h.holds, h.claims, fun j hj => ?_, fun j hj => ?_, h.apart⟩
      · change ((s.engine.goto i (.closing outcome)).phase j).alive = true at hj
        rw [Lifecycle.goto_phase] at hj
        split_ifs at hj with heq
        · cases hj
        · exact h.alive j hj
      · change ((s.engine.goto i (.closing outcome)).phase j).early = false
        rw [Lifecycle.goto_phase]
        split_ifs with heq
        · rfl
        · exact h.slot j hj
  | @applies p env hp hearly =>
      refine ⟨h.holds, h.claims, fun j hj => ?_, fun j hj => ?_, h.apart⟩
      · change ((s.engine.goto i p).phase j).alive = true at hj
        rw [Lifecycle.goto_phase] at hj
        split_ifs at hj with heq
        · rw [hp] at hj
          cases hj
        · exact h.alive j hj
      · change ((s.engine.goto i p).phase j).early = false
        rw [Lifecycle.goto_phase]
        split_ifs with heq
        · have hold := h.slot j hj
          rw [heq, hearly] at hold
          cases hold
        · exact h.slot j hj
  | @installs p hslot hearly halive =>
      -- nobody holds a flag when the slot is filled
      have hfree : ∀ f, s.running f = none := (horderly hslot).1
      refine ⟨h.holds, h.claims, fun j hj => ?_, fun j hj => ?_, fun f hf => absurd (hfree f) hf⟩
      · change ((s.engine.goto i p).phase j).alive = true at hj
        rw [Lifecycle.goto_phase] at hj
        split_ifs at hj with heq
        · rw [heq]
          rfl
        · cases hslot.symm.trans (h.alive j hj)
      · cases Option.some.inj hj
        change ((s.engine.goto i p).phase i).early = false
        rw [Lifecycle.goto_phase, if_pos rfl]
        exact Lifecycle.alive_early halive

/-- Of two calls one at most holds a flag. -/
theorem Held.holds_eq {j : Nat} {f : Flag} (h : Held s) (hi : (s.op i).holds = some f)
    (hj : (s.op j).holds = some f) : j = i :=
  Option.some.inj (((h.holds j f).1 hj).symm.trans ((h.holds i f).1 hi))

/-- A call goes on, and is told and ends as it must. -/
theorem Cancels.goto {act : OpAct} {env : Environment} (h : Cancels s) (hgoes : Goes serde s i act p)
    (hholds : p.holds = (s.op i).holds)
    (hlooks : i ∈ s.seen → act.completes serde (s.op i) = false) :
    Cancels ((s.setEnv env).goto i p) := by
  have hop : ∀ j, ((s.setEnv env).goto i p).op j = if j = i then p else s.op j := goto_op _ i p
  refine ⟨fun j hj => ?_, fun j hj => ?_, fun j how hj => ?_⟩
  · rw [hop] at hj
    split_ifs at hj with heq
    · subst heq
      cases hgoes with
      | stays hstage => exact h.early j (hstage ▸ hj)
      | begins hstage _ _ => cases hstage.symm.trans hj
      | completes hstage _ _ => cases hstage.symm.trans hj
      | cancels hstage _ _ _ => cases hstage.symm.trans hj
    · exact h.early j hj
  · rw [hop] at hj ⊢
    split_ifs at hj ⊢ with heq
    · subst heq
      cases hgoes with
      | stays hstage =>
          rw [hholds]
          exact h.begun j (hstage ▸ hj)
      | begins _ hearly hnone =>
          refine iff_of_false (h.early j hearly) ?_
          rintro ⟨f, hf, -⟩
          cases hnone.symm.trans hf
      | completes hstage _ _ => cases hstage.symm.trans hj
      | cancels hstage _ _ _ => cases hstage.symm.trans hj
    · exact h.begun j hj
  · rw [hop] at hj
    split_ifs at hj with heq
    · subst heq
      cases hgoes with
      | stays hstage => exact h.ended j how (hstage ▸ hj)
      | begins hstage _ _ => cases hstage.symm.trans hj
      | completes hstage hbegun hnot =>
          cases hstage.symm.trans hj
          refine iff_of_false (fun hseen => ?_) nofun
          -- one that was told has looked at its flag, and found it set
          obtain ⟨f, hf, hset⟩ := (h.begun j hbegun).1 hseen
          cases hset.symm.trans (hnot (hlooks hseen) f hf)
      | cancels hstage hbegun hflag hset =>
          cases hstage.symm.trans hj
          exact iff_of_true ((h.begun j hbegun).2 ⟨_, hflag, hset⟩) rfl
    · exact h.ended j how hj

/-- A call that stays at its stage, while the cancel flags are as they were. -/
theorem Cancels.congr (h : Cancels s) (hseen : s'.seen = s.seen) (hcancelled : s'.cancelled = s.cancelled)
    (hstage : ∀ j, (s'.op j).stage = (s.op j).stage)
    (hholds : ∀ j, (s.op j).stage = .begun → (s'.op j).holds = (s.op j).holds) : Cancels s' where
  early j hj := by
    rw [hseen]
    exact h.early j ((hstage j).symm.trans hj)
  begun j hj := by
    have hbegun := (hstage j).symm.trans hj
    rw [hseen, hcancelled, hholds j hbegun]
    exact h.begun j hbegun
  ended j how hj := by
    rw [hseen]
    exact h.ended j how ((hstage j).symm.trans hj)

theorem stage_goto (hp : p.stage = (s.op i).stage) (j : Nat) :
    ((s.goto i p).op j).stage = (s.op j).stage := by
  rw [goto_op]
  split_ifs with heq
  · rw [heq, hp]
  · rfl

theorem holds_goto (hp : (s.op i).stage ≠ .begun) (j : Nat) (hj : (s.op j).stage = .begun) :
    ((s.goto i p).op j).holds = (s.op j).holds := by
  have hne : j ≠ i := by
    rintro rfl
    exact hp hj
  rw [goto_op, if_neg hne]

/-- A call resets the cancel flag that it has claimed. -/
theorem Cancels.clear {kind : Kind} {flag : Flag} (h : Cancels s) (hheld : Held s)
    (hphase : s.op i = .clearing kind flag) :
    Cancels ((s.goto i (.reading kind)).setCancelled flag false) := by
  have hop : ∀ j, ((s.goto i (.reading kind)).setCancelled flag false).op j =
      if j = i then .reading kind else s.op j := goto_op s i _
  have hflag : (s.op i).holds = some flag := by rw [hphase]; rfl
  -- before the flag is reset the call is not told of anything
  have hearly : i ∉ s.seen := h.early i (by rw [hphase]; rfl)
  refine ⟨fun j hj => ?_, fun j hj => ?_, fun j how hj => ?_⟩
  · rw [hop] at hj
    split_ifs at hj with heq
    · cases hj
    · exact h.early j hj
  · simp only [setCancelled_cancelled]
    rw [hop] at hj ⊢
    -- the call itself: its flag is down, and nobody has told it
    split_ifs at hj ⊢ with heq
    · subst heq
      refine iff_of_false hearly ?_
      rintro ⟨f, hf, hset⟩
      have hclaims := hheld.claims j kind flag (.inr hphase)
      rw [if_pos (Option.some.inj (hf.symm.trans hclaims))] at hset
      cases hset
    · refine (h.begun j hj).trans (exists_congr fun f => and_congr_right fun hf => ?_)
      -- another call holds another flag
      have hne : f ≠ flag := fun hsame => heq (hheld.holds_eq hflag (hsame ▸ hf))
      rw [if_neg hne]
      rfl
  · rw [hop] at hj
    split_ifs at hj with heq
    · cases hj
    · exact h.ended j how hj

/-- A cancel tells the call that it saw. -/
theorem Cancels.store {flag : Flag} {op : Nat} {cancel : Nat → CancelPhase} (h : Cancels s)
    (hheld : Held s)
    (horderly : (s.running flag = some op ∧ (s.op op).stage = .begun) ∨
      ((s.op op).stage = .ended .cancelled ∧
        ∀ k, s.running flag = some k → (s.op k).stage ≠ .begun)) :
    Cancels { s.setCancelled flag true with cancel := cancel, seen := op :: s.seen } := by
  -- the operation that a cancel is about has passed its claim
  have hnotEarly : (s.op op).stage ≠ .early := by
    rcases horderly with ⟨-, hbegun⟩ | ⟨hended, -⟩
    · rw [hbegun]
      nofun
    · rw [hended]
      nofun
  refine ⟨fun j hj hmem => ?_, fun j hj => ?_, fun j how hj => ?_⟩
  · rcases List.mem_cons.1 hmem with rfl | hold
    · exact hnotEarly hj
    · exact h.early j hj hold
  · change j ∈ op :: s.seen ↔
      ∃ f, (s.op j).holds = some f ∧ (s.setCancelled flag true).cancelled f = true
    simp only [setCancelled_cancelled, List.mem_cons]
    -- it runs and is told; or it was told before and no running call holds the flag
    rcases horderly with ⟨hrunning, hbegun⟩ | ⟨hended, hnone⟩
    · by_cases heq : j = op
      · subst heq
        exact iff_of_true (.inl rfl) ⟨flag, (hheld.holds j flag).2 hrunning, if_pos rfl⟩
      · rw [or_iff_right heq]
        refine (h.begun j hj).trans (exists_congr fun f => and_congr_right fun hf => ?_)
        have hne : f ≠ flag := fun hsame =>
          heq (hheld.holds_eq ((hheld.holds op flag).2 hrunning) (hsame ▸ hf))
        rw [if_neg hne]
    · have hne : j ≠ op := by
        rintro rfl
        cases hended.symm.trans hj
      rw [or_iff_right hne]
      refine (h.begun j hj).trans (exists_congr fun f => and_congr_right fun hf => ?_)
      have hother : f ≠ flag := fun hsame => hnone j ((hheld.holds j flag).1 (hsame ▸ hf)) hj
      rw [if_neg hother]
  · change j ∈ op :: s.seen ↔ how = .cancelled
    by_cases heq : j = op
    · subst heq
      refine iff_of_true (.head _) ?_
      rcases horderly with ⟨-, hbegun⟩ | ⟨hended, -⟩
      · cases hbegun.symm.trans hj
      · cases hended.symm.trans hj
        rfl
    · rw [List.mem_cons, or_iff_right heq]
      exact h.ended j how hj

theorem OpMoves.cancels {act : OpAct} (hmoves : OpMoves serde s i act s') (h : Cancels s)
    (hheld : Held s) (horderly : Orderly serde s (.op i act)) : Cancels s' := by
  cases hmoves with
  | goes hgoes hact hholds hunclaimed hclaims hlooked hclears =>
      refine h.goto hgoes hholds fun hseen => ?_
      cases act with
      | claim => exact absurd rfl hact
      | _ => exact horderly hseen
  | refuses hearly hunclaimed =>
      exact h.congr rfl rfl (stage_goto hearly.symm)
        (holds_goto (by rw [hearly]; nofun))
  | claims hact hphase hfree =>
      exact h.congr rfl rfl (stage_goto (by rw [hphase]; rfl)) (holds_goto (by rw [hphase]; nofun))
  | clears hphase => exact h.clear hheld hphase
  | leaves hphase hclaims =>
      exact h.congr rfl rfl (stage_goto (by rw [hphase]; rfl)) (holds_goto (by rw [hphase]; nofun))

theorem OpMoves.op_other {act : OpAct} {j : Nat} (hmoves : OpMoves serde s i act s') (hj : j ≠ i) :
    s'.op j = s.op j := by
  have hother : ∀ (u : State) (p : Phase), (u.goto i p).op j = u.op j :=
    fun u p => (goto_op u i p j).trans (if_neg hj)
  cases hmoves with
  | goes => exact hother _ _
  | refuses => exact hother s _
  | claims => exact hother s _
  | clears => exact hother s _
  | leaves => exact hother s _

/-- What a caller adds to the record. -/
def recorded (s s' : State) (caller : Caller) : State :=
  { s' with changed := if s'.flags = s.flags then s'.changed else caller :: s'.changed }

/-- A cancel is neither a run nor an operation. -/
theorem Unchanged.cancel {t : State} (h : Unchanged s) (hop : t.op = s.op) (hengine : t.engine = s.engine)
    (hrefused : t.refused = s.refused) (hchanged : ∀ a ∈ t.changed, a = .cancel i ∨ a ∈ s.changed) :
    Unchanged t := by
  refine ⟨fun j hj hmem => ?_, fun j hj hmem => ?_, fun j hj => ?_, fun j hj => ?_, fun j hj => ?_⟩
  · rw [hop] at hj
    exact h.op j hj ((hchanged _ hmem).resolve_left nofun)
  · rw [hengine] at hj
    exact h.run j hj ((hchanged _ hmem).resolve_left nofun)
  · rw [hop]
    exact h.refusedOp j (hrefused ▸ hj)
  · rw [hengine]
    obtain ⟨hearly, halive, hslot, hmem⟩ := h.refusedRun j (hrefused ▸ hj)
    exact ⟨hearly, halive, hslot, fun hnew => hmem ((hchanged _ hnew).resolve_left nofun)⟩
  · exact h.refusedCancel j (hrefused ▸ hj)

theorem stepLoad_eq {flag : Flag} (hstep : stepLoad s i flag = some s') :
    ∃ cancel, s' = { s with cancel := cancel } := by
  unfold stepLoad at hstep
  cases hcancel : s.cancel i with
  | idle =>
      simp only [hcancel] at hstep
      cases hrunning : s.running flag with
      | some j =>
          simp only [hrunning, Option.some.injEq] at hstep
          exact ⟨_, hstep.symm⟩
      | none =>
          simp only [hrunning, Option.some.injEq] at hstep
          exact ⟨_, hstep.symm⟩
  | _ => simp [hcancel] at hstep

theorem stepStore_eq (hstep : stepStore s i = some s') :
    ∃ flag op, s.cancel i = .storing flag op ∧
      s' = { s.setCancelled flag true with
        cancel := Function.update s.cancel i (.returned true)
        seen := op :: s.seen } := by
  unfold stepStore at hstep
  cases hcancel : s.cancel i with
  | storing flag op =>
      simp only [hcancel, Option.some.injEq] at hstep
      exact ⟨flag, op, rfl, hstep.symm⟩
  | _ => simp [hcancel] at hstep

end Proofs

/-! ## Calls that do not keep apart -/

section Collide

open Lifecycle (plainConfig plainText plainSerde peerText)

/-- Three operations and no more. -/
def Small (s : State) : Prop :=
  ∀ j, 3 ≤ j → s.op j = .idle

/-- The conditions, for the steps of three operations. -/
def checkOrderly (s : State) : Label → Bool
  | .run _ .guard => s.engine.slot.isSome ||
      ((s.running .prepare).isNone && (s.running .scan).isNone && (List.range 3).all fun j => !(s.op j).looked)
  | .run i .close => s.engine.slot = none || s.engine.slot = some i
  | .run i .fail => s.engine.slot = none || s.engine.slot = some i
  | .run _ _ => true
  | .op i .claim => i < 3 && (List.range 3).all fun j =>
      match s.op i, s.op j with
      | .claiming _ flag, .claiming kind _ => kind.entry.asks ≠ flag
      | _, _ => true
  | .op i act => i < 3 && (decide (i ∉ s.seen) || !act.completes plainSerde (s.op i))
  | .load _ _ => true
  | .store i =>
      match s.cancel i with
      | .storing flag j => s.running flag = some j && (s.op j).stage = .begun
      | _ => true

/-- The steps that are checked are those of three operations. -/
theorem Small.step {s s' : State} {l : Label} (h : Small s) (hcheck : checkOrderly s l = true)
    (hstep : (bridge plainSerde).step l s = some s') : Small s' := by
  obtain ⟨t, hmove, rfl⟩ := Option.map_eq_some_iff.1 hstep
  intro j hj
  change t.op j = .idle
  rw [← h j hj]
  cases l with
  | run i act =>
      obtain ⟨engine, -, rfl⟩ := Option.map_eq_some_iff.1 hmove
      rfl
  | op i act =>
      have hi : i < 3 := by
        cases act <;> exact of_decide_eq_true (Bool.and_eq_true_iff.1 hcheck).1
      exact (stepOp_moves hmove).op_other (by omega)
  | load i flag =>
      obtain ⟨cancel, rfl⟩ := stepLoad_eq hmove
      rfl
  | store i =>
      obtain ⟨flag, op, -, rfl⟩ := stepStore_eq hmove
      rfl

/-- An operation up to its claim. -/
def checks (i : Nat) (kind : Kind) : List Label :=
  [.op i (.enter kind), .op i .look, .op i .ask]

/-- An operation up to its work. -/
def works (i : Nat) (kind : Kind) (text : Text) : List Label :=
  checks i kind ++ [.op i .claim, .op i .clear, .op i (.read (.ok text) none)]

/-- A cancel that is not interrupted. -/
def cancels (i : Nat) (flag : Flag) : List Label :=
  [.load i flag, .store i]

def wireguardConfig : BridgeConfig :=
  { plainConfig with transport := "wg".toList }

def wireguardText : Text :=
  "\x7b\"mode\":\"proxy\",\"configPath\":\"/data/aether.toml\",\"transport\":\"wg\"\x7d".toList

/-- The decoding of two configurations. -/
def twoSerde : Serde := fun raw =>
  if raw = wireguardText then .ok wireguardConfig else plainSerde raw

theorem exists_run (steps : List Label) (p : State → Bool)
    (h : ((bridge twoSerde).follow (fun _ _ => true) steps { engine := { env := fun _ => none } }).any p =
      true) :
    ∃ s, Runs.Reachable (bridge twoSerde) s ∧ p s = true :=
  Runs.exists_reachable steps p ⟨_, rfl⟩ (fun _ _ hsome => hsome) h

/-- The steps of runs. -/
def runs (steps : List Lifecycle.Label) : List Label :=
  steps.filterMap fun
    | .call i act => some (.run i act)
    | .stop => none

/-- What an operation has to show at its end. -/
def answers : Ending :=
  .completed (.ok (.prepared [] [] Lifecycle.plainPeer))

end Collide

end Exclusion
end Bridge
end AuroraVpn
