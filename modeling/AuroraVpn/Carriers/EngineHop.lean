import AuroraVpn.Carriers.Service
import AuroraVpn.Lib.Runs

/-!
# EngineHop — the engine as one hop of a carrier path

`AetherCarrierClient`, with its `start`, any number of calls of `stop`, the job of the engine, the watchdog
and the watcher as threads of their own.  Each statement that reads or writes what they share is a step; the
preparation and the run come back at any time, and the preparations of others come and go.

* `right`: what a step may not do once `stop` has returned, or to what is not its own.
* `fine`: the steps that do not meet one of the races.
* `run_right`: in a run of such steps a stopped hop stays stopped.
-/

namespace AuroraVpn
namespace Carriers
namespace EngineHop

open Runs

/-! ## The client -/

structure CarrierSnapshot where
  stage : Stage := .stopped
  port : Nat := 0
  failure : Option Text := none
  deriving DecidableEq

/-- The statement of `stop` that comes next. -/
inductive StopAt
  | flag
  | prepare
  | native
  | cancel
  | clear
  | publish
  deriving DecidableEq, Repr

def StopAt.next : StopAt → Option StopAt
  | .flag => some .prepare
  | .prepare => some .native
  | .native => some .cancel
  | .cancel => some .clear
  | .clear => some .publish
  | .publish => none

/-- What `NativeAetherBridge.prepare` answers. -/
inductive Preparation
  | found
  | error (message : Option Text)
  deriving DecidableEq

/-- Where `start` is. -/
inductive Pc
  | idle
  | announcing
  | calling
  | preparing
  /-- `prepare` has come back, and the watchdog is still there. -/
  | prepared (answer : Preparation)
  /-- About to look at the time that is left. -/
  | deciding
  | launching
  | assigning
  | waiting
  | opened
  | connected
  | watched
  /-- In the `stop` of its own, after the wait has ended by the clock or by the engine. -/
  | halting (next : StopAt) (late : Bool)
  | failing (reason : Text)
  | succeeded
  | failed
  deriving DecidableEq

inductive JobPhase
  | none
  | fresh
  /-- In `run`, which has not yet installed what `NativeAetherBridge.stop` takes. -/
  | begun
  | running
  | ended
  deriving DecidableEq, Repr

/-- The coroutine that runs the engine. -/
structure Job where
  phase : JobPhase := .none
  cancelled : Bool := false
  /-- `NativeAetherBridge.stop` has reached it. -/
  told : Bool := false
  /-- `outcome`, with its error. -/
  outcome : Option (Option Text) := none
  deriving DecidableEq

/-- `job.join()` comes back. -/
def Job.complete (job : Job) : Bool :=
  match job.phase with
  | .ended => true
  | .fresh => job.cancelled
  | _ => false

/-- A job that has ended, that will not begin, or that has been told to end: nobody waits for it. -/
def Job.settled (job : Job) : Bool :=
  match job.phase with
  | .none | .ended => true
  | .fresh => job.cancelled
  | .begun => false
  | .running => job.told

inductive Watchdog
  | off
  | armed
  /-- The delay is over, and `cancelPrepare` comes next. -/
  | firing
  deriving DecidableEq, Repr

inductive Watcher
  | none
  | joining
  /-- It has found the engine to have ended by itself. -/
  | publishing
  | done
  deriving DecidableEq, Repr

/-- Whose preparation is under way. -/
inductive Owner
  | own
  | other
  deriving DecidableEq, Repr

/-- What `begun` and what stands below it is read by no statement. -/
structure State where
  pc : Pc := .idle
  published : CarrierSnapshot := {}
  stopping : Bool := false
  /-- Whether `engine` is the job. -/
  engine : Bool := false
  watchdog : Watchdog := .off
  job : Job := {}
  /-- `up` is completed. -/
  up : Bool := false
  watcher : Watcher := .none
  /-- The calls of `stop` that are under way. -/
  stops : List StopAt := []
  /-- `PREPARE_RUNNING` -/
  preparing : Option Owner := none
  /-- Whether a `stop` has begun, or has returned, since `start` did. -/
  begun : Bool := false
  returned : Bool := false
  /-- A `stop` has begun while the job was there. -/
  onPurpose : Bool := false
  /-- How often the watcher has published a failure. -/
  failures : Nat := 0
  deriving DecidableEq

/-! ## The steps -/

/-- How the wait for a route ends. -/
inductive Reached
  | up
  | joined
  | late
  deriving DecidableEq, Repr

/-- What `start` does next, and what it meets there. -/
inductive Act
  | begin
  | announce
  | enter
  | prepare (answer : Preparation)
  | disarm
  | decide (late : Bool)
  | launch
  | assign
  | reach (reached : Reached)
  | connect
  | watch
  | succeed
  | halt
  | fail
  deriving DecidableEq

inductive JobAct
  | begin
  | install
  | open
  | finish (error : Option Text)
  deriving DecidableEq

inductive Label
  | start (act : Act)
  | job (act : JobAct)
  /-- The watchdog's time is over. -/
  | delayEnds
  | cancelPrepare
  /-- The watcher has joined the job, and looks at the flag and at `engine`. -/
  | look
  | report
  /-- A call of `stop`, with its first statement; then the next statement of one that is under way. -/
  | stop
  | goOn (call : Nat)
  | otherBegins
  | otherEnds
  deriving DecidableEq

/-- A statement of `stop`; `cancelPrepare` changes nothing here. -/
def State.stopStep (s : State) : StopAt → State
  | .flag => { s with stopping := true }
  | .prepare => s
  | .native => { s with job := { s.job with told := s.job.told || s.job.phase = .running } }
  | .cancel => { s with job := { s.job with cancelled := s.job.cancelled || s.engine } }
  | .clear => { s with engine := false }
  | .publish => { s with published := { stage := .stopped } }

/-- What `start` fails with where the wait has ended without a route. -/
def waitReason (late : Bool) (outcome : Option (Option Text)) : Text :=
  if late then "the engine did not open a route in time".toList
  else (outcome.getD none).getD "the engine stopped before it opened a route".toList

section Steps

variable (port : Nat)

def stepStart (s : State) (act : Act) : Option State :=
  match act, s.pc with
  | .begin, .idle => some { s with pc := .announcing, stopping := false, begun := false, returned := false }
  | .announce, .announcing =>
      some { s with pc := .calling, published := { stage := .connecting }, watchdog := .armed }
  | .enter, .calling =>
      match s.preparing with
      | none => some { s with pc := .preparing, preparing := some .own }
      | some _ => some { s with pc := .prepared (.error (some "route preparation is already running".toList)) }
  | .prepare answer, .preparing => some { s with pc := .prepared answer, preparing := none }
  -- a watchdog whose delay is over goes on
  | .disarm, .prepared answer =>
      let s : State := { s with watchdog := if s.watchdog = .armed then .off else s.watchdog }
      match answer with
      | .found => some { s with pc := .deciding }
      | .error message =>
          some { s with pc := .failing (message.getD "the engine could not prepare a route".toList) }
  | .decide late, .deciding =>
      if late then some { s with pc := .failing "the engine did not find a route in time".toList }
      else some { s with pc := .launching }
  | .launch, .launching => some { s with pc := .assigning, job := { s.job with phase := .fresh } }
  | .assign, .assigning => some { s with pc := .waiting, engine := true }
  | .reach reached, .waiting =>
      match reached with
      | .up => if s.up then some { s with pc := .opened } else none
      | .joined => if s.job.complete then some { s with pc := .halting .flag false } else none
      | .late => some { s with pc := .halting .flag true }
  | .connect, .opened => some { s with pc := .connected, published := { stage := .connected, port := port } }
  | .watch, .connected => some { s with pc := .watched, watcher := .joining }
  | .succeed, .watched => some { s with pc := .succeeded }
  | .halt, .halting next late =>
      match next.next with
      | some after => some { s.stopStep next with pc := .halting after late }
      | none => some { s.stopStep next with pc := .failing (waitReason late s.job.outcome) }
  | .fail, .failing reason =>
      some { s with pc := .failed, published := { stage := .failed, failure := some reason } }
  | _, _ => none

/-- The job; one that is cancelled before it is dispatched never begins. -/
def stepJob (s : State) (act : JobAct) : Option State :=
  match act, s.job.phase with
  | .begin, .fresh => if s.job.cancelled then none else some { s with job := { s.job with phase := .begun } }
  | .install, .begun => some { s with job := { s.job with phase := .running } }
  | .open, .running => some { s with up := true }
  | .finish error, .begun | .finish error, .running =>
      some { s with job := { s.job with phase := .ended, outcome := some error } }
  | _, _ => none

def stepStop (s : State) : State :=
  { s.stopStep .flag with
    stops := s.stops ++ [.prepare]
    begun := true
    onPurpose := s.onPurpose || (s.job.phase ≠ .none ∧ s.job.phase ≠ .ended) }

/-- The next statement of a `stop`. -/
def stepGoOn (s : State) (call : Nat) : Option State :=
  s.stops[call]?.map fun statement =>
    match statement.next with
    | some after => { s.stopStep statement with stops := s.stops.set call after }
    | none => { s.stopStep statement with stops := s.stops.eraseIdx call, returned := true }

def step (l : Label) (s : State) : Option State :=
  match l with
  | .start act => stepStart port s act
  | .job act => stepJob s act
  -- the watchdog thread: the delay, then `cancelPrepare`
  | .delayEnds => if s.watchdog = .armed then some { s with watchdog := .firing } else none
  | .cancelPrepare => if s.watchdog = .firing then some { s with watchdog := .off } else none
  -- the watcher thread: it joins the job, and reports an end that nobody asked for
  | .look =>
      if s.watcher = .joining ∧ s.job.complete then
        some { s with watcher := if s.stopping ∨ ¬ s.engine then .done else .publishing }
      else none
  | .report =>
      if s.watcher = .publishing then
        some { s with
          watcher := .done
          failures := s.failures + 1
          published :=
            { stage := .failed
              failure := some ((s.job.outcome.getD none).getD "the engine stopped".toList) } }
      else none
  | .stop => some (stepStop s)
  | .goOn call => stepGoOn s call
  | .otherBegins => if s.preparing = none then some { s with preparing := some .other } else none
  | .otherEnds => if s.preparing = some .other then some { s with preparing := none } else none

/-- A client that is new. -/
def engineHop : Machine State Label where
  init s := s = {}
  enabled l s := (step port l s).isSome
  step := step port

end Steps

/-! ## What is wanted -/

/-- What a step may do: nothing runs, connects or succeeds once a `stop` has returned, no failure is published
of an engine that was stopped on purpose, a start that fails leaves no engine behind, and the watchdog cancels
no preparation but its own. -/
def right (s : State) : Label → Bool
  | .job .begin | .start .connect | .start .succeed => !s.returned
  | .start .fail => !s.onPurpose && s.job.settled
  | .report => !s.onPurpose
  | .cancelPrepare => s.preparing ≠ some .other
  | _ => true

/-- Once the watcher is done, an engine that ended by itself after the success has been reported once, and one
that was stopped on purpose has not; and a watcher whose engine has ended goes on until it is done. -/
structure Once (port : Nat) (s : State) : Prop where
  most : s.failures ≤ 1
  exact : s.watcher = .done → (s.failures = 1 ↔ s.onPurpose = false)
  goesOn : s.pc = .succeeded → s.job.phase = .ended → s.watcher ≠ .done →
    (step port .look s).isSome ∨ (step port .report s).isSome

/-- From the moment at which `start` has found the preparation in time until it has a route or has failed. -/
def State.midway (s : State) : Bool :=
  match s.pc with
  | .launching | .assigning | .waiting | .halting .. => true
  | .failing _ => s.job.phase ≠ .none
  | _ => false

/-- `start` has a route, and has not returned. -/
def Pc.arriving : Pc → Bool
  | .opened | .connected | .watched => true
  | _ => false

/-- The engine has ended by itself, and the watcher has not looked yet. -/
def State.unseen (s : State) : Bool :=
  (s.pc = .opened || s.pc = .connected || s.watcher = .joining) && s.job.phase = .ended && !s.onPurpose

/-- **A step that meets none of the races.**  No `stop` is under way where `start` begins, none has begun where
the preparation is found to have succeeded in time, none takes a step from there until there is a route, none
returns from there until `start` does, and none begins between the engine's own end and the watcher's look; the
`stop` of `start` meets no engine that has begun and cannot be told yet, nor does one begin before it is cancelled;
and the watchdog's time is not over, with nothing done yet, while another prepares. -/
def fine (s : State) : Label → Bool
  | .start .begin => s.stops = []
  | .start (.decide late) => late || !s.begun
  | .start .halt => match s.pc with
      | .halting .native _ => s.job.phase ≠ .begun
      | _ => true
  | .job .begin => match s.pc with
      | .halting .cancel _ => false
      | _ => true
  | .stop => !s.midway && !s.unseen
  | .goOn call => !s.midway && !(s.pc.arriving && s.stops[call]? = some .publish)
  | .delayEnds => s.preparing ≠ some .other
  | .otherBegins => s.watchdog ≠ .firing
  | _ => true

/-! ## The invariant -/

/-- Before the job is there. -/
def Pc.early : Pc → Bool
  | .idle | .announcing | .calling | .preparing | .prepared _ | .deciding | .launching => true
  | _ => false

/-- The job is there, and no `stop` has begun. -/
def Pc.holds : Pc → Bool
  | .waiting | .opened | .connected | .watched => true
  | .halting next _ => next = .flag || next = .prepare || next = .native || next = .cancel
  | _ => false

/-- `start` has cleared the flag, and has not come to a `stop` of its own or to a failure. -/
def Pc.quiet : Pc → Bool
  | .idle | .halting .. | .failing _ | .failed => false
  | _ => true

def Pc.routed : Pc → Bool
  | .opened | .connected | .watched | .succeeded => true
  | _ => false

def Pc.over : Pc → Bool
  | .halting .clear _ | .halting .publish _ | .failing _ | .failed => true
  | _ => false

/-- What is known of the flags and of the calls of `stop`. -/
structure Calls (s : State) : Prop where
  stops : s.pc ≠ .idle → s.begun = false → s.stops = []
  returned : s.pc ≠ .idle → s.returned = true → s.begun = true
  midway : s.midway = true → s.begun = false
  purpose : s.begun = false → s.onPurpose = false
  cleared : s.begun = false → s.pc.quiet = true → s.stopping = false
  stopping : s.pc.routed = true → s.begun = true → s.stopping = true
  unreturned : s.pc.arriving = true → s.returned = false
  engine : s.begun = false → s.pc.holds = true ∨ s.pc.routed = true → s.engine = true

/-- What is known of the job. -/
structure Work (s : State) : Prop where
  early : s.pc.early = true → s.job = {}
  unset : s.pc.early = true → s.engine = false
  launched : s.pc = .assigning ∨ s.pc.holds = true ∨ s.pc.routed = true → s.job.phase ≠ .none
  absent : s.job.phase = .none → s.onPurpose = false
  up : s.up = true → s.job.phase = .running ∨ s.job.phase = .ended
  routed : s.pc.routed = true → s.up = true
  toldFirst : ∀ late, s.pc = .halting .cancel late → s.job.phase ≠ .begun ∧
    (s.job.phase = .running → s.job.told = true)
  settled : s.pc.over = true → s.job.settled = true

/-- What is known of the watcher. -/
structure Watch (s : State) : Prop where
  watched : s.watcher ≠ .none → s.pc = .watched ∨ s.pc = .succeeded
  started : s.pc = .watched ∨ s.pc = .succeeded → s.watcher ≠ .none
  unreported : s.watcher = .none ∨ s.watcher = .joining → s.failures = 0
  joining : s.pc = .opened ∨ s.pc = .connected ∨ s.watcher = .joining → s.begun = true → s.onPurpose = true
  publishing : s.watcher = .publishing → s.failures = 0 ∧ s.onPurpose = false ∧ s.job.phase = .ended
  done : s.watcher = .done → s.job.phase = .ended ∧ s.failures = if s.onPurpose then 0 else 1

/-- What the steps keep that meet none of the races. -/
structure Inv (s : State) : Prop extends Calls s, Work s, Watch s where
  firing : s.watchdog = .firing → s.preparing ≠ some .other

/-! ## What a step can do -/

/-- The statements of `start`, one by one. -/
inductive Moves (port : Nat) (s : State) : Act → State → Prop
  | begin (hpc : s.pc = .idle) :
      Moves port s .begin { s with pc := .announcing, stopping := false, begun := false, returned := false }
  | announce (hpc : s.pc = .announcing) :
      Moves port s .announce { s with pc := .calling, published := { stage := .connecting }, watchdog := .armed }
  | enter (hpc : s.pc = .calling) (hfree : s.preparing = none) :
      Moves port s .enter { s with pc := .preparing, preparing := some .own }
  | refused (hpc : s.pc = .calling) (answer : Preparation) : Moves port s .enter { s with pc := .prepared answer }
  | prepare (hpc : s.pc = .preparing) (answer : Preparation) :
      Moves port s (.prepare answer) { s with pc := .prepared answer, preparing := none }
  | disarm {answer : Preparation} (hpc : s.pc = .prepared answer) {pc : Pc}
      (hnext : pc = .deciding ∨ ∃ reason, pc = .failing reason) :
      Moves port s .disarm
        { s with pc := pc, watchdog := if s.watchdog = .armed then .off else s.watchdog }
  | late (hpc : s.pc = .deciding) (reason : Text) : Moves port s (.decide true) { s with pc := .failing reason }
  | inTime (hpc : s.pc = .deciding) : Moves port s (.decide false) { s with pc := .launching }
  | launch (hpc : s.pc = .launching) :
      Moves port s .launch { s with pc := .assigning, job := { s.job with phase := .fresh } }
  | assign (hpc : s.pc = .assigning) : Moves port s .assign { s with pc := .waiting, engine := true }
  | up (hpc : s.pc = .waiting) (hup : s.up = true) : Moves port s (.reach .up) { s with pc := .opened }
  | halted (hpc : s.pc = .waiting) (reached : Reached) (late : Bool) :
      Moves port s (.reach reached) { s with pc := .halting .flag late }
  | connect (hpc : s.pc = .opened) :
      Moves port s .connect { s with pc := .connected, published := { stage := .connected, port := port } }
  | watch (hpc : s.pc = .connected) : Moves port s .watch { s with pc := .watched, watcher := .joining }
  | succeed (hpc : s.pc = .watched) : Moves port s .succeed { s with pc := .succeeded }
  | halt {next after : StopAt} {late : Bool} (hpc : s.pc = .halting next late) (hnext : next.next = some after) :
      Moves port s .halt { s.stopStep next with pc := .halting after late }
  | stopped {late : Bool} (hpc : s.pc = .halting .publish late) (reason : Text) :
      Moves port s .halt { s.stopStep .publish with pc := .failing reason }
  | fail {reason : Text} (hpc : s.pc = .failing reason) :
      Moves port s .fail { s with pc := .failed, published := { stage := .failed, failure := some reason } }

section Proofs

variable {port : Nat} {s s' : State}

theorem stepStart_moves {act : Act} (h : stepStart port s act = some s') : Moves port s act s' := by
  -- along the phases of `start`, in the order of its code
  unfold stepStart at h
  split at h
  next hpc => cases h; exact .begin hpc
  next hpc => cases h; exact .announce hpc
  next hpc =>
    split at h
    next hfree => cases h; exact .enter hpc hfree
    next => cases h; exact .refused hpc _
  next answer hpc => cases h; exact .prepare hpc answer
  next answer hpc =>
    cases answer with
    | found => cases h; exact .disarm hpc (.inl rfl)
    | error message => cases h; exact .disarm hpc (.inr ⟨_, rfl⟩)
  next late hpc =>
    cases late with
    | true => cases h; exact .late hpc _
    | false => cases h; exact .inTime hpc
  next hpc => cases h; exact .launch hpc
  next hpc => cases h; exact .assign hpc
  next reached hpc =>
    -- how the job was reached: its port is up, it has ended, or the time is over
    cases reached with
    | up =>
        dsimp only at h
        split at h
        · cases h
          exact .up hpc ‹_›
        · cases h
    | joined =>
        dsimp only at h
        split at h
        · cases h
          exact .halted hpc _ _
        · cases h
    | late => cases h; exact .halted hpc _ _
  next hpc => cases h; exact .connect hpc
  next hpc => cases h; exact .watch hpc
  next hpc => cases h; exact .succeed hpc
  next next late hpc =>
    -- the statements of the way out, one after another
    cases hnext : next.next with
    | some after =>
        rw [hnext] at h
        cases h
        exact .halt hpc hnext
    | none =>
        rw [hnext] at h
        cases next <;> cases hnext
        cases h
        exact .stopped hpc _
  next hpc => cases h; exact .fail hpc
  next => cases h

/-- Where the engine was told, or has ended, or has not begun, it is left alone once it is cancelled. -/
theorem settled_of_told {job : Job} (hbegun : job.phase ≠ .begun) (htold : job.phase = .running → job.told = true) :
    { job with cancelled := true }.settled = true := by
  unfold Job.settled
  cases hphase : job.phase with
  | begun => exact absurd hphase hbegun
  | running => exact htold hphase
  | _ => rfl

/-- Behind its first statement `start` leaves the calls of `stop` alone. -/
theorem Moves.leaves {act : Act} (h : Moves port s act s') (hact : act ≠ .begin) :
    s.pc ≠ .idle ∧ s'.stops = s.stops ∧ s'.begun = s.begun ∧ s'.returned = s.returned := by
  cases h with
  | begin => exact absurd rfl hact
  | @halt next _ _ hpc => cases next <;> exact ⟨by simp [hpc], rfl, rfl, rfl⟩
  | _ => exact ⟨by simp [*], rfl, rfl, rfl⟩

/-- `start` begins no job but its own, brings nothing up and stops nothing on purpose. -/
theorem Moves.job {act : Act} (h : Moves port s act s') : s'.up = s.up ∧ s'.onPurpose = s.onPurpose ∧
    (s.pc = .launching ∧ s'.job.phase = .fresh ∨ s'.pc ≠ .assigning ∧ s'.job.phase = s.job.phase) := by
  cases h with
  | launch hpc => exact ⟨rfl, rfl, .inl ⟨hpc, rfl⟩⟩
  | @halt next => cases next <;> exact ⟨rfl, rfl, .inr ⟨nofun, rfl⟩⟩
  | disarm _ hnext => rcases hnext with rfl | ⟨_, rfl⟩ <;> exact ⟨rfl, rfl, .inr ⟨nofun, rfl⟩⟩
  | _ => exact ⟨rfl, rfl, .inr ⟨nofun, rfl⟩⟩

/-- What `start` does between the preparation and its end comes from there, or meets no `stop`. -/
theorem Moves.midway {act : Act} (h : Moves port s act s') (hearly : s.pc.early = true → s.job = {})
    (hfine : fine s (.start act) = true) (hmidway : s'.midway = true) :
    s.midway = true ∨ s.begun = false := by
  cases h with
  | inTime hpc => exact .inr (by simpa [fine] using hfine)
  | launch hpc | assign hpc | halted hpc | halt hpc | stopped hpc => exact .inl (by simp [State.midway, hpc])
  | late hpc =>
      have hjob := hearly (by rw [hpc]; rfl)
      simp [State.midway, hjob] at hmidway
  | disarm hpc hnext =>
      have hjob := hearly (by rw [hpc]; rfl)
      rcases hnext with rfl | ⟨reason, rfl⟩ <;> simp [State.midway, hjob] at hmidway
  | _ => cases hmidway

/-- The flag of a `start` that goes on is not touched. -/
theorem Moves.quiet {act : Act} (h : Moves port s act s') (hact : act ≠ .begin) (hquiet : s'.pc.quiet = true) :
    s.pc.quiet = true ∧ s'.stopping = s.stopping := by
  cases h with
  | begin => exact absurd rfl hact
  | disarm hpc => exact ⟨by rw [hpc]; rfl, rfl⟩
  | late | halted | halt | stopped | fail => cases hquiet
  | announce hpc | enter hpc | refused hpc | prepare hpc | inTime hpc | launch hpc | assign hpc | up hpc
  | connect hpc | watch hpc | succeed hpc => exact ⟨by rw [hpc]; rfl, rfl⟩

/-- A route that is there was there, or opens where `start` waits for it. -/
theorem Moves.routed {act : Act} (h : Moves port s act s') (hrouted : s'.pc.routed = true) :
    (s.pc.routed = true ∧ (s'.pc.arriving = true → s.pc.arriving = true) ∨ s.pc = .waiting ∧ s.up = true) ∧
      s'.stopping = s.stopping ∧ s'.engine = s.engine := by
  cases h with
  | up hpc hup => exact ⟨.inr ⟨hpc, hup⟩, rfl, rfl⟩
  | connect hpc | watch hpc | succeed hpc => 
      exact ⟨.inl ⟨by rw [hpc]; rfl, fun _ => by rw [hpc]; rfl⟩, rfl, rfl⟩
  | disarm _ hnext => rcases hnext with rfl | ⟨_, rfl⟩ <;> cases hrouted
  | _ => cases hrouted

/-- Where the job is held, it was, and `engine` is what it was, or it was assigned just now. -/
theorem Moves.holds {act : Act} (h : Moves port s act s') (hholds : s'.pc.holds = true)
    (hrouted : s'.pc.routed = false) :
    s.pc = .assigning ∧ s'.engine = true ∨ s.pc.holds = true ∧ s'.engine = s.engine := by
  cases h with
  | assign hpc => exact .inl ⟨hpc, rfl⟩
  | halted hpc => exact .inr ⟨by rw [hpc]; rfl, rfl⟩
  | @halt next _ _ hpc hnext =>
      cases next <;> cases hnext <;> first | exact .inr ⟨by rw [hpc]; rfl, rfl⟩ | cases hholds
  | up | connect | watch | succeed => cases hrouted
  | disarm _ hnext => rcases hnext with rfl | ⟨_, rfl⟩ <;> cases hholds
  | _ => cases hholds


theorem Pc.routed_of_arriving {pc : Pc} (h : pc.arriving = true) : pc.routed = true := by
  cases pc <;> first | rfl | cases h

theorem Calls.start {act : Act} (h : Calls s) (hwork : Work s)
    (hfine : fine s (.start act) = true) (hmoves : Moves port s act s') : Calls s' := by
  by_cases hact : act = .begin
  · subst hact
    -- `begin` makes a client of its own: no call has come yet, and there is no job
    cases hmoves with
    | begin hpc =>
        have hjob := hwork.early (by rw [hpc]; rfl)
        exact
          { stops := fun _ _ => by simpa [fine] using hfine
            returned := fun _ => nofun
            midway := nofun
            purpose := fun _ => hwork.absent (by rw [hjob])
            cleared := fun _ _ => rfl
            stopping := nofun
            unreturned := nofun
            engine := fun _ hheld => by rcases hheld with hheld | hheld <;> cases hheld }
  -- any other statement: the flags of the calls stay, and what the statement sets is what they say already
  · obtain ⟨haway, hstops, hbegun, hreturned⟩ := hmoves.leaves hact
    have hwaiting : s.pc = .waiting → s.begun = false := fun hpc => h.midway (by simp [State.midway, hpc])
    exact
      { stops := fun _ hb => hstops.trans (h.stops haway (hbegun ▸ hb))
        returned := fun _ hr => hbegun.trans (h.returned haway (hreturned ▸ hr))
        midway := fun hm => hbegun.trans ((hmoves.midway hwork.early hfine hm).elim h.midway id)
        purpose := fun hb => hmoves.job.2.1.trans (h.purpose (hbegun ▸ hb))
        cleared := fun hb hq => by
          obtain ⟨hquiet, hflag⟩ := hmoves.quiet hact hq
          exact hflag.trans (h.cleared (hbegun ▸ hb) hquiet)
        stopping := fun hr hb => by
          obtain ⟨⟨hrouted, -⟩ | ⟨hpc, -⟩, hflag, -⟩ := hmoves.routed hr
          · exact hflag.trans (h.stopping hrouted (hbegun ▸ hb))
          · cases (hwaiting hpc).symm.trans (hbegun.symm.trans hb)
        unreturned := fun ha => by
          obtain ⟨⟨-, harriving⟩ | ⟨hpc, -⟩, -, -⟩ := hmoves.routed (Pc.routed_of_arriving ha)
          · exact hreturned.trans (h.unreturned (harriving ha))
          · by_contra hr
            have hb := h.returned haway (by simpa [hreturned] using hr)
            cases (hwaiting hpc).symm.trans hb
        engine := fun hb hheld => by
          have hb' : s.begun = false := hbegun ▸ hb
          by_cases hr : s'.pc.routed = true
          · obtain ⟨⟨hrouted, -⟩ | ⟨hpc, -⟩, -, hengine⟩ := hmoves.routed hr
            · exact hengine.trans (h.engine hb' (.inr hrouted))
            · exact hengine.trans (h.engine hb' (.inl (by rw [hpc]; rfl)))
          -- the hop was held before the statement, or this is the one that takes it
          · rcases hmoves.holds (hheld.resolve_right hr) (Bool.eq_false_iff.2 hr) with
              ⟨-, htrue⟩ | ⟨hholds, hengine⟩
            · exact htrue
            · exact hengine.trans (h.engine hb' (.inl hholds)) }


/-- Before the job is there nothing of it is. -/
theorem Moves.early {act : Act} (h : Moves port s act s') (hearly : s'.pc.early = true) :
    s.pc.early = true ∧ s'.job = s.job ∧ s'.engine = s.engine := by
  cases h with
  | begin hpc | announce hpc | enter hpc | refused hpc | prepare hpc | inTime hpc =>
      exact ⟨by rw [hpc]; rfl, rfl, rfl⟩
  | disarm hpc => exact ⟨by rw [hpc]; rfl, rfl, rfl⟩
  | _ => cases hearly

/-- The `stop` of `start` cancels a job that it has told. -/
theorem Moves.told {act : Act} (h : Moves port s act s') (hfine : fine s (.start act) = true) {late : Bool}
    (hpc : s'.pc = .halting .cancel late) :
    s'.job.phase ≠ .begun ∧ (s'.job.phase = .running → s'.job.told = true) := by
  cases h with
  | @halt next after _ hnative hnext =>
      cases hpc
      cases next <;> cases hnext
      refine ⟨by simpa [fine, hnative, State.stopStep] using hfine, fun hphase => ?_⟩
      have hrunning : s.job.phase = .running := hphase
      simp [State.stopStep, hrunning]
  | disarm _ hnext => rcases hnext with rfl | ⟨_, rfl⟩ <;> cases hpc
  | _ => cases hpc

/-- What is over was over, or is so because there is no job, or because it has been cancelled. -/
theorem Moves.over {act : Act} (h : Moves port s act s') (hover : s'.pc.over = true) :
    (s.pc.over = true ∨ s.pc.early = true) ∧ s'.job = s.job ∨
      (∃ late, s.pc = .halting .cancel late) ∧
        s'.job = { s.job with cancelled := s.job.cancelled || s.engine } := by
  cases h with
  | disarm hpc | late hpc => exact .inl ⟨.inr (by rw [hpc]; rfl), rfl⟩
  | @halt next _ late hpc hnext =>
      cases next <;> cases hnext
      case halt.cancel.refl => exact .inr ⟨⟨_, hpc⟩, rfl⟩
      case halt.clear.refl => exact .inl ⟨.inl (by rw [hpc]; rfl), rfl⟩
      all_goals cases hover
  | stopped hpc | fail hpc => exact .inl ⟨.inl (by rw [hpc]; rfl), rfl⟩
  | _ => cases hover

theorem Work.start {act : Act} (h : Work s) (hengine : ∀ late, s.pc = .halting .cancel late → s.engine = true)
    (hfine : fine s (.start act) = true) (hmoves : Moves port s act s') : Work s' := by
  obtain ⟨hup, hpurpose, hphase⟩ := hmoves.job
  have hnone : s.pc = .launching → s.job.phase = .none := fun hpc => by
    rw [h.early (by rw [hpc]; rfl)]
  exact
    { early := fun he => (hmoves.early he).2.1.trans (h.early (hmoves.early he).1)
      unset := fun he => (hmoves.early he).2.2.trans (h.unset (hmoves.early he).1)
      launched := fun hthere => by
        -- the job was launched by this statement, or it is the one of before
        rcases hphase with ⟨-, hfresh⟩ | ⟨haway, hsame⟩
        · rw [hfresh]
          nofun
        · rw [hsame]
          refine h.launched ?_
          rcases hthere.resolve_left haway with hholds | hrouted
          · by_cases hr : s'.pc.routed = true
            · obtain ⟨⟨hrouted, -⟩ | ⟨hpc, -⟩, -⟩ := hmoves.routed hr
              · exact .inr (.inr hrouted)
              · exact .inr (.inl (by rw [hpc]; rfl))
            · rcases hmoves.holds hholds (Bool.eq_false_iff.2 hr) with ⟨hpc, -⟩ | ⟨hheld, -⟩
              · exact .inl hpc
              · exact .inr (.inl hheld)
          · obtain ⟨⟨hrouted, -⟩ | ⟨hpc, -⟩, -⟩ := hmoves.routed hrouted
            · exact .inr (.inr hrouted)
            · exact .inr (.inl (by rw [hpc]; rfl))
      absent := fun hn => by
        rcases hphase with ⟨-, hfresh⟩ | ⟨-, hsame⟩
        · cases hfresh.symm.trans hn
        · exact hpurpose.trans (h.absent (hsame.symm.trans hn))
      up := fun hu => by
        have hbefore := h.up (hup.symm.trans hu)
        rcases hphase with ⟨hpc, -⟩ | ⟨-, hsame⟩
        · simp [hnone hpc] at hbefore
        · rwa [hsame]
      routed := fun hr => by
        obtain ⟨⟨hrouted, -⟩ | ⟨-, hopen⟩, -⟩ := hmoves.routed hr
        · exact hup.trans (h.routed hrouted)
        · exact hup.trans hopen
      toldFirst := fun _ hpc => hmoves.told hfine hpc
      settled := fun ho => by
        -- the end comes from an end, from an early failure, or from the cancel of a stop that came late
        rcases hmoves.over ho with ⟨hover | hearly, hsame⟩ | ⟨⟨late, hpc⟩, hcancelled⟩
        · rw [hsame]
          exact h.settled hover
        · rw [hsame, h.early hearly]
          rfl
        · obtain ⟨hbegun, htold⟩ := h.toldFirst late hpc
          rw [hcancelled, hengine late hpc, Bool.or_true]
          exact settled_of_told hbegun htold }

/-- The watcher is begun by `start` where it has a route. -/
theorem Moves.watcher {act : Act} (h : Moves port s act s') : s'.failures = s.failures ∧
    (s.pc = .connected ∧ s'.pc = .watched ∧ s'.watcher = .joining ∨
      s'.watcher = s.watcher ∧
        (s'.pc = .watched ∨ s'.pc = .succeeded ↔ s.pc = .watched ∨ s.pc = .succeeded)) := by
  cases h with
  | watch hpc => exact ⟨rfl, .inl ⟨hpc, rfl, rfl⟩⟩
  | @halt next _ _ hpc => cases next <;> exact ⟨rfl, .inr ⟨rfl, by simp [hpc]⟩⟩
  | disarm hpc hnext => rcases hnext with rfl | ⟨_, rfl⟩ <;> exact ⟨rfl, .inr ⟨rfl, by simp [hpc]⟩⟩
  | stopped hpc => exact ⟨rfl, .inr ⟨rfl, by simp [hpc]⟩⟩
  | _ => exact ⟨rfl, .inr ⟨rfl, by simp [*]⟩⟩

/-- Who waits for the engine behind the route has waited for it, or waits since the route was opened. -/
theorem Moves.joining {act : Act} (h : Moves port s act s')
    (hjoining : s'.pc = .opened ∨ s'.pc = .connected ∨ s'.watcher = .joining) :
    s.pc = .waiting ∨ s.pc = .opened ∨ s.pc = .connected ∨ s.watcher = .joining := by
  cases h with
  | up hpc => exact .inl hpc
  | connect hpc => exact .inr (.inl hpc)
  | watch hpc => exact .inr (.inr (.inl hpc))
  | @halt next => exact .inr (.inr (.inr (by cases next <;> simpa [State.stopStep] using hjoining)))
  | stopped => exact .inr (.inr (.inr (by simpa [State.stopStep] using hjoining)))
  | disarm _ hnext => rcases hnext with rfl | ⟨_, rfl⟩ <;> exact .inr (.inr (.inr (by simpa using hjoining)))
  | _ => exact .inr (.inr (.inr (by simpa using hjoining)))

theorem Watch.start {act : Act} (h : Watch s) (hcalls : Calls s) (hmoves : Moves port s act s') : Watch s' := by
  obtain ⟨hfailures, hwatcher⟩ := hmoves.watcher
  obtain ⟨-, hpurpose, hphase⟩ := hmoves.job
  -- once there is a watcher the start is over, so no statement of it touches the job
  have hidle : s.watcher ≠ .none → s.pc ≠ .launching ∧ s.pc ≠ .connected := fun hw => by
    rcases h.watched hw with hpc | hpc <;> rw [hpc] <;> exact ⟨nofun, nofun⟩
  have hnone : s.pc = .connected → s.watcher = .none := fun hpc => by
    by_contra hw
    exact (hidle hw).2 hpc
  have hsame : s.watcher ≠ .none → s'.job.phase = s.job.phase := fun hw =>
    (hphase.resolve_left fun hlaunch => (hidle hw).1 hlaunch.1).2
  refine
    { watched := fun hw => ?_
      started := fun hpc => ?_
      unreported := fun hw => hfailures.trans ?_
      joining := fun hj hb => ?_
      publishing := fun hw => ?_
      done := fun hw => ?_ }
  -- a watcher comes at `connected` alone, and from then on only its own steps move it
  · rcases hwatcher with ⟨-, hpc, -⟩ | ⟨hkept, hiff⟩
    · exact .inl hpc
    · exact hiff.2 (h.watched (hkept ▸ hw))
  · rcases hwatcher with ⟨-, -, hw⟩ | ⟨hkept, hiff⟩
    · rw [hw]
      nofun
    · rw [hkept]
      exact h.started (hiff.1 hpc)
  · rcases hwatcher with ⟨hpc, -, -⟩ | ⟨hkept, -⟩
    · exact h.unreported (.inl (hnone hpc))
    · exact h.unreported (hkept ▸ hw)
  · by_cases hact : act = .begin
    · subst hact
      cases hmoves
      cases hb
    · have hbegun := (hmoves.leaves hact).2.2.1
      rw [hbegun] at hb
      rcases hmoves.joining hj with hpc | hwaits
      · cases (hcalls.midway (by simp [State.midway, hpc])).symm.trans hb
      · exact hpurpose.trans (h.joining hwaits hb)
  · rcases hwatcher with ⟨-, -, hjoining⟩ | ⟨hkept, -⟩
    · cases hjoining.symm.trans hw
    · have hw' : s.watcher = .publishing := hkept.symm.trans hw
      obtain ⟨hzero, hown, hended⟩ := h.publishing hw'
      exact ⟨hfailures.trans hzero, hpurpose.trans hown, (hsame (by simp [hw'])).trans hended⟩
  · rcases hwatcher with ⟨-, -, hjoining⟩ | ⟨hkept, -⟩
    · cases hjoining.symm.trans hw
    · have hw' : s.watcher = .done := hkept.symm.trans hw
      obtain ⟨hended, hcount⟩ := h.done hw'
      exact ⟨(hsame (by simp [hw'])).trans hended, by rw [hfailures, hpurpose]; exact hcount⟩

theorem firing_start {act : Act} (h : s.watchdog = .firing → s.preparing ≠ some .other)
    (hmoves : Moves port s act s') : s'.watchdog = .firing → s'.preparing ≠ some .other := by
  cases hmoves with
  | disarm hpc hnext =>
      intro hfires
      refine h ?_
      cases hdog : s.watchdog <;> simp_all
  | @halt next after late hpc hnext => cases next <;> simpa [State.stopStep] using h
  | _ => simp_all [State.stopStep]

theorem Inv.start {act : Act} (h : Inv s) (hfine : fine s (.start act) = true)
    (hstep : stepStart port s act = some s') : Inv s' := by
  have hmoves := stepStart_moves hstep
  have hengine : ∀ late, s.pc = .halting .cancel late → s.engine = true := fun late hpc =>
    h.engine (h.midway (by simp [State.midway, hpc])) (.inl (by simp [hpc, Pc.holds]))
  exact
    { h.toCalls.start h.toWork hfine hmoves, h.toWork.start hengine hfine hmoves,
      h.toWatch.start h.toCalls hmoves with
      firing := firing_start h.firing hmoves }

/-- A step of a job that is there and has not ended. -/
theorem Inv.setJob {job : Job} (h : Inv s) (hlive : s.job.phase ≠ .none ∧ s.job.phase ≠ .ended)
    (hnone : job.phase ≠ .none) (hup : s.up = true → job.phase = .running ∨ job.phase = .ended)
    (htold : ∀ late, s.pc = .halting .cancel late →
      job.phase ≠ .begun ∧ (job.phase = .running → job.told = true))
    (hsettled : s.pc.over = true → job.settled = true) : Inv { s with job := job } := by
  have hearly : s.pc.early ≠ true := fun he => hlive.1 (by rw [h.early he])
  have hmidway : ({ s with job := job } : State).midway = s.midway := by
    simp [State.midway, hlive.1, hnone]
  exact
    { h with
      midway := fun hm => h.midway (hmidway ▸ hm)
      early := fun he => absurd he hearly
      launched := fun _ => hnone
      absent := fun hn => absurd hn hnone
      up := hup
      toldFirst := htold
      settled := hsettled
      publishing := fun hw => absurd (h.publishing hw).2.2 hlive.2
      done := fun hw => absurd (h.done hw).1 hlive.2 }

theorem Inv.job {act : JobAct} (h : Inv s) (hfine : fine s (.job act) = true)
    (hstep : stepJob s act = some s') : Inv s' := by
  have hup := h.up
  have htold := h.toldFirst
  have hsettled := h.settled
  -- along the phases of the job
  unfold stepJob at hstep
  split at hstep
  next hphase =>
    split at hstep
    · cases hstep
    · cases hstep
      -- a job that finds a cancellation does not begin
      have hcancel : ∀ late, s.pc ≠ .halting .cancel late := by
        intro late hpc
        simp [fine, hpc] at hfine
      apply h.setJob <;> simp_all [Job.settled]
  next hphase =>
    cases hstep
    apply h.setJob <;> simp_all [Job.settled]
  next hphase =>
    cases hstep
    exact { h with up := fun _ => .inl hphase, routed := fun _ => rfl }
  next hphase =>
    cases hstep
    apply h.setJob <;> simp_all [Job.settled]
  next hphase =>
    cases hstep
    apply h.setJob <;> simp_all [Job.settled]
  next => cases hstep

theorem Inv.stop (h : Inv s) (hfine : fine s .stop = true) : Inv (stepStop s) := by
  simp only [fine, Bool.and_eq_true, Bool.not_eq_true'] at hfine
  obtain ⟨hnot, hlook⟩ := hfine
  -- wherever `start` still waits for the engine there is a job
  have hthere : s.pc = .opened ∨ s.pc = .connected ∨ s.watcher = .joining → s.job.phase ≠ .none := by
    rintro (hpc | hpc | hw)
    · exact h.launched (by simp [hpc, Pc.routed])
    · exact h.launched (by simp [hpc, Pc.routed])
    · rcases h.watched (by simp [hw]) with hpc | hpc
      all_goals exact h.launched (by simp [hpc, Pc.routed])
  -- who stops a job that is over, or none, stops nothing on purpose
  have hpurpose : s.job.phase = .none ∨ s.job.phase = .ended → (stepStop s).onPurpose = s.onPurpose := by
    intro hphase
    rcases hphase with hphase | hphase <;> simp [stepStop, hphase]
  exact
    { h with
      stops := fun _ hb => nomatch hb
      returned := fun _ _ => rfl
      midway := fun hm => absurd (hnot.symm.trans hm) (by decide)
      purpose := fun hb => nomatch hb
      cleared := fun hb => nomatch hb
      stopping := fun _ _ => rfl
      engine := fun hb => nomatch hb
      absent := fun hn => (hpurpose (.inl hn)).trans (h.absent hn)
      joining := fun hw _ => by
        by_cases hended : s.job.phase = .ended
        · -- the watcher has not yet looked at an engine that ended by itself
          have hw' : s.pc = .opened ∨ s.pc = .connected ∨ s.watcher = .joining := hw
          rw [hpurpose (.inr hended)]
          by_contra hnot
          simp [State.unseen, hw', hended, hnot, or_assoc] at hlook
        · simp [stepStop, hended, hthere hw]
      publishing := fun hw => by
        obtain ⟨hnone, hown, hended⟩ := h.publishing hw
        exact ⟨hnone, (hpurpose (.inr hended)).trans hown, hended⟩
      done := fun hw => by
        obtain ⟨hended, hcount⟩ := h.done hw
        refine ⟨hended, ?_⟩
        rw [hpurpose (.inr hended)]
        exact hcount }

theorem settled_native {job : Job} (h : job.settled = true) :
    { job with told := job.told || job.phase = JobPhase.running }.settled = true := by
  unfold Job.settled at h ⊢
  cases hphase : job.phase <;> simp_all

theorem settled_cancel {job : Job} (engine : Bool) (h : job.settled = true) :
    { job with cancelled := job.cancelled || engine }.settled = true := by
  unfold Job.settled at h ⊢
  cases hphase : job.phase <;> simp_all

/-- A statement of `stop`, where `start` is not between the preparation and its end. -/
theorem Inv.stopStep (h : Inv s) (hnot : s.midway = false) (hbegun : s.pc ≠ .idle → s.begun = true)
    (statement : StopAt) : Inv (s.stopStep statement) := by
  have hidle : s.begun = false → s.pc = .idle := by
    intro hb
    by_contra hpc
    simp [hbegun hpc] at hb
  -- the only statement that the cancellation may overtake is one of a preparation
  have hcancel : ∀ late, s.pc ≠ .halting .cancel late := by
    intro late hpc
    simp [State.midway, hpc] at hnot
  -- by the statement that `stop` is at
  cases statement with
  | flag =>
      exact
        { h with
          cleared := fun hb hpc => by
            rw [show (s.stopStep .flag).pc = .idle from hidle hb] at hpc
            cases hpc
          stopping := fun _ _ => rfl }
  | prepare => exact h
  | native =>
      exact
        { h with
          early := fun he => by simp [State.stopStep, h.early he]
          toldFirst := fun late hpc => absurd hpc (hcancel late)
          settled := fun ho => settled_native (h.settled ho) }
  | cancel =>
      exact
        { h with
          early := fun he => by simp [State.stopStep, h.early he, h.unset he]
          toldFirst := fun late hpc => absurd hpc (hcancel late)
          settled := fun ho => settled_cancel s.engine (h.settled ho) }
  | clear =>
      exact
        { h with
          unset := fun _ => rfl
          engine := fun hb hpc => by
            rw [show (s.stopStep .clear).pc = .idle from hidle hb] at hpc
            simp [Pc.holds, Pc.routed] at hpc }
  | publish => exact { h with }

theorem Inv.goOn {call : Nat} (h : Inv s) (hfine : fine s (.goOn call) = true)
    (hstep : stepGoOn s call = some s') : Inv s' := by
  obtain ⟨statement, hstatement, rfl⟩ := Option.map_eq_some_iff.1 hstep
  -- what `fine` rules out, and what it leaves
  have hnot : s.midway = false := by
    simp only [fine, Bool.and_eq_true, Bool.not_eq_true'] at hfine
    exact hfine.1
  have hbegun : s.pc ≠ .idle → s.begun = true := by
    intro hpc
    by_contra hb
    simp [h.stops hpc (by simpa using hb)] at hstatement
  have hnext := h.stopStep hnot hbegun statement
  have hpc : (s.stopStep statement).pc = s.pc := by cases statement <;> rfl
  have hsame : (s.stopStep statement).begun = s.begun := by cases statement <;> rfl
  have hcalls : (s.stopStep statement).pc ≠ .idle → (s.stopStep statement).begun = true := by
    rw [hpc, hsame]
    exact hbegun
  -- was this the last statement of this `stop`, or is another due
  split
  · exact { hnext with stops := fun hpc hb => by simp [hcalls hpc] at hb }
  · next hlast =>
      have hpublish : statement = .publish := by
        cases statement <;> first | rfl | cases hlast
      have haway : s.pc.arriving = false := by
        by_contra harriving
        simp [fine, hstatement, hpublish, harriving] at hfine
      exact
        { hnext with
          stops := fun hpc hb => by simp [hcalls hpc] at hb
          returned := fun hpc _ => hcalls hpc
          unreturned := fun harriving => by
            rw [show _ = s.pc from hpc, haway] at harriving
            cases harriving }

/-- The watcher looks at an engine that has ended: it is told of a `stop` by the flag, as long as `start` has
returned, and by nothing else. -/
theorem Inv.look (h : Inv s) (hjoining : s.watcher = .joining) (hcomplete : s.job.complete = true) :
    Inv { s with watcher := if s.stopping ∨ ¬ s.engine then .done else .publishing } := by
  have hpc := h.watched (by simp [hjoining])
  have hrouted : s.pc.routed = true := by rcases hpc with hpc | hpc <;> simp [hpc, Pc.routed]
  have hended : s.job.phase = .ended := by
    rcases h.up (h.routed hrouted) with hphase | hphase
    · simp [Job.complete, hphase] at hcomplete
    · exact hphase
  have hnone := h.unreported (.inr hjoining)
  -- asked to stop, or the engine was let go: the watcher has nothing to say
  split_ifs with hasked
  · have hpurpose : s.onPurpose = true := by
      by_contra hnot
      have hbegun : s.begun = false := by
        by_contra hbegun
        exact hnot (h.joining (.inr (.inr hjoining)) (by simpa using hbegun))
      rcases hasked with hstopping | hengine
      · simp [h.cleared hbegun (by rcases hpc with hpc | hpc <;> rw [hpc] <;> rfl)] at hstopping
      · exact hengine (h.engine hbegun (.inr hrouted))
    exact
      { h with
        watched := fun _ => hpc
        started := fun _ => nofun
        unreported := fun _ => hnone
        joining := fun hw => absurd hw (by rcases hpc with hpc | hpc <;> simp [hpc])
        publishing := nofun
        done := fun _ => ⟨hended, by simp [hnone, hpurpose]⟩ }
  -- neither: the end of the engine is news
  · have hbegun : s.begun = false := by
      by_contra hbegun
      exact hasked (.inl (h.stopping hrouted (by simpa using hbegun)))
    exact
      { h with
        watched := fun _ => hpc
        started := fun _ => nofun
        unreported := fun _ => hnone
        joining := fun hw => absurd hw (by rcases hpc with hpc | hpc <;> simp [hpc])
        publishing := fun _ => ⟨hnone, h.purpose hbegun, hended⟩
        done := nofun }

theorem Inv.step {l : Label} (h : Inv s) (hfine : fine s l = true) (hstep : step port l s = some s') : Inv s' := by
  -- by who takes the step; of `start` and of the job there is a lemma each
  cases l with
  | start act => exact h.start hfine hstep
  | job act => exact h.job hfine hstep
  | stop =>
      cases hstep
      exact h.stop hfine
  | goOn call => exact h.goOn hfine hstep
  | delayEnds =>
      simp only [EngineHop.step, Option.ite_none_right_eq_some, Option.some.injEq] at hstep
      obtain ⟨harmed, rfl⟩ := hstep
      exact { h with firing := fun _ => by simpa [fine] using hfine }
  | cancelPrepare =>
      simp only [EngineHop.step, Option.ite_none_right_eq_some, Option.some.injEq] at hstep
      obtain ⟨hfiring, rfl⟩ := hstep
      exact { h with firing := nofun }
  | look =>
      simp only [EngineHop.step, Option.ite_none_right_eq_some, Option.some.injEq] at hstep
      obtain ⟨⟨hjoining, hcomplete⟩, rfl⟩ := hstep
      exact h.look hjoining hcomplete
  | report =>
      simp only [EngineHop.step, Option.ite_none_right_eq_some, Option.some.injEq] at hstep
      obtain ⟨hpublishing, rfl⟩ := hstep
      obtain ⟨hnone, hpurpose, hended⟩ := h.publishing hpublishing
      exact
        { h with
          watched := fun _ => h.watched (by simp [hpublishing])
          started := fun _ => nofun
          unreported := by simp
          joining := fun hw => h.joining (by simpa [hpublishing] using hw)
          publishing := by simp
          done := fun _ => ⟨hended, by simp [hnone, hpurpose]⟩ }
  | otherBegins =>
      simp only [EngineHop.step, Option.ite_none_right_eq_some, Option.some.injEq] at hstep
      obtain ⟨-, rfl⟩ := hstep
      exact { h with firing := fun hf => absurd hf (by simpa [fine] using hfine) }
  | otherEnds =>
      simp only [EngineHop.step, Option.ite_none_right_eq_some, Option.some.injEq] at hstep
      obtain ⟨-, rfl⟩ := hstep
      exact { h with firing := fun _ => nofun }

/-- What a step may do follows from the invariant. -/
theorem Inv.right {l : Label} (h : Inv s) (hfine : fine s l = true) (hstep : EngineHop.step port l s = some s') :
    right s l = true := by
  have hreturned : s.pc ≠ .idle → s.begun = false → s.returned = false := by
    intro hpc hb
    by_contra hr
    simp [h.returned hpc (by simpa using hr)] at hb
  -- only four steps are held to anything
  cases l with
  | start act =>
      have hmoves := stepStart_moves hstep
      cases hmoves with
      | connect hpc => simp [EngineHop.right, h.unreturned (by rw [hpc]; rfl)]
      | succeed hpc => simp [EngineHop.right, h.unreturned (by rw [hpc]; rfl)]
      | fail hpc =>
          have hpurpose : s.onPurpose = false := by
            by_cases hnone : s.job.phase = .none
            · exact h.absent hnone
            · exact h.purpose (h.midway (by simp [State.midway, hpc, hnone]))
          simp [EngineHop.right, hpurpose, h.settled (by simp [hpc, Pc.over])]
      | _ => rfl
  | job act =>
      cases act with
      | begin =>
          obtain ⟨hphase, hlive⟩ : s.job.phase = .fresh ∧ s.job.cancelled = false := by
            simp only [EngineHop.step, stepJob] at hstep
            split at hstep <;> simp_all
          have hmidway : s.midway = true := by
            have hearly := h.early
            have hrouted := h.routed
            have hup := h.up
            have hsettled := h.settled
            cases hpc : s.pc <;> simp_all [State.midway, Pc.early, Pc.routed, Pc.over, Job.settled]
          have hpc : s.pc ≠ .idle := by
            intro hpc
            simp [State.midway, hpc] at hmidway
          simp [EngineHop.right, hreturned hpc (h.midway hmidway)]
      | _ => rfl
  | report =>
      simp only [EngineHop.step, Option.ite_none_right_eq_some] at hstep
      simp [EngineHop.right, (h.publishing hstep.1).2.1]
  | cancelPrepare =>
      simp only [EngineHop.step, Option.ite_none_right_eq_some] at hstep
      simpa [EngineHop.right] using h.firing hstep.1
  | _ => rfl

theorem Inv.once (h : Inv s) : Once port s := by
  have hgoesOn : s.pc = .succeeded → s.job.phase = .ended → s.watcher ≠ .done →
      (EngineHop.step port .look s).isSome ∨ (EngineHop.step port .report s).isSome := by
    intro hpc hended hnot
    cases hwatcher : s.watcher with
    | none => exact absurd hwatcher (h.started (.inr hpc))
    | joining => exact .inl (by simp [EngineHop.step, hwatcher, Job.complete, hended])
    | publishing => exact .inr (by simp [EngineHop.step, hwatcher])
    | done => exact absurd hwatcher hnot
  cases hwatcher : s.watcher with
  | none => exact ⟨by simp [h.unreported (.inl hwatcher)], by simp [hwatcher], hgoesOn⟩
  | joining => exact ⟨by simp [h.unreported (.inr hwatcher)], by simp [hwatcher], hgoesOn⟩
  | publishing => exact ⟨by simp [(h.publishing hwatcher).1], by simp [hwatcher], hgoesOn⟩
  | done =>
      have hcount := (h.done hwatcher).2
      refine ⟨?_, fun _ => ?_, hgoesOn⟩
      all_goals cases hpurpose : s.onPurpose <;> simp [hcount, hpurpose]

theorem inv_init : Inv {} := by
  constructor
  · constructor <;> simp [State.midway, Pc.routed, Pc.arriving, Pc.holds]
  · constructor <;> simp [Pc.routed, Pc.holds, Pc.over]
  · constructor <;> simp
  · simp

/-- What fine steps reach. -/
theorem Reach.inv (h : Reach (engineHop port) (fun s l => fine s l = true) s) : Inv s := by
  induction h with
  | init hinit =>
      obtain rfl : _ = ({} : State) := hinit
      exact inv_init
  | step _ _ hfine hstep ih => exact ih.step hfine hstep

/-- A start up to its route. -/
def opening : List Label :=
  [.start .begin, .start .announce, .start .enter, .start (.prepare .found), .start .disarm,
    .start (.decide false), .start .launch, .start .assign, .job .begin, .job .install, .job .open,
    .start (.reach .up), .start .connect]

/-- A call of `stop`, while no other is under way. -/
def stopping : List Label :=
  [.stop, .goOn 0, .goOn 0, .goOn 0, .goOn 0, .goOn 0]

end Proofs

end EngineHop
end Carriers
end AuroraVpn
