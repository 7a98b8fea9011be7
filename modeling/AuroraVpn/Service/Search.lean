import AuroraVpn.Lib.Monitor
import AuroraVpn.Lib.Runs
import Mathlib.Data.List.Basic

/-!
# Search — the books of an automatic search

Automatic makes a plan for the network the phone is on, runs its steps one after the other and counts
a pass when the plan is used up.  `pass` is the abstract search: the order in which plans are made,
steps are run, given up and counted.  `machine` is the code: a session coroutine with the leash on its
engine, the watcher of its hop and the network callback, between their suspension points.  What the
code does to the search goes to a log, and the books are in order when the abstract search accepts it.

* `Bookkept`: the turns in which no failure is reported for a plan that is no longer there.
* `search_bookkept`: in a run of such turns the books are in order.
-/

namespace AuroraVpn
namespace Service
namespace Search

open Runs

def MAX_AUTO_PASSES : Nat := 2

def ENGINE_ATTEMPT_FLOOR_MS : Nat := 20000

/-- `AutoStep`, an engine step with its budget. -/
inductive AutoStep
  | engine (budgetMs : Nat)
  | race
  deriving DecidableEq, Repr

/-! ## The abstract search -/

/-- A plan, and how far it has been gone through. -/
structure Pass where
  network : Nat
  steps : List AutoStep
  /-- The steps that have been given up; the next of them is the current step. -/
  tried : Nat
  enteredAt : Nat
  /-- The current step has not been run since it was entered or allowed another attempt. -/
  mayRun : Bool
  deriving DecidableEq, Repr

structure Ledger where
  /-- The network the phone is on. -/
  network : Option Nat
  pass : Option Pass
  counted : Nat
  connected : Bool
  finished : Bool
  deriving DecidableEq, Repr

inductive Event
  /-- The phone is on this network from here on. -/
  | moved (network : Nat)
  | planned (network : Nat) (steps : List AutoStep)
  | entered (index : Nat) (time : Nat)
  | ran (index : Nat)
  | retried (index : Nat) (time : Nat)
  /-- `rememberEngineFailure`, against this network. -/
  | recorded (network : Nat)
  | gaveUpStep (index : Nat)
  /-- A pass found no way out of this network. -/
  | counted (network : Nat)
  /-- The plan is dropped for another network. -/
  | replanned (network : Nat)
  | won
  | lost
  | gaveUp
  deriving DecidableEq, Repr

/-- What happens to the pass, where it may happen. -/
def Pass.accept : Event → Pass → Option Pass
  | .entered index time, p =>
      -- a step is entered in its turn
      if index = p.tried ∧ index < p.steps.length then
        some { p with enteredAt := time, mayRun := true }
      else none
  | .ran index, p => if index = p.tried ∧ p.mayRun then some { p with mayRun := false } else none
  -- an engine step may be run again while its budget has room
  | .retried index time, p =>
      match p.steps[p.tried]? with
      | some (.engine budgetMs) =>
          if index = p.tried ∧ time + ENGINE_ATTEMPT_FLOOR_MS < p.enteredAt + budgetMs then
            some { p with mayRun := true }
          else none
      | _ => none
  | .recorded network, p =>
      match p.steps[p.tried]? with
      | some (.engine _) => if network = p.network then some p else none
      | _ => none
  | .gaveUpStep index, p =>
      if index = p.tried ∧ index < p.steps.length then
        some { p with tried := p.tried + 1, mayRun := false }
      else none
  | _, _ => none

/-- A plan is made for the network that the phone is on; its steps are run in their order, each once, but
for an engine step in its budget; a pass is counted when all its steps have been given up, on the network
it was planned for; a plan is dropped for another network only, and is then neither gone on with nor
counted; and the search is over when `MAX_AUTO_PASSES` have been counted. -/
def accept (e : Event) (a : Ledger) : Option Ledger :=
  if a.finished then
    match e with
    | .moved network => some { a with network := some network }
    | .replanned _ => some a
    | _ => none
  else
    match e with
    | .moved network => some { a with network := some network }
    | .planned network steps =>
        if a.network = some network ∧ a.pass = none ∧ a.counted < MAX_AUTO_PASSES ∧ steps ≠ [] then
          some { a with pass := some ⟨network, steps, 0, 0, false⟩, connected := false }
        else none
    | .counted network =>
        match a.pass with
        | some p =>
            if p.tried = p.steps.length ∧ network = p.network ∧ a.counted < MAX_AUTO_PASSES then
              some { a with pass := none, counted := a.counted + 1 }
            else none
        | none => none
    -- dropped for another network only
    | .replanned network =>
        (a.pass.filter (·.network ≠ network)).map fun _ => { a with pass := none }
    | .won => some { a with connected := true, counted := 0 }
    | .lost => if a.connected then some { a with pass := none, connected := false, counted := 0 } else none
    | .gaveUp => if a.pass = none then some { a with finished := true } else none
    | _ => (a.pass.bind (Pass.accept e)).map fun p => { a with pass := some p }

def pass : Monitor Ledger Event where
  init := ⟨none, none, 0, false, false⟩
  accept := accept

/-! ## The service -/

/-- Where a session coroutine is suspended. -/
inductive Point
  /-- The delay of `relaunch`. -/
  | waiting
  | awaitingNetwork
  /-- `autoStepFor`, at `stale.join()`. -/
  | joiningStale
  /-- `prepare` and `run`. -/
  | engine
  /-- `raceLanes`. -/
  | racing
  /-- `chain.startCarrier`, and whether the watcher of the winner has claimed the attempt. -/
  | startingChain (claimed : Bool)
  | parked (claimed : Bool)
  deriving DecidableEq, Repr

structure State where
  network : Nat
  clock : Nat
  autoNetworkKey : Nat
  autoSteps : List AutoStep
  autoStepIndex : Nat
  autoStepDeadline : Nat
  autoToken : Nat
  autoEngineUp : Bool
  autoConnected : Bool
  autoPasses : Nat
  /-- The networks that callbacks have seen and not yet acted on. -/
  noticed : List Nat
  /-- The session coroutines of the current generation, its leashes by their tokens, and how many
  coroutines of `autoWon` have been posted and not run. -/
  sessions : List Point
  leashes : List Nat
  posted : Nat
  /-- What is left of earlier generations. -/
  left : List Point
  leftPosted : Nat
  log : List Event

/-- `replaceSession` has begun an automatic session. -/
def fresh (network : Nat) : State where
  network := network
  clock := 0
  autoNetworkKey := network
  autoSteps := []
  autoStepIndex := 0
  autoStepDeadline := 0
  autoToken := 0
  autoEngineUp := false
  autoConnected := false
  autoPasses := 0
  noticed := []
  sessions := [.waiting]
  leashes := []
  posted := 0
  left := []
  leftPosted := 0
  log := [.moved network]

def emit (e : Event) (s : State) : State :=
  { s with log := s.log ++ [e] }

/-- `generation += 1`: everything there is belongs to an earlier one. -/
def moveOn (s : State) : State :=
  { s with
    left := s.left ++ s.sessions
    leftPosted := s.leftPosted + s.posted
    sessions := []
    leashes := []
    posted := 0 }

/-- `giveUp`. -/
def giveUp (s : State) : State :=
  moveOn (emit .gaveUp s)

/-- `relaunch`, which comes to nothing under an earlier generation. -/
def relaunch (current : Bool) (s : State) : State :=
  if current then { s with sessions := s.sessions ++ [.waiting] } else s

/-- `enterStep`, with `leash`. -/
def enterStep (current : Bool) (index : Nat) (s : State) : State :=
  let entered : State :=
    { s with autoStepIndex := index, autoEngineUp := false, autoToken := s.autoToken + 1 }
  match s.autoSteps[index]? with
  | some (.engine budgetMs) =>
      emit (.entered index s.clock)
        { entered with
          autoStepDeadline := s.clock + budgetMs
          leashes := if current then entered.autoToken :: s.leashes else s.leashes }
  | some .race => emit (.entered index s.clock) entered
  | none => entered

def isEngine : Option AutoStep → Bool
  | some (.engine _) => true
  | _ => false

/-- `finishStep`.  `outOfTime` is whether the search has no time for another pass. -/
def finishStep (current outOfTime : Bool) (s : State) : State :=
  let recorded :=
    if isEngine s.autoSteps[s.autoStepIndex]? then emit (.recorded s.autoNetworkKey) s else s
  let entered :=
    enterStep current (s.autoStepIndex + 1) (emit (.gaveUpStep s.autoStepIndex) recorded)
  if entered.autoStepIndex < entered.autoSteps.length then relaunch current entered
  else
    let counted :=
      emit (.counted entered.autoNetworkKey) { entered with autoPasses := entered.autoPasses + 1 }
    if MAX_AUTO_PASSES ≤ counted.autoPasses ∨ outOfTime then giveUp counted
    else relaunch current { counted with autoSteps := [] }

/-- `advanceAuto`, from a coroutine of the current generation. -/
def advanceAuto (outOfTime : Bool) (s : State) : State :=
  if s.autoConnected then
    relaunch true (emit .lost { s with autoSteps := [], autoPasses := 0, autoConnected := false })
  else if isEngine s.autoSteps[s.autoStepIndex]? ∧
      s.clock + ENGINE_ATTEMPT_FLOOR_MS < s.autoStepDeadline then
    relaunch true (emit (.retried s.autoStepIndex s.clock) { s with autoEngineUp := false })
  else finishStep true outOfTime s

/-- What a session finds when it asks for its step: whether the phone is online, what
`AutoPlanner.plan` answers (never nothing), and whether a stale engine has to be waited for. -/
structure Found where
  online : Bool
  first : AutoStep
  rest : List AutoStep
  stale : Bool
  deriving DecidableEq, Repr

/-- The end of `autoStepFor`, and the session from there. -/
def runStep (stale : Bool) (s : State) : State :=
  match s.autoSteps[s.autoStepIndex]? with
  | none => s
  | some (.engine _) =>
      if stale then { s with sessions := s.sessions ++ [.joiningStale] }
      else emit (.ran s.autoStepIndex) { s with sessions := s.sessions ++ [.engine] }
  | some .race => emit (.ran s.autoStepIndex) { s with sessions := s.sessions ++ [.racing] }

/-- `autoStepFor`, where it makes a plan. -/
def plan (found : Found) (s : State) : State :=
  let s := emit (.planned s.network (found.first :: found.rest))
    { s with
      autoNetworkKey := s.network
      autoSteps := found.first :: found.rest
      autoConnected := false }
  runStep found.stale (enterStep true 0 s)

/-- `runSession`, up to its first suspension point. -/
def runSession (found : Found) (s : State) : State :=
  if s.autoSteps = [] then
    if found.online then plan found s
    else { s with sessions := s.sessions ++ [.awaitingNetwork] }
  else runStep found.stale s

/-- A session that can be cancelled rather than waited for. -/
def Point.cancellable : Point → Bool
  | .racing | .startingChain _ | .parked _ => true
  | _ => false

/-- The job of the last session is cancelled. -/
def cancel (s : State) : State :=
  { s with sessions := s.sessions.filter fun point => !point.cancellable }

/-- `autoWon`. -/
def autoWon (s : State) : State :=
  emit .won { s with autoConnected := true, autoToken := s.autoToken + 1, autoPasses := 0 }

inductive RoamAction
  | ignore
  | recordOnly
  | replan
  deriving DecidableEq, Repr

/-- `Roaming.actionFor`; no network has an empty key here. -/
def actionFor (was now : Nat) (connected searching : Bool) : RoamAction :=
  if now = was then .ignore
  else if connected then .recordOnly
  else if searching then .replan
  else .recordOnly

/-- `networkMayHaveChanged`, behind the lock. -/
def roam (now : Nat) (s : State) : State :=
  match actionFor s.autoNetworkKey now s.autoConnected (s.autoSteps ≠ []) with
  | .ignore => s
  | .recordOnly => { s with autoNetworkKey := now }
  | .replan =>
      emit (.replanned now) { s with autoNetworkKey := now, autoSteps := [], autoStepIndex := 0 }

/-! ## The turns -/

inductive Turn
  /-- The phone moves to another network; a callback sees the one it is on; it gets the lock. -/
  | move (network : Nat)
  | notice
  | roam
  | tick (ms : Nat)
  | relaunch (found : Found)
  | networkUp (found : Found)
  | networkTimedOut
  | staleGone
  | staleTimedOut (outOfTime : Bool)
  /-- The engine calls the listener, which posts `autoWon`; and that runs. -/
  | engineUp
  | won
  /-- `prepare` or `run` ends; a conclusive error takes the step's deadline away. -/
  | engineFailed (conclusive outOfTime : Bool)
  | raceLost (outOfTime : Bool)
  | raceWon
  | chainUp
  | chainFailed (claimed outOfTime : Bool)
  /-- The watcher of a race's winner sees it go down. -/
  | hopDown (point : Point) (outOfTime : Bool)
  | leashed (token : Nat)
  | leashedAgain (token : Nat) (outOfTime : Bool)
  /-- The coroutines of earlier generations, where they do not look at the generation. -/
  | leftStaleTimedOut (outOfTime : Bool)
  | leftEngineUp
  | leftWon
  | leftChainUp
  deriving DecidableEq, Repr

def leave (point : Point) (s : State) : State :=
  { s with sessions := s.sessions.erase point }

def resume (point : Point) (s : State) (segment : State → State) : Option State :=
  if point ∈ s.sessions then some (segment (leave point s)) else none

def park (point : Point) (s : State) : State :=
  { s with sessions := s.sessions ++ [point] }

/-- `leashHolds`, of a leash of the current generation. -/
def LeashHolds (token : Nat) (s : State) : Prop :=
  token ∈ s.leashes ∧ token = s.autoToken ∧ s.autoEngineUp = false ∧ s.autoConnected = false

instance (token : Nat) (s : State) : Decidable (LeashHolds token s) :=
  inferInstanceAs (Decidable (_ ∧ _ ∧ _ ∧ _))

def turn : Turn → State → Option State
  | .move network, s => some (emit (.moved network) { s with network := network })
  | .notice, s =>
      if s.network = s.autoNetworkKey then none
      else some { s with noticed := s.noticed ++ [s.network] }
  | .roam, s =>
      match s.noticed with
      | now :: noticed => some (Search.roam now { s with noticed := noticed })
      | [] => none
  | .tick ms, s => some { s with clock := s.clock + ms }
  | .relaunch found, s => resume .waiting s fun s => runSession found (cancel s)
  | .networkUp found, s => resume .awaitingNetwork s (plan found)
  | .networkTimedOut, s => resume .awaitingNetwork s giveUp
  | .staleGone, s =>
      resume .joiningStale s fun s => emit (.ran s.autoStepIndex) (park .engine s)
  | .staleTimedOut outOfTime, s => resume .joiningStale s (finishStep true outOfTime)
  | .engineUp, s =>
      if .engine ∈ s.sessions then some { s with autoEngineUp := true, posted := s.posted + 1 }
      else none
  | .won, s => if 0 < s.posted then some (autoWon { s with posted := s.posted - 1 }) else none
  | .engineFailed conclusive outOfTime, s =>
      -- What the listener has posted comes before what follows the end of the call.
      if s.posted = 0 then
        resume .engine s fun s =>
          advanceAuto outOfTime (if conclusive then { s with autoStepDeadline := 0 } else s)
      else none
  | .raceLost outOfTime, s => resume .racing s (advanceAuto outOfTime)
  | .raceWon, s => resume .racing s (park (.startingChain false))
  | .chainUp, s =>
      if .startingChain false ∈ s.sessions then
        resume (.startingChain false) s fun s => autoWon (park (.parked false) s)
      else resume (.startingChain true) s fun s => autoWon (park (.parked true) s)
  | .chainFailed claimed outOfTime, s => resume (.startingChain claimed) s (advanceAuto outOfTime)
  | .hopDown point outOfTime, s =>
      match point with
      | .startingChain false =>
          resume point s fun s => advanceAuto outOfTime (park (.startingChain true) s)
      | .parked false => resume point s fun s => advanceAuto outOfTime (park (.parked true) s)
      | _ => none
  | .leashed token, s => if LeashHolds token s then some { s with autoStepDeadline := 0 } else none
  | .leashedAgain token outOfTime, s =>
      if LeashHolds token s then some (finishStep true outOfTime (moveOn s)) else none
  | .leftStaleTimedOut outOfTime, s =>
      if .joiningStale ∈ s.left then
        some (finishStep false outOfTime { s with left := s.left.erase .joiningStale })
      else none
  | .leftEngineUp, s =>
      if .engine ∈ s.left then
        some { s with autoEngineUp := true, leftPosted := s.leftPosted + 1 }
      else none
  | .leftWon, s =>
      if 0 < s.leftPosted then some (autoWon { s with leftPosted := s.leftPosted - 1 }) else none
  | .leftChainUp, s =>
      if .startingChain false ∈ s.left ∨ .startingChain true ∈ s.left then some (autoWon s) else none

def machine : Machine State Turn where
  init s := ∃ network, s = fresh network
  enabled _ _ := True
  step := turn

/-- The books of a run are in order. -/
def InOrder (s : State) : Prop :=
  pass.Accepts s.log

/-- No failure is reported for a step whose plan has been dropped, nor twice for one attempt, and
nothing comes of a session that has been left behind. -/
def Bookkept (s : State) : Turn → Prop
  | .staleGone | .staleTimedOut _ | .leashedAgain _ _ => s.autoSteps ≠ []
  | .engineFailed _ _ | .raceLost _ | .chainFailed _ _ => s.autoConnected ∨ s.autoSteps ≠ []
  | .hopDown point _ => point = .parked false
  | .leftStaleTimedOut _ | .leftEngineUp | .leftWon | .leftChainUp => False
  | _ => True

section Books

variable {s s' : State} {a b : Ledger} {p : Pass} {index : Nat} {t : Turn}

/-! ## The abstract search follows the code -/

/-- The abstract search has followed the log, and has the counts of the code. -/
structure Tracks (s : State) (a : Ledger) : Prop where
  log : pass.Follows s.log a
  network : a.network = some s.network
  counted : a.counted = s.autoPasses
  connected : a.connected = s.autoConnected
  live : a.finished = false
  room : s.autoPasses < MAX_AUTO_PASSES

/-- The code has the plan of the abstract search, and stands at its current step. -/
structure OnPlan (s : State) (p : Pass) : Prop where
  steps : p.steps = s.autoSteps
  tried : p.tried = s.autoStepIndex
  inside : s.autoStepIndex < s.autoSteps.length
  network : s.autoConnected = false → p.network = s.autoNetworkKey
  deadline : ∀ budgetMs, s.autoSteps[s.autoStepIndex]? = some (.engine budgetMs) →
    s.autoStepDeadline ≤ p.enteredAt + budgetMs

/-- The two have the same plan, or none.  Where a run of the current step is due, it is allowed. -/
def SamePlan (due : Prop) (s : State) (a : Ledger) : Prop :=
  (a.pass = none ∧ s.autoSteps = []) ∨ ∃ p, a.pass = some p ∧ OnPlan s p ∧ (due → p.mayRun)

/-- Where the session coroutine is.  Behind a failure, one that is parked may be left until the next
attempt begins. -/
inductive Phase (s : State) (a : Ledger) : Prop
  | waiting (hsessions : s.sessions = [.waiting] ∨ s.sessions = [.parked true, .waiting])
      (hposted : s.posted = 0) (hconnected : s.autoConnected = false) (hplan : SamePlan True s a)
  | awaitingNetwork (hsessions : s.sessions = [.awaitingNetwork]) (hposted : s.posted = 0)
      (hconnected : s.autoConnected = false) (hnone : a.pass = none) (hsteps : s.autoSteps = [])
  | joiningStale (hsessions : s.sessions = [.joiningStale]) (hposted : s.posted = 0)
      (hconnected : s.autoConnected = false) (hplan : SamePlan True s a)
  | engine (hsessions : s.sessions = [.engine]) (hplan : SamePlan False s a)
  | racing (point : Point) (hsessions : s.sessions = [point])
      (hpoint : point = .racing ∨ point = .startingChain false) (hposted : s.posted = 0)
      (hconnected : s.autoConnected = false) (hplan : SamePlan False s a)
  | parked (hsessions : s.sessions = [.parked false]) (hposted : s.posted = 0)
      (hconnected : s.autoConnected) (hplan : SamePlan False s a)

/-- The search is over. -/
structure Over (s : State) (a : Ledger) : Prop where
  log : pass.Follows s.log a
  finished : a.finished
  sessions : s.sessions = []
  leashes : s.leashes = []
  posted : s.posted = 0

/-- The invariant of runs whose books are in order. -/
def Kept (s : State) : Prop :=
  (∃ a, Tracks s a ∧ Phase s a) ∨ ∃ a, Over s a

theorem accept_ofPass {e : Event} (hlive : a.finished = false) (hpass : a.pass = some p) {p' : Pass}
    (haccept : Pass.accept e p = some p') : accept e a = some { a with pass := some p' } := by
  have hcase : accept e a = (a.pass.bind (Pass.accept e)).map fun p => { a with pass := some p } := by
    unfold accept
    rw [hlive]
    cases e <;> first | rfl | cases haccept
  rw [hcase, hpass, Option.bind_some, haccept, Option.map_some]

/-- One event of the pass more, which the code does not notice. -/
theorem Tracks.emit {e : Event} (h : Tracks s a) (hpass : a.pass = some p) {p' : Pass}
    (haccept : Pass.accept e p = some p') : Tracks (emit e s) { a with pass := some p' } :=
  { h with log := h.log.emit (accept_ofPass h.live hpass haccept) }

/-! ### The functions of the code -/

theorem enterStep_frame (current : Bool) (index : Nat) (s : State) :
    (enterStep current index s).sessions = s.sessions ∧
      (enterStep current index s).posted = s.posted ∧
      (enterStep current index s).autoConnected = s.autoConnected ∧
      (enterStep current index s).autoSteps = s.autoSteps ∧
      (enterStep current index s).autoStepIndex = index ∧
      (enterStep current index s).autoPasses = s.autoPasses ∧
      (enterStep current index s).autoNetworkKey = s.autoNetworkKey := by
  unfold enterStep
  split <;> exact ⟨rfl, rfl, rfl, rfl, rfl, rfl, rfl⟩

/-- **A step that there is, is entered as the next one.** -/
theorem enterStep_kept (current : Bool) (h : Tracks s a) (hpass : a.pass = some p) (hsteps : p.steps = s.autoSteps)
    (htried : p.tried = index) (hinside : index < s.autoSteps.length)
    (hnetwork : s.autoConnected = false → p.network = s.autoNetworkKey) :
    ∃ b p', Tracks (enterStep current index s) b ∧ b.pass = some p' ∧
      OnPlan (enterStep current index s) p' ∧ p'.mayRun := by
  have hentered : Pass.accept (.entered index s.clock) p =
      some { p with enteredAt := s.clock, mayRun := true } := by
    simp [Pass.accept, htried, hsteps, hinside]
  unfold enterStep
  cases hstep : s.autoSteps[index]? with
  | none => exact absurd (List.getElem?_eq_none_iff.1 hstep) (Nat.not_le_of_lt hinside)
  | some step =>
      cases step with
      | engine budgetMs =>
          -- the time of the entry stands beside the budget of the step
          refine ⟨_, _, { h with log := (h.emit hpass hentered).log }, rfl,
            ⟨hsteps, htried, hinside, hnetwork, fun budgetMs' hbudget => ?_⟩, rfl⟩
          obtain rfl : budgetMs = budgetMs' := by
            cases hstep.symm.trans hbudget
            rfl
          exact Nat.le_refl _
      | race =>
          refine ⟨_, _, { h with log := (h.emit hpass hentered).log }, rfl,
            ⟨hsteps, htried, hinside, hnetwork, fun budgetMs hbudget => ?_⟩, rfl⟩
          cases hstep.symm.trans hbudget

/-- The session goes on with the step it has entered. -/
theorem runStep_kept (h : Tracks s a) (hpass : a.pass = some p) (hplan : OnPlan s p) (hdue : p.mayRun)
    (hsessions : s.sessions = []) (hposted : s.posted = 0) (hconnected : s.autoConnected = false)
    (stale : Bool) : Kept (runStep stale s) := by
  have hran : Pass.accept (.ran s.autoStepIndex) p = some { p with mayRun := false } := by
    simp [Pass.accept, hplan.tried, hdue]
  have hnext : SamePlan False s { a with pass := some { p with mayRun := false } } :=
    .inr ⟨_, rfl, { hplan with }, False.elim⟩
  unfold runStep
  cases hstep : s.autoSteps[s.autoStepIndex]? with
  | none => exact absurd (List.getElem?_eq_none_iff.1 hstep) (Nat.not_le_of_lt hplan.inside)
  | some step =>
      cases step with
      -- the engine: first a stale one is waited for, then the step is run
      | engine budgetMs =>
          cases stale with
          | true =>
              exact .inl ⟨a, { h with }, .joiningStale (by simp [hsessions]) hposted hconnected
                (.inr ⟨p, hpass, { hplan with }, fun _ => hdue⟩)⟩
          | false =>
              refine .inl ⟨_, { h with log := (h.emit hpass hran).log },
                .engine (by simp [emit, hsessions]) ?_⟩
              exact .inr ⟨_, rfl, { hplan with }, False.elim⟩
      | race =>
          refine .inl ⟨_, { h with log := (h.emit hpass hran).log },
            .racing .racing (by simp [emit, hsessions]) (.inl rfl) hposted hconnected ?_⟩
          exact .inr ⟨_, rfl, { hplan with }, False.elim⟩

/-- **A plan is made where there is none**, and its first step is the next one to run. -/
theorem plan_kept (h : Tracks s a) (hnone : a.pass = none) (hsessions : s.sessions = [])
    (hposted : s.posted = 0) (found : Found) : Kept (plan found s) := by
  let planned : Pass := ⟨s.network, found.first :: found.rest, 0, 0, false⟩
  have haccept : accept (.planned s.network (found.first :: found.rest)) a =
      some { a with pass := some planned, connected := false } := by
    simp [accept, h.live, h.network, hnone, h.counted, h.room, planned]
  have htracks : Tracks (Search.emit (.planned s.network (found.first :: found.rest))
      { s with
        autoNetworkKey := s.network
        autoSteps := found.first :: found.rest
        autoConnected := false }) { a with pass := some planned, connected := false } :=
    { log := h.log.emit haccept, network := h.network, counted := h.counted, connected := rfl,
      live := h.live, room := h.room }
  -- the first step is entered right away
  obtain ⟨b, p', htracks', hpass', hplan', hdue⟩ :=
    enterStep_kept true htracks rfl rfl rfl (Nat.succ_pos _) fun _ => rfl
  obtain ⟨hsame, hposted', hconnected', -⟩ := enterStep_frame true 0 (Search.emit
    (.planned s.network (found.first :: found.rest))
      { s with
        autoNetworkKey := s.network
        autoSteps := found.first :: found.rest
        autoConnected := false })
  exact runStep_kept htracks' hpass' hplan' hdue (hsame.trans hsessions) (hposted'.trans hposted)
    hconnected' found.stale

/-- A session begins with the step that is due, or with a plan. -/
theorem runSession_kept (h : Tracks s a) (hplan : SamePlan True s a) (hsessions : s.sessions = [])
    (hposted : s.posted = 0) (hconnected : s.autoConnected = false) (found : Found) :
    Kept (runSession found s) := by
  unfold runSession
  rcases hplan with ⟨hnone, hsteps⟩ | ⟨p, hpass, hplan, hdue⟩
  · rw [if_pos hsteps]
    cases honline : found.online with
    | true => exact plan_kept h hnone hsessions hposted found
    | false =>
        exact .inl ⟨a, { h with }, .awaitingNetwork (by simp [hsessions]) hposted hconnected hnone
          hsteps⟩
  · have hsteps : s.autoSteps ≠ [] := List.ne_nil_of_length_pos (Nat.zero_lt_of_lt hplan.inside)
    rw [if_neg hsteps]
    exact runStep_kept h hpass hplan (hdue trivial) hsessions hposted hconnected found.stale

theorem giveUp_kept (hlog : pass.Follows s.log a) (hlive : a.finished = false) (hnone : a.pass = none) :
    Kept (giveUp s) := by
  refine .inr ⟨{ a with finished := true }, ⟨hlog.emit ?_, rfl, rfl, rfl, rfl⟩⟩
  exact (by simp [accept, hlive, hnone] : accept .gaveUp a = some { a with finished := true })

/-- What is left of the session coroutines behind a failure. -/
def Ended (s : State) : Prop :=
  (s.sessions = [] ∨ s.sessions = [.parked true]) ∧ s.posted = 0

theorem relaunch_kept (h : Tracks s a) (hended : Ended s) (hconnected : s.autoConnected = false)
    (hplan : SamePlan True s a) : Kept (relaunch true s) := by
  refine .inl ⟨a, { h with }, .waiting ?_ hended.2 hconnected ?_⟩
  · rcases hended.1 with hsessions | hsessions
    · exact .inl (by simp [relaunch, hsessions])
    · exact .inr (by simp [relaunch, hsessions])
  · exact hplan.imp id fun ⟨p, hpass, hplan, hdue⟩ => ⟨p, hpass, { hplan with }, hdue⟩

/-- What is recorded of an engine step that has failed, is recorded against its own network. -/
theorem recorded_kept (h : Tracks s a) (hpass : a.pass = some p) (hplan : OnPlan s p)
    (hconnected : s.autoConnected = false) :
    ∃ log, (if isEngine s.autoSteps[s.autoStepIndex]? then
        Search.emit (.recorded s.autoNetworkKey) s else s) = { s with log := log } ∧
      pass.Follows log a := by
  split_ifs with hengine
  · have haccept : Pass.accept (.recorded s.autoNetworkKey) p = some p := by
      simp only [Pass.accept, hplan.steps, hplan.tried, ← hplan.network hconnected]
      unfold isEngine at hengine
      split at hengine
      · simp [*]
      · cases hengine
    have := (h.emit hpass haccept).log
    rw [← hpass] at this
    exact ⟨_, rfl, this⟩
  · exact ⟨s.log, rfl, h.log⟩

/-- The pass is used up: the search begins again, or is over. -/
theorem counted_kept (h : Tracks s a) (hpass : a.pass = some p) (htried : p.tried = p.steps.length)
    (hnetwork : p.network = s.autoNetworkKey) (hended : Ended s) (hconnected : s.autoConnected = false)
    (outOfTime : Bool) :
    Kept (let counted := Search.emit (.counted s.autoNetworkKey) { s with autoPasses := s.autoPasses + 1 }
      if MAX_AUTO_PASSES ≤ counted.autoPasses ∨ outOfTime then giveUp counted
      else relaunch true { counted with autoSteps := [] }) := by
  have haccept : accept (.counted s.autoNetworkKey) a =
      some { a with pass := none, counted := a.counted + 1 } := by
    simp [accept, h.live, hpass, htried, hnetwork, h.counted, h.room]
  dsimp only
  split_ifs with hover
  · exact giveUp_kept (h.log.emit haccept) h.live rfl
  · refine relaunch_kept (a := { a with pass := none, counted := a.counted + 1 })
      { log := h.log.emit haccept, network := h.network, counted := congrArg (· + 1) h.counted,
        connected := h.connected, live := h.live, room := ?_ } hended hconnected (.inl ⟨rfl, rfl⟩)
    exact Nat.lt_of_not_le fun hmax => hover (.inl hmax)

/-- **A step that is given up**: the next one is due, or the pass is counted. -/
theorem finishStep_kept (h : Tracks s a) (hplan : SamePlan False s a) (hsteps : s.autoSteps ≠ [])
    (hended : Ended s) (hconnected : s.autoConnected = false) (outOfTime : Bool) :
    Kept (finishStep true outOfTime s) := by
  obtain ⟨p, hpass, hplan, -⟩ := hplan.resolve_left fun hnone => hsteps hnone.2
  obtain ⟨log, hrecorded, hfollows⟩ := recorded_kept h hpass hplan hconnected
  have hgaveUp : Pass.accept (.gaveUpStep s.autoStepIndex) p =
      some { p with tried := p.tried + 1, mayRun := false } := by
    simp [Pass.accept, hplan.tried, hplan.steps, hplan.inside]
  have htracks : Tracks (Search.emit (.gaveUpStep s.autoStepIndex) { s with log := log })
      { a with pass := some { p with tried := p.tried + 1, mayRun := false } } :=
    Tracks.emit (s := { s with log := log }) { h with log := hfollows } hpass hgaveUp
  have htried : p.tried + 1 = s.autoStepIndex + 1 := congrArg (· + 1) hplan.tried
  unfold finishStep
  rw [hrecorded]
  dsimp only
  obtain ⟨hsessions', hposted', hconnected', hsteps', hindex', hpasses', hkey'⟩ :=
    enterStep_frame true (s.autoStepIndex + 1)
      (Search.emit (.gaveUpStep s.autoStepIndex) { s with log := log })
  have hended' : Ended (enterStep true (s.autoStepIndex + 1)
      (Search.emit (.gaveUpStep s.autoStepIndex) { s with log := log })) := by
    unfold Ended
    rw [hsessions', hposted']
    exact hended
  change _ = s.autoSteps at hsteps'
  rw [hindex', hsteps']
  by_cases hmore : s.autoStepIndex + 1 < s.autoSteps.length
  · rw [if_pos hmore]
    obtain ⟨b, p', htracks', hpass', hplan', hdue⟩ :=
      enterStep_kept true htracks rfl hplan.steps htried hmore hplan.network
    exact relaunch_kept htracks' hended' (hconnected'.trans hconnected)
      (.inr ⟨p', hpass', hplan', fun _ => hdue⟩)
  · rw [if_neg hmore]
    -- There is no step behind this one: `enterStep` has moved the index alone.
    have hlast : s.autoSteps[s.autoStepIndex + 1]? = none :=
      List.getElem?_eq_none_iff.2 (Nat.le_of_not_lt hmore)
    have hused : p.tried + 1 = p.steps.length := by
      have := hplan.inside
      rw [hplan.steps, hplan.tried]
      exact Nat.le_antisymm this (Nat.le_of_not_lt hmore)
    have hentered : enterStep true (s.autoStepIndex + 1)
        (Search.emit (.gaveUpStep s.autoStepIndex) { s with log := log }) =
        { Search.emit (.gaveUpStep s.autoStepIndex) { s with log := log } with
          autoStepIndex := s.autoStepIndex + 1, autoEngineUp := false,
          autoToken := s.autoToken + 1 } := by
      unfold enterStep
      split
      · rename_i hstep
        cases hlast.symm.trans hstep
      · rename_i hstep
        cases hlast.symm.trans hstep
      · rfl
    rw [hentered] at hended' ⊢
    have htracks' : Tracks { Search.emit (.gaveUpStep s.autoStepIndex) { s with log := log } with
        autoStepIndex := s.autoStepIndex + 1, autoEngineUp := false,
        autoToken := s.autoToken + 1 } _ := { htracks with }
    exact counted_kept htracks' rfl hused (hplan.network hconnected) hended' hconnected outOfTime

/-- What comes of a failure that is reported for a plan that is still there. -/
theorem advanceAuto_kept (h : Tracks s a) (hplan : SamePlan False s a)
    (hsteps : s.autoConnected ∨ s.autoSteps ≠ []) (hended : Ended s) (outOfTime : Bool) :
    Kept (advanceAuto outOfTime s) := by
  unfold advanceAuto
  -- a connection was lost, or a pass has failed
  by_cases hconnected : s.autoConnected = true
  · rw [if_pos hconnected]
    -- a lost connection opens a pass of its own, and no attempt has been counted in it
    have haccept : accept .lost a = some { a with pass := none, connected := false, counted := 0 } := by
      simp [accept, h.live, h.connected, hconnected]
    exact relaunch_kept (a := { a with pass := none, connected := false, counted := 0 })
      { log := h.log.emit haccept, network := h.network, counted := rfl, connected := rfl, live := h.live,
        room := Nat.two_pos } hended rfl (.inl ⟨rfl, rfl⟩)
  · rw [if_neg hconnected]
    rw [Bool.not_eq_true] at hconnected
    have hsteps : s.autoSteps ≠ [] := hsteps.resolve_left (by simp [hconnected])
    split_ifs with hagain
    · -- The engine may try once more: its budget leaves the time.
      obtain ⟨p, hpass, hplan, -⟩ := hplan.resolve_left fun hnone => hsteps hnone.2
      obtain ⟨hengine, htime⟩ := hagain
      cases hstep : s.autoSteps[s.autoStepIndex]? with
      | none => simp [isEngine, hstep] at hengine
      | some step =>
          cases step with
          | race => simp [isEngine, hstep] at hengine
          | engine budgetMs =>
              -- the pass may be as long as its deadline says
              have hbudget := hplan.deadline budgetMs hstep
              have hretried : Pass.accept (.retried s.autoStepIndex s.clock) p =
                  some { p with mayRun := true } := by
                simp only [Pass.accept, hplan.steps, hplan.tried, hstep]
                exact if_pos ⟨trivial, Nat.lt_of_lt_of_le htime hbudget⟩
              exact relaunch_kept { h with log := (h.emit hpass hretried).log } hended hconnected
                (.inr ⟨_, rfl, { hplan with }, fun _ => rfl⟩)
    -- the pass is given up for the next one, or the search is over
    · exact finishStep_kept h hplan hsteps hended hconnected outOfTime

/-- A route that wins is the end of the counting, whatever plan there is. -/
theorem Tracks.autoWon (h : Tracks s a) :
    Tracks (autoWon s) { a with connected := true, counted := 0 } where
  log :=
    have haccept : accept .won a = some { a with connected := true, counted := 0 } := by
      simp [accept, h.live]
    h.log.emit haccept
  network := h.network
  counted := rfl
  connected := rfl
  live := h.live
  room := Nat.two_pos

theorem SamePlan.autoWon {due : Prop} (h : SamePlan due s a) :
    SamePlan due (autoWon s) { a with connected := true, counted := 0 } :=
  h.imp id fun ⟨p, hpass, hplan, hdue⟩ =>
    ⟨p, hpass, { hplan with network := fun hconnected => by cases hconnected }, hdue⟩

/-- Only a plan that is made for another network is dropped, and then there is none. -/
theorem SamePlan.roam {due : Prop} (h : Tracks s a) (hplan : SamePlan due s a) (now : Nat) :
    ∃ b, Tracks (Search.roam now s) b ∧ SamePlan due (Search.roam now s) b ∧
      (a.pass = none → b.pass = none) ∧ (s.autoSteps = [] → (Search.roam now s).autoSteps = []) := by
  unfold Search.roam actionFor
  by_cases hsame : now = s.autoNetworkKey
  · rw [if_pos hsame]
    exact ⟨a, h, hplan, id, id⟩
  · rw [if_neg hsame]
    -- connected: the way out is kept, whatever network there is now
    by_cases hconnected : s.autoConnected = true
    · rw [if_pos hconnected]
      refine ⟨a, { h with }, ?_, id, id⟩
      exact hplan.imp id fun ⟨p, hpass, hplan, hdue⟩ =>
        ⟨p, hpass, { hplan with network := fun hnot => by cases hconnected.symm.trans hnot }, hdue⟩
    · rw [if_neg hconnected]
      rcases hplan with ⟨hnone, hsteps⟩ | ⟨p, hpass, hplan, -⟩
      · simp only [hsteps, ne_eq, not_true_eq_false, decide_false, Bool.false_eq_true, if_false]
        exact ⟨a, { h with }, .inl ⟨hnone, rfl⟩, id, fun _ => trivial⟩
      -- a plan for another network is there, and is dropped
      · have hsteps : s.autoSteps ≠ [] :=
          List.ne_nil_of_length_pos (Nat.zero_lt_of_lt hplan.inside)
        simp only [hsteps, ne_eq, not_false_eq_true, decide_true, if_true]
        have hother : p.network ≠ now := fun heq =>
          hsame (heq.symm.trans (hplan.network (by simpa using hconnected)))
        have haccept : accept (.replanned now) a = some { a with pass := none } := by
          simp [accept, h.live, hpass, hother]
        exact ⟨{ a with pass := none }, { h with log := h.log.emit haccept }, .inl ⟨rfl, rfl⟩,
          fun _ => rfl, fun _ => rfl⟩

theorem roam_frame (now : Nat) (s : State) :
    (Search.roam now s).sessions = s.sessions ∧ (Search.roam now s).posted = s.posted ∧
      (Search.roam now s).leashes = s.leashes ∧
      (Search.roam now s).autoConnected = s.autoConnected := by
  unfold Search.roam
  split <;> exact ⟨rfl, rfl, rfl, rfl⟩

/-- The network callback leaves the coroutines where they are. -/
theorem roam_kept (h : Kept s) (now : Nat) : Kept (Search.roam now s) := by
  obtain ⟨hsessions', hposted', hleashes', hconnected'⟩ := roam_frame now s
  -- the search goes on, or is finished
  rcases h with ⟨a, h, hphase⟩ | ⟨a, h⟩
  · left
    -- by where its coroutine stands; the network changes the plan alone
    cases hphase with
    | waiting hsessions hposted hconnected hplan =>
        obtain ⟨b, htracks, hplan, -⟩ := hplan.roam h now
        exact ⟨b, htracks, .waiting (by rwa [hsessions']) (hposted'.trans hposted)
          (hconnected'.trans hconnected) hplan⟩
    | awaitingNetwork hsessions hposted hconnected hnone hsteps =>
        have hplan : SamePlan True s a := .inl ⟨hnone, hsteps⟩
        obtain ⟨b, htracks, -, hnone', hsteps'⟩ := hplan.roam h now
        exact ⟨b, htracks, .awaitingNetwork (hsessions'.trans hsessions) (hposted'.trans hposted)
          (hconnected'.trans hconnected) (hnone' hnone) (hsteps' hsteps)⟩
    | joiningStale hsessions hposted hconnected hplan =>
        obtain ⟨b, htracks, hplan, -⟩ := hplan.roam h now
        exact ⟨b, htracks, .joiningStale (hsessions'.trans hsessions) (hposted'.trans hposted)
          (hconnected'.trans hconnected) hplan⟩
    | engine hsessions hplan =>
        obtain ⟨b, htracks, hplan, -⟩ := hplan.roam h now
        exact ⟨b, htracks, .engine (hsessions'.trans hsessions) hplan⟩
    | racing point hsessions hpoint hposted hconnected hplan =>
        obtain ⟨b, htracks, hplan, -⟩ := hplan.roam h now
        exact ⟨b, htracks, .racing point (hsessions'.trans hsessions) hpoint (hposted'.trans hposted)
          (hconnected'.trans hconnected) hplan⟩
    | parked hsessions hposted hconnected hplan =>
        obtain ⟨b, htracks, hplan, -⟩ := hplan.roam h now
        exact ⟨b, htracks, .parked (hsessions'.trans hsessions) (hposted'.trans hposted)
          (hconnected'.trans hconnected) hplan⟩
  · right
    refine ⟨a, ?_, h.finished, hsessions'.trans h.sessions, hleashes'.trans h.leashes,
      hposted'.trans h.posted⟩
    -- a search that is finished takes any plan
    have hreplanned : accept (.replanned now) a = some a := by simp [accept, h.finished]
    unfold Search.roam
    split
    · exact h.log
    · exact h.log
    · exact h.log.emit hreplanned

/-- Fields that no book is kept of. -/
theorem Kept.frame (h : Kept s) (hlog : s'.log = s.log) (hpasses : s'.autoPasses = s.autoPasses)
    (hconnected : s'.autoConnected = s.autoConnected) (hsteps : s'.autoSteps = s.autoSteps)
    (hindex : s'.autoStepIndex = s.autoStepIndex) (hkey : s'.autoNetworkKey = s.autoNetworkKey)
    (hdeadline : s'.autoStepDeadline ≤ s.autoStepDeadline) (hsessions : s'.sessions = s.sessions)
    (hposted : s'.posted = s.posted) (hleashes : s'.leashes = s.leashes)
    (hnetwork : s'.network = s.network) : Kept s' := by
  have hplan : ∀ {due a}, SamePlan due s a → SamePlan due s' a := by
    intro due a hplan
    refine hplan.imp (fun ⟨hnone, hnil⟩ => ⟨hnone, hsteps.trans hnil⟩) fun ⟨p, hpass, hplan, hdue⟩ =>
      ⟨p, hpass, ⟨?_, ?_, ?_, ?_, ?_⟩, hdue⟩
    · rw [hsteps, hplan.steps]
    · rw [hindex, hplan.tried]
    · rw [hindex, hsteps]
      exact hplan.inside
    · rw [hconnected, hkey]
      exact hplan.network
    · rw [hindex, hsteps]
      -- the deadline may only come nearer
      exact fun budgetMs hbudget => Nat.le_trans hdeadline (hplan.deadline budgetMs hbudget)
  rcases h with ⟨a, h, hphase⟩ | ⟨a, h⟩
  · refine .inl ⟨a, ⟨by rw [hlog]; exact h.log, by rw [hnetwork]; exact h.network, h.counted.trans hpasses.symm,
      h.connected.trans hconnected.symm, h.live, by rw [hpasses]; exact h.room⟩, ?_⟩
    cases hphase with
    | waiting hs hp hc hplan' =>
        exact .waiting (by rwa [hsessions]) (hposted.trans hp) (hconnected.trans hc) (hplan hplan')
    | awaitingNetwork hs hp hc hnone hnil =>
        exact .awaitingNetwork (hsessions.trans hs) (hposted.trans hp) (hconnected.trans hc) hnone
          (hsteps.trans hnil)
    | joiningStale hs hp hc hplan' =>
        exact .joiningStale (hsessions.trans hs) (hposted.trans hp) (hconnected.trans hc)
          (hplan hplan')
    | engine hs hplan' => exact .engine (hsessions.trans hs) (hplan hplan')
    | racing point hs hpoint hp hc hplan' =>
        exact .racing point (hsessions.trans hs) hpoint (hposted.trans hp) (hconnected.trans hc)
          (hplan hplan')
    | parked hs hp hc hplan' =>
        exact .parked (hsessions.trans hs) (hposted.trans hp) (hconnected.trans hc) (hplan hplan')
  · exact .inr ⟨a, by rw [hlog]; exact h.log, h.finished, hsessions.trans h.sessions,
      hleashes.trans h.leashes, hposted.trans h.posted⟩

/-- The phone moves, which the code hears of later. -/
theorem Kept.move (h : Kept s) (network : Nat) :
    Kept (Search.emit (.moved network) { s with network := network }) := by
  have hplan : ∀ {due a}, SamePlan due s a →
      SamePlan due (Search.emit (.moved network) { s with network := network })
        { a with network := some network } :=
    fun hplan => hplan.imp id fun ⟨p, hpass, hplan, hdue⟩ => ⟨p, hpass, { hplan with }, hdue⟩
  -- the phone's moves are on record in a finished search too
  rcases h with ⟨a, h, hphase⟩ | ⟨a, h⟩
  · have haccept : accept (.moved network) a = some { a with network := some network } := by
      simp [accept, h.live]
    have htracks : Tracks (Search.emit (.moved network) { s with network := network })
        { a with network := some network } :=
      ⟨h.log.emit haccept, rfl, h.counted, h.connected, h.live, h.room⟩
    refine .inl ⟨_, htracks, ?_⟩
    cases hphase with
    | waiting hsessions hposted hconnected hplan' =>
        exact .waiting hsessions hposted hconnected (hplan hplan')
    | awaitingNetwork hsessions hposted hconnected hnone hsteps =>
        exact .awaitingNetwork hsessions hposted hconnected hnone hsteps
    | joiningStale hsessions hposted hconnected hplan' =>
        exact .joiningStale hsessions hposted hconnected (hplan hplan')
    | engine hsessions hplan' => exact .engine hsessions (hplan hplan')
    | racing point hsessions hpoint hposted hconnected hplan' =>
        exact .racing point hsessions hpoint hposted hconnected (hplan hplan')
    | parked hsessions hposted hconnected hplan' =>
        exact .parked hsessions hposted hconnected (hplan hplan')
  · have haccept : accept (.moved network) a = some { a with network := some network } := by
      simp [accept, h.finished]
    exact .inr ⟨_, h.log.emit haccept, h.finished, h.sessions, h.leashes, h.posted⟩

/-! ### The turns -/

theorem resume_some {point : Point} {segment : State → State} (h : resume point s segment = some s') :
    point ∈ s.sessions ∧ segment (leave point s) = s' := by
  unfold resume at h
  split_ifs at h with hin
  exact ⟨hin, Option.some.inj h⟩

theorem Tracks.leave (h : Tracks s a) (point : Point) : Tracks (leave point s) a :=
  { h with }

theorem SamePlan.leave {due : Prop} (h : SamePlan due s a) (point : Point) :
    SamePlan due (leave point s) a :=
  h.imp id fun ⟨p, hpass, hplan, hdue⟩ => ⟨p, hpass, { hplan with }, hdue⟩

theorem Tracks.moveOn (h : Tracks s a) : Tracks (moveOn s) a :=
  { h with }

theorem SamePlan.moveOn {due : Prop} (h : SamePlan due s a) : SamePlan due (moveOn s) a :=
  h.imp id fun ⟨p, hpass, hplan, hdue⟩ => ⟨p, hpass, { hplan with }, hdue⟩

theorem Tracks.relaunched (h : Tracks s a) : Tracks (cancel (Search.leave .waiting s)) a :=
  { h with }

theorem SamePlan.relaunched {due : Prop} (h : SamePlan due s a) :
    SamePlan due (cancel (Search.leave .waiting s)) a :=
  h.imp id fun ⟨p, hpass, hplan, hdue⟩ => ⟨p, hpass, { hplan with }, hdue⟩

/-- While there is a session, the search is not over. -/
theorem Kept.of_mem {point : Point} (h : Kept s) (hin : point ∈ s.sessions) :
    ∃ a, Tracks s a ∧ Phase s a := by
  refine h.resolve_right fun ⟨a, hover⟩ => ?_
  rw [hover.sessions] at hin
  cases hin

theorem SamePlan.weaken {due : Prop} (h : SamePlan due s a) : SamePlan False s a :=
  h.imp id fun ⟨p, hpass, hplan, _⟩ => ⟨p, hpass, hplan, False.elim⟩

theorem Phase.samePlan (h : Phase s a) : SamePlan False s a := by
  cases h with
  | waiting hsessions hposted hconnected hplan => exact hplan.weaken
  | awaitingNetwork hsessions hposted hconnected hnone hsteps => exact .inl ⟨hnone, hsteps⟩
  | joiningStale hsessions hposted hconnected hplan => exact hplan.weaken
  | engine hsessions hplan => exact hplan
  | racing point hsessions hpoint hposted hconnected hplan => exact hplan
  | parked hsessions hposted hconnected hplan => exact hplan

theorem Phase.of_waiting (h : Phase s a) (hin : .waiting ∈ s.sessions) :
    (s.sessions = [.waiting] ∨ s.sessions = [.parked true, .waiting]) ∧ s.posted = 0 ∧
      s.autoConnected = false ∧ SamePlan True s a := by
  cases h with
  | waiting hsessions hposted hconnected hplan => exact ⟨hsessions, hposted, hconnected, hplan⟩
  | racing point hsessions hpoint => rcases hpoint with rfl | rfl <;> simp [hsessions] at hin
  | _ => simp_all

theorem Phase.of_awaitingNetwork (h : Phase s a) (hin : .awaitingNetwork ∈ s.sessions) :
    s.sessions = [.awaitingNetwork] ∧ s.posted = 0 ∧ a.pass = none := by
  cases h with
  | awaitingNetwork hsessions hposted hconnected hnone hsteps => exact ⟨hsessions, hposted, hnone⟩
  | waiting hsessions => rcases hsessions with hsessions | hsessions <;> simp [hsessions] at hin
  | racing point hsessions hpoint => rcases hpoint with rfl | rfl <;> simp [hsessions] at hin
  | _ => simp_all

theorem Phase.of_joiningStale (h : Phase s a) (hin : .joiningStale ∈ s.sessions) :
    s.sessions = [.joiningStale] ∧ s.posted = 0 ∧ s.autoConnected = false ∧ SamePlan True s a := by
  cases h with
  | joiningStale hsessions hposted hconnected hplan => exact ⟨hsessions, hposted, hconnected, hplan⟩
  | waiting hsessions => rcases hsessions with hsessions | hsessions <;> simp [hsessions] at hin
  | racing point hsessions hpoint => rcases hpoint with rfl | rfl <;> simp [hsessions] at hin
  | _ => simp_all

theorem Phase.of_engine (h : Phase s a) (hin : .engine ∈ s.sessions) : s.sessions = [.engine] := by
  cases h with
  | engine hsessions => exact hsessions
  | waiting hsessions => rcases hsessions with hsessions | hsessions <;> simp [hsessions] at hin
  | racing point hsessions hpoint => rcases hpoint with rfl | rfl <;> simp [hsessions] at hin
  | _ => simp_all

theorem Phase.of_posted (h : Phase s a) (hposted : 0 < s.posted) : s.sessions = [.engine] := by
  cases h with
  | engine hsessions => exact hsessions
  | _ => simp_all

theorem Phase.of_racing {point : Point} (h : Phase s a) (hin : point ∈ s.sessions)
    (hpoint : point = .racing ∨ ∃ claimed, point = .startingChain claimed) :
    (point = .racing ∨ point = .startingChain false) ∧ s.sessions = [point] ∧ s.posted = 0 ∧
      s.autoConnected = false := by
  cases h with
  | racing point' hsessions hpoint' hposted hconnected =>
      obtain rfl : point = point' := by simpa [hsessions] using hin
      exact ⟨hpoint', hsessions, hposted, hconnected⟩
  | waiting hsessions =>
      rcases hpoint with rfl | ⟨claimed, rfl⟩ <;>
        rcases hsessions with hsessions | hsessions <;> simp [hsessions] at hin
  | _ => rcases hpoint with rfl | ⟨claimed, rfl⟩ <;> simp_all

theorem Phase.of_parked (h : Phase s a) (hin : .parked false ∈ s.sessions) :
    s.sessions = [.parked false] ∧ s.posted = 0 ∧ s.autoConnected := by
  cases h with
  | parked hsessions hposted hconnected => exact ⟨hsessions, hposted, hconnected⟩
  | waiting hsessions => rcases hsessions with hsessions | hsessions <;> simp [hsessions] at hin
  | racing point hsessions hpoint => rcases hpoint with rfl | rfl <;> simp [hsessions] at hin
  | _ => simp_all

theorem relaunch_turn (h : Kept s) (found : Found) (hturn : turn (.relaunch found) s = some s') :
    Kept s' := by
  unfold turn at hturn
  dsimp only at hturn
  obtain ⟨hin, rfl⟩ := resume_some hturn
  obtain ⟨a, htracks, hphase⟩ := h.of_mem hin
  obtain ⟨hsessions, hposted, hconnected, hplan⟩ := hphase.of_waiting hin
  refine runSession_kept htracks.relaunched hplan.relaunched ?_ hposted hconnected found
  -- What was parked behind the failure is cancelled when the next attempt begins.
  unfold cancel leave
  rcases hsessions with hsessions | hsessions <;> rw [hsessions] <;> rfl

/-- The call into the engine has begun. -/
theorem staleGone_turn (h : Kept s) (hclean : s.autoSteps ≠ []) (hturn : turn .staleGone s = some s') :
    Kept s' := by
  unfold turn at hturn
  dsimp only at hturn
  obtain ⟨hin, rfl⟩ := resume_some hturn
  obtain ⟨a, htracks, hphase⟩ := h.of_mem hin
  obtain ⟨hsessions, hposted, hconnected, hplan⟩ := hphase.of_joiningStale hin
  obtain ⟨p, hpass, hplan, hdue⟩ := hplan.resolve_left fun hnone => hclean hnone.2
  have hran : Pass.accept (.ran s.autoStepIndex) p = some { p with mayRun := false } := by
    simp [Pass.accept, hplan.tried, hdue trivial]
  refine .inl ⟨_, { htracks with log := (htracks.emit hpass hran).log }, .engine ?_ ?_⟩
  · simp [Search.emit, park, leave, hsessions]
  · exact .inr ⟨_, rfl, { hplan with }, False.elim⟩

theorem staleTimedOut_turn (h : Kept s) (hclean : s.autoSteps ≠ []) (outOfTime : Bool)
    (hturn : turn (.staleTimedOut outOfTime) s = some s') : Kept s' := by
  unfold turn at hturn
  dsimp only at hturn
  obtain ⟨hin, rfl⟩ := resume_some hturn
  obtain ⟨a, htracks, hphase⟩ := h.of_mem hin
  obtain ⟨hsessions, hposted, hconnected, hplan⟩ := hphase.of_joiningStale hin
  have hended : Ended (leave .joiningStale s) := ⟨.inl (by simp [leave, hsessions]), hposted⟩
  exact finishStep_kept (htracks.leave _) (hplan.weaken.leave _) hclean hended hconnected outOfTime

/-- A leash that runs out a second time leaves its engine behind. -/
theorem leashedAgain_turn (h : Kept s) (hclean : s.autoSteps ≠ []) (token : Nat) (outOfTime : Bool)
    (hturn : turn (.leashedAgain token outOfTime) s = some s') : Kept s' := by
  unfold turn at hturn
  dsimp only at hturn
  split_ifs at hturn with hholds
  cases hturn
  rcases h with ⟨a, htracks, hphase⟩ | ⟨a, hover⟩
  · have hended : Ended (moveOn s) := ⟨.inl rfl, rfl⟩
    exact finishStep_kept htracks.moveOn hphase.samePlan.moveOn hclean hended hholds.2.2.2 outOfTime
  · have := hholds.1
    rw [hover.leashes] at this
    cases this

theorem engineUp_turn (h : Kept s) (hturn : turn .engineUp s = some s') : Kept s' := by
  unfold turn at hturn
  dsimp only at hturn
  split_ifs at hturn with hin
  cases hturn
  obtain ⟨a, htracks, hphase⟩ := h.of_mem hin
  refine .inl ⟨a, { htracks with }, .engine (hphase.of_engine hin) ?_⟩
  exact hphase.samePlan.imp id fun ⟨p, hpass, hplan, hdue⟩ => ⟨p, hpass, { hplan with }, hdue⟩

theorem won_turn (h : Kept s) (hturn : turn .won s = some s') : Kept s' := by
  unfold turn at hturn
  dsimp only at hturn
  split_ifs at hturn with hposted
  cases hturn
  rcases h with ⟨a, htracks, hphase⟩ | ⟨a, hover⟩
  · have hwon : Tracks (autoWon { s with posted := s.posted - 1 }) _ :=
      Tracks.autoWon { htracks with }
    refine .inl ⟨_, hwon, .engine (hphase.of_posted hposted) (SamePlan.autoWon ?_)⟩
    exact hphase.samePlan.imp id fun ⟨p, hpass, hplan, hdue⟩ => ⟨p, hpass, { hplan with }, hdue⟩
  · rw [hover.posted] at hposted
    cases hposted

theorem engineFailed_turn (h : Kept s) (hclean : s.autoConnected ∨ s.autoSteps ≠ [])
    (conclusive outOfTime : Bool) (hturn : turn (.engineFailed conclusive outOfTime) s = some s') :
    Kept s' := by
  have hposted : s.posted = 0 := by
    by_contra hposted
    rw [turn, if_neg hposted] at hturn
    cases hturn
  rw [turn, if_pos hposted] at hturn
  obtain ⟨hin, rfl⟩ := resume_some hturn
  obtain ⟨a, htracks, hphase⟩ := h.of_mem hin
  have hended : Ended (leave .engine s) := ⟨.inl (by simp [leave, hphase.of_engine hin]), hposted⟩
  -- A conclusive error takes time away from the step and nothing else.
  cases conclusive with
  | true =>
      have htracks' : Tracks { leave .engine s with autoStepDeadline := 0 } a := { htracks with }
      have hplan' : SamePlan False { leave .engine s with autoStepDeadline := 0 } a :=
        hphase.samePlan.imp id fun ⟨p, hpass, hplan, hdue⟩ =>
          ⟨p, hpass, { hplan with deadline := fun budgetMs _ => Nat.zero_le _ }, hdue⟩
      exact advanceAuto_kept htracks' hplan' hclean hended outOfTime
  | false =>
      exact advanceAuto_kept (htracks.leave _) (hphase.samePlan.leave _) hclean hended outOfTime

/-- A race that finds no way out, and one whose winner does not come up. -/
theorem raceLost_turn (h : Kept s) (hclean : s.autoConnected ∨ s.autoSteps ≠ []) {point : Point}
    (hpoint : point = .racing ∨ ∃ claimed, point = .startingChain claimed) (outOfTime : Bool)
    (hturn : resume point s (advanceAuto outOfTime) = some s') : Kept s' := by
  obtain ⟨hin, rfl⟩ := resume_some hturn
  obtain ⟨a, htracks, hphase⟩ := h.of_mem hin
  obtain ⟨-, hsessions, hposted, hconnected⟩ := hphase.of_racing hin hpoint
  have hended : Ended (leave point s) := ⟨.inl (by simp [leave, hsessions]), hposted⟩
  exact advanceAuto_kept (htracks.leave _) (hphase.samePlan.leave _) hclean hended outOfTime

theorem raceWon_turn (h : Kept s) (hturn : turn .raceWon s = some s') : Kept s' := by
  unfold turn at hturn
  dsimp only at hturn
  obtain ⟨hin, rfl⟩ := resume_some hturn
  obtain ⟨a, htracks, hphase⟩ := h.of_mem hin
  obtain ⟨-, hsessions, hposted, hconnected⟩ := hphase.of_racing hin (.inl rfl)
  refine .inl ⟨a, { htracks with }, .racing (.startingChain false) ?_ (.inr rfl) hposted hconnected ?_⟩
  · simp [park, leave, hsessions]
  · exact hphase.samePlan.imp id fun ⟨p, hpass, hplan, hdue⟩ => ⟨p, hpass, { hplan with }, hdue⟩

theorem chainUp_turn (h : Kept s) (hturn : turn .chainUp s = some s') : Kept s' := by
  unfold turn at hturn
  dsimp only at hturn
  split_ifs at hturn with hin
  · obtain ⟨-, rfl⟩ := resume_some hturn
    obtain ⟨a, htracks, hphase⟩ := h.of_mem hin
    obtain ⟨-, hsessions, hposted, -⟩ := hphase.of_racing hin (.inr ⟨false, rfl⟩)
    have hwon : Tracks (autoWon (park (.parked false) (leave (.startingChain false) s))) _ :=
      Tracks.autoWon { htracks with }
    refine .inl ⟨_, hwon, .parked ?_ hposted rfl (SamePlan.autoWon ?_)⟩
    · simp [Search.autoWon, Search.emit, park, leave, hsessions]
    · exact hphase.samePlan.imp id fun ⟨p, hpass, hplan, hdue⟩ => ⟨p, hpass, { hplan with }, hdue⟩
  · -- No watcher has claimed an attempt whose chain is not up.
    obtain ⟨hin, -⟩ := resume_some hturn
    obtain ⟨a, -, hphase⟩ := h.of_mem hin
    obtain ⟨hpoint, -⟩ := hphase.of_racing hin (.inr ⟨true, rfl⟩)
    simp at hpoint

theorem hopDown_turn (h : Kept s) (outOfTime : Bool)
    (hturn : turn (.hopDown (.parked false) outOfTime) s = some s') : Kept s' := by
  unfold turn at hturn
  dsimp only at hturn
  obtain ⟨hin, rfl⟩ := resume_some hturn
  obtain ⟨a, htracks, hphase⟩ := h.of_mem hin
  obtain ⟨hsessions, hposted, hconnected⟩ := hphase.of_parked hin
  have htracks' : Tracks (park (.parked true) (leave (.parked false) s)) a := { htracks with }
  have hplan' : SamePlan False (park (.parked true) (leave (.parked false) s)) a :=
    hphase.samePlan.imp id fun ⟨p, hpass, hplan, hdue⟩ => ⟨p, hpass, { hplan with }, hdue⟩
  refine advanceAuto_kept htracks' hplan' (.inl hconnected) ⟨.inr ?_, hposted⟩ outOfTime
  simp [park, leave, hsessions]

/-- **A turn that meets the condition keeps the books.** -/
theorem Kept.turn (h : Kept s) (hclean : Bookkept s t) (hturn : turn t s = some s') : Kept s' := by
  -- by the turn; each coroutine's turns have a lemma of their own
  cases t with
  | move network =>
      cases hturn
      exact h.move network
  | notice =>
      unfold Search.turn at hturn
      dsimp only at hturn
      split_ifs at hturn
      cases hturn
      exact h.frame rfl rfl rfl rfl rfl rfl (Nat.le_refl _) rfl rfl rfl rfl
  | roam =>
      unfold Search.turn at hturn
      dsimp only at hturn
      cases hnoticed : s.noticed with
      | nil => simp [hnoticed] at hturn
      | cons now noticed =>
          simp only [hnoticed, Option.some.injEq] at hturn
          have hleft : Kept { s with noticed := noticed } :=
            h.frame rfl rfl rfl rfl rfl rfl (Nat.le_refl _) rfl rfl rfl rfl
          rw [← hturn]
          exact roam_kept hleft now
  | tick ms =>
      cases hturn
      exact h.frame rfl rfl rfl rfl rfl rfl (Nat.le_refl _) rfl rfl rfl rfl
  | relaunch found => exact relaunch_turn h found hturn
  | networkUp found =>
      unfold Search.turn at hturn
      dsimp only at hturn
      obtain ⟨hin, rfl⟩ := resume_some hturn
      obtain ⟨a, htracks, hphase⟩ := h.of_mem hin
      -- no plan is there while the network is awaited
      obtain ⟨hsessions, hposted, hnone⟩ := hphase.of_awaitingNetwork hin
      exact plan_kept (htracks.leave _) hnone (by simp [leave, hsessions]) hposted found
  | networkTimedOut =>
      unfold Search.turn at hturn
      dsimp only at hturn
      obtain ⟨hin, rfl⟩ := resume_some hturn
      obtain ⟨a, htracks, hphase⟩ := h.of_mem hin
      exact giveUp_kept htracks.log htracks.live (hphase.of_awaitingNetwork hin).2.2
  | staleGone => exact staleGone_turn h hclean hturn
  | staleTimedOut outOfTime => exact staleTimedOut_turn h hclean outOfTime hturn
  | engineUp => exact engineUp_turn h hturn
  | won => exact won_turn h hturn
  | engineFailed conclusive outOfTime => exact engineFailed_turn h hclean conclusive outOfTime hturn
  | raceLost outOfTime => exact raceLost_turn h hclean (.inl rfl) outOfTime hturn
  | raceWon => exact raceWon_turn h hturn
  | chainUp => exact chainUp_turn h hturn
  | chainFailed claimed outOfTime =>
      exact raceLost_turn h hclean (.inr ⟨claimed, rfl⟩) outOfTime hturn
  | hopDown point outOfTime =>
      cases hclean
      exact hopDown_turn h outOfTime hturn
  | leashed token =>
      unfold Search.turn at hturn
      dsimp only at hturn
      split_ifs at hturn
      cases hturn
      exact h.frame rfl rfl rfl rfl rfl rfl (Nat.zero_le _) rfl rfl rfl rfl
  | leashedAgain token outOfTime => exact leashedAgain_turn h hclean token outOfTime hturn
  -- a session that was left goes on past none of the points that the condition names
  | leftStaleTimedOut outOfTime => exact hclean.elim
  | leftEngineUp => exact hclean.elim
  | leftWon => exact hclean.elim
  | leftChainUp => exact hclean.elim

instance (s : State) : (t : Turn) → Decidable (Bookkept s t)
  | .staleGone | .staleTimedOut _ | .leashedAgain _ _ => inferInstanceAs (Decidable (s.autoSteps ≠ []))
  | .engineFailed _ _ | .raceLost _ | .chainFailed _ _ =>
      inferInstanceAs (Decidable (s.autoConnected ∨ s.autoSteps ≠ []))
  | .hopDown point _ => inferInstanceAs (Decidable (point = .parked false))
  | .leftStaleTimedOut _ | .leftEngineUp | .leftWon | .leftChainUp => .isFalse not_false
  | .move _ | .notice | .roam | .tick _ | .relaunch _ | .networkUp _ | .networkTimedOut | .engineUp
  | .won | .raceWon | .chainUp | .leashed _ => .isTrue trivial

/-- The network changes while a step is run, and then the step fails. -/
def replanned : List Turn :=
  [.relaunch ⟨true, .engine 60000, [.race], false⟩, .move 1, .notice, .roam, .engineFailed false false]

/-- An engine step that is run twice in its budget and a race, which end a pass; and the next plan,
which is dropped for another one before its first step is run. -/
def passed : List Turn :=
  let found : Found := ⟨true, .engine 60000, [.race], true⟩
  [.relaunch ⟨true, .engine 60000, [.race], false⟩, .engineFailed false false, .tick 50000,
    .relaunch ⟨true, .engine 60000, [.race], false⟩, .engineFailed false false, .relaunch found,
    .raceLost false, .relaunch found, .move 1, .staleTimedOut false, .notice, .roam, .relaunch found,
    .staleGone]

end Books

end Search
end Service
end AuroraVpn
