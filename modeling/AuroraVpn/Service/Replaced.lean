import AuroraVpn.Lib.Runs
import AuroraVpn.Service.Attempts

/-!
# Replaced — what the coroutines of a session do once it has been replaced

A session is several coroutines of one generation: its own, the watchers of its hops, the leash on its
engine, the lanes of its race, what it has launched on the side, and the listener that the engine
calls.  Each is suspended at a `Point`, and `resume` says what it does from there to the next: in
which order it calls what, and where it looks at the generation.

What else a coroutine reads in a turn (the shared fields of the service, the answer of the system) is
a `View` of that turn, of which nothing is assumed.

* `Forbidden`: what a replaced session has no business doing.
* `resume_inert_iff`: the resumptions that the code guards.
* `replaced_inert_iff`: the runs in which replaced sessions are inert.
-/

namespace AuroraVpn
namespace Service
namespace Replaced

open Runs
open Attempts (Carrier)

/-! ## What a coroutine does -/

inductive Effect
  /-- `EngineStatusStore.update`, and the notification. -/
  | publish
  | notify
  /-- `reconnectAttempt`. -/
  | countRetry
  | resetRetries
  /-- `autoSteps` and `autoStepIndex`, `autoStepDeadline` among them, and the other fields of the
  search. -/
  | steps
  | passes
  | autoConnected
  | autoToken
  | autoEngineUp
  /-- The preferences: `AUTO_ROUTES` and `LAST_GOOD_TRANSPORT`. -/
  | rememberRoute
  | rememberEngineFailure
  | rememberWorkingTransport
  | dropBlackhole
  | raiseInterface
  | startCarrier
  | startEngine
  /-- Another attempt, after a delay. -/
  | schedule
  -- What may be left to a replaced session.
  | stopCarrier
  | stopChain
  | stopEngine
  | closeInterface
  | socketProtector
  | trafficMeter
  | lastEngineFailure
  | staleEngine
  | stage
  | generation
  | stopSelf
  deriving DecidableEq, Repr

/-- What a replaced session has no business doing. -/
def Effect.Forbidden : Effect → Bool
  | .publish | .notify | .countRetry | .resetRetries | .steps | .passes | .autoConnected
  | .autoToken | .autoEngineUp | .rememberRoute | .rememberEngineFailure
  | .rememberWorkingTransport | .dropBlackhole | .raiseInterface | .startCarrier | .startEngine
  | .schedule => true
  | _ => false

/-- For whom a `CarrierClient` is started: the loop over the hops, or a lane; with the carriers that
come behind. -/
inductive Caller
  | hops (first : Bool) (rest : List Carrier)
  | lane (rest : List Carrier)
  deriving DecidableEq, Repr

/-- Whose call of `NativeAetherBridge.run`. -/
inductive Runner
  | session
  | chainJob
  | carrier
  deriving DecidableEq, Repr

/-- Where a coroutine of a session is suspended. -/
inductive Point
  /-- `awaitNetwork`, in its `delay`. -/
  | awaitingNetwork
  /-- `autoStepFor`, at `stale.join()`. -/
  | joiningStale
  /-- `NativeAetherBridge.prepare`. -/
  | preparing
  /-- Behind `withContext(Dispatchers.IO)` or `launch(Dispatchers.IO)`, in front of the call of
  `NativeAetherBridge.run`, and in it. -/
  | enteringRun (runner : Runner)
  | running (runner : Runner)
  /-- `runChainSession`: at the `select`, in `chain.start`, in `chain.nodes` and at
  `engine.join()`. -/
  | awaitingTunnel
  | startingChain
  | countingNodes
  | joiningEngine
  /-- `client.start`: in front of the start of the carrier's process or engine (`bind`, `prepare`),
  and until it is up. -/
  | starting (carrier : Carrier) (caller : Caller)
  | comingUp (carrier : Carrier) (caller : Caller)
  /-- `chain.startCarrier`, of `runCarrierSession` or of `runAutoRace`. -/
  | startingCarrierChain (race : Bool)
  | parked
  /-- `winner.await()` in `raceLanes`, with the lanes still to be run. -/
  | racing
  /-- A lane: its head start, `stale.join()` in `tryRoute`, `CarrierProbe.works`. -/
  | headStart (routes : List Carrier)
  | joiningStaleLane (carrier : Carrier) (rest : List Carrier)
  | probing (rest : List Carrier)
  /-- `watchHop`. -/
  | watching
  /-- `leash`: the budget, and the grace. -/
  | leashed
  | leashedAgain
  /-- The delays of `scheduleReconnect` and `relaunch`. -/
  | waiting
  /-- The pumps of the chain's events and of the engine's log. -/
  | pumping
  /-- `buyIdentityBehind`: the wait for a stale engine, and the call. -/
  | buying
  | provisioning
  /-- `launch { autoWon(route) }`. -/
  | won
  /-- The engine's listener, until the engine calls it. -/
  | listener
  deriving DecidableEq, Repr

/-- With what a coroutine is resumed. -/
inductive Answer
  | done
  | failed
  /-- A failure that `isConclusive` takes for one that no retry can mend. -/
  | conclusive
  | timedOut
  deriving DecidableEq, Repr

inductive Step
  | engine
  | race (lanes : List (List Carrier))
  deriving DecidableEq, Repr

/-- What a turn reads besides the generation. -/
structure View where
  automatic : Bool
  /-- `autoRunningRoute != null`. -/
  runningRoute : Bool
  autoConnected : Bool
  /-- The step of the plan that `autoStepIndex` stands at. -/
  step : Option Step
  /-- The step behind it. -/
  nextStep : Option Step
  noPlan : Bool
  /-- The step's deadline leaves time for one more attempt of the engine. -/
  timeLeft : Bool
  /-- Room for another pass. -/
  anotherPass : Bool
  retriesLeft : Bool
  blockOnFailure : Bool
  online : Bool
  networkDeadlinePassed : Bool
  staleEngine : Bool
  /-- `leashHolds`, but for the generation. -/
  leashHolds : Bool
  tun : Bool
  permitted : Bool
  interfaceRaised : Bool
  useChain : Bool
  engineInPath : Bool
  hops : List Carrier
  transportNew : Bool
  winnerRacesEngine : Bool
  raceSettled : Bool
  raceWon : Bool
  hopDown : Bool

/-- What a coroutine does from one suspension point to the next, what it launches, and where it is
suspended again. -/
structure Segment where
  effects : List Effect
  launched : List Point
  next : Option Point

namespace Segment

def ends (effects : List Effect) : Segment :=
  ⟨effects, [], none⟩

def parks (point : Point) (effects : List Effect) : Segment :=
  ⟨effects, [], some point⟩

def after (effects : List Effect) (segment : Segment) : Segment :=
  { segment with effects := effects ++ segment.effects }

def launching (points : List Point) (segment : Segment) : Segment :=
  { segment with launched := points ++ segment.launched }

end Segment

open Segment

/-! ## The functions that the flows share -/

/-- `reportError`. -/
def reportError : List Effect :=
  [.publish, .notify]

/-- `finishIfCurrent`. -/
def finishIfCurrent (current : Bool) : List Effect :=
  if current then [.stopSelf] else []

/-- `clearSocketProtector`. -/
def clearSocketProtector (current : Bool) : List Effect :=
  if current then [.socketProtector] else []

/-- `giveUp`.  Its teardown belongs to no session. -/
def giveUp (v : View) : List Effect :=
  .generation :: (if v.blockOnFailure then [.raiseInterface] else []) ++ reportError

/-- `enterStep`, with the leash on an engine step. -/
def enterStep (step : Option Step) : Segment :=
  match step with
  | some .engine => ⟨[.steps, .autoEngineUp, .autoToken, .stage, .steps], [.leashed], none⟩
  | _ => ends [.steps, .autoEngineUp, .autoToken]

/-- `relaunch`, and what `scheduleReconnect` launches in its place. -/
def relaunch : Segment :=
  ⟨[.schedule], [.waiting], none⟩

/-- `finishStep`. -/
def finishStep (v : View) : Segment :=
  let failed : List Effect :=
    if v.step = some .engine then [.stage, .rememberEngineFailure] else []
  let entered := enterStep v.nextStep
  after (failed ++ entered.effects) <| launching entered.launched <|
    if v.nextStep.isSome then relaunch
    else if v.anotherPass then after [.passes, .steps, .publish, .notify] relaunch
    else ends (.passes :: giveUp v)

/-- `advanceAuto`. -/
def advanceAuto (v : View) : Segment :=
  if v.autoConnected then
    after [.steps, .passes, .autoConnected, .publish, .notify] relaunch
  else if v.step = some .engine ∧ v.timeLeft then after [.steps, .autoEngineUp] relaunch
  else finishStep v

/-- `scheduleReconnect`. -/
def scheduleReconnect (current : Bool) (v : View) : Segment :=
  if !current then ends []
  else if v.automatic then advanceAuto v
  else if v.retriesLeft then after [.countRetry, .publish, .notify] relaunch
  else ends (.countRetry :: giveUp v)

/-- `reportConnected`, which leaves `autoWon` to a coroutine of its own. -/
def reportConnected (v : View) : Segment :=
  ⟨[.dropBlackhole, .trafficMeter, .publish, .notify],
    if v.automatic ∧ v.runningRoute then [.won] else [], none⟩

/-- `autoWon`. -/
def autoWon (v : View) : List Effect :=
  if v.automatic then [.autoConnected, .autoToken, .passes, .steps, .stage, .rememberRoute] else []

def rememberWorkingTransport (v : View) : List Effect :=
  if v.transportNew then [.rememberWorkingTransport] else []

/-! ## The flows -/

/-- `tryRoute`, from the client on. -/
def startRoute (carrier : Carrier) (rest : List Carrier) : Segment :=
  parks (.starting carrier (.lane rest)) [.stage, .publish, .notify]

/-- The loop of a lane: it breaks once the race is won or the generation has moved on. -/
def nextRoute (current : Bool) (v : View) : List Carrier → Segment
  | [] => ends []
  | carrier :: rest =>
      if v.raceWon || !current then ends []
      else if carrier = .aether ∧ v.staleEngine then parks (.joiningStaleLane carrier rest) []
      else startRoute carrier rest

/-- The end of `tryRoute` for a route that is not kept, and the lane behind it. -/
def dropRoute (current : Bool) (v : View) (rest : List Carrier) : Segment :=
  let cleared : List Effect :=
    if v.raceSettled then []
    else [.stopCarrier, .stage] ++ if current then [.publish, .notify] else []
  after cleared (nextRoute current v rest)

/-- The loop of `runCarrierSession` over the hops that are left. -/
def nextHop (first : Bool) : List Carrier → Segment
  | [] => parks (.startingCarrierChain false) [.publish]
  | carrier :: rest => parks (.starting carrier (.hops first rest)) [.publish, .notify]

/-- `client.start` has returned a failure. -/
def startFailed (current : Bool) (v : View) (carrier : Carrier) : Caller → Segment
  | .hops _ _ => after [.stopCarrier, .closeInterface] (scheduleReconnect current v)
  | .lane rest =>
      after (if carrier = .aether then [.lastEngineFailure] else []) (dropRoute current v rest)

/-- `client.start` has returned a port. -/
def started (current : Bool) (v : View) (carrier : Carrier) : Caller → Segment
  | .hops first rest =>
      if !current then ends [.stopCarrier, .closeInterface]
      else
        after (if carrier = .aether ∧ first then rememberWorkingTransport v else [])
          (launching [.watching] (nextHop false rest))
  | .lane rest => if !current then dropRoute current v rest else parks (.probing rest) []

/-- `runCarrierSession`, up to the first hop. -/
def runCarrierSession (v : View) : Segment :=
  if !v.tun then ends (reportError ++ finishIfCurrent true)
  else if !v.permitted then ends ([.publish, .notify] ++ reportError ++ finishIfCurrent true)
  else if !v.interfaceRaised then
    ends ([.publish, .notify] ++ reportError ++ finishIfCurrent true)
  else after [.publish, .notify, .raiseInterface] (launching [.pumping] (nextHop true v.hops))

/-- `runAutoRace`, up to `winner.await()`. -/
def runAutoRace (v : View) (lanes : List (List Carrier)) : Segment :=
  if !v.permitted || !v.interfaceRaised then ends (reportError ++ finishIfCurrent true)
  else ⟨[.raiseInterface, .publish, .notify], lanes.map .headStart, some .racing⟩

/-- `runChainSession`, up to its first suspension point. -/
def runChainSession (v : View) : Segment :=
  if v.engineInPath then
    ⟨[.notify], [.enteringRun .chainJob], some .awaitingTunnel⟩
  else parks .startingChain [.publish, .notify]

/-- `runSession`, behind `prepare`. -/
def prepared (v : View) : Segment :=
  if v.tun ∧ !v.interfaceRaised then ends (reportError ++ finishIfCurrent true)
  else
    after ((if v.tun then [.raiseInterface] else clearSocketProtector true) ++ [.publish, .notify]) <|
      if v.useChain then runChainSession v else parks (.enteringRun .session) []

/-- `runSession`, on the engine's path. -/
def runEngine (v : View) : Segment :=
  after [.publish] <| launching [.pumping] <|
    if v.tun ∧ !v.permitted then ends (reportError ++ finishIfCurrent true)
    else after (if v.tun then [.socketProtector] else []) <|
      if v.engineInPath then parks .preparing [] else prepared v

/-- `autoStepFor`, with a plan, and the session behind it. -/
def autoStep (v : View) : Segment :=
  match v.step with
  | none => ends []
  | some .engine => if v.staleEngine then parks .joiningStale [] else runEngine v
  | some (.race lanes) => runAutoRace v lanes

/-- `autoStepFor`, where it makes a new plan. -/
def newPlan (v : View) : Segment :=
  let entered := enterStep v.step
  after ([.steps, .stage, .autoConnected] ++ entered.effects) (launching entered.launched (autoStep v))

/-- `runSession`, which is launched in place. -/
def runSession (v : View) : Segment :=
  if v.automatic then
    if v.noPlan then
      if v.online then newPlan v else parks .awaitingNetwork [.publish, .notify]
    else autoStep v
  else if v.hops ≠ [.aether] then runCarrierSession v
  else runEngine v

/-- `cleanUp` of `runChainSession`. -/
def cleanUp (current : Bool) : List Effect :=
  [.stopChain, .stopEngine] ++ clearSocketProtector current ++ [.closeInterface]

/-- What a coroutine does when it is resumed, by where it is. -/
def resume (current : Bool) (v : View) : Point → Answer → Segment
  | .awaitingNetwork, _ =>
      if !current then ends []
      else if v.online then newPlan v
      else if v.networkDeadlinePassed then ends (giveUp v)
      else parks .awaitingNetwork []
  | .joiningStale, .timedOut => finishStep v
  | .joiningStale, _ => after [.staleEngine] (if !current then ends [] else runEngine v)
  | .preparing, .done => if !current then ends [] else prepared v
  | .preparing, .conclusive =>
      if v.automatic then after [.steps] (scheduleReconnect current v)
      else ends (reportError ++ finishIfCurrent current)
  | .preparing, _ => scheduleReconnect current v
  | .enteringRun runner, _ =>
      ⟨[.startEngine], if runner = .carrier then [] else [.listener], some (.running runner)⟩
  | .running .session, _ =>
      after (.closeInterface :: clearSocketProtector current)
        (if !current then ends [] else scheduleReconnect current v)
  | .running _, _ => ends []
  | .awaitingTunnel, .done =>
      if !current then ends (cleanUp current) else parks .startingChain [.publish, .notify]
  | .awaitingTunnel, _ =>
      after (cleanUp current) (if !current then ends [] else scheduleReconnect current v)
  | .startingChain, .done => launching [.pumping] (parks .countingNodes [])
  | .startingChain, _ =>
      after (cleanUp current) (if !current then ends [] else scheduleReconnect current v)
  | .countingNodes, _ =>
      { reportConnected v with next := if v.engineInPath then some .joiningEngine else none }
  | .joiningEngine, _ =>
      after (cleanUp current) (if !current then ends [] else scheduleReconnect current v)
  -- The engine of a hop is launched, the process of any other is started.
  | .starting .aether caller, .done =>
      launching [.enteringRun .carrier] (parks (.comingUp .aether caller) [])
  | .starting .aether caller, _ => startFailed current v .aether caller
  | .starting carrier caller, _ => parks (.comingUp carrier caller) [.startCarrier]
  | .comingUp carrier caller, .done => started current v carrier caller
  | .comingUp carrier caller, _ => startFailed current v carrier caller
  | .startingCarrierChain race, .done =>
      after (if race then [] else [.resetRetries])
        { launching [.pumping] (reportConnected v) with next := some .parked }
  | .startingCarrierChain _, _ =>
      after [.stopChain, .stopCarrier]
        (if !current then ends [] else scheduleReconnect current v)
  | .parked, _ => ends []
  | .racing, .done =>
      if !current then ends [.staleEngine, .stopCarrier, .closeInterface]
      else
        after ([.staleEngine, .stopCarrier] ++
            if v.winnerRacesEngine then rememberWorkingTransport v else [])
          ⟨[.publish], if v.winnerRacesEngine then [.watching] else [.watching, .buying],
            some (.startingCarrierChain true)⟩
  | .racing, _ =>
      after [.staleEngine, .stopCarrier, .closeInterface]
        (if !current then ends [] else scheduleReconnect current v)
  | .headStart routes, _ => nextRoute current v routes
  | .joiningStaleLane _ rest, .timedOut => nextRoute current v rest
  | .joiningStaleLane carrier rest, _ =>
      after [.staleEngine] (if !current then nextRoute current v rest else startRoute carrier rest)
  | .probing _, .done => ends (if v.raceWon then [.stopCarrier] else [])
  | .probing rest, _ => dropRoute current v rest
  | .watching, _ =>
      if !current then parks .watching []
      else if !v.hopDown then parks .watching []
      else { after [.stopChain, .stopCarrier] (scheduleReconnect current v) with next := some .watching }
  | .leashed, _ =>
      if !(current && v.leashHolds) then ends []
      else parks .leashedAgain [.steps, .stopEngine]
  | .leashedAgain, _ =>
      if !(current && v.leashHolds) then ends []
      else after [.staleEngine, .generation] (finishStep v)
  | .waiting, _ => if !current then ends [] else runSession v
  | .pumping, _ => if !current then ends [] else parks .pumping []
  | .buying, _ => if !current then ends [] else parks .provisioning []
  | .provisioning, _ => ends []
  | .won, _ => ends (autoWon v)
  | .listener, _ =>
      after ([.autoEngineUp, .resetRetries] ++ rememberWorkingTransport v)
        (if v.useChain then ends [] else reportConnected v)

/-! ## What a replaced session may be resumed with -/

/-- A resumption whose segment begins with a look at the generation, or does nothing that a replaced
session has no business doing. -/
def Guarded (v : View) : Point → Answer → Prop
  -- `finishStep`, where the wait for a stale engine ran out.
  | .joiningStale, .timedOut => False
  -- A conclusive error is reported, and under Automatic ends the step.
  | .preparing, .conclusive => False
  -- The call of `run` behind the switch of threads.
  | .enteringRun _, _ => False
  -- `ACTION_START` of the carrier's service, behind `bind`.
  | .starting carrier _, _ => carrier = .aether
  -- `reportConnected`, where the chain is up.
  | .countingNodes, _ => False
  | .startingCarrierChain _, .done => False
  | .won, _ => v.automatic = false
  | .listener, _ => False
  | _, _ => True

def Inert (segment : Segment) : Prop :=
  ∀ effect ∈ segment.effects, effect.Forbidden = false

instance (segment : Segment) : Decidable (Inert segment) :=
  inferInstanceAs (Decidable (∀ effect ∈ segment.effects, effect.Forbidden = false))

attribute [simp] Effect.Forbidden

section Inert

variable {v : View} {effects : List Effect} {segment : Segment}

@[simp]
theorem inert_ends : Inert (ends effects) ↔ ∀ effect ∈ effects, effect.Forbidden = false :=
  Iff.rfl

@[simp]
theorem inert_parks {point : Point} :
    Inert (parks point effects) ↔ ∀ effect ∈ effects, effect.Forbidden = false :=
  Iff.rfl

@[simp]
theorem inert_after :
    Inert (after effects segment) ↔ (∀ effect ∈ effects, effect.Forbidden = false) ∧ Inert segment :=
  List.forall_mem_append

@[simp]
theorem inert_launching {points : List Point} : Inert (launching points segment) ↔ Inert segment :=
  Iff.rfl

/-- `scheduleReconnect` looks at the generation itself. -/
@[simp]
theorem inert_scheduleReconnect : Inert (scheduleReconnect false v) :=
  nofun

@[simp]
theorem inert_nextRoute (routes : List Carrier) : Inert (nextRoute false v routes) := by
  cases routes with
  | nil => exact nofun
  | cons carrier rest => simp [nextRoute]

@[simp]
theorem inert_dropRoute (rest : List Carrier) : Inert (dropRoute false v rest) := by
  cases hsettled : v.raceSettled <;> simp [dropRoute, hsettled]

@[simp]
theorem inert_startFailed (carrier : Carrier) (caller : Caller) :
    Inert (startFailed false v carrier caller) := by
  cases caller with
  | hops first rest => simp [startFailed]
  | lane rest => cases carrier <;> simp [startFailed]

@[simp]
theorem inert_started (carrier : Carrier) (caller : Caller) :
    Inert (started false v carrier caller) := by
  cases caller with
  | hops first rest => simp [started]
  | lane rest => simp [started]

theorem steps_mem_enterStep (step : Option Step) : .steps ∈ (enterStep step).effects := by
  unfold enterStep
  split <;> simp [ends]

/-- A step is never ended without a change of the plan. -/
theorem not_inert_finishStep : ¬ Inert (finishStep v) := by
  intro h
  rw [finishStep, inert_after] at h
  cases h.1 .steps (List.mem_append_right _ (steps_mem_enterStep v.nextStep))

theorem inert_cleanUp : ∀ effect ∈ cleanUp false, effect.Forbidden = false := by
  decide

/-- A connection is never reported without a status. -/
theorem not_inert_reportConnected : ¬ Inert (reportConnected v) :=
  fun h => Bool.noConfusion (h .publish (by simp [reportConnected]))

@[simp]
theorem inert_autoWon : (∀ effect ∈ autoWon v, effect.Forbidden = false) ↔ v.automatic = false := by
  cases hautomatic : v.automatic <;> simp [autoWon, hautomatic]

/-- **When a replaced session is inert in one turn.** -/
theorem resume_inert_iff (v : View) (point : Point) (answer : Answer) :
    Inert (resume false v point answer) ↔ Guarded v point answer := by
  -- by the point at which the session waits, and by the answer
  cases point with
  | joiningStale =>
      cases answer with
      | timedOut => exact iff_of_false not_inert_finishStep id
      | _ => simp [resume, Guarded]
  | preparing =>
      cases answer with
      | conclusive =>
          -- an automatic session that has been replaced reports nothing
          cases hautomatic : v.automatic <;>
            simp [resume, Guarded, hautomatic, reportError]
      | _ => simp [resume, Guarded]
  | enteringRun runner => simp [resume, Guarded, Inert]
  | running runner =>
      cases runner <;> simp [resume, Guarded, clearSocketProtector]
  -- what has come up is taken down again
  | awaitingTunnel => cases answer <;> simpa [resume, Guarded] using inert_cleanUp
  | startingChain =>
      cases answer with
      | done => simp [resume, Guarded]
      | _ => simpa [resume, Guarded] using inert_cleanUp
  -- the tunnel is reported connected without a look at whose it is
  | countingNodes => exact iff_of_false (not_inert_reportConnected (v := v)) id
  | joiningEngine => simpa [resume, Guarded] using inert_cleanUp
  | starting carrier caller =>
      cases carrier with
      | aether => cases answer <;> simp [resume, Guarded]
      | psiphon => simp [resume, Guarded]
      | tor => simp [resume, Guarded]
  | comingUp carrier caller => cases answer <;> simp [resume, Guarded]
  | startingCarrierChain race =>
      cases answer with
      | done =>
          refine iff_of_false (fun h => ?_) id
          exact not_inert_reportConnected (v := v) (inert_after.1 h).2
      | _ => simp [resume, Guarded]
  | racing => cases answer <;> simp [resume, Guarded]
  | joiningStaleLane carrier rest =>
      cases answer <;> simp [resume, Guarded]
  | probing rest =>
      cases answer with
      -- the winner is kept for the session only where it is its own
      | done => cases hwon : v.raceWon <;> simp [resume, Guarded, hwon]
      | _ => simp [resume, Guarded]
  | won => simp [resume, Guarded, -Effect.Forbidden]
  | listener => simp [resume, Guarded]
  | _ => simp [resume, Guarded]

end Inert

/-! ## Runs -/

structure Coroutine where
  generation : Nat
  point : Point
  deriving DecidableEq, Repr

structure State where
  generation : Nat
  coroutines : List Coroutine

def fresh : State where
  generation := 0
  coroutines := []

inductive Turn
  /-- `replaceSession`, behind the join: a session begins. -/
  | begin (v : View)
  /-- `stopFromUser`, `onDestroy`, and `replaceSession` in front of the join. -/
  | moveOn
  /-- A coroutine is resumed, or the engine calls a listener. -/
  | resume (index : Nat) (v : View) (answer : Answer)

/-- What a segment leaves suspended.  What the leash launches goes on under the generation that the
leash has opened. -/
def Segment.coroutines (segment : Segment) (own launchedUnder : Nat) : List Coroutine :=
  segment.launched.map (⟨launchedUnder, ·⟩) ++ segment.next.toList.map (⟨own, ·⟩)

def settle (index : Nat) (own : Nat) (segment : Segment) (s : State) : State :=
  let moved := segment.effects.contains .generation
  { generation := if moved then s.generation + 1 else s.generation
    coroutines := s.coroutines.eraseIdx index ++
      segment.coroutines own (if moved then own + 1 else own) }

def turn : Turn → State → Option State
  | .begin v, s =>
      some { s with
        coroutines := s.coroutines ++ (runSession v).coroutines s.generation s.generation }
  | .moveOn, s => some { s with generation := s.generation + 1 }
  | .resume index v answer, s =>
      s.coroutines[index]?.map fun coroutine =>
        settle index coroutine.generation
          (Replaced.resume (coroutine.generation = s.generation) v coroutine.point answer) s

def machine : Machine State Turn where
  init s := s = fresh
  enabled _ _ := True
  step := turn

/-- The turn is none of a replaced session, or an inert one. -/
def InertTurn (s : State) : Turn → Prop
  | .resume index v answer =>
      ∀ coroutine ∈ s.coroutines[index]?, coroutine.generation ≠ s.generation →
        Inert (Replaced.resume false v coroutine.point answer)
  | _ => True

/-- A replaced session is resumed with nothing that its code does not guard against. -/
def GuardedTurn (s : State) : Turn → Prop
  | .resume index v answer =>
      ∀ coroutine ∈ s.coroutines[index]?, coroutine.generation ≠ s.generation →
        Guarded v coroutine.point answer
  | _ => True

instance (s : State) : (t : Turn) → Decidable (InertTurn s t)
  | .resume index v answer =>
      inferInstanceAs (Decidable (∀ coroutine ∈ s.coroutines[index]?,
        coroutine.generation ≠ s.generation →
          Inert (Replaced.resume false v coroutine.point answer)))
  | .begin _ | .moveOn => .isTrue trivial

theorem inertTurn_iff (s : State) (t : Turn) : InertTurn s t ↔ GuardedTurn s t := by
  cases t with
  | resume index v answer =>
      exact forall₃_congr fun coroutine _ _ => resume_inert_iff v coroutine.point answer
  | begin v => exact Iff.rfl
  | moveOn => exact Iff.rfl

/-- **When the replaced sessions of a run are inert**: in every order of what the sessions, the
engine's listeners and the commands do. -/
theorem replaced_inert_iff (turns : List Turn) (s : State) :
    machine.Along InertTurn turns s ↔ machine.Along GuardedTurn turns s :=
  along_congr inertTurn_iff turns s

/-- A session on the engine's path, in a run without Automatic. -/
def engineView : View where
  automatic := false
  runningRoute := false
  autoConnected := false
  step := none
  nextStep := none
  noPlan := false
  timeLeft := false
  anotherPass := false
  retriesLeft := true
  blockOnFailure := false
  online := true
  networkDeadlinePassed := false
  staleEngine := false
  leashHolds := false
  tun := true
  permitted := true
  interfaceRaised := true
  useChain := false
  engineInPath := true
  hops := [.aether]
  transportNew := false
  winnerRacesEngine := false
  raceSettled := false
  raceWon := false
  hopDown := false

/-- The user stops the session while the engine is validating its route, and the route opens before the
engine has heard of it. -/
def opensLate : List Turn :=
  [.begin engineView, .resume 1 engineView .done, .resume 1 engineView .done, .moveOn,
    .resume 1 engineView .done]

/-- The listener of the stopped session reports a connection. -/
theorem opensLate_reports :
    ¬ machine.Along InertTurn opensLate fresh ∧
      (machine.runs opensLate fresh).isSome = true := by
  decide

end Replaced
end Service
end AuroraVpn
