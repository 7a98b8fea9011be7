import AuroraVpn.Lib.LinkedMap
import AuroraVpn.Lib.Runs
import AuroraVpn.Service.Planner
import Mathlib.Logic.Function.Basic

/-!
# Race — lanes that try their routes beside each other

`raceLanes`, `tryRoute` and `autoClient` of the service, between their suspension points: each lane is a
coroutine, as is the race that waits for the first route to carry traffic.  What a lane waits for may come in
any order, the session may be replaced and the race cancelled at any point, and a lane that has been cancelled
ends in its own time.

* `machine`: the race, with what its surroundings may do.
* `step_moves`: what a step finds, and what it does.
-/

namespace AuroraVpn
namespace Service
namespace Race

open Attempts (Carrier CarrierStage)
open Planner (Lane racesEngine)
open RouteMemory (AutoRoute)
open Runs

/-! ## The race -/

/-- A `CarrierClient`: one of this race, by the order in which they were made, or another. -/
inductive Client
  | own (number : Nat)
  | foreign
  deriving DecidableEq, Repr

/-- `AutoWinner`. -/
structure Winner where
  route : AutoRoute
  client : Nat
  port : Nat
  deriving DecidableEq, Repr

/-- Where the coroutine of a lane is. -/
inductive Pc
  /-- Behind its head start. -/
  | waiting
  /-- At the head of its loop, with these routes to try. -/
  | looping (routes : List AutoRoute)
  /-- `stale.join`. -/
  | joining (route : AutoRoute) (rest : List AutoRoute)
  /-- `client.start`. -/
  | starting (route : AutoRoute) (client : Nat) (rest : List AutoRoute)
  /-- `CarrierProbe.works`. -/
  | probing (route : AutoRoute) (client : Nat) (port : Nat) (rest : List AutoRoute)
  | ended
  deriving DecidableEq, Repr

/-- What is on record of a route that was given up. -/
inductive Failure
  | engineNotStopped
  | notStarted
  | nothingThrough
  deriving DecidableEq, Repr

/-- The coroutine of the race. -/
inductive Standing
  | awaiting
  | returned (winner : Option Winner)
  | cancelled
  deriving DecidableEq, Repr

/-- The engine that was left behind: that of a lane, or one from before the race. -/
inductive StaleEngine
  | before
  | lane (index : Nat)
  deriving DecidableEq, Repr

/-- The fields of the service that all races share. -/
structure Shared where
  autoInFlight : LinkedMap AutoRoute Client
  autoTrying : List AutoRoute
  autoStages : Carrier → Option CarrierStage
  staleEngine : Option StaleEngine

structure State where
  elapsedMs : Nat
  /-- The session's generation is the current one. -/
  current : Bool
  begun : Nat → Bool
  finished : Nat → Bool
  pc : Nat → Pc
  /-- The answer of the race, once there is one. -/
  winner : Option (Option Winner)
  race : Standing
  /-- `autoRaceSettled` is the number of a later race. -/
  laterSettled : Bool
  shared : Shared
  /-- How many clients the race has made. -/
  made : Nat
  /-- The clients that have been stopped. -/
  stopped : Nat → Bool
  /-- `psiphonClient`, `torClient` and `aetherCarrier`. -/
  latest : Carrier → Option Client
  log : List (AutoRoute × Failure)

inductive Label
  | tick (ms : Nat)
  /-- The head start is over, or the lane has been handed on to. -/
  | begin (lane : Nat)
  /-- The engine that was left behind has stopped, or has not in time. -/
  | joined (lane : Nat) (stopped : Bool)
  | started (lane : Nat) (port : Option Nat)
  | probed (lane : Nat) (works : Bool)
  /-- The race hears of its winner, and the session after it. -/
  | hear
  | cancel
  /-- A lane that has been cancelled ends. -/
  | unwind (lane : Nat)
  /-- The session's generation is over. -/
  | replace
  | stopCarrier
  /-- What the service does to the shared fields after the race, with the race that settles in them. -/
  | elsewhere (shared : Shared) (settles : Bool)

/-- The lane that a step is one of. -/
def Label.lane : Label → Option Nat
  | .begin lane | .joined lane _ | .started lane _ | .probed lane _ => some lane
  | _ => none

def Pc.client : Pc → Option (AutoRoute × Nat)
  | .starting route client _ => some (route, client)
  | .probing route client _ _ => some (route, client)
  | _ => none

/-- The routes a lane has yet to give up, from where it is on. -/
def Pc.due : Pc → List AutoRoute
  | .looping routes => routes
  | .joining route rest | .starting route _ rest | .probing route _ _ rest => route :: rest
  | .waiting | .ended => []

def State.setPc (lane : Nat) (pc : Pc) (s : State) : State :=
  { s with pc := Function.update s.pc lane pc }

def State.stop (client : Nat) (s : State) : State :=
  { s with stopped := Function.update s.stopped client true }

/-- `setAutoStage`. -/
def Shared.setAutoStage (carrier : Carrier) (stage : CarrierStage) (shared : Shared) : Shared :=
  { shared with autoStages := Function.update shared.autoStages carrier (some stage) }

def State.note (route : AutoRoute) (failure : Failure) (s : State) : State :=
  { s with log := s.log ++ [(route, failure)] }

/-- `winner.complete`. -/
def State.complete (answer : Option Winner) (s : State) : State :=
  if s.winner.isSome then s else { s with winner := some answer }

/-- `autoRaceSettled == race`. -/
def State.settled (s : State) : Bool :=
  s.race ≠ .awaiting && !s.laterSettled

section Lanes

variable (lanes : List Lane)

def handOn (s : State) : State :=
  if (List.range lanes.length).any fun i => s.begun i && !s.finished i then s
  else
    match (List.range lanes.length).find? fun i => !s.begun i with
    | some next => { s with begun := Function.update s.begun next true }
    | none => s.complete none

/-- A lane that has run out. -/
def finish (lane : Nat) (s : State) : State :=
  handOn lanes { s.setPc lane .ended with finished := Function.update s.finished lane true }

/-- `tryRoute`, from `autoClient` to the start of its client. -/
def launch (lane : Nat) (route : AutoRoute) (rest : List AutoRoute) (s : State) : State :=
  { s.setPc lane (.starting route s.made rest) with
    made := s.made + 1
    latest := Function.update s.latest route.carrier (some (.own s.made))
    shared :=
      { s.shared.setAutoStage route.carrier .connecting with
        autoInFlight := s.shared.autoInFlight.put route (.own s.made)
        autoTrying := s.shared.autoTrying ++ [route] } }

/-- The check of `autoClient`, which no exception handler stands behind. -/
def checked (route : AutoRoute) : Bool :=
  route.carrier ≠ .aether || racesEngine route

/-- A lane goes on from the head of its loop to where it waits again. -/
def turn (lane : Nat) (s : State) : Option State :=
  match s.pc lane with
  | .looping [] => some (finish lanes lane s)
  | .looping (route :: rest) =>
      if s.winner.isSome || !s.current then some (finish lanes lane s)
      else if racesEngine route && s.shared.staleEngine.isSome then some (s.setPc lane (.joining route rest))
      else if checked route then some (launch lane route rest s)
      else none
  | _ => none

/-- The `finally` of `tryRoute`. -/
def release (route : AutoRoute) (client : Nat) (kept : Bool) (s : State) : State :=
  let s :=
    if s.shared.autoInFlight.get route = some (.own client) then
      { s with shared := { s.shared with autoInFlight := s.shared.autoInFlight.erase route } }
    else s
  if s.settled then s
  else
    let s := { s with shared := { s.shared with autoTrying := s.shared.autoTrying.erase route } }
    if kept then s
    else
      let s := s.stop client
      { s with shared := s.shared.setAutoStage route.carrier .failed }

/-- A route is not kept, and the lane goes on to the next. -/
def giveUp (lane : Nat) (route : AutoRoute) (client : Nat) (rest : List AutoRoute) (s : State) : Option State :=
  turn lanes lane ((release route client false s).setPc lane (.looping rest))

/-- The clients that lose when the race is settled. -/
def losers (result : Option Winner) (s : State) : List (AutoRoute × Client) :=
  s.shared.autoInFlight.entries.filter fun entry => some entry.1 ≠ result.map Winner.route

/-- The lane whose engine goes on after the race. -/
def staleLane (losers : List (AutoRoute × Client)) : Option Nat :=
  ((losers.filter fun entry => racesEngine entry.1).filterMap fun entry =>
    lanes.findIdx? fun lane => entry.1 ∈ lane.routes).getLast?

/-- The `finally` of `raceLanes`. -/
def settle (race : Standing) (result : Option Winner) (s : State) : State :=
  let lost := losers result s
  { s with
    race := race
    laterSettled := false
    stopped := fun client => s.stopped client || lost.any fun entry => entry.2 = .own client
    shared :=
      { s.shared with
        autoInFlight := .empty
        autoTrying := []
        staleEngine := ((staleLane lanes lost).map .lane).or s.shared.staleEngine } }

def step : Label → State → Option State
  | .tick ms, s => some { s with elapsedMs := s.elapsedMs + ms }
  | .begin lane, s =>
      match lanes[lane]? with
      | some l =>
          if s.race = .awaiting ∧ s.pc lane = .waiting ∧ (s.begun lane ∨ l.startAfterMs ≤ s.elapsedMs) then
            turn lanes lane
              { s.setPc lane (.looping l.routes) with begun := Function.update s.begun lane true }
          else none
      | none => none
  | .joined lane stopped, s =>
      if s.race = .awaiting then
        match s.pc lane with
        | .joining route rest =>
            if !stopped then turn lanes lane ((s.note route .engineNotStopped).setPc lane (.looping rest))
            else
              let s := { s with shared := { s.shared with staleEngine := none } }
              if !s.current then turn lanes lane (s.setPc lane (.looping rest))
              else if checked route then some (launch lane route rest s)
              else none
        | _ => none
      else none
  | .started lane port, s =>
      if s.race = .awaiting then
        match s.pc lane with
        | .starting route client rest =>
            match port with
            | none => giveUp lanes lane route client rest (s.note route .notStarted)
            | some port =>
                if !s.current then giveUp lanes lane route client rest s
                else some (s.setPc lane (.probing route client port rest))
        | _ => none
      else none
  | .probed lane works, s =>
      if s.race = .awaiting then
        match s.pc lane with
        | .probing route client port rest =>
            if !works then giveUp lanes lane route client rest (s.note route .nothingThrough)
            else
              let s := (release route client true s).setPc lane .ended
              if s.winner.isSome then some (s.stop client)
              else some (s.complete (some { route, client, port }))
        | _ => none
      else none
  | .hear, s =>
      if s.race = .awaiting then
        s.winner.map fun result =>
          let s' := settle lanes (.returned result) result s
          -- `runAutoRace`, of a session that has been replaced
          match result with
          | some winner => if !s.current then s'.stop winner.client else s'
          | none => s'
      else none
  | .cancel, s => if s.race = .awaiting then some (settle lanes .cancelled none s) else none
  | .unwind lane, s =>
      if s.race = .awaiting ∨ lanes.length ≤ lane then none
      else
        match s.pc lane with
        | .starting route client _ | .probing route client _ _ =>
            some ((release route client false s).setPc lane .ended)
        | .ended => none
        | _ => some (s.setPc lane .ended)
  | .replace, s => some { s with current := false }
  | .stopCarrier, s =>
      some
        { s with
          stopped := fun client =>
            s.stopped client || [Carrier.psiphon, .tor, .aether].any fun c => s.latest c = some (.own client) }
  | .elsewhere shared settles, s =>
      if s.race ≠ .awaiting ∧ ∀ entry ∈ shared.autoInFlight.entries, entry.2 = .foreign then
        some { s with shared := shared, laterSettled := s.laterSettled || settles }
      else none

/-- The race has just begun: what it finds of earlier ones is their stages, their clients and their engine. -/
def init (s : State) : Prop :=
  ∃ stages stale latest, (∀ carrier number, latest carrier ≠ some (.own number)) ∧
    s =
      { elapsedMs := 0
        current := true
        begun := fun _ => false
        finished := fun _ => false
        pc := fun _ => .waiting
        winner := if lanes.isEmpty then some none else none
        race := .awaiting
        laterSettled := false
        shared :=
          { autoInFlight := .empty, autoTrying := [], autoStages := stages, staleEngine := stale }
        made := 0
        stopped := fun _ => false
        latest := latest
        log := [] }

def machine : Machine State Label where
  init := init lanes
  enabled _ _ := True
  step := step lanes

end Lanes

/-! ## What a step does -/

section Moves

variable {lanes : List Lane} {s s' : State}

/-- The steps of a race, by what they find. -/
inductive Moves (lanes : List Lane) (s : State) : Label → State → Prop
  | tick (ms : Nat) : Moves lanes s (.tick ms) { s with elapsedMs := s.elapsedMs + ms }
  | begin {lane : Nat} {l : Lane} {s' : State} (hl : lanes[lane]? = some l) (hrace : s.race = .awaiting)
      (hpc : s.pc lane = .waiting) (hstart : s.begun lane = true ∨ l.startAfterMs ≤ s.elapsedMs)
      (hturn : turn lanes lane
        { s.setPc lane (.looping l.routes) with begun := Function.update s.begun lane true } = some s') :
      Moves lanes s (.begin lane) s'
  | stale {lane : Nat} {route : AutoRoute} {rest : List AutoRoute} {s' : State} (hrace : s.race = .awaiting)
      (hpc : s.pc lane = .joining route rest)
      (hturn : turn lanes lane ((s.note route .engineNotStopped).setPc lane (.looping rest)) = some s') :
      Moves lanes s (.joined lane false) s'
  | outdated {lane : Nat} {route : AutoRoute} {rest : List AutoRoute} {s' : State} (hrace : s.race = .awaiting)
      (hpc : s.pc lane = .joining route rest) (hcurrent : s.current = false)
      (hturn : turn lanes lane (State.setPc lane (.looping rest)
        { s with shared := { s.shared with staleEngine := none } }) = some s') :
      Moves lanes s (.joined lane true) s'
  | joined {lane : Nat} {route : AutoRoute} {rest : List AutoRoute} (hrace : s.race = .awaiting)
      (hpc : s.pc lane = .joining route rest) (hcurrent : s.current = true) :
      Moves lanes s (.joined lane true)
        (launch lane route rest { s with shared := { s.shared with staleEngine := none } })
  | failed {label : Label} {lane client : Nat} {route : AutoRoute} {rest : List AutoRoute} {s' : State}
      (hlabel : label.lane = some lane) (hrace : s.race = .awaiting) (hheld : (s.pc lane).client = some (route, client))
      (hdue : (s.pc lane).due = route :: rest) (failure : Failure)
      (hturn : giveUp lanes lane route client rest (s.note route failure) = some s') : Moves lanes s label s'
  | dropped {label : Label} {lane client : Nat} {route : AutoRoute} {rest : List AutoRoute} {s' : State}
      (hlabel : label.lane = some lane) (hrace : s.race = .awaiting) (hheld : (s.pc lane).client = some (route, client))
      (hdue : (s.pc lane).due = route :: rest) (hcurrent : s.current = false)
      (hturn : giveUp lanes lane route client rest s = some s') : Moves lanes s label s'
  | started {lane client port : Nat} {route : AutoRoute} {rest : List AutoRoute} (hrace : s.race = .awaiting)
      (hpc : s.pc lane = .starting route client rest) (hcurrent : s.current = true) :
      Moves lanes s (.started lane (some port)) (s.setPc lane (.probing route client port rest))
  | late {lane client port : Nat} {route : AutoRoute} {rest : List AutoRoute} (hrace : s.race = .awaiting)
      (hpc : s.pc lane = .probing route client port rest) (hdecided : s.winner.isSome = true) :
      Moves lanes s (.probed lane true) (((release route client true s).setPc lane .ended).stop client)
  | wins {lane client port : Nat} {route : AutoRoute} {rest : List AutoRoute} (hrace : s.race = .awaiting)
      (hpc : s.pc lane = .probing route client port rest) (hundecided : s.winner = none) :
      Moves lanes s (.probed lane true)
        { (release route client true s).setPc lane .ended with winner := some (some { route, client, port }) }
  | lost (hrace : s.race = .awaiting) (hwinner : s.winner = some none) :
      Moves lanes s .hear (settle lanes (.returned none) none s)
  | heard {w : Winner} (hrace : s.race = .awaiting) (hwinner : s.winner = some (some w))
      (hcurrent : s.current = true) : Moves lanes s .hear (settle lanes (.returned (some w)) (some w) s)
  | unheard {w : Winner} (hrace : s.race = .awaiting) (hwinner : s.winner = some (some w))
      (hcurrent : s.current = false) :
      Moves lanes s .hear ((settle lanes (.returned (some w)) (some w) s).stop w.client)
  | cancel (hrace : s.race = .awaiting) : Moves lanes s .cancel (settle lanes .cancelled none s)
  | released {lane client : Nat} {route : AutoRoute} (hover : s.race ≠ .awaiting) (hlane : lane < lanes.length)
      (hheld : (s.pc lane).client = some (route, client)) :
      Moves lanes s (.unwind lane) ((release route client false s).setPc lane .ended)
  | unwound {lane : Nat} (hover : s.race ≠ .awaiting) (hlane : lane < lanes.length)
      (hnone : (s.pc lane).client = none) (hrunning : s.pc lane ≠ .ended) :
      Moves lanes s (.unwind lane) (s.setPc lane .ended)
  | replace : Moves lanes s .replace { s with current := false }
  | stopCarrier :
      Moves lanes s .stopCarrier
        { s with
          stopped := fun client =>
            s.stopped client || [Carrier.psiphon, .tor, .aether].any fun c => s.latest c = some (.own client) }
  | elsewhere {shared : Shared} {settles : Bool} (hover : s.race ≠ .awaiting)
      (hforeign : ∀ entry ∈ shared.autoInFlight.entries, entry.2 = .foreign) :
      Moves lanes s (.elsewhere shared settles)
        { s with shared := shared, laterSettled := s.laterSettled || settles }

theorem release_winner (route : AutoRoute) (client : Nat) (kept : Bool) :
    (release route client kept s).winner = s.winner := by
  unfold release
  split <;> dsimp only <;> split <;> first | rfl | (cases kept <;> rfl)

theorem step_moves {l : Label} (h : step lanes l s = some s') : Moves lanes s l s' := by
  -- by the step, and within it by where the lane stands
  cases l with
  | tick ms =>
      cases h
      exact .tick ms
  | begin lane =>
      simp only [step] at h
      split at h
      next l hl =>
        -- the lane has not begun, its time has come, and the race is on
        split_ifs at h with hbegin
        exact .begin hl hbegin.1 hbegin.2.1 hbegin.2.2 h
      next => cases h
  | joined lane stopped =>
      simp only [step] at h
      split at h
      next hrace =>
        split at h
        next route rest hpc =>
          -- the engine that is in the way did not stop
          cases stopped with
          | false => exact .stale hrace hpc h
          | true =>
              simp only [Bool.not_true, Bool.false_eq_true, if_false] at h
              split_ifs at h with hcurrent
              -- this session has been replaced while the lane waited
              · exact .outdated hrace hpc (by simpa using hcurrent) h
              · cases h
                exact .joined hrace hpc (by simpa using hcurrent)
        next => cases h
      next => cases h
  | started lane port =>
      simp only [step] at h
      split at h
      next hrace =>
        split at h
        next route client rest hpc =>
          -- the carrier answered with a port, or did not start
          cases port with
          | none => exact .failed rfl hrace (by rw [hpc]; rfl) (by rw [hpc]; rfl) _ h
          | some port =>
              dsimp only at h
              split_ifs at h with hcurrent
              · exact .dropped rfl hrace (by rw [hpc]; rfl) (by rw [hpc]; rfl) (by simpa using hcurrent) h
              · cases h
                exact .started hrace hpc (by simpa using hcurrent)
        next => cases h
      next => cases h
  | probed lane works =>
      simp only [step] at h
      split at h
      next hrace =>
        split at h
        next route client port rest hpc =>
          -- the route carries traffic, or it does not
          cases works with
          | false => exact .failed rfl hrace (by rw [hpc]; rfl) (by rw [hpc]; rfl) _ h
          | true =>
              have hsame : ((release route client true s).setPc lane .ended).winner = s.winner :=
                release_winner ..
              simp only [Bool.not_true, Bool.false_eq_true, if_false, hsame] at h
              -- somebody else has won in the meantime
              split_ifs at h with hdecided
              · cases h
                exact .late hrace hpc hdecided
              · have hundecided := Option.not_isSome_iff_eq_none.1 hdecided
                rw [State.complete, hsame, if_neg hdecided] at h
                cases h
                exact .wins hrace hpc hundecided
        next => cases h
      next => cases h
  | hear =>
      simp only [step] at h
      split at h
      next hrace =>
        obtain ⟨result, hresult, hheard⟩ := Option.map_eq_some_iff.1 h
        -- what the race returned, and whether its session is still the one
        cases result with
        | none =>
            cases hheard
            exact .lost hrace hresult
        | some winner =>
            dsimp only at hheard
            split_ifs at hheard with hcurrent <;> cases hheard
            · exact .unheard hrace hresult (by simpa using hcurrent)
            · exact .heard hrace hresult (by simpa using hcurrent)
      next => cases h
  | cancel =>
      simp only [step] at h
      split_ifs at h with hrace
      cases h
      exact .cancel hrace
  | unwind lane =>
      simp only [step] at h
      split at h
      next => cases h
      -- a lane is unwound when the race is over
      next hin =>
        obtain ⟨hover, hlane⟩ := not_or.1 hin
        have hlt := Nat.lt_of_not_le hlane
        split at h
        next hpc =>
          cases h
          exact .released hover hlt (by rw [hpc]; rfl)
        next hpc =>
          cases h
          exact .released hover hlt (by rw [hpc]; rfl)
        next => cases h
        next hstarting hprobing hended =>
          cases h
          refine .unwound hover hlt ?_ hended
          -- what is left holds no client
          cases hpc : s.pc lane with
          | starting => exact absurd hpc (hstarting _ _ _)
          | probing => exact absurd hpc (hprobing _ _ _ _)
          | _ => rfl
  | replace =>
      cases h
      exact .replace
  | stopCarrier =>
      cases h
      exact .stopCarrier
  -- another session enters the table or leaves it
  | elsewhere shared settles =>
      simp only [step] at h
      split_ifs at h with hover
      cases h
      exact .elsewhere hover.1 hover.2

end Moves

end Race
end Service
end AuroraVpn
