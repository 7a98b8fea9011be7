import AuroraVpn.Service.RaceKeeps
import Mathlib.Algebra.BigOperators.Ring.Finset
import Mathlib.Algebra.Order.BigOperators.Group.Finset

/-!
# RaceRuns — a race from its start on

What holds of every race that the planner makes, whatever comes of its routes and whenever it is cancelled.

* `race_leaves_winner`: when the race is over, no client is left but the one it was decided for.
* `lost_tried`: a race that finds no way out has tried every route.
* `head_start`: the lanes in front of one that begins early have ended their loops.
* `race_ends`: the steps of the lanes come to an end, and not before there is an answer.
* `late_finishers`: what lanes do after their race changes nothing.
-/

namespace AuroraVpn
namespace Service
namespace Race

open Planner (Lane fixedLanes fixedLanes_planned)
open RouteMemory (AutoRoute)
open Runs

/-! ## The end of a race -/

section End

variable {lanes : List Lane} {s s' : State} {lane : Nat} {label : Label}

/-- How many steps a lane of so many routes has yet to take at most. -/
def Pc.weight (routes : Nat) : Pc → Nat
  | .waiting => 4 * routes + 2
  | .looping due => 4 * due.length + 1
  | .joining _ rest => 4 * rest.length + 4
  | .starting _ _ rest => 4 * rest.length + 3
  | .probing _ _ _ rest => 4 * rest.length + 2
  | .ended => 0

def State.weight (lanes : List Lane) (s : State) : Nat :=
  ∑ i ∈ Finset.range lanes.length, (s.pc i).weight ((lanes[i]?.map (·.routes.length)).getD 0)

/-- The lane has moved on to where it waits again, or has ended. -/
def Advances (lanes : List Lane) (s s' : State) (lane : Nat) : Prop :=
  ∃ pc, s'.pc = Function.update s.pc lane pc ∧ (∀ due, pc ≠ .looping due) ∧
    ∀ routes, lanes[lane]?.map (·.routes.length) = some routes → pc.weight routes < (s.pc lane).weight routes

theorem turn_advances (hturn : turn lanes lane s = some s') : Advances lanes s s' lane := by
  have hfinish : ∀ due, s.pc lane = .looping due → Advances lanes s (finish lanes lane s) lane := by
    intro due hpc
    exact ⟨.ended, (handOn_tried _ _).2.2.1, by simp, fun _ _ => by rw [hpc]; exact Nat.zero_lt_succ _⟩
  unfold turn at hturn
  split at hturn
  next hpc =>
    cases hturn
    exact hfinish _ hpc
  next route rest hpc =>
    -- each way on is lighter: the loop ends, or one route less is left
    split_ifs at hturn
    · cases hturn
      exact hfinish _ hpc
    · cases hturn
      refine ⟨_, rfl, by simp, fun _ _ => ?_⟩
      rw [hpc, Pc.weight, Pc.weight, List.length_cons]
      omega
    · cases hturn
      refine ⟨_, rfl, by simp, fun _ _ => ?_⟩
      rw [hpc, Pc.weight, Pc.weight, List.length_cons]
      omega
  next => cases hturn

/-- A turn from a place that is lighter than the one before. -/
theorem Advances.after {t : State} (pc : Pc) (hpc : t.pc = Function.update s.pc lane pc)
    (hlighter : ∀ routes, lanes[lane]?.map (·.routes.length) = some routes →
      pc.weight routes < (s.pc lane).weight routes) (h : Advances lanes t s' lane) : Advances lanes s s' lane := by
  obtain ⟨pc', hpc', hloop, hless⟩ := h
  refine ⟨pc', ?_, hloop, fun routes hroutes => ?_⟩
  · rw [hpc', hpc, Function.update_idem]
  · have hlight := hless routes hroutes
    rw [hpc, Function.update_self] at hlight
    exact hlight.trans (hlighter routes hroutes)

/-- The steps of a lane are those of a lane that is there. -/
theorem step_lane (h : Clients lanes s) (hmoves : Moves lanes s label s') (hlabel : label.lane = some lane) :
    lane < lanes.length := by
  -- a lane that has begun has its place among the lanes
  have hin : ∀ {i : Nat}, s.pc i ≠ .waiting → i < lanes.length := by
    intro i hpc
    obtain ⟨l, hl, -⟩ := (h.placed i).resolve_left hpc
    exact (List.getElem?_eq_some_iff.1 hl).1
  have hheldIn : ∀ {i client : Nat} {route : AutoRoute}, (s.pc i).client = some (route, client) →
      i < lanes.length := by
    intro i client route hheld
    refine hin fun hpc => ?_
    rw [hpc] at hheld
    cases hheld
  cases hmoves with
  | begin hl =>
      cases hlabel
      exact (List.getElem?_eq_some_iff.1 hl).1
  -- these steps are told by the client they are about, and the lane holds it
  | failed hlane _ hheld | dropped hlane _ hheld =>
      rw [hlane] at hlabel
      cases hlabel
      exact hheldIn hheld
  | stale _ hpc | outdated _ hpc | joined _ hpc | started _ hpc | late _ hpc | wins _ hpc =>
      cases hlabel
      exact hin (by rw [hpc]; simp)
  | _ => cases hlabel

/-- **Every step of a lane takes it on.** -/
theorem step_advances (hmoves : Moves lanes s label s') (hlabel : label.lane = some lane) :
    Advances lanes s s' lane := by
  -- a route that is given up is no longer due
  have hdropped : ∀ {client : Nat} {route : AutoRoute} {rest : List AutoRoute} {t : State}, t.pc = s.pc →
      (s.pc lane).client = some (route, client) → (s.pc lane).due = route :: rest →
      giveUp lanes lane route client rest t = some s' → Advances lanes s s' lane := by
    intro client route rest t ht hheld hdue hturn
    refine Advances.after (.looping rest) ?_ (fun routes _ => ?_) (turn_advances hturn)
    · rw [← ht, ← (release_fields (s := t) route client false).1]
      rfl
    -- a lane that gives a route up holds a client for it
    · cases hpc : s.pc lane with
      | starting r c rest' =>
          rw [hpc] at hdue
          cases hdue
          exact Nat.add_lt_add_left (by decide) _
      | probing r c port rest' =>
          rw [hpc] at hdue
          cases hdue
          exact Nat.add_lt_add_left (by decide) _
      | _ =>
          rw [hpc] at hheld
          cases hheld
  -- each step has fewer steps of its lane before it
  cases hmoves with
  | @begin lane l _ hl hrace hpc hstart hturn =>
      cases hlabel
      refine Advances.after (.looping l.routes) rfl (fun routes hroutes => ?_) (turn_advances hturn)
      rw [hl] at hroutes
      cases hroutes
      rw [hpc]
      exact Nat.lt_succ_self _
  | stale hrace hpc hturn =>
      cases hlabel
      refine Advances.after (.looping _) rfl (fun routes _ => ?_) (turn_advances hturn)
      rw [hpc]
      exact Nat.add_lt_add_left (by decide) _
  | outdated hrace hpc hcurrent hturn =>
      cases hlabel
      refine Advances.after (.looping _) rfl (fun routes _ => ?_) (turn_advances hturn)
      rw [hpc]
      exact Nat.add_lt_add_left (by decide) _
  | joined hrace hpc hcurrent =>
      cases hlabel
      refine ⟨_, rfl, by simp, fun routes _ => ?_⟩
      rw [hpc]
      exact Nat.add_lt_add_left (by decide) _
  | failed hlane hrace hheld hdue failure hturn =>
      rw [hlane] at hlabel
      cases hlabel
      exact hdropped (t := s.note _ failure) rfl hheld hdue hturn
  | dropped hlane hrace hheld hdue hcurrent hturn =>
      rw [hlane] at hlabel
      cases hlabel
      exact hdropped rfl hheld hdue hturn
  | started hrace hpc hcurrent =>
      cases hlabel
      refine ⟨_, rfl, by simp, fun routes _ => ?_⟩
      rw [hpc]
      exact Nat.add_lt_add_left (by decide) _
  | @late lane client port route rest hrace hpc hdecided =>
      cases hlabel
      refine ⟨.ended, ?_, by simp, fun routes _ => ?_⟩
      · rw [← (release_fields (s := s) route client true).1]
        rfl
      · rw [hpc]
        exact Nat.zero_lt_succ _
  | @wins lane client port route rest hrace hpc hundecided =>
      cases hlabel
      refine ⟨.ended, ?_, by simp, fun routes _ => ?_⟩
      · rw [← (release_fields (s := s) route client true).1]
        rfl
      · rw [hpc]
        exact Nat.zero_lt_succ _
  | _ => cases hlabel

/-- A step that is none of a lane leaves every lane where it is, or ends it. -/
theorem other_pc (hmoves : Moves lanes s label s') (hlabel : label.lane = none) (i : Nat) :
    s'.pc i = s.pc i ∨ s'.pc i = .ended := by
  have hupdate : ∀ lane, Function.update s.pc lane .ended i = s.pc i ∨
      Function.update s.pc lane .ended i = .ended := by
    intro lane
    by_cases heq : i = lane
    · subst heq
      exact .inr (Function.update_self ..)
    · exact .inl (Function.update_of_ne heq ..)
  cases hmoves with
  | failed hlane | dropped hlane =>
      rw [hlane] at hlabel
      cases hlabel
  | @released lane client route hover hlane hheld =>
      rw [show ((release route client false s).setPc lane .ended).pc = Function.update s.pc lane .ended by
        rw [← (release_fields (s := s) route client false).1]
        rfl]
      exact hupdate lane
  | @unwound lane hover hlane hnone hrunning => exact hupdate lane
  | tick | lost | heard | unheard | cancel | replace | stopCarrier | elsewhere => exact .inl rfl
  | _ => cases hlabel

/-- No lane stays at the head of its loop. -/
theorem step_rests (h : ∀ i due, s.pc i ≠ .looping due) (hmoves : Moves lanes s label s') (i : Nat)
    (due : List AutoRoute) : s'.pc i ≠ .looping due := by
  cases hlabel : label.lane with
  | none =>
      rcases other_pc hmoves hlabel i with hsame | hended
      · rw [hsame]
        exact h i due
      · rw [hended]
        simp
  | some lane =>
      obtain ⟨pc, hpc, hrests, -⟩ := step_advances hmoves hlabel
      rw [hpc]
      by_cases heq : i = lane
      · subst heq
        rw [Function.update_self]
        exact hrests due
      · rw [Function.update_of_ne heq]
        exact h i due

theorem weight_le {routes : Nat} (h : s'.pc lane = s.pc lane ∨ s'.pc lane = .ended) :
    (s'.pc lane).weight routes ≤ (s.pc lane).weight routes := by
  rcases h with hsame | hended
  · rw [hsame]
  · rw [hended]
    exact Nat.zero_le _

/-- **Each step of a lane is paid for.** -/
theorem weight_step (h : Clients lanes s) (hmoves : Moves lanes s label s') :
    s'.weight lanes + label.lane.toList.length ≤ s.weight lanes := by
  cases hlabel : label.lane with
  -- a step outside the lanes moves no lane
  | none =>
      rw [Option.toList_none, List.length_nil, Nat.add_zero]
      unfold State.weight
      exact Finset.sum_le_sum fun i _ => weight_le (other_pc hmoves hlabel i)
  | some lane =>
      obtain ⟨pc, hpc, -, hless⟩ := step_advances hmoves hlabel
      have hlane := step_lane h hmoves hlabel
      have hlighter : (s'.pc lane).weight ((lanes[lane]?.map (·.routes.length)).getD 0) <
          (s.pc lane).weight ((lanes[lane]?.map (·.routes.length)).getD 0) := by
        rw [hpc, Function.update_self, List.getElem?_eq_getElem hlane]
        exact hless _ (by rw [List.getElem?_eq_getElem hlane]; rfl)
      -- one lane is lighter, and no other is heavier
      have hlt : s'.weight lanes < s.weight lanes := by
        unfold State.weight
        refine Finset.sum_lt_sum (fun i _ => ?_) ⟨lane, Finset.mem_range.2 hlane, hlighter⟩
        by_cases heq : i = lane
        · subst heq
          exact hlighter.le
        · rw [hpc, Function.update_of_ne heq]
      exact hlt

end End

/-! ## Runs of a race -/

section Run

variable {lanes : List Lane} {s s' : State} {lane : Nat}

structure Inv (lanes : List Lane) (s : State) : Prop where
  clients : Clients lanes s
  hands : Hands lanes s
  working : Working lanes s
  tried : Tried lanes s
  rests : ∀ i due, s.pc i ≠ .looping due

theorem inv_init (h : init lanes s) : Inv lanes s := by
  obtain ⟨stages, stale, latest, hlatest, rfl⟩ := h
  refine
    { clients := ?_
      hands := ?_
      working := ?_
      tried := fun _ _ _ _ _ _ _ _ => .inl rfl
      rests := by simp }
  -- no lane has begun, so there is no client
  · exact
      { placed := fun _ => .inl rfl
        table := by simp [LinkedMap.get_empty, Pc.client]
        foreign := fun hover => absurd rfl hover
        made := by simp [Pc.client]
        alone := by simp [Pc.client]
        newest := by simp [Pc.client]
        won := by
          intro w hw
          dsimp only at hw
          split at hw <;> cases hw
        kept := fun c hc => absurd hc (Nat.not_lt_zero c) }
  · exact
      { ended := by simp
        waits := by simp
        unfinished := by simp
        early := by simp
        -- a race of no lanes is lost at once
        lost := by
          intro hlost i hi
          dsimp only at hlost
          split at hlost
          next hempty =>
            rw [List.isEmpty_iff.1 hempty] at hi
            cases hi
          next => cases hlost
        heard := by simp }
  · intro _ hnone
    cases lanes with
    | nil => cases hnone
    | cons l ls => exact ⟨0, Nat.zero_lt_succ _, by simp⟩

/-- **The invariant of a race.** -/
theorem invariant (hapart : Apart lanes) : Invariant (machine lanes) (Inv lanes) where
  init _ h := inv_init h
  step s l s' h _ hstep := by
    have hmoves := step_moves hstep
    obtain ⟨hhands, hworking⟩ := h.hands.step h.working h.clients hmoves
    exact
      { clients := h.clients.step hapart hmoves
        hands := hhands
        working := hworking
        tried := h.tried.step h.hands h.clients hmoves
        rests := step_rests h.rests hmoves }

/-- What the planner makes a race of. -/
theorem apart_of_plan {containsIgnoreCase : Text → Text → Bool} {remembered : Option AutoRoute}
    {options : Planner.AutoOptions} (h : .race lanes ∈ Planner.plan containsIgnoreCase remembered options) :
    Apart lanes := by
  have hexact := Planner.race_exact h
  have hdisjoint := (List.nodup_flatMap.1 hexact.once).2
  constructor
  · intro i j l l' hi hj route hroute route' hroute' hcarrier
    obtain ⟨hlt, rfl⟩ := List.getElem?_eq_some_iff.1 hi
    obtain ⟨hlt', rfl⟩ := List.getElem?_eq_some_iff.1 hj
    have hsame := (hexact.carriers _ (List.getElem_mem hlt) route hroute _ (List.getElem_mem hlt') route' hroute').1
      hcarrier
    have hnot : ∀ a b (ha : a < lanes.length) (hb : b < lanes.length), a < b → lanes[a].routes = lanes[b].routes →
        route ∈ lanes[a].routes → False := by
      intro a b ha hb hlt heq hmem
      exact List.pairwise_iff_getElem.1 hdisjoint a b ha hb hlt hmem (heq ▸ hmem)
    rcases Nat.lt_trichotomy i j with hlt'' | heq | hgt
    · exact (hnot i j hlt hlt' hlt'' (congrArg Lane.routes hsame) hroute).elim
    · exact heq
    · exact (hnot j i hlt' hlt hgt (congrArg Lane.routes hsame.symm) (hsame ▸ hroute)).elim
  · intro l hl hmem
    exact hexact.indirect (List.mem_flatMap.2 ⟨l, hl, hmem⟩)

/-! ## A lane that is at work -/

theorem checked_of_ne {route : AutoRoute} (h : route ≠ .aether) : checked route = true := by
  cases route <;> first | rfl | exact absurd rfl h

theorem turn_isSome {due : List AutoRoute} (hpc : s.pc lane = .looping due) (hdue : .aether ∉ due) :
    (turn lanes lane s).isSome = true := by
  unfold turn
  rw [hpc]
  cases due with
  | nil => rfl
  | cons route rest =>
      have hchecked : checked route = true := checked_of_ne fun heq => hdue (heq ▸ List.mem_cons_self)
      simp only [hchecked, if_true]
      split_ifs <;> rfl

theorem giveUp_isSome {client : Nat} {route : AutoRoute} {rest : List AutoRoute} (hdue : .aether ∉ rest) :
    (giveUp lanes lane route client rest s).isSome = true :=
  turn_isSome (setPc_same _) hdue

/-- **Where there is no answer, a lane has a step to take**, its head start aside. -/
theorem goes_on (hapart : Apart lanes) (h : Inv lanes s) (hrace : s.race = .awaiting) (hnone : s.winner = none) :
    ∃ label ms t, label.lane.isSome = true ∧ step lanes (.tick ms) s = some t ∧ (step lanes label t).isSome = true := by
  obtain ⟨lane, hlane, hrunning⟩ := h.working hrace hnone
  have hl : lanes[lane]? = some lanes[lane] := List.getElem?_eq_getElem hlane
  -- a lane runs no route that is the engine
  have hdirect : ∀ r ∈ (s.pc lane).due, r ≠ .aether := by
    intro r hr heq
    rcases h.clients.placed lane with hwaiting | ⟨l, hl', hroutes⟩
    · rw [hwaiting] at hr
      cases hr
    · exact hapart.indirect l (List.mem_of_getElem? hl') (heq ▸ hroutes r hr)
  have hrest : ∀ {route : AutoRoute} {rest : List AutoRoute}, (s.pc lane).due = route :: rest → .aether ∉ rest := by
    intro route rest hdue hmem
    exact hdirect .aether (hdue ▸ List.mem_cons_of_mem _ hmem) rfl
  -- by where the lane stands: there is a step for each answer, and one answer will do
  cases hpc : s.pc lane with
  | waiting =>
      refine ⟨.begin lane, lanes[lane].startAfterMs, _, rfl, rfl, ?_⟩
      simp only [step, hl]
      rw [if_pos ⟨hrace, hpc, .inr (Nat.le_add_left ..)⟩]
      exact turn_isSome (setPc_same _) (hapart.indirect _ (List.getElem_mem hlane))
  | looping due => exact absurd hpc (h.rests lane due)
  | joining route rest =>
      refine ⟨.joined lane false, 0, _, rfl, rfl, ?_⟩
      simp only [step, hrace, hpc, if_true, Bool.not_false]
      exact turn_isSome (setPc_same _) (hrest (by rw [hpc]; rfl))
  | starting route client rest =>
      refine ⟨.started lane none, 0, _, rfl, rfl, ?_⟩
      simp only [step, hrace, hpc, if_true]
      exact giveUp_isSome (hrest (by rw [hpc]; rfl))
  | probing route client port rest =>
      refine ⟨.probed lane false, 0, _, rfl, rfl, ?_⟩
      simp only [step, hrace, hpc, if_true, Bool.not_false]
      -- the answer is that the route carries no traffic
      exact giveUp_isSome (hrest (by rw [hpc]; rfl))
  | ended => exact absurd hpc hrunning

/-- What a whole run costs its lanes. -/
theorem weight_runs (hapart : Apart lanes) {ls : List Label} (h : Inv lanes s)
    (hrun : (machine lanes).runs ls s = some s') :
    Inv lanes s' ∧ s'.weight lanes + (ls.flatMap fun label => label.lane.toList).length ≤ s.weight lanes := by
  induction ls generalizing s with
  | nil =>
      cases hrun
      exact ⟨h, Nat.le_refl _⟩
  | cons label ls ih =>
      obtain ⟨t, hstep, hrest⟩ := runs_cons hrun
      have hpaid := weight_step h.clients (step_moves hstep)
      obtain ⟨hinv, hless⟩ := ih ((invariant hapart).step s label t h trivial hstep) hrest
      refine ⟨hinv, ?_⟩
      rw [List.flatMap_cons, List.length_append]
      omega

theorem weight_init (h : init lanes s) :
    s.weight lanes = 4 * (lanes.flatMap Lane.routes).length + 2 * lanes.length := by
  obtain ⟨stages, stale, latest, -, rfl⟩ := h
  unfold State.weight
  have hroutes : ∀ ls : List Lane, ∑ i ∈ Finset.range ls.length, (ls[i]?.map (·.routes.length)).getD 0 =
      (ls.flatMap Lane.routes).length := by
    intro ls
    induction ls with
    | nil => rfl
    | cons l ls ih =>
        rw [List.length_cons, Finset.sum_range_succ']
        simp only [List.getElem?_cons_succ, List.getElem?_cons_zero, ih, List.flatMap_cons, List.length_append]
        exact Nat.add_comm ..
  simp only [Pc.weight, Finset.sum_add_distrib, ← Finset.mul_sum, hroutes]
  simp [Nat.mul_comm]

/-! ## Races that the planner makes -/

def fixedStart : State where
  elapsedMs := 0
  current := true
  begun := fun _ => false
  finished := fun _ => false
  pc := fun _ => .waiting
  winner := none
  race := .awaiting
  laterSettled := false
  shared := { autoInFlight := .empty, autoTrying := [], autoStages := fun _ => none, staleEngine := none }
  made := 0
  stopped := fun _ => false
  latest := fun _ => none
  log := []

def psiphonWins : List Label :=
  [.begin 0, .begin 1, .started 1 (some 1080), .probed 1 true, .hear]

/-- The engine and Psiphon fail at once, and Tor is handed on to. -/
def torHandedOn : List Label :=
  [.begin 0, .begin 1, .started 0 none, .started 1 none, .begin 2]

theorem fixedStart_init : init fixedLanes fixedStart :=
  ⟨fun _ => none, none, fun _ => none, by simp, rfl⟩

section Planned

variable {containsIgnoreCase : Text → Text → Bool} {remembered : Option AutoRoute} {options : Planner.AutoOptions}

/-- **A race leaves nothing running but its winner**, and what it leaves is stopped with the carriers. -/
theorem race_leaves_winner (hplan : .race lanes ∈ Planner.plan containsIgnoreCase remembered options)
    (h : Reachable (machine lanes) s) (hover : s.race ≠ .awaiting) :
    (∀ c < s.made, s.stopped c = false →
      ∃ w, s.winner = some (some w) ∧ w.client = c ∧ w.route ∈ lanes.flatMap Lane.routes ∧
        s.latest w.route.carrier = some (.own c)) ∧
      ∀ s', step lanes .stopCarrier s = some s' → ∀ c < s'.made, s'.stopped c = true := by
  have hclients := ((invariant (apart_of_plan hplan)).reachable h).clients
  have hleft : ∀ c < s.made, s.stopped c = false →
      ∃ w, s.winner = some (some w) ∧ w.client = c ∧ w.route ∈ lanes.flatMap Lane.routes ∧
        s.latest w.route.carrier = some (.own c) := by
    intro c hc hruns
    -- a client that runs while the race is over is that of the winner
    rcases hclients.kept c hc hruns with ⟨hrace, -⟩ | ⟨w, hw, rfl⟩
    · exact absurd hrace hover
    · obtain ⟨-, hlatest, i, l, hl, hroute, -⟩ := hclients.won w hw
      exact ⟨w, hw, rfl, List.mem_flatMap.2 ⟨l, List.mem_of_getElem? hl, hroute⟩, hlatest⟩
  refine ⟨hleft, ?_⟩
  intro s' hstep c hc
  cases hstep
  cases hstopped : s.stopped c with
  | true => simp [hstopped]
  -- the carriers' stop takes the winner's, and that is the only one left
  | false =>
      obtain ⟨w, -, -, -, hlatest⟩ := hleft c hc hstopped
      cases hcarrier : w.route.carrier <;> rw [hcarrier] at hlatest <;> simp [hlatest]

theorem race_leaves_psiphon : ∃ s, Reachable (machine fixedLanes) s ∧ s.race ≠ .awaiting ∧ 1 < s.made ∧
    s.stopped 1 = false ∧ ∃ w, s.winner = some (some w) ∧ w.client = 1 := by
  obtain ⟨s, hs, hp⟩ := exists_reachable (m := machine fixedLanes) psiphonWins
    (fun s : State => s.race ≠ .awaiting && 1 < s.made && !s.stopped 1)
    fixedStart_init (fun _ _ _ => trivial) (by decide)
  simp only [Bool.and_eq_true, decide_eq_true_eq, Bool.not_eq_true'] at hp
  obtain ⟨⟨hover, hmade⟩, hruns⟩ := hp
  obtain ⟨w, hw, hclient, -⟩ := (race_leaves_winner fixedLanes_planned hs hover).1 1 hmade hruns
  exact ⟨s, hs, hover, hmade, hruns, w, hw, hclient⟩

/-- **A race that finds no way out has tried every route**, while its session goes on. -/
theorem lost_tried (hplan : .race lanes ∈ Planner.plan containsIgnoreCase remembered options)
    (h : Reachable (machine lanes) s) (hlost : s.race = .returned none) (hcurrent : s.current = true) :
    ∀ route ∈ (Planner.offeredRoutes containsIgnoreCase options).erase .aether,
      ∃ failure, (route, failure) ∈ s.log := by
  intro route hroute
  have hinv := (invariant (apart_of_plan hplan)).reachable h
  obtain ⟨l, hl, hmem⟩ := List.mem_flatMap.1 ((Planner.race_exact hplan).offered.mem_iff.2 hroute)
  obtain ⟨i, hi⟩ := List.getElem?_of_mem hl
  have hwinner := hinv.hands.heard none hlost
  have hended : s.pc i = .ended :=
    hinv.hands.ended i (hinv.hands.lost hwinner i (List.getElem?_eq_some_iff.1 hi).1)
  rcases hinv.tried hcurrent (by simp [hwinner]) (by simp [hlost]) i l hi route hmem with hwaiting | hdue | hlogged
  · rw [hended] at hwaiting
    cases hwaiting
  · rw [hended] at hdue
    cases hdue
  · exact hlogged

theorem lost_tried_tor : ∃ s, Reachable (machine fixedLanes) s ∧ s.race = .returned none ∧
    ∃ failure, (.torDirect, failure) ∈ s.log := by
  obtain ⟨s, hs, hp⟩ := exists_reachable (m := machine fixedLanes)
    (torHandedOn ++ [.started 2 none, .started 2 none, .started 2 none, .hear])
    (fun s : State => s.race = .returned none && s.current) fixedStart_init (fun _ _ _ => trivial) (by decide)
  simp only [Bool.and_eq_true, decide_eq_true_eq] at hp
  exact ⟨s, hs, hp.1, lost_tried fixedLanes_planned hs hp.1 hp.2 .torDirect (by decide)⟩

/-- **A lane that begins before its head start is over** comes after lanes that have ended their loops, and
that have tried all of their routes, if nothing has won and the session is still the current one. -/
theorem head_start (hplan : .race lanes ∈ Planner.plan containsIgnoreCase remembered options)
    (h : Reachable (machine lanes) s) {i : Nat} {l : Lane} (hl : lanes[i]? = some l)
    (hbegun : s.begun i = true) (hbefore : s.elapsedMs < l.startAfterMs) :
    ∀ j < i, s.finished j = true ∧ (s.current = true → s.race = .awaiting → s.winner = none →
      ∀ front, lanes[j]? = some front → ∀ route ∈ front.routes, ∃ failure, (route, failure) ∈ s.log) := by
  intro j hj
  have hinv := (invariant (apart_of_plan hplan)).reachable h
  have hfinished := hinv.hands.early j i l hj hl hbegun hbefore
  refine ⟨hfinished, fun hcurrent hrace hwinner front hfront route hroute => ?_⟩
  have hended := hinv.hands.ended j hfinished
  rcases hinv.tried hcurrent (by simp [hwinner]) (by simp [hrace]) j front hfront route hroute with
    hwaiting | hdue | hlogged
  · rw [hended] at hwaiting
    cases hwaiting
  · rw [hended] at hdue
    cases hdue
  · exact hlogged

theorem head_start_tor : ∃ s, Reachable (machine fixedLanes) s ∧ s.begun 2 = true ∧ s.elapsedMs = 0 ∧
    s.finished 1 = true ∧ ∃ failure, (.psiphon, failure) ∈ s.log := by
  obtain ⟨s, hs, hp⟩ := exists_reachable (m := machine fixedLanes) torHandedOn
    (fun s : State => s.begun 2 && s.elapsedMs = 0 && s.current && s.race = .awaiting && s.winner.isNone)
    fixedStart_init (fun _ _ _ => trivial) (by decide)
  simp only [Bool.and_eq_true, decide_eq_true_eq, Option.isNone_iff_eq_none] at hp
  obtain ⟨⟨⟨⟨hbegun, helapsed⟩, hcurrent⟩, hrace⟩, hwinner⟩ := hp
  obtain ⟨hfinished, htried⟩ :=
    head_start fixedLanes_planned hs (l := { routes := [.torSnowflake, .torObfs4, .torDirect], startAfterMs := 45000 })
      rfl hbegun (by rw [helapsed]; decide) 1 (by decide)
  exact ⟨s, hs, hbegun, helapsed, hfinished, htried hcurrent hrace hwinner _ rfl .psiphon (by decide)⟩

/-- **A race comes to an end**: its lanes take so many steps at most, and one of them has a step to take as long
as there is no answer. -/
theorem race_ends (hplan : .race lanes ∈ Planner.plan containsIgnoreCase remembered options) {s₀ : State}
    (hinit : init lanes s₀) {ls : List Label} (hrun : (machine lanes).runs ls s₀ = some s) :
    (ls.flatMap fun label => label.lane.toList).length ≤
        4 * (lanes.flatMap Lane.routes).length + 2 * lanes.length ∧
      (s.race = .awaiting → s.winner = none →
        ∃ label ms t, label.lane.isSome = true ∧ step lanes (.tick ms) s = some t ∧
          (step lanes label t).isSome = true) := by
  have hapart := apart_of_plan hplan
  obtain ⟨hinv, hpaid⟩ := weight_runs hapart (inv_init hinit) hrun
  refine ⟨?_, goes_on hapart hinv⟩
  calc (ls.flatMap fun label => label.lane.toList).length
      ≤ s.weight lanes + (ls.flatMap fun label => label.lane.toList).length := Nat.le_add_left ..
    _ ≤ s₀.weight lanes := hpaid
    _ = 4 * (lanes.flatMap Lane.routes).length + 2 * lanes.length := weight_init hinit

theorem race_ends_begun : ∃ s, (machine fixedLanes).runs torHandedOn fixedStart = some s ∧ s.race = .awaiting ∧
    ∃ label ms t, label.lane.isSome = true ∧ step fixedLanes (.tick ms) s = some t ∧
      (step fixedLanes label t).isSome = true := by
  have hrun : ((machine fixedLanes).runs torHandedOn fixedStart).any
      (fun s : State => s.race = .awaiting && s.winner.isNone) = true := by decide
  obtain ⟨s, hs, hp⟩ := (Option.any_eq_true _ _).1 hrun
  simp only [Bool.and_eq_true, decide_eq_true_eq, Option.isNone_iff_eq_none] at hp
  exact ⟨s, hs, hp.1, (race_ends fixedLanes_planned fixedStart_init hs).2 hp.1 hp.2⟩

/-! ## Late finishers -/

/-- What the lanes of a race do of themselves, and the clock. -/
def Label.Own : Label → Prop
  | .elsewhere .. | .stopCarrier => False
  | _ => True

/-- **What lanes do after their race changes nothing**, while no later race has settled. -/
theorem late_finishers (hplan : .race lanes ∈ Planner.plan containsIgnoreCase remembered options)
    (h : Reachable (machine lanes) s) (hover : s.race ≠ .awaiting) (hlater : s.laterSettled = false)
    {ls : List Label} (hown : ∀ label ∈ ls, label.Own) (hrun : (machine lanes).runs ls s = some s') :
    s'.shared = s.shared ∧ s'.stopped = s.stopped ∧ s'.latest = s.latest ∧ s'.log = s.log := by
  have hapart := apart_of_plan hplan
  have hinv := (invariant hapart).reachable h
  clear h
  -- along the later steps, each of which changes nothing
  induction ls generalizing s with
  | nil =>
      cases hrun
      exact ⟨rfl, rfl, rfl, rfl⟩
  | cons label ls ih =>
      obtain ⟨t, hstep, hrest⟩ := runs_cons hrun
      have hmoves := step_moves hstep
      have hkept : t.race = s.race ∧ t.laterSettled = false ∧ t.shared = s.shared ∧ t.stopped = s.stopped ∧
          t.latest = s.latest ∧ t.log = s.log := by
        have hlabel := hown label List.mem_cons_self
        cases hmoves with
        -- of a race that is over only these steps are left
        | tick | replace => exact ⟨rfl, hlater, rfl, rfl, rfl, rfl⟩
        | @released lane client route _ hlane hheld =>
            rcases release_over hinv.clients hover route client with ⟨hsame, -⟩ | ⟨hlate, -⟩
            · rw [hsame]
              exact ⟨rfl, hlater, rfl, rfl, rfl, rfl⟩
            · rw [hlater] at hlate
              cases hlate
        | unwound => exact ⟨rfl, hlater, rfl, rfl, rfl, rfl⟩
        | stopCarrier | elsewhere => exact hlabel.elim
        -- and these are steps of a race that is on
        | begin _ hrace | stale hrace | outdated hrace | joined hrace | failed _ hrace | dropped _ hrace
        | started hrace | late hrace | wins hrace | lost hrace | heard hrace | unheard hrace | cancel hrace =>
            exact absurd hrace hover
      obtain ⟨hrace, hlater', hshared, hstopped, hlatest, hlog⟩ := hkept
      have hinv' := (invariant hapart).step s label t hinv trivial hstep
      rw [← hshared, ← hstopped, ← hlatest, ← hlog]
      exact ih (hrace ▸ hover) hlater' (fun l hl => hown l (List.mem_cons_of_mem _ hl)) hrest hinv'

theorem late_finishers_unwound : ∃ s s', Reachable (machine fixedLanes) s ∧
    (machine fixedLanes).runs [.unwind 0, .tick 5, .unwind 2] s = some s' ∧ s'.stopped = s.stopped ∧
      s'.log = s.log := by
  obtain ⟨s, hs, hp⟩ := exists_reachable (m := machine fixedLanes) psiphonWins
    (fun s : State => s.race ≠ .awaiting && !s.laterSettled &&
      ((machine fixedLanes).runs [.unwind 0, .tick 5, .unwind 2] s).isSome)
    fixedStart_init (fun _ _ _ => trivial) (by decide)
  simp only [Bool.and_eq_true, decide_eq_true_eq, Bool.not_eq_true'] at hp
  obtain ⟨⟨hover, hlater⟩, hruns⟩ := hp
  obtain ⟨s', hrun⟩ := Option.isSome_iff_exists.1 hruns
  have hown : ∀ label ∈ [Label.unwind 0, .tick 5, .unwind 2], label.Own := by
    simp [Label.Own]
  obtain ⟨-, hstopped, -, hlog⟩ := late_finishers fixedLanes_planned hs hover hlater hown hrun
  exact ⟨s, s', hs, hrun, hstopped, hlog⟩

end Planned

end Run

end Race
end Service
end AuroraVpn
