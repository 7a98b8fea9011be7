import AuroraVpn.Carriers.Hops
import AuroraVpn.Service.Search
import AuroraVpn.Settings.RouteMemory
import Mathlib.Data.List.Perm.Subperm

/-!
# Planner — the order Automatic tries things in

`AutoPlanner` of `AutoRoute.kt`: the routes that a phone can try, the lanes of the race between them, and how
long one pass takes.

* `race_exact`: a race has every route but the direct engine, each of them once, in lanes of one carrier.
* `plan_leads`: what worked on a network is tried there at once.
* `search_over`: how long a search lasts that finds no way out.
-/

namespace AuroraVpn
namespace Service
namespace Planner

open Attempts (Carrier)
open RouteMemory (AutoRoute)

/-! ## The planner -/

def ENGINE_QUICK_MS : Nat := 60000

def ENGINE_REMEMBERED_MS : Nat := 150000

def ENGINE_DEEP_MS : Nat := 300000

def SECOND_LANE_AFTER_MS : Nat := 45000

/-- Routes tried one after another, `startAfterMs` into the race or once every lane that runs has run out. -/
structure Lane where
  routes : List AutoRoute
  startAfterMs : Nat
  deriving DecidableEq, Repr

inductive AutoStep
  | engine (budgetMs : Nat) (deep : Bool)
  | race (lanes : List Lane)
  deriving DecidableEq, Repr

structure AutoOptions where
  wholeDevice : Bool
  chainAvailable : Bool
  transportsAvailable : Bool
  hasCustomBridges : Bool
  engineCanSearchDeeper : Bool
  engineWorkedBefore : Bool
  provenFraming : Option Text
  onMobileData : Bool
  lastEngineFailure : Option Text
  engineFailedHere : Bool

/-- True for the engine running as a carrier in a race rather than on the interface. -/
def racesEngine (route : AutoRoute) : Bool :=
  route.carrier = .aether && route ≠ .aether

def budgetMs : AutoRoute → Nat
  | .aether => ENGINE_QUICK_MS
  | .aetherH3Quick | .aetherH2Quick => 75000
  | .aetherH2Fragment | .aetherH3Ech => 75000
  | .aetherH2Full => 180000
  | .aetherMim => 180000
  | .aetherAsSet => 300000
  | .psiphon => 330000
  | .torCustom | .torSnowflake => 180000
  | .torObfs4 => 150000
  | .torDirect => 90000

section Plan

-- `String.contains` with `ignoreCase`
variable (containsIgnoreCase : Text → Text → Bool)

/-- The rung that a failure names. -/
def wanted (failure : Text) : Option AutoRoute :=
  if containsIgnoreCase failure "ECH".toList then some .aetherH3Ech
  else if containsIgnoreCase failure "unrecognised name".toList ||
      containsIgnoreCase failure "unrecognized name".toList then
    some .aetherH2Fragment
  else none

def preferredFor (lane : List AutoRoute) (failure : Option Text) : List AutoRoute :=
  match failure.bind (wanted containsIgnoreCase) with
  | none => lane
  | some wanted =>
      if wanted ∉ lane || lane.head? = some wanted then lane
      else wanted :: lane.filter (· ≠ wanted)

def aetherLane (options : AutoOptions) : List AutoRoute :=
  if !options.engineCanSearchDeeper then [.aetherAsSet]
  else
    let h3First := (Carriers.framingOrder options.provenFraming options.onMobileData).head? = some "h3".toList
    let plain : List AutoRoute :=
      if h3First then [.aetherH3Quick, .aetherH2Quick] else [.aetherH2Quick, .aetherH3Quick]
    let tactics : List AutoRoute :=
      if h3First then [.aetherH3Ech, .aetherH2Fragment] else [.aetherH2Fragment, .aetherH3Ech]
    preferredFor containsIgnoreCase (plain ++ tactics ++ [.aetherH2Full, .aetherMim]) options.lastEngineFailure

/-- Tor's routes, in the order worth trying them. -/
def torRoutes (options : AutoOptions) : List AutoRoute :=
  (if options.transportsAvailable then
    (if options.hasCustomBridges then [.torCustom] else []) ++ [.torSnowflake, .torObfs4]
  else []) ++ [.torDirect]

def offeredRoutes (options : AutoOptions) : List AutoRoute :=
  .aether ::
    if !options.wholeDevice || !options.chainAvailable then []
    else aetherLane containsIgnoreCase options ++ .psiphon :: torRoutes options

variable (remembered : Option AutoRoute) (options : AutoOptions)

/-- The remembered route, where it can still be offered. -/
def known : Option AutoRoute :=
  (remembered.map AutoRoute.remembersAs).filter (· ∈ offeredRoutes containsIgnoreCase options)

def aetherLikely : Bool :=
  !options.engineFailedHere &&
    (known containsIgnoreCase remembered options = some .aether ||
      ((known containsIgnoreCase remembered options).isNone && options.engineWorkedBefore))

def raceLanes : List Lane :=
  let aether := aetherLane containsIgnoreCase options
  let tor := (offeredRoutes containsIgnoreCase options).filter (·.carrier = .tor)
  match (known containsIgnoreCase remembered options).filter (·.carrier = .tor) with
  | some known =>
      [{ routes := known :: tor.filter (· ≠ known), startAfterMs := 0 },
        { routes := aether, startAfterMs := 0 },
        { routes := [.psiphon], startAfterMs := SECOND_LANE_AFTER_MS }]
  | none =>
      [{ routes := aether, startAfterMs := 0 }, { routes := [.psiphon], startAfterMs := 0 },
        ({ routes := tor, startAfterMs := SECOND_LANE_AFTER_MS } : Lane)].filter (·.routes ≠ [])

def plan : List AutoStep :=
  let likely := aetherLikely containsIgnoreCase remembered options
  if !options.wholeDevice || !options.chainAvailable then
    .engine (if likely then ENGINE_REMEMBERED_MS else ENGINE_QUICK_MS) false ::
      if options.engineCanSearchDeeper then [.engine ENGINE_DEEP_MS true] else []
  else
    let race := AutoStep.race (raceLanes containsIgnoreCase remembered options)
    if likely then [.engine ENGINE_REMEMBERED_MS false, race] else [race]

def Lane.longestMs (lane : Lane) : Nat :=
  lane.startAfterMs + (lane.routes.map budgetMs).sum

/-- The longest a step can take; the lanes of a race run beside each other. -/
def AutoStep.longestMs : AutoStep → Nat
  | .engine budgetMs _ => budgetMs
  | .race lanes => (lanes.map Lane.longestMs).foldr max 0

def longestPassMs : Nat :=
  ((plan containsIgnoreCase remembered options).map AutoStep.longestMs).sum

end Plan

def hasRoomForAnotherPass (spentMs passMs ceilingMs : Nat) : Bool :=
  spentMs + passMs ≤ ceilingMs

def MAX_AUTO_SEARCH_MS : Nat := 15 * 60 * 1000

def AUTO_PASS_GAP_MS : Nat := 10000

/-- What a pass is planned from. -/
structure Basis where
  remembered : Option AutoRoute
  options : AutoOptions

def Basis.longestPassMs (containsIgnoreCase : Text → Text → Bool) (basis : Basis) : Nat :=
  Planner.longestPassMs containsIgnoreCase basis.remembered basis.options

/-- A pass that found no way out: what `autoStepFor` planned it from, and what `finishStep` asked about
another one with, at its end. -/
structure Tried where
  planned : Basis
  tookMs : Nat
  asked : Basis

/-- How long a search lasts whose passes find no way out, by the question of `finishStep` at the end of each:
`passes` are over already, `spentMs` after the search began.  The next pass is planned behind the gap, from
what network, memory and options there are then. -/
def searchMs (containsIgnoreCase : Text → Text → Bool) (passes spentMs : Nat) : List Tried → Nat
  | [] => spentMs
  | tried :: rest =>
      let spentMs := spentMs + tried.tookMs
      let another := tried.asked.longestPassMs containsIgnoreCase
      if Search.MAX_AUTO_PASSES ≤ passes + 1 || !hasRoomForAnotherPass spentMs another MAX_AUTO_SEARCH_MS then
        spentMs
      else searchMs containsIgnoreCase (passes + 1) (spentMs + AUTO_PASS_GAP_MS) rest

/-! ## The lanes of a race -/

section Race

variable {containsIgnoreCase : Text → Text → Bool} {remembered : Option AutoRoute} {options : AutoOptions}

/-- The engine's runs in a race, before they are put in order. -/
def engineRoutes (options : AutoOptions) : List AutoRoute :=
  if options.engineCanSearchDeeper then
    [.aetherH3Quick, .aetherH2Quick, .aetherH3Ech, .aetherH2Fragment, .aetherH2Full, .aetherMim]
  else [.aetherAsSet]

theorem filter_ne {lane : List AutoRoute} (hlane : lane.Nodup) (route : AutoRoute) :
    lane.filter (· ≠ route) = lane.erase route := by
  rw [hlane.erase_eq_filter]
  apply List.filter_congr
  intro other _
  by_cases heq : other = route <;> simp [heq]

theorem preferredFor_perm {lane : List AutoRoute} (hlane : lane.Nodup) (failure : Option Text) :
    (preferredFor containsIgnoreCase lane failure).Perm lane := by
  unfold preferredFor
  split
  next => exact .refl _
  next wanted _ =>
    split
    next => exact .refl _
    next hmoved =>
      have hmem : wanted ∈ lane := by
        by_contra hnot
        apply hmoved
        simp [hnot]
      rw [filter_ne hlane]
      exact (List.perm_cons_erase hmem).symm

theorem aetherLane_perm (containsIgnoreCase : Text → Text → Bool) (options : AutoOptions) :
    (aetherLane containsIgnoreCase options).Perm (engineRoutes options) := by
  unfold aetherLane engineRoutes
  cases hdeep : options.engineCanSearchDeeper with
  | false => exact .refl _
  | true =>
      simp only [Bool.not_true, Bool.false_eq_true, if_false, if_true]
      split
      next => exact preferredFor_perm (by decide) _
      next => exact (preferredFor_perm (by decide) _).trans (by decide)

theorem mem_aetherLane {route : AutoRoute} (h : route ∈ aetherLane containsIgnoreCase options) :
    route.carrier = .aether ∧ route ≠ .aether := by
  have hmem := (aetherLane_perm containsIgnoreCase options).mem_iff.1 h
  revert hmem
  unfold engineRoutes
  cases options.engineCanSearchDeeper <;> cases route <;> decide

theorem aetherLane_ne_nil (options : AutoOptions) : aetherLane containsIgnoreCase options ≠ [] := by
  intro hnil
  have hperm := aetherLane_perm containsIgnoreCase options
  rw [hnil, List.nil_perm] at hperm
  revert hperm
  unfold engineRoutes
  cases options.engineCanSearchDeeper <;> decide

theorem torRoutes_ne_nil (options : AutoOptions) : torRoutes options ≠ [] := by
  unfold torRoutes
  simp

theorem mem_torRoutes {route : AutoRoute} (h : route ∈ torRoutes options) : route.carrier = .tor := by
  revert h
  unfold torRoutes
  cases options.transportsAvailable <;> cases options.hasCustomBridges <;> cases route <;> decide

theorem nodup_torRoutes (options : AutoOptions) : (torRoutes options).Nodup := by
  unfold torRoutes
  cases options.transportsAvailable <;> cases options.hasCustomBridges <;> decide

theorem nodup_aetherLane (options : AutoOptions) : (aetherLane containsIgnoreCase options).Nodup := by
  rw [(aetherLane_perm containsIgnoreCase options).nodup_iff]
  unfold engineRoutes
  cases options.engineCanSearchDeeper <;> decide

theorem known_mem {route : AutoRoute} (h : known containsIgnoreCase remembered options = some route) :
    route ∈ offeredRoutes containsIgnoreCase options := by
  unfold known at h
  simpa using (Option.filter_eq_some_iff.1 h).2

section Raced

variable (hraced : (!options.wholeDevice || !options.chainAvailable) = false)

include hraced

theorem offeredRoutes_raced : offeredRoutes containsIgnoreCase options =
    .aether :: (aetherLane containsIgnoreCase options ++ .psiphon :: torRoutes options) := by
  unfold offeredRoutes
  rw [hraced]
  rfl

theorem filter_offeredRoutes (containsIgnoreCase : Text → Text → Bool) :
    (offeredRoutes containsIgnoreCase options).filter (·.carrier = .tor) = torRoutes options := by
  have haether : (aetherLane containsIgnoreCase options).filter (·.carrier = .tor) = [] := by
    rw [List.filter_eq_nil_iff]
    intro route hroute
    simp [(mem_aetherLane hroute).1]
  have htor : (torRoutes options).filter (·.carrier = .tor) = torRoutes options := by
    rw [List.filter_eq_self]
    intro route hroute
    simp [mem_torRoutes hroute]
  rw [offeredRoutes_raced hraced, List.filter_cons_of_neg (by decide), List.filter_append, haether,
    List.filter_cons_of_neg (by decide), htor, List.nil_append]

theorem nodup_offeredRoutes (containsIgnoreCase : Text → Text → Bool) :
    (offeredRoutes containsIgnoreCase options).Nodup := by
  rw [offeredRoutes_raced hraced, List.nodup_cons, List.nodup_append, List.nodup_cons]
  refine ⟨?_, nodup_aetherLane options, ⟨?_, nodup_torRoutes options⟩, ?_⟩
  · intro hmem
    rcases List.mem_append.1 hmem with haether | hrest
    · exact (mem_aetherLane haether).2 rfl
    · rcases List.mem_cons.1 hrest with hpsiphon | htor
      · cases hpsiphon
      · exact absurd (mem_torRoutes htor) (by decide)
  · intro htor
    exact absurd (mem_torRoutes htor) (by decide)
  · intro route haether other hother heq
    subst heq
    have hcarrier := (mem_aetherLane haether).1
    rcases List.mem_cons.1 hother with rfl | htor
    · cases hcarrier
    · rw [mem_torRoutes htor] at hcarrier
      cases hcarrier

/-- The lanes, where Tor worked on this network and where it did not. -/
theorem raceLanes_cases (containsIgnoreCase : Text → Text → Bool)
    (remembered : Option AutoRoute) :
    (∃ route tor, known containsIgnoreCase remembered options = some route ∧ route.carrier = .tor ∧
      (route :: tor).Perm (torRoutes options) ∧
      raceLanes containsIgnoreCase remembered options =
        [{ routes := route :: tor, startAfterMs := 0 },
          { routes := aetherLane containsIgnoreCase options, startAfterMs := 0 },
          { routes := [.psiphon], startAfterMs := SECOND_LANE_AFTER_MS }]) ∨
    (∀ route, known containsIgnoreCase remembered options = some route → route.carrier ≠ .tor) ∧
      raceLanes containsIgnoreCase remembered options =
        [{ routes := aetherLane containsIgnoreCase options, startAfterMs := 0 },
          { routes := [.psiphon], startAfterMs := 0 },
          { routes := torRoutes options, startAfterMs := SECOND_LANE_AFTER_MS }] := by
  have htor := filter_offeredRoutes hraced containsIgnoreCase
  -- a route over Tor is remembered, or none
  cases hknown : (known containsIgnoreCase remembered options).filter (·.carrier = .tor) with
  | some route =>
      obtain ⟨heq, hcarrier⟩ := Option.filter_eq_some_iff.1 hknown
      -- what is remembered is among the routes over Tor, and it is put in front of them
      have hmem : route ∈ torRoutes options := by
        rw [← htor]
        exact List.mem_filter.2 ⟨known_mem heq, hcarrier⟩
      left
      refine ⟨route, (torRoutes options).erase route, heq, by simpa using hcarrier,
        (List.perm_cons_erase hmem).symm, ?_⟩
      unfold raceLanes
      simp only [hknown, htor, filter_ne (nodup_torRoutes options)]
  | none =>
      right
      -- what is remembered is no route over Tor: a filter by carrier has dropped it
      constructor
      · intro route heq hcarrier
        rw [heq, Option.filter_some, if_pos (by simpa using hcarrier)] at hknown
        cases hknown
      · have haether : aetherLane containsIgnoreCase options ≠ [] := aetherLane_ne_nil options
        unfold raceLanes
        simp [hknown, htor, haether, torRoutes_ne_nil]

theorem routes_perm (containsIgnoreCase : Text → Text → Bool) (remembered : Option AutoRoute) :
    ((raceLanes containsIgnoreCase remembered options).flatMap Lane.routes).Perm
    ((offeredRoutes containsIgnoreCase options).erase .aether) := by
  rw [offeredRoutes_raced hraced, List.erase_cons_head]
  rcases raceLanes_cases hraced containsIgnoreCase remembered with
    ⟨route, tor, -, -, hperm, hlanes⟩ | ⟨-, hlanes⟩
  · rw [hlanes]
    calc List.flatMap Lane.routes _
        = (route :: tor) ++ (aetherLane containsIgnoreCase options ++ [.psiphon]) := by simp
      _ |>.Perm (aetherLane containsIgnoreCase options ++ [.psiphon] ++ (route :: tor)) :=
          List.perm_append_comm
      _ |>.Perm (aetherLane containsIgnoreCase options ++ [.psiphon] ++ torRoutes options) :=
          hperm.append_left _
      _ = aetherLane containsIgnoreCase options ++ .psiphon :: torRoutes options := by simp
  · rw [hlanes]
    simp

end Raced

/-- What a race has to be: all that is offered, each route once, one lane for each carrier. -/
structure Exact (offered : List AutoRoute) (lanes : List Lane) : Prop where
  offered : ((lanes.flatMap Lane.routes).Perm (offered.erase .aether))
  once : (lanes.flatMap Lane.routes).Nodup
  indirect : .aether ∉ lanes.flatMap Lane.routes
  filled : ∀ lane ∈ lanes, lane.routes ≠ []
  carriers : ∀ lane ∈ lanes, ∀ route ∈ lane.routes, ∀ lane' ∈ lanes, ∀ route' ∈ lane'.routes,
    (route.carrier = route'.carrier ↔ lane = lane')

theorem race_mem {lanes : List Lane} (h : .race lanes ∈ plan containsIgnoreCase remembered options) :
    (!options.wholeDevice || !options.chainAvailable) = false ∧
      lanes = raceLanes containsIgnoreCase remembered options := by
  unfold plan at h
  split at h
  next =>
    split at h <;> simp at h
  next hraced =>
    refine ⟨by simpa using hraced, ?_⟩
    dsimp only at h
    split at h <;> simpa using h

/-- Three lanes of three carriers. -/
theorem carriers_of_three {a b c : Lane} {x y z : Carrier} (ha : ∀ route ∈ a.routes, route.carrier = x)
    (hb : ∀ route ∈ b.routes, route.carrier = y) (hc : ∀ route ∈ c.routes, route.carrier = z)
    (hxy : x ≠ y) (hyz : y ≠ z) (hxz : x ≠ z) (hab : a ≠ b) (hbc : b ≠ c) (hac : a ≠ c) :
    ∀ lane ∈ [a, b, c], ∀ route ∈ lane.routes, ∀ lane' ∈ [a, b, c], ∀ route' ∈ lane'.routes,
      (route.carrier = route'.carrier ↔ lane = lane') := by
  intro lane hlane route hroute lane' hlane' route' hroute'
  have hcarrier : ∀ l ∈ [a, b, c], ∀ r ∈ l.routes,
      l = a ∧ r.carrier = x ∨ l = b ∧ r.carrier = y ∨ l = c ∧ r.carrier = z := by
    intro l hl r hr
    rcases List.mem_cons.1 hl with rfl | hl
    · exact .inl ⟨rfl, ha r hr⟩
    · rcases List.mem_cons.1 hl with rfl | hl
      · exact .inr (.inl ⟨rfl, hb r hr⟩)
      · rw [List.mem_singleton] at hl
        subst hl
        exact .inr (.inr ⟨rfl, hc r hr⟩)
  rcases hcarrier lane hlane route hroute with ⟨rfl, h⟩ | ⟨rfl, h⟩ | ⟨rfl, h⟩ <;>
    rcases hcarrier lane' hlane' route' hroute' with ⟨rfl, h'⟩ | ⟨rfl, h'⟩ | ⟨rfl, h'⟩ <;>
    simp [h, h', hab, hbc, hac, hab.symm, hbc.symm, hac.symm, hxy, hyz, hxz, hxy.symm, hyz.symm, hxz.symm]

/-- **A race has every route but the direct engine**, each of them once. -/
theorem race_exact {lanes : List Lane} (h : .race lanes ∈ plan containsIgnoreCase remembered options) :
    Exact (offeredRoutes containsIgnoreCase options) lanes := by
  obtain ⟨hraced, rfl⟩ := race_mem h
  have hperm := routes_perm hraced containsIgnoreCase remembered
  have hnodup := nodup_offeredRoutes hraced containsIgnoreCase
  have haether : ∀ route ∈ aetherLane containsIgnoreCase options, route.carrier = .aether ∧ route ≠ .aether :=
    fun _ hroute => mem_aetherLane hroute
  have hfirst : aetherLane containsIgnoreCase options ≠ [] := aetherLane_ne_nil options
  have hsome := torRoutes_ne_nil options
  refine
    { offered := hperm
      once := hperm.nodup_iff.2 (hnodup.erase _)
      indirect := fun hmem => hnodup.not_mem_erase (hperm.mem_iff.1 hmem)
      filled := ?_
      carriers := ?_ }
  -- either order of the lanes: none of them is empty
  · rcases raceLanes_cases hraced containsIgnoreCase remembered with
      ⟨route, tor, -, -, -, hlanes⟩ | ⟨-, hlanes⟩ <;>
      simp [hlanes, hfirst, hsome]
  -- by the order: Tor first where it is remembered, the carriers over the engine first elsewhere
  · have hpsiphon : ∀ route ∈ [AutoRoute.psiphon], route.carrier = .psiphon := by decide
    rcases raceLanes_cases hraced containsIgnoreCase remembered with
      ⟨route, tor, -, -, hsame, hlanes⟩ | ⟨-, hlanes⟩
    · have htor : ∀ other ∈ route :: tor, other.carrier = .tor :=
        fun other hother => mem_torRoutes (hsame.mem_iff.1 hother)
      rw [hlanes]
      refine carriers_of_three htor (fun route hroute => (haether route hroute).1) hpsiphon (by decide)
        (by decide) (by decide) ?_ (by simp [SECOND_LANE_AFTER_MS]) (by simp [SECOND_LANE_AFTER_MS])
      intro heq
      -- a lane has routes of one carrier, so no two lanes are the same
      have hroute : route ∈ aetherLane containsIgnoreCase options := by
        injection heq with hroutes
        rw [← hroutes]
        exact List.mem_cons_self
      have hcarrier := htor route List.mem_cons_self
      rw [(haether route hroute).1] at hcarrier
      cases hcarrier
    · rw [hlanes]
      refine carriers_of_three (fun route hroute => (haether route hroute).1) hpsiphon
        (fun route hroute => mem_torRoutes hroute) (by decide) (by decide) (by decide) ?_
        (by simp [SECOND_LANE_AFTER_MS]) (by simp [SECOND_LANE_AFTER_MS])
      intro heq
      have hmem : AutoRoute.psiphon ∈ aetherLane containsIgnoreCase options := by
        injection heq with hroutes
        rw [hroutes]
        exact List.mem_cons_self
      cases (haether _ hmem).1

/-- A phone whose engine is on a transport of the user's own. -/
def fixedTransport : AutoOptions where
  wholeDevice := true
  chainAvailable := true
  transportsAvailable := true
  hasCustomBridges := false
  engineCanSearchDeeper := false
  engineWorkedBefore := false
  provenFraming := none
  onMobileData := false
  lastEngineFailure := none
  engineFailedHere := false

def fixedLanes : List Lane :=
  [{ routes := [.aetherAsSet], startAfterMs := 0 }, { routes := [.psiphon], startAfterMs := 0 },
    { routes := [.torSnowflake, .torObfs4, .torDirect], startAfterMs := 45000 }]

theorem fixedLanes_planned : .race fixedLanes ∈ plan (fun _ _ => false) none fixedTransport := by decide

theorem race_exact_fixed : Exact (offeredRoutes (fun _ _ => false) fixedTransport) fixedLanes :=
  race_exact fixedLanes_planned

/-! ## What worked here -/

/-- A step that tries a route from its beginning on. -/
def AutoStep.Leads (route : AutoRoute) : AutoStep → Prop
  | .engine _ _ => route = .aether
  | .race lanes => ∃ lane ∈ lanes, lane.startAfterMs = 0 ∧ lane.routes.head? = some route

theorem known_direct {route : AutoRoute} (h : known containsIgnoreCase remembered options = some route)
    (haether : route.carrier = .aether) : route = .aether := by
  obtain ⟨heq, -⟩ := Option.filter_eq_some_iff.1 h
  obtain ⟨won, -, rfl⟩ := Option.map_eq_some_iff.1 heq
  exact (won.remembersAs_eq_aether).2 (by cases won <;> first | rfl | cases haether)

/-- **What worked on a network is tried there at once**, but for an engine that failed there since. -/
theorem plan_leads {route : AutoRoute} (h : known containsIgnoreCase remembered options = some route)
    (hfailed : route = .aether → options.engineFailedHere = false) :
    ∃ step, (plan containsIgnoreCase remembered options).head? = some step ∧ step.Leads route := by
  -- by the carrier: the engine itself goes before the race, every other route within it
  cases hcarrier : route.carrier with
  | aether =>
      obtain rfl := known_direct h hcarrier
      have hlikely : aetherLikely containsIgnoreCase remembered options = true := by
        simp [aetherLikely, h, hfailed rfl]
      unfold plan
      simp only [hlikely, if_true]
      split
      next => exact ⟨_, rfl, rfl⟩
      next => exact ⟨_, rfl, rfl⟩
  | psiphon | tor =>
      have hne : route ≠ .aether := by
        -- no route but the engine is remembered as likely
        rintro rfl
        cases hcarrier
      have hlikely : aetherLikely containsIgnoreCase remembered options = false := by
        simp [aetherLikely, h, hne]
      -- a device that is not routed whole, or has no chain, has no route but the engine
      have hraced : (!options.wholeDevice || !options.chainAvailable) = false := by
        by_contra hnot
        have hmem := known_mem h
        unfold offeredRoutes at hmem
        rw [if_pos (by simpa only [Bool.not_eq_false] using hnot), List.mem_singleton] at hmem
        exact hne hmem
      refine ⟨.race (raceLanes containsIgnoreCase remembered options), ?_, ?_⟩
      · unfold plan
        simp [hlikely, hraced]
      · rcases raceLanes_cases hraced containsIgnoreCase remembered with
          -- its lane begins at once, whichever of the two orders the race has
          ⟨other, tor, hother, -, -, hlanes⟩ | ⟨hnone, hlanes⟩
        · rw [h] at hother
          cases hother
          exact ⟨_, by rw [hlanes]; exact List.mem_cons_self, rfl, rfl⟩
        -- Psiphon is the route that is neither the engine nor over Tor
        · have hpsiphon : route = .psiphon := by
            have hnot := hnone route h
            cases route <;> first | rfl | exact absurd rfl hnot | cases hcarrier
          rw [hpsiphon]
          refine ⟨{ routes := [.psiphon], startAfterMs := 0 }, ?_, rfl, rfl⟩
          rw [hlanes]
          exact List.mem_cons_of_mem _ List.mem_cons_self

theorem plan_leads_tor : ∃ step, (plan (fun _ _ => false) (some .torDirect) fixedTransport).head? = some step ∧
    step.Leads .torDirect :=
  plan_leads (by decide) (by simp)

/-! ## How long a search lasts -/

theorem aetherLane_longest (containsIgnoreCase : Text → Text → Bool) (options : AutoOptions) :
    ((aetherLane containsIgnoreCase options).map budgetMs).sum ≤ 660000 := by
  rw [((aetherLane_perm containsIgnoreCase options).map budgetMs).sum_eq]
  unfold engineRoutes
  cases options.engineCanSearchDeeper <;> decide

theorem torRoutes_longest (options : AutoOptions) : ((torRoutes options).map budgetMs).sum ≤ 600000 := by
  unfold torRoutes
  cases options.transportsAvailable <;> cases options.hasCustomBridges <;> decide

theorem race_longest (containsIgnoreCase : Text → Text → Bool) (remembered : Option AutoRoute)
    (hraced : (!options.wholeDevice || !options.chainAvailable) = false) :
    (AutoStep.race (raceLanes containsIgnoreCase remembered options)).longestMs ≤ 660000 := by
  have haether := aetherLane_longest containsIgnoreCase options
  have htor := torRoutes_longest options
  have hpsiphon : budgetMs .psiphon = 330000 := rfl
  have hsecond : SECOND_LANE_AFTER_MS = 45000 := rfl
  rcases raceLanes_cases hraced containsIgnoreCase remembered with
    ⟨route, tor, -, -, hperm, hlanes⟩ | ⟨-, hlanes⟩
  · have hsum := (hperm.map budgetMs).sum_eq
    simp only [List.map_cons, List.sum_cons] at hsum
    simp only [hlanes, AutoStep.longestMs, List.map_cons, List.map_nil, List.foldr_cons, List.foldr_nil,
      Lane.longestMs, List.sum_cons, List.sum_nil]
    omega
  · simp only [hlanes, AutoStep.longestMs, List.map_cons, List.map_nil, List.foldr_cons, List.foldr_nil,
      Lane.longestMs, List.sum_cons, List.sum_nil]
    omega

/-- No pass is longer than a whole search may be. -/
theorem longestPassMs_le (containsIgnoreCase : Text → Text → Bool) (remembered : Option AutoRoute)
    (options : AutoOptions) :
    longestPassMs containsIgnoreCase remembered options ≤ 810000 := by
  have hengine : ENGINE_REMEMBERED_MS = 150000 := rfl
  have hquick : ENGINE_QUICK_MS = 60000 := rfl
  have hdeep : ENGINE_DEEP_MS = 300000 := rfl
  unfold longestPassMs plan
  -- with the engine in front of the race, or behind it
  split
  next =>
    -- the head start of the engine
    have hlead : (if aetherLikely containsIgnoreCase remembered options = true then ENGINE_REMEMBERED_MS
        else ENGINE_QUICK_MS) ≤ 150000 := by
      split <;> omega
    cases options.engineCanSearchDeeper with
    | false =>
        simp only [Bool.false_eq_true, if_false, List.map_cons, List.map_nil, List.sum_cons, List.sum_nil,
          AutoStep.longestMs]
        omega
    | true =>
        simp only [if_true, List.map_cons, List.map_nil, List.sum_cons, List.sum_nil, AutoStep.longestMs]
        omega
  next hraced =>
    -- the race, and after it a deep search where the engine can do one
    have hrace := race_longest containsIgnoreCase remembered (by simpa using hraced)
    dsimp only
    split
    · simp only [List.map_cons, List.map_nil, List.sum_cons, List.sum_nil]
      rw [AutoStep.longestMs]
      omega
    · simp only [List.map_cons, List.map_nil, List.sum_cons, List.sum_nil]
      omega

/-- A pass that keeps to its plan: it is no longer than that can take and `slackMs` besides. -/
def Tried.Keeps (containsIgnoreCase : Text → Text → Bool) (slackMs : Nat) (tried : Tried) : Prop :=
  tried.tookMs ≤ tried.planned.longestPassMs containsIgnoreCase + slackMs

/-- By how much the plans of some passes are longer than what was asked about in front of them. -/
def grownMs (containsIgnoreCase : Text → Text → Bool) : List Tried → Nat
  | tried :: next :: rest =>
      (next.planned.longestPassMs containsIgnoreCase - tried.asked.longestPassMs containsIgnoreCase) +
        grownMs containsIgnoreCase (next :: rest)
  | _ => 0

/-- **A search that finds no way out is over in time**, but for what its plans grow by when the network or
the options change between the question and the plan. -/
theorem search_over {slackMs : Nat} {tried : List Tried}
    (h : ∀ pass ∈ tried, pass.Keeps containsIgnoreCase slackMs) :
    searchMs containsIgnoreCase 0 0 tried ≤
      MAX_AUTO_SEARCH_MS + AUTO_PASS_GAP_MS + slackMs + grownMs containsIgnoreCase tried := by
  have hceiling : MAX_AUTO_SEARCH_MS = 900000 := rfl
  cases tried with
  | nil => exact Nat.zero_le _
  | cons first rest =>
      have hfirst : first.tookMs ≤ first.planned.longestPassMs containsIgnoreCase + slackMs :=
        h first List.mem_cons_self
      have hlongest : first.planned.longestPassMs containsIgnoreCase ≤ 810000 :=
        longestPassMs_le containsIgnoreCase _ _
      rw [searchMs]
      split
      next => omega
      next hmore =>
        have hroom : first.tookMs + first.asked.longestPassMs containsIgnoreCase ≤ MAX_AUTO_SEARCH_MS := by
          simp only [Bool.or_eq_true, decide_eq_true_eq, Bool.not_eq_true', Nat.zero_add, not_or,
            Bool.not_eq_false, hasRoomForAnotherPass] at hmore
          exact hmore.2
        cases rest with
        | nil =>
            rw [searchMs]
            omega
        | cons second rest =>
            -- the second pass is the last one
            rw [searchMs, if_pos (by simp [Search.MAX_AUTO_PASSES])]
            have hsecond : second.tookMs ≤ second.planned.longestPassMs containsIgnoreCase + slackMs :=
              h second (List.mem_cons_of_mem _ List.mem_cons_self)
            rw [grownMs]
            omega

/-- What such a phone plans from on a network it does not know. -/
def fixedBasis : Basis where
  remembered := none
  options := fixedTransport

/-- A first pass that is over quickly, and a second one on a phone that can search deeper by then. -/
def grown : List Tried :=
  [{ planned := fixedBasis, tookMs := 330000, asked := fixedBasis },
    { planned := { fixedBasis with options := { fixedTransport with engineCanSearchDeeper := true } },
      tookMs := 660000, asked := fixedBasis }]

theorem search_over_grown :
    searchMs (fun _ _ => false) 0 0 grown ≤ MAX_AUTO_SEARCH_MS + AUTO_PASS_GAP_MS + 0 + 195000 := by
  have hkeeps : ∀ pass ∈ grown, pass.Keeps (fun _ _ => false) 0 := by
    intro pass hpass
    unfold Tried.Keeps
    rcases List.mem_cons.1 hpass with rfl | hpass
    · decide
    · obtain rfl := List.mem_singleton.1 hpass
      decide
  have hgrown : grownMs (fun _ _ => false) grown = 195000 := by decide
  rw [← hgrown]
  exact search_over hkeeps

end Race

end Planner
end Service
end AuroraVpn
