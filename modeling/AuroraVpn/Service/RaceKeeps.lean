import AuroraVpn.Service.Race

/-!
# RaceKeeps — what every step of a race keeps

* `Clients`: every client that runs is held by a lane, or has won.
* `Hands`: what has begun and what has run out.
* `Tried`: no route is passed over while nothing has won.
-/

namespace AuroraVpn
namespace Service
namespace Race

open Attempts (Carrier CarrierStage)
open Planner (Lane racesEngine)
open RouteMemory (AutoRoute)

/-! ## The clients of a race -/

section Clients

variable {lanes : List Lane} {s s' : State} {lane client : Nat} {route : AutoRoute} {rest : List AutoRoute}

/-- No carrier is in two lanes, and the direct engine is in none. -/
structure Apart (lanes : List Lane) : Prop where
  carriers : ∀ (i j : Nat) (l l' : Lane), lanes[i]? = some l → lanes[j]? = some l' →
    ∀ route ∈ l.routes, ∀ route' ∈ l'.routes, route.carrier = route'.carrier → i = j
  indirect : ∀ l ∈ lanes, .aether ∉ l.routes

/-- Every client that runs is held by a lane, or has won. -/
structure Clients (lanes : List Lane) (s : State) : Prop where
  placed : ∀ i, s.pc i = .waiting ∨ ∃ l, lanes[i]? = some l ∧ ∀ route ∈ (s.pc i).due, route ∈ l.routes
  table : s.race = .awaiting → ∀ route client, s.shared.autoInFlight.get route = some client ↔
    ∃ i c, client = .own c ∧ (s.pc i).client = some (route, c)
  foreign : s.race ≠ .awaiting → ∀ route c, s.shared.autoInFlight.get route ≠ some (.own c)
  made : ∀ i route c, (s.pc i).client = some (route, c) → c < s.made
  alone : ∀ i j route route' c, (s.pc i).client = some (route, c) → (s.pc j).client = some (route', c) → i = j
  newest : s.race = .awaiting → ∀ i route c, (s.pc i).client = some (route, c) →
    s.latest route.carrier = some (.own c)
  won : ∀ w, s.winner = some (some w) → w.client < s.made ∧ s.latest w.route.carrier = some (.own w.client) ∧
    ∃ i l, lanes[i]? = some l ∧ w.route ∈ l.routes ∧ s.pc i = .ended
  kept : ∀ c < s.made, s.stopped c = false →
    (s.race = .awaiting ∧ ∃ i route, (s.pc i).client = some (route, c)) ∨
      ∃ w, s.winner = some (some w) ∧ w.client = c

@[simp] theorem setPc_same (pc : Pc) : (s.setPc lane pc).pc lane = pc :=
  Function.update_self ..

theorem setPc_other {i : Nat} (pc : Pc) (hne : i ≠ lane) : (s.setPc lane pc).pc i = s.pc i :=
  Function.update_of_ne hne ..

/-- A place with a client that is not this lane's is as it was. -/
theorem client_setPc {pc : Pc} {i : Nat} {found : AutoRoute × Nat} (hpc : pc.client = none) :
    ((s.setPc lane pc).pc i).client = some found ↔ i ≠ lane ∧ (s.pc i).client = some found := by
  by_cases heq : i = lane
  · subst heq
    simp [hpc]
  · simp [setPc_other pc heq, heq]

theorem client_setPc_of_none {pc : Pc} {i : Nat} {found : AutoRoute × Nat} (hpc : pc.client = none)
    (hlane : (s.pc lane).client = none) :
    ((s.setPc lane pc).pc i).client = some found ↔ (s.pc i).client = some found := by
  rw [client_setPc hpc]
  constructor
  · exact fun h => h.2
  · intro h
    refine ⟨?_, h⟩
    rintro rfl
    rw [hlane] at h
    cases h

/-- A lane that goes on without a client. -/
theorem Clients.setPc {pc : Pc} (h : Clients lanes s) (hlane : (s.pc lane).client = none) (hpc : pc.client = none)
    (hended : s.pc lane ≠ .ended ∨ pc = .ended)
    (hplaced : pc = .waiting ∨ ∃ l, lanes[lane]? = some l ∧ ∀ route ∈ pc.due, route ∈ l.routes) :
    Clients lanes (s.setPc lane pc) where
  placed i := by
    by_cases heq : i = lane
    · subst heq
      -- the lane itself, then every other
      rwa [setPc_same]
    · rw [setPc_other pc heq]
      exact h.placed i
  table hrace route client := by
    simp only [client_setPc_of_none hpc hlane]
    exact h.table hrace route client
  foreign := h.foreign
  made i route c := by
    rw [client_setPc_of_none hpc hlane]
    exact h.made i route c
  alone i j route route' c := by
    rw [client_setPc_of_none hpc hlane, client_setPc_of_none hpc hlane]
    exact h.alone i j route route' c
  newest hrace i route c := by
    rw [client_setPc_of_none hpc hlane]
    exact h.newest hrace i route c
  won w hw := by
    obtain ⟨hmade, hlatest, i, l, hl, hroute, hpc'⟩ := h.won w hw
    refine ⟨hmade, hlatest, i, l, hl, hroute, ?_⟩
    by_cases heq : i = lane
    · subst heq
      rw [setPc_same]
      -- the lane of the winner has ended, and an ended lane stays ended
      exact hended.resolve_left (fun hne => hne hpc')
    · rwa [setPc_other pc heq]
  kept c hc hruns := by
    simp only [client_setPc_of_none hpc hlane]
    exact h.kept c hc hruns

theorem Clients.complete (h : Clients lanes s) : Clients lanes (s.complete none) := by
  unfold State.complete
  split
  next => exact h
  next hnone =>
    exact
      { h with
        won := fun w hw => by cases hw
        kept := fun c hc hruns => by
          rcases h.kept c hc hruns with hheld | ⟨w, hw, -⟩
          · exact .inl hheld
          · rw [hw] at hnone
            exact absurd rfl hnone }

theorem Clients.handOn (h : Clients lanes s) : Clients lanes (handOn lanes s) := by
  unfold Race.handOn
  split
  next => exact h
  next =>
    split
    next => exact { h with }
    next => exact h.complete

theorem Clients.finish (h : Clients lanes s) (hlane : (s.pc lane).client = none) {l : Lane}
    (hl : lanes[lane]? = some l) : Clients lanes (finish lanes lane s) := by
  have hended : Clients lanes (s.setPc lane .ended) :=
    h.setPc hlane rfl (.inr rfl) (.inr ⟨l, hl, by simp [Pc.due]⟩)
  exact Clients.handOn { hended with }

/-- A lane that goes on with the client it has. -/
theorem Clients.same {pc : Pc} (h : Clients lanes s) (hclient : pc.client = (s.pc lane).client)
    (hdue : pc.due = (s.pc lane).due) (hheld : pc.client ≠ none) : Clients lanes (s.setPc lane pc) := by
  -- no lane's client has changed, so what is said of clients still holds
  have hsame : ∀ i, ((s.setPc lane pc).pc i).client = (s.pc i).client := by
    intro i
    by_cases heq : i = lane
    · subst heq
      rw [setPc_same, hclient]
    · rw [setPc_other pc heq]
  refine
    { placed := ?_
      table := ?_
      foreign := h.foreign
      made := ?_
      alone := ?_
      newest := ?_
      won := ?_
      kept := ?_ }
  · intro i
    by_cases heq : i = lane
    · subst heq
      rw [setPc_same, hdue]
      -- the lane holds a client, so it no longer waits
      refine .inr ((h.placed i).resolve_left ?_)
      intro hwaiting
      rw [hclient, hwaiting] at hheld
      exact hheld rfl
    · rw [setPc_other pc heq]
      exact h.placed i
  · simp only [hsame]
    exact h.table
  · simp only [hsame]
    exact h.made
  · simp only [hsame]
    exact h.alone
  · simp only [hsame]
    exact h.newest
  · intro w hw
    obtain ⟨hlt, hnew, i, l, hl, hroute, hended⟩ := h.won w hw
    refine ⟨hlt, hnew, i, l, hl, hroute, ?_⟩
    -- the winner's lane holds none
    have hne : i ≠ lane := by
      rintro rfl
      rw [hclient, hended] at hheld
      exact hheld rfl
    rwa [setPc_other pc hne]
  · simp only [hsame]
    exact h.kept

theorem due_of_client {pc : Pc} {c : Nat} (h : pc.client = some (route, c)) : route ∈ pc.due := by
  cases pc <;> simp_all [Pc.client, Pc.due]

/-- What a lane holds is of its own carrier. -/
theorem Clients.lane_eq (h : Clients lanes s) (hapart : Apart lanes) {i c : Nat} {held : AutoRoute} {l : Lane}
    (hheld : (s.pc i).client = some (held, c)) (hl : lanes[lane]? = some l) (hroute : route ∈ l.routes)
    (hcarrier : held.carrier = route.carrier) : i = lane := by
  rcases h.placed i with hwaiting | ⟨l', hl', hdue⟩
  · rw [hwaiting] at hheld
    cases hheld
  · exact hapart.carriers i lane l' l hl' hl held (hdue held (due_of_client hheld)) route hroute hcarrier

/-- A lane that has given up the wait for another engine. -/
theorem Clients.loop (h : Clients lanes s) (hpc : s.pc lane = .joining route rest) :
    Clients lanes (s.setPc lane (.looping rest)) := by
  obtain ⟨l, hl, hroutes⟩ := (h.placed lane).resolve_left (by simp [hpc])
  rw [hpc] at hroutes
  exact h.setPc (by rw [hpc]; rfl) rfl (.inl (by simp [hpc]))
    (.inr ⟨l, hl, fun r hr => hroutes r (List.mem_cons_of_mem _ hr)⟩)

theorem Clients.lane_some (h : Clients lanes s) (hheld : (s.pc lane).client = some (route, client)) :
    ∃ l, lanes[lane]? = some l ∧ ∀ r ∈ Pc.ended.due, r ∈ l.routes := by
  rcases h.placed lane with hwaiting | ⟨l, hl, -⟩
  · rw [hwaiting] at hheld
    cases hheld
  · exact ⟨l, hl, by simp [Pc.due]⟩

theorem Clients.launch (h : Clients lanes s) (hapart : Apart lanes) (hrace : s.race = .awaiting) {l : Lane}
    (hl : lanes[lane]? = some l) (hroutes : ∀ r ∈ route :: rest, r ∈ l.routes)
    (hlane : (s.pc lane).client = none) (hrunning : s.pc lane ≠ .ended) :
    Clients lanes (launch lane route rest s) := by
  have hroute : route ∈ l.routes := hroutes route List.mem_cons_self
  have hclient : ∀ {i : Nat} {found : AutoRoute × Nat},
      ((Race.launch lane route rest s).pc i).client = some found ↔
        i = lane ∧ found = (route, s.made) ∨ i ≠ lane ∧ (s.pc i).client = some found := by
    intro i found
    by_cases heq : i = lane
    · subst heq
      simp [Race.launch, Pc.client, eq_comm]
    · simp [Race.launch, setPc_other _ heq, heq]
  -- no other lane has a client of this carrier
  have hother : ∀ {i : Nat} {held : AutoRoute} {c : Nat}, (s.pc i).client = some (held, c) →
      held.carrier ≠ route.carrier := by
    intro i held c hheld hcarrier
    obtain rfl := h.lane_eq hapart hheld hl hroute hcarrier
    rw [hlane] at hheld
    cases hheld
  refine
    { placed := ?_
      table := ?_
      foreign := fun hover => absurd hrace hover
      made := ?_
      alone := ?_
      newest := ?_
      won := ?_
      kept := ?_ }
  · intro i
    by_cases heq : i = lane
    · subst heq
      exact .inr ⟨l, hl, by simpa [Race.launch, Pc.due] using hroutes⟩
    · simpa only [Race.launch, setPc_other _ heq] using h.placed i
  · intro _ route' client
    have hget : (Race.launch lane route rest s).shared.autoInFlight.get route' =
        if route' = route then some (.own s.made) else s.shared.autoInFlight.get route' :=
      LinkedMap.get_put
    simp only [hclient, hget]
    split
    next heq =>
      subst heq
      constructor
      · intro hmade
        exact ⟨lane, s.made, (Option.some.inj hmade).symm, .inl ⟨rfl, rfl⟩⟩
      · rintro ⟨i, c, rfl, ⟨-, hfound⟩ | ⟨-, hheld⟩⟩
        · rw [(Prod.mk.inj hfound).2]
        · exact absurd rfl (hother hheld)
    next hne =>
      rw [h.table hrace]
      constructor
      · rintro ⟨i, c, hc, hheld⟩
        refine ⟨i, c, hc, .inr ⟨?_, hheld⟩⟩
        rintro rfl
        rw [hlane] at hheld
        cases hheld
      · rintro ⟨i, c, hc, ⟨-, hfound⟩ | ⟨-, hheld⟩⟩
        · exact absurd (Prod.mk.inj hfound).1 hne
        · exact ⟨i, c, hc, hheld⟩
  · intro i route' c hheld
    rcases hclient.1 hheld with ⟨-, hfound⟩ | ⟨-, hheld⟩
    · rw [(Prod.mk.inj hfound).2]
      exact Nat.lt_succ_self _
    · exact Nat.lt_succ_of_lt (h.made i route' c hheld)
  · intro i j route₁ route₂ c hi hj
    rcases hclient.1 hi with ⟨rfl, hfound⟩ | ⟨-, hheld⟩ <;> rcases hclient.1 hj with ⟨rfl, hfound'⟩ | ⟨-, hheld'⟩
    · rfl
    · have hlt := h.made j route₂ c hheld'
      rw [(Prod.mk.inj hfound).2] at hlt
      exact absurd hlt (Nat.lt_irrefl _)
    · have hlt := h.made i route₁ c hheld
      rw [(Prod.mk.inj hfound').2] at hlt
      exact absurd hlt (Nat.lt_irrefl _)
    · exact h.alone i j route₁ route₂ c hheld hheld'
  · intro _ i route' c hheld
    rcases hclient.1 hheld with ⟨-, hfound⟩ | ⟨-, hheld⟩
    · cases hfound
      exact Function.update_self ..
    · exact (Function.update_of_ne (hother hheld) ..).trans (h.newest hrace i route' c hheld)
  · intro w hw
    obtain ⟨hmade, hlatest, i, l', hl', hroute', hended⟩ := h.won w hw
    have hne : i ≠ lane := by
      rintro rfl
      exact hrunning hended
    have hcarrier : w.route.carrier ≠ route.carrier := fun heq =>
      hne (hapart.carriers i lane l' l hl' hl w.route hroute' route hroute heq)
    exact ⟨Nat.lt_succ_of_lt hmade, (Function.update_of_ne hcarrier ..).trans hlatest, i, l', hl', hroute',
      (setPc_other _ hne).trans hended⟩
  · intro c hc hruns
    rcases Nat.lt_succ_iff_lt_or_eq.1 hc with hold | rfl
    · rcases h.kept c hold hruns with ⟨-, i, route', hheld⟩ | hwon
      · refine .inl ⟨hrace, i, route', hclient.2 (.inr ⟨?_, hheld⟩)⟩
        rintro rfl
        rw [hlane] at hheld
        cases hheld
      · exact .inr hwon
    · exact .inl ⟨hrace, lane, route, hclient.2 (.inl ⟨rfl, rfl⟩)⟩

/-- **A lane that goes on from the head of its loop.** -/
theorem Clients.turn (h : Clients lanes s) (hapart : Apart lanes) (hrace : s.race = .awaiting)
    (hturn : turn lanes lane s = some s') : Clients lanes s' := by
  have hplaced := h.placed lane
  unfold Race.turn at hturn
  split at hturn
  -- no route is left: the lane ends its loop
  next hpc =>
    rw [hpc] at hplaced
    obtain ⟨l, hl, -⟩ := hplaced.resolve_left (by simp)
    cases hturn
    exact h.finish (by rw [hpc]; rfl) hl
  next route rest hpc =>
    rw [hpc] at hplaced
    obtain ⟨l, hl, hroutes⟩ := hplaced.resolve_left (by simp)
    have hnone : (s.pc lane).client = none := by rw [hpc]; rfl
    have hrunning : s.pc lane ≠ .ended := by simp [hpc]
    -- a winner or an old session ends the loop; the engine waits for a stale one; else a client is made
    split_ifs at hturn
    · cases hturn
      exact h.finish hnone hl
    · cases hturn
      exact h.setPc hnone rfl (.inl hrunning) (.inr ⟨l, hl, hroutes⟩)
    · cases hturn
      exact h.launch hapart hrace hl hroutes hnone hrunning
  next => cases hturn

/-- A lane lets go of its client: it has been stopped, or it wins. -/
theorem Clients.drop (h : Clients lanes s) (hrace : s.race = .awaiting)
    (hheld : (s.pc lane).client = some (route, client)) {pc : Pc} (hnone : pc.client = none)
    (hplaced : pc = .waiting ∨ ∃ l, lanes[lane]? = some l ∧ ∀ route ∈ pc.due, route ∈ l.routes)
    (hpc : s'.pc = Function.update s.pc lane pc) (hrace' : s'.race = .awaiting)
    (htable : s'.shared.autoInFlight = s.shared.autoInFlight.erase route) (hmade : s'.made = s.made)
    (hlatest : s'.latest = s.latest) (hstopped : ∀ c, s'.stopped c = false → s.stopped c = false)
    (hend : s'.stopped client = true ∧ s'.winner = s.winner ∨
      pc = .ended ∧ s.winner = none ∧ ∃ port, s'.winner = some (some { route, client, port })) :
    Clients lanes s' := by
  have hclient : ∀ {i : Nat} {found : AutoRoute × Nat},
      (s'.pc i).client = some found ↔ i ≠ lane ∧ (s.pc i).client = some found := by
    intro i found
    rw [hpc]
    exact client_setPc (s := s) hnone
  have hsame : ∀ {i : Nat}, i ≠ lane → s'.pc i = s.pc i := by
    intro i hne
    rw [hpc]
    exact Function.update_of_ne hne ..
  have hlane : s'.pc lane = pc := by
    rw [hpc]
    exact Function.update_self ..
  refine
    { placed := ?_
      table := ?_
      foreign := fun hover => absurd hrace' hover
      made := fun i route' c hi => hmade ▸ h.made i route' c (hclient.1 hi).2
      alone := fun i j r₁ r₂ c hi hj => h.alone i j r₁ r₂ c (hclient.1 hi).2 (hclient.1 hj).2
      newest := fun _ i route' c hi => hlatest ▸ h.newest hrace i route' c (hclient.1 hi).2
      won := ?_
      kept := ?_ }
  · intro i
    by_cases heq : i = lane
    · subst heq
      rwa [hlane]
    · rw [hsame heq]
      exact h.placed i
  · intro _ route' held
    simp only [htable, LinkedMap.get_erase, hclient]
    split
    next heq =>
      subst heq
      constructor
      · rintro ⟨⟩
      · rintro ⟨i, c, rfl, hne, hheld'⟩
        -- the table has one client for a route
        have hfound := (h.table hrace route' _).2 ⟨i, c, rfl, hheld'⟩
        rw [(h.table hrace route' _).2 ⟨lane, client, rfl, hheld⟩] at hfound
        cases hfound
        exact absurd (h.alone i lane _ _ _ hheld' hheld) hne
    next hne =>
      rw [h.table hrace]
      constructor
      · rintro ⟨i, c, hc, hheld'⟩
        refine ⟨i, c, hc, ?_, hheld'⟩
        rintro rfl
        rw [hheld] at hheld'
        cases hheld'
        exact hne rfl
      · rintro ⟨i, c, hc, -, hheld'⟩
        exact ⟨i, c, hc, hheld'⟩
  · intro w hw
    have hold : ∀ w, s.winner = some (some w) → w.client < s'.made ∧
        s'.latest w.route.carrier = some (.own w.client) ∧
        ∃ i l, lanes[i]? = some l ∧ w.route ∈ l.routes ∧ s'.pc i = .ended := by
      intro w hw
      obtain ⟨hlt, hnew, i, l, hl, hroute, hended⟩ := h.won w hw
      have hne : i ≠ lane := by
        rintro rfl
        rw [hended] at hheld
        cases hheld
      exact ⟨hmade ▸ hlt, hlatest ▸ hnew, i, l, hl, hroute, (hsame hne).trans hended⟩
    rcases hend with ⟨-, heq⟩ | ⟨rfl, -, port, heq⟩
    · exact hold w (heq ▸ hw)
    · rw [heq] at hw
      cases hw
      rcases h.placed lane with hwaiting | ⟨l, hl, hdue⟩
      · rw [hwaiting] at hheld
        cases hheld
      · exact ⟨hmade ▸ h.made lane route client hheld, hlatest ▸ h.newest hrace lane route client hheld, lane, l,
          hl, hdue route (due_of_client hheld), hlane⟩
  · intro c hc hruns
    rcases h.kept c (hmade ▸ hc) (hstopped c hruns) with ⟨-, i, route', hheld'⟩ | ⟨w, hw, hwc⟩
    · by_cases heq : i = lane
      · subst heq
        rw [hheld] at hheld'
        cases hheld'
        rcases hend with ⟨hstop, -⟩ | ⟨-, -, port, hwin⟩
        · rw [hstop] at hruns
          cases hruns
        · exact .inr ⟨_, hwin, rfl⟩
      · exact .inl ⟨hrace', i, route', hclient.2 ⟨heq, hheld'⟩⟩
    · rcases hend with ⟨-, heq⟩ | ⟨-, hnone, -⟩
      · exact .inr ⟨w, heq.trans hw, hwc⟩
      · rw [hnone] at hw
        cases hw

/-- While the race waits, a client that is let go of leaves the table, and is stopped unless it is kept. -/
theorem release_awaiting (h : Clients lanes s) (hrace : s.race = .awaiting)
    (hheld : (s.pc lane).client = some (route, client)) (kept : Bool) :
    ∃ shared, shared.autoInFlight = s.shared.autoInFlight.erase route ∧
      release route client kept s =
        { s with shared := shared, stopped := if kept then s.stopped else Function.update s.stopped client true } := by
  have hfound : s.shared.autoInFlight.get route = some (.own client) :=
    (h.table hrace route _).2 ⟨lane, client, rfl, hheld⟩
  have hsettled : ∀ shared, State.settled { s with shared := shared } = false := by
    intro shared
    simp [State.settled, hrace]
  unfold release
  simp only [hfound, if_true, hsettled, Bool.false_eq_true, if_false]
  cases kept with
  | true => exact ⟨_, rfl, rfl⟩
  | false => exact ⟨_, rfl, rfl⟩

theorem Clients.giveUp (h : Clients lanes s) (hapart : Apart lanes) (hrace : s.race = .awaiting)
    (hheld : (s.pc lane).client = some (route, client)) (hdue : (s.pc lane).due = route :: rest)
    (hstep : giveUp lanes lane route client rest s = some s') : Clients lanes s' := by
  obtain ⟨shared, htable, hrelease⟩ := release_awaiting h hrace hheld false
  have hplaced : ∃ l, lanes[lane]? = some l ∧ ∀ r ∈ (Pc.looping rest).due, r ∈ l.routes := by
    rcases h.placed lane with hwaiting | ⟨l, hl, hroutes⟩
    · rw [hwaiting] at hheld
      cases hheld
    · exact ⟨l, hl, fun r hr => hroutes r (hdue ▸ List.mem_cons_of_mem _ hr)⟩
  have hdropped : Clients lanes ((release route client false s).setPc lane (.looping rest)) := by
    rw [hrelease]
    refine h.drop hrace hheld rfl (.inr hplaced) rfl hrace htable rfl rfl ?_ (.inl ⟨Function.update_self .., rfl⟩)
    intro c hc
    by_cases heq : c = client
    · subst heq
      simp [State.setPc] at hc
    · simpa [State.setPc, heq] using hc
  refine hdropped.turn hapart ?_ hstep
  rw [hrelease]
  exact hrace

/-- **What the race leaves when it is settled.** -/
theorem Clients.settle (h : Clients lanes s) (hapart : Apart lanes) (hrace : s.race = .awaiting)
    {result : Option Winner} (hresult : result = none ∨ s.winner = some result) {race : Standing}
    (hover : race ≠ .awaiting) : Clients lanes (settle lanes race result s) where
  placed := h.placed
  table hawaiting := absurd hawaiting hover
  foreign _ route c := by
    simp [Race.settle, LinkedMap.get_empty]
  made := h.made
  alone := h.alone
  newest hawaiting := absurd hawaiting hover
  won := h.won
  kept c hc hruns := by
    obtain ⟨hold, hkept⟩ : s.stopped c = false ∧ ∀ entry ∈ losers result s, entry.2 ≠ .own c := by
      simpa [Race.settle] using hruns
    rcases h.kept c hc hold with ⟨-, i, route, hheld⟩ | hwon
    · -- a client that is held is in the table, and loses
      have hentry : (route, Client.own c) ∈ s.shared.autoInFlight.entries :=
        LinkedMap.get_eq_some_iff.1 ((h.table hrace route _).2 ⟨i, c, rfl, hheld⟩)
      -- a client that is not the winner's is among the losers, which are stopped
      by_cases hloses : some route ≠ result.map Winner.route
      · exact absurd rfl (hkept _ (List.mem_filter.2 ⟨hentry, by simpa using hloses⟩))
      · obtain ⟨w, rfl, rfl⟩ := Option.map_eq_some_iff.1 (not_not.1 hloses).symm
        -- the lane of the winner has ended, so it holds no client
        obtain ⟨-, -, j, l, hl, hroute, hended⟩ := h.won w (hresult.resolve_left (by simp))
        obtain rfl := h.lane_eq hapart hheld hl hroute rfl
        rw [hended] at hheld
        cases hheld
    · exact .inr hwon

/-- What lanes do when the race is over. -/
theorem Clients.after (h : Clients lanes s) (hover : s.race ≠ .awaiting) {pc : Nat → Pc}
    (hpc : s'.pc = pc) (hpcs : ∀ i, pc i = s.pc i ∨ pc i = .ended ∧ i < lanes.length)
    (hrace : s'.race = s.race) (htable : ∀ route c, s'.shared.autoInFlight.get route ≠ some (.own c))
    (hmade : s'.made = s.made) (hlatest : s'.latest = s.latest) (hwinner : s'.winner = s.winner)
    (hstopped : ∀ c, s'.stopped c = false → s.stopped c = false) : Clients lanes s' := by
  subst hpc
  -- a lane that has ended holds no client; the others hold what they held
  have hclient : ∀ {i : Nat} {found : AutoRoute × Nat}, (s'.pc i).client = some found →
      (s.pc i).client = some found := by
    intro i found hfound
    rcases hpcs i with hsame | ⟨hended, -⟩
    · rwa [← hsame]
    · rw [hended] at hfound
      cases hfound
  refine
    { placed := ?_
      -- the race is over, so the claims about a race that is on say nothing
      table := fun hawaiting => absurd (hrace ▸ hawaiting) hover
      foreign := fun _ => htable
      made := fun i route c hi => hmade ▸ h.made i route c (hclient hi)
      alone := fun i j r₁ r₂ c hi hj => h.alone i j r₁ r₂ c (hclient hi) (hclient hj)
      newest := fun hawaiting => absurd (hrace ▸ hawaiting) hover
      won := ?_
      kept := ?_ }
  · intro i
    rcases hpcs i with hsame | ⟨hended, hplaced⟩
    · rw [hsame]
      exact h.placed i
    · exact .inr ⟨lanes[i], List.getElem?_eq_getElem hplaced, by simp [hended, Pc.due]⟩
  · intro w hw
    obtain ⟨hlt, hnew, i, l, hl, hroute, hended⟩ := h.won w (hwinner ▸ hw)
    refine ⟨hmade ▸ hlt, hlatest ▸ hnew, i, l, hl, hroute, ?_⟩
    rcases hpcs i with hsame | ⟨hended', -⟩
    · exact hsame.trans hended
    · exact hended'
  · intro c hc hruns
    -- what still runs is the winner's
    rcases h.kept c (hmade ▸ hc) (hstopped c hruns) with ⟨hawaiting, -⟩ | ⟨w, hw, hwc⟩
    · exact absurd hawaiting hover
    · exact .inr ⟨w, hwinner.trans hw, hwc⟩

theorem ended_or (hlane : lane < lanes.length) (i : Nat) :
    Function.update s.pc lane .ended i = s.pc i ∨
      Function.update s.pc lane .ended i = .ended ∧ i < lanes.length := by
  by_cases heq : i = lane
  · subst heq
    exact .inr ⟨Function.update_self .., hlane⟩
  · exact .inl (Function.update_of_ne heq ..)

/-- When the race is over, a lane that ends finds none of its clients in the table. -/
theorem release_over (h : Clients lanes s) (hover : s.race ≠ .awaiting) (route : AutoRoute) (client : Nat) :
    release route client false s = s ∧ s.laterSettled = false ∨
      s.laterSettled = true ∧
        release route client false s =
          { s.stop client with
            shared :=
              { s.shared with autoTrying := s.shared.autoTrying.erase route }.setAutoStage route.carrier .failed } := by
  unfold release
  simp only [h.foreign hover route client, if_false]
  cases hlater : s.laterSettled with
  | false =>
      left
      simp [State.settled, hover, hlater]
  | true =>
      right
      simp [State.settled, hlater, State.stop]

/-- **What one step keeps of the clients.** -/
theorem Clients.step (h : Clients lanes s) (hapart : Apart lanes) {l : Label}
    (hmoves : Moves lanes s l s') : Clients lanes s' := by
  -- by the step
  cases hmoves with
  | tick => exact { h with }
  -- the lane waits no more, and what it dials next is a turn of its own
  | @begin lane l _ hl hrace hpc hstart hturn =>
      have hlooping : Clients lanes (s.setPc lane (.looping l.routes)) :=
        h.setPc (by rw [hpc]; rfl) rfl (.inl (by simp [hpc])) (.inr ⟨l, hl, fun _ hr => hr⟩)
      have hbegun : Clients lanes
          { s.setPc lane (.looping l.routes) with begun := Function.update s.begun lane true } :=
        { hlooping with }
      exact hbegun.turn hapart hrace hturn
  -- a note changes nothing that is said of clients
  | @stale lane route rest _ hrace hpc hturn =>
      have hnoted : Clients lanes (s.note route .engineNotStopped) := { h with }
      exact (hnoted.loop hpc).turn hapart hrace hturn
  | outdated hrace hpc hcurrent hturn =>
      have hcleared : Clients lanes { s with shared := { s.shared with staleEngine := none } } := { h with }
      exact (hcleared.loop hpc).turn hapart hrace hturn
  | @joined lane route rest hrace hpc hcurrent =>
      have hcleared : Clients lanes { s with shared := { s.shared with staleEngine := none } } := { h with }
      -- the lane has a place in the plan
      obtain ⟨l, hl, hroutes⟩ := (h.placed lane).resolve_left (by simp [hpc])
      rw [hpc] at hroutes
      exact hcleared.launch hapart hrace hl hroutes (by rw [hpc]; rfl) (by simp [hpc])
  | @failed _ lane client route rest _ _ hrace hheld hdue failure hturn =>
      have hnoted : Clients lanes (s.note route failure) := { h with }
      exact hnoted.giveUp hapart hrace hheld hdue hturn
  | dropped _ hrace hheld hdue hcurrent hturn => exact h.giveUp hapart hrace hheld hdue hturn
  | started hrace hpc hcurrent => exact h.same (by rw [hpc]; rfl) (by rw [hpc]; rfl) (by simp [Pc.client])
  | @late lane client port route rest hrace hpc hdecided =>
      have hheld : (s.pc lane).client = some (route, client) := by rw [hpc]; rfl
      -- the route and the client that the lane holds
      obtain ⟨shared, htable, hrelease⟩ := release_awaiting h hrace hheld true
      rw [hrelease]
      refine h.drop hrace hheld rfl (.inr (h.lane_some hheld)) rfl hrace htable rfl rfl ?_
        (.inl ⟨Function.update_self .., rfl⟩)
      intro c hc
      -- it is stopped with the release, and the others are as they were
      by_cases heq : c = client
      · subst heq
        simp [State.stop] at hc
      · simpa [State.stop, State.setPc, heq] using hc
  | @wins lane client port route rest hrace hpc hundecided =>
      have hheld : (s.pc lane).client = some (route, client) := by rw [hpc]; rfl
      obtain ⟨shared, htable, hrelease⟩ := release_awaiting h hrace hheld true
      rw [hrelease]
      exact h.drop hrace hheld rfl (.inr (h.lane_some hheld)) rfl hrace htable rfl rfl (fun c hc => hc)
        (.inr ⟨rfl, hundecided, port, rfl⟩)
  | lost hrace hwinner => exact h.settle hapart hrace (.inl rfl) (by simp)
  | heard hrace hwinner hcurrent => exact h.settle hapart hrace (.inr hwinner) (by simp)
  | @unheard w hrace hwinner hcurrent =>
      have hsettled : Clients lanes (Race.settle lanes (.returned (some w)) (some w) s) :=
        h.settle hapart hrace (.inr hwinner) (by simp)
      refine hsettled.after (by simp [Race.settle]) rfl (fun i => .inl rfl) rfl
        (hsettled.foreign (by simp [Race.settle])) rfl rfl rfl fun c hc => ?_
      -- the winner that nobody heard of is stopped
      by_cases heq : c = w.client
      · subst heq
        simp [State.stop] at hc
      · simpa [State.stop, heq] using hc
  | cancel hrace => exact h.settle hapart hrace (.inl rfl) (by simp)
  | @released lane client route hover hlane hheld =>
      rcases release_over h hover route client with ⟨hsame, -⟩ | ⟨-, hlate⟩
      · rw [hsame]
        exact h.after hover rfl (ended_or hlane) rfl (h.foreign hover) rfl rfl rfl fun c hc => hc
      -- a later race has settled, and the client is stopped
      · rw [hlate]
        refine h.after hover rfl (ended_or hlane) rfl (h.foreign hover) rfl rfl rfl fun c hc => ?_
        by_cases heq : c = client
        · subst heq
          simp [State.stop, State.setPc] at hc
        · simpa [State.stop, State.setPc, heq] using hc
  | unwound hover hlane hnone hrunning =>
      exact h.after hover rfl (ended_or hlane) rfl (h.foreign hover) rfl rfl rfl fun c hc => hc
  | replace => exact { h with }
  | stopCarrier =>
      exact
        { h with
          -- what is stopped stays so
          kept := fun c hc hruns => h.kept c hc (Bool.or_eq_false_iff.1 hruns).1 }
  | elsewhere hover hforeign =>
      refine h.after hover rfl (fun i => .inl rfl) rfl ?_ rfl rfl rfl fun c hc => hc
      intro route c hget
      cases hforeign _ (LinkedMap.get_eq_some_iff.1 hget)

end Clients

/-! ## How the lanes hand on -/

section Hands

variable {lanes : List Lane} {s s' : State} {lane client : Nat} {route : AutoRoute} {rest : List AutoRoute}

/-- What has begun and what has run out. -/
structure Hands (lanes : List Lane) (s : State) : Prop where
  ended : ∀ i, s.finished i = true → s.pc i = .ended
  waits : s.race = .awaiting → ∀ i, s.begun i = false → s.pc i = .waiting
  unfinished : s.race = .awaiting → s.winner = none → ∀ i, s.pc i = .ended → s.finished i = true
  early : ∀ i j l, i < j → lanes[j]? = some l → s.begun j = true → s.elapsedMs < l.startAfterMs →
    s.finished i = true
  lost : s.winner = some none → ∀ i < lanes.length, s.finished i = true
  heard : ∀ result, s.race = .returned result → s.winner = some result

/-- Some lane is at work until there is an answer. -/
def Working (lanes : List Lane) (s : State) : Prop :=
  s.race = .awaiting → s.winner = none → ∃ i < lanes.length, s.pc i ≠ .ended

theorem Hands.begun (h : Hands lanes s) (hrace : s.race = .awaiting) (hpc : s.pc lane ≠ .waiting) :
    s.begun lane = true := by
  by_contra hnot
  exact hpc (h.waits hrace lane (by simpa using hnot))

/-- A lane that goes on from one place to another. -/
theorem Hands.move (h : Hands lanes s) {pc : Pc} (hrace : s.race = .awaiting)
    (hold : s.pc lane ≠ .waiting) (hrunning : s.pc lane ≠ .ended) (hpc : s'.pc = Function.update s.pc lane pc)
    (hended : pc = .ended → s'.winner ≠ none) (hbegun : s'.begun = s.begun) (hfinished : s'.finished = s.finished)
    (helapsed : s'.elapsedMs = s.elapsedMs) (hrace' : s'.race = s.race)
    (hwinner : s'.winner = s.winner ∨ ∃ w, s'.winner = some (some w)) : Hands lanes s' := by
  -- the other lanes stand where they stood
  have hother : ∀ {i : Nat}, i ≠ lane → s'.pc i = s.pc i := by
    intro i hne
    rw [hpc]
    exact Function.update_of_ne hne ..
  have hlane : s'.pc lane = pc := by
    rw [hpc]
    exact Function.update_self ..
  refine
    { ended := ?_
      waits := ?_
      unfinished := ?_
      early := ?_
      lost := ?_
      heard := ?_ }
  -- whoever has handed on has ended, and this lane runs
  · intro i hi
    rw [hfinished] at hi
    have hne : i ≠ lane := by
      rintro rfl
      exact hrunning (h.ended i hi)
    rw [hother hne]
    exact h.ended i hi
  · intro hawaiting i hi
    rw [hbegun] at hi
    have hne : i ≠ lane := by
      rintro rfl
      exact hold (h.waits hrace i hi)
    rw [hother hne]
    exact h.waits hrace i hi
  -- still no winner: there was none before
  · intro hawaiting hnone i hi
    have hundecided : s.winner = none := by
      rcases hwinner with hsame | ⟨w, hw⟩
      · rw [← hsame, hnone]
      · rw [hw] at hnone
        cases hnone
    rw [hfinished]
    by_cases heq : i = lane
    · subst heq
      exact absurd hnone (hended (hlane.symm.trans hi))
    · rw [hother heq] at hi
      exact h.unfinished hrace hundecided i hi
  · rw [hbegun, hfinished, helapsed]
    exact h.early
  · intro hlost
    rw [hfinished]
    rcases hwinner with hsame | ⟨w, hw⟩
    · exact h.lost (hsame ▸ hlost)
    · rw [hw] at hlost
      cases hlost
  · intro result hresult
    rw [hrace', hrace] at hresult
    cases hresult

theorem mem_range_of_find {p : Nat → Bool} {n next : Nat} (h : (List.range n).find? p = some next) :
    next < n ∧ p next = true ∧ ∀ i < next, p i = false := by
  rw [List.find?_range_eq_some] at h
  obtain ⟨hp, hmem, hbefore⟩ := h
  exact ⟨List.mem_range.1 hmem, hp, fun i hi => by simpa using hbefore i hi⟩

theorem Hands.handOn (h : Hands lanes s) : Hands lanes (handOn lanes s) := by
  unfold Race.handOn
  -- a lane is still at work, or all that began have handed on
  split
  next => exact h
  next hidle =>
    have hdone : ∀ i < lanes.length, s.begun i = true → s.finished i = true := by
      intro i hi hbegun
      by_contra hnot
      exact hidle (List.any_eq_true.2 ⟨i, List.mem_range.2 hi, by simp [hbegun, hnot]⟩)
    split
    -- the next lane begins, and all before it have handed on
    next next hfind =>
      obtain ⟨hlt, -, hbefore⟩ := mem_range_of_find hfind
      refine { h with waits := ?_, early := ?_ }
      · intro hrace i hi
        refine h.waits hrace i ?_
        by_cases heq : i = next
        · subst heq
          simp at hi
        · simpa [heq] using hi
      · intro i j l hij hl hbegun hstart
        by_cases heq : j = next
        · subst heq
          exact hdone i (hij.trans hlt) (by simpa using hbefore i hij)
        · exact h.early i j l hij hl (by simpa [heq] using hbegun) hstart
    -- no lane is left: the race is lost, unless it is decided
    next hnone =>
      have hall : ∀ i < lanes.length, s.finished i = true := by
        intro i hi
        refine hdone i hi ?_
        simpa using List.find?_eq_none.1 hnone i (List.mem_range.2 hi)
      unfold State.complete
      split
      next => exact h
      next hundecided =>
        refine { h with unfinished := fun _ hw => ?_, lost := fun _ => hall, heard := ?_ }
        · cases hw
        · intro result hresult
          have hsome := h.heard result hresult
          rw [hsome] at hundecided
          exact absurd rfl hundecided

theorem Hands.leave (h : Hands lanes s) (hrace : s.race = .awaiting) (hold : s.pc lane ≠ .waiting) :
    Hands lanes { s.setPc lane .ended with finished := Function.update s.finished lane true } := by
  have hbegun := h.begun hrace hold
  refine
    { ended := ?_
      waits := ?_
      unfinished := ?_
      early := fun i j l hij hl hj hstart => ?_
      lost := fun hlost i hi => ?_
      heard := h.heard }
  -- lane by lane: the one that leaves, and the others
  · intro i hi
    by_cases heq : i = lane
    · subst heq
      exact setPc_same _
    · rw [show (s.setPc lane .ended).pc i = s.pc i from setPc_other _ heq]
      exact h.ended i (by simpa [heq] using hi)
  · intro _ i hi
    have hne : i ≠ lane := by
      rintro rfl
      rw [show (s.setPc i .ended).begun i = s.begun i from rfl, hbegun] at hi
      cases hi
    exact (setPc_other _ hne).trans (h.waits hrace i hi)
  · intro _ hnone i hi
    by_cases heq : i = lane
    · subst heq
      exact Function.update_self ..
    · rw [show (s.setPc lane .ended).pc i = s.pc i from setPc_other _ heq] at hi
      simpa [heq] using h.unfinished hrace hnone i hi
  · by_cases heq : i = lane
    · subst heq
      exact Function.update_self ..
    · simpa [heq] using h.early i j l hij hl hj hstart
  · by_cases heq : i = lane
    · subst heq
      exact Function.update_self ..
    · simpa [heq] using h.lost hlost i hi

/-- **Where there is no answer, the lane that ran out has handed on**, unless another is at work. -/
theorem Hands.working (h : Hands lanes s) : Working lanes (Race.handOn lanes s) := by
  intro hrace hnone
  unfold Race.handOn at hrace hnone ⊢
  split at hrace
  -- a lane is at work, and a lane at work has not ended
  next hbusy =>
    rw [if_pos hbusy] at hnone ⊢
    obtain ⟨i, hi, hbegun⟩ := List.any_eq_true.1 hbusy
    refine ⟨i, List.mem_range.1 hi, fun hended => ?_⟩
    simp [h.unfinished hrace hnone i hended] at hbegun
  next hidle =>
    rw [if_neg hidle] at hnone ⊢
    split at hrace
    -- the next lane is begun, so it is at work
    next next hfind =>
      obtain ⟨hlt, hnext, -⟩ := mem_range_of_find hfind
      refine ⟨next, hlt, ?_⟩
      change s.pc next ≠ .ended
      rw [h.waits hrace next (by simpa using hnext)]
      simp
    -- no lane is left: the race is answered
    next hfind =>
      simp only [hfind, State.complete] at hnone
      split at hnone
      next hsome =>
        rw [hnone] at hsome
        cases hsome
      next => cases hnone

theorem Hands.turn (h : Hands lanes s) (hrace : s.race = .awaiting) (hlane : lane < lanes.length)
    (hturn : turn lanes lane s = some s') : Hands lanes s' ∧ Working lanes s' := by
  unfold Race.turn at hturn
  split at hturn
  next hpc =>
    -- the lane runs out of routes and hands on
    cases hturn
    have hold : s.pc lane ≠ .waiting := by simp [hpc]
    have hleft := h.leave hrace hold
    exact ⟨hleft.handOn, hleft.working⟩
  next route rest hpc =>
    have hold : s.pc lane ≠ .waiting := by simp [hpc]
    have hrunning : s.pc lane ≠ .ended := by simp [hpc]
    split_ifs at hturn
    -- the same, but with routes left: the race has a winner or the session is over
    · cases hturn
      have hleft := h.leave hrace hold
      exact ⟨hleft.handOn, hleft.working⟩
    -- the lane goes on itself, so it is at work
    · cases hturn
      exact ⟨h.move hrace hold hrunning rfl (by simp) rfl rfl rfl rfl (.inl rfl),
        fun _ _ => ⟨lane, hlane, by simp⟩⟩
    · cases hturn
      exact ⟨h.move hrace hold hrunning rfl (by simp) rfl rfl rfl rfl (.inl rfl),
        fun _ _ => ⟨lane, hlane, by simp [launch]⟩⟩
  next => cases hturn

/-- What a lane lets go of has nothing to do with how the lanes hand on. -/
theorem Hands.release (h : Hands lanes s) (route : AutoRoute) (client : Nat) (kept : Bool) :
    Hands lanes (release route client kept s) := by
  unfold Race.release
  split <;> dsimp only <;> split
  · exact { h with }
  · cases kept <;> exact { h with }
  · exact { h with }
  · cases kept <;> exact { h with }

theorem release_fields (route : AutoRoute) (client : Nat) (kept : Bool) :
    (release route client kept s).pc = s.pc ∧ (release route client kept s).race = s.race := by
  unfold release
  split <;> dsimp only <;> split <;> first | exact ⟨rfl, rfl⟩ | (cases kept <;> exact ⟨rfl, rfl⟩)

theorem Hands.drop (h : Hands lanes s) (hrace : s.race = .awaiting)
    (hheld : (s.pc lane).client = some (route, client)) :
    Hands lanes ((Race.release route client false s).setPc lane (.looping rest)) := by
  obtain ⟨hpcs, hsame⟩ := release_fields (s := s) route client false
  have hne : ∀ {pc : Pc}, pc.client = none → (Race.release route client false s).pc lane ≠ pc := by
    intro pc hnone hpc
    rw [← hpcs, hpc, hnone] at hheld
    cases hheld
  exact (h.release route client false).move (hsame.trans hrace) (hne rfl) (hne rfl) rfl (by simp) rfl rfl rfl rfl
    (.inl rfl)

theorem Hands.giveUp (h : Hands lanes s) (hrace : s.race = .awaiting) (hlane : lane < lanes.length)
    (hheld : (s.pc lane).client = some (route, client))
    (hturn : giveUp lanes lane route client rest s = some s') : Hands lanes s' ∧ Working lanes s' :=
  (h.drop hrace hheld).turn ((release_fields route client false).2.trans hrace) hlane hturn

theorem Hands.loop (h : Hands lanes s) (hrace : s.race = .awaiting) (hpc : s.pc lane = .joining route rest) :
    Hands lanes (s.setPc lane (.looping rest)) :=
  h.move hrace (by simp [hpc]) (by simp [hpc]) rfl (by simp) rfl rfl rfl rfl (.inl rfl)

theorem Hands.begin (h : Hands lanes s) {l : Lane} (hl : lanes[lane]? = some l) (hrace : s.race = .awaiting)
    (hpc : s.pc lane = .waiting) (hstart : s.begun lane = true ∨ l.startAfterMs ≤ s.elapsedMs) :
    Hands lanes { s.setPc lane (.looping l.routes) with begun := Function.update s.begun lane true } := by
  have hother : ∀ {i : Nat}, i ≠ lane → (s.setPc lane (.looping l.routes)).pc i = s.pc i :=
    fun hne => setPc_other _ hne
  refine
    { ended := ?_
      waits := ?_
      unfinished := ?_
      early := ?_
      lost := h.lost
      heard := h.heard }
  -- the lane that begins was waiting, and has not ended
  · intro i hi
    have hne : i ≠ lane := by
      rintro rfl
      have hended := h.ended i hi
      rw [hpc] at hended
      cases hended
    exact (hother hne).trans (h.ended i hi)
  · intro _ i hi
    have hne : i ≠ lane := by
      rintro rfl
      simp at hi
    exact (hother hne).trans (h.waits hrace i (by simpa [hne] using hi))
  · intro _ hnone i hi
    have hne : i ≠ lane := by
      rintro rfl
      rw [show (s.setPc i (.looping l.routes)).pc i = _ from setPc_same _] at hi
      cases hi
    exact h.unfinished hrace hnone i ((hother hne).symm.trans hi)
  -- its time has come, or the lanes before it have handed on
  · intro i j l' hij hl' hj hbefore
    by_cases heq : j = lane
    · subst heq
      rw [hl] at hl'
      cases hl'
      rcases hstart with hbegun | hle
      · exact h.early i j l hij hl hbegun hbefore
      · exact absurd hbefore (Nat.not_lt.2 hle)
    · exact h.early i j l' hij hl' (by simpa [heq] using hj) hbefore

theorem Hands.settle (h : Hands lanes s) {race : Standing} {result : Option Winner} (hover : race ≠ .awaiting)
    (hheard : ∀ answer, race = .returned answer → s.winner = some answer) :
    Hands lanes (settle lanes race result s) :=
  { h with
    waits := fun hrace => absurd hrace hover
    unfinished := fun hrace => absurd hrace hover
    heard := hheard }

theorem Hands.unwind (h : Hands lanes s) (hover : s.race ≠ .awaiting) : Hands lanes (s.setPc lane .ended) := by
  refine
    { h with
      ended := ?_
      waits := fun hrace => absurd hrace hover
      unfinished := fun hrace => absurd hrace hover }
  intro i hi
  by_cases heq : i = lane
  · subst heq
    exact setPc_same _
  · exact (setPc_other _ heq).trans (h.ended i hi)

/-- **What one step keeps of the hands.** -/
theorem Hands.step (h : Hands lanes s) (hworking : Working lanes s) (hclients : Clients lanes s) {l : Label}
    (hmoves : Moves lanes s l s') : Hands lanes s' ∧ Working lanes s' := by
  -- a lane that waits no more is one of the plan
  have hin : ∀ {lane : Nat}, s.pc lane ≠ .waiting → lane < lanes.length := by
    intro lane hpc
    obtain ⟨l, hl, -⟩ := (hclients.placed lane).resolve_left hpc
    exact (List.getElem?_eq_some_iff.1 hl).1
  -- of a race that is over nothing is asked
  have hover : ∀ {t : State}, t.race ≠ .awaiting → Working lanes t := fun hrace hawaiting =>
    absurd hawaiting hrace
  cases hmoves with
  -- time only makes a lane's head start smaller
  | tick ms =>
      have hearly : ∀ i j l, i < j → lanes[j]? = some l → s.begun j = true → s.elapsedMs + ms < l.startAfterMs →
          s.finished i = true := by
        intro i j l hij hl hj hstart
        exact h.early i j l hij hl hj (Nat.lt_of_le_of_lt (Nat.le_add_right _ _) hstart)
      exact ⟨{ h with early := hearly }, hworking⟩
  | @begin lane l _ hl hrace hpc hstart hturn =>
      have hlane := (List.getElem?_eq_some_iff.1 hl).1
      exact (h.begin hl hrace hpc hstart).turn hrace hlane hturn
  | @stale lane route rest _ hrace hpc hturn =>
      have hnoted : Hands lanes (s.note route .engineNotStopped) := { h with }
      exact (hnoted.loop hrace hpc).turn hrace (hin (by simp [hpc])) hturn
  | @outdated lane route rest _ hrace hpc hcurrent hturn =>
      have hcleared : Hands lanes { s with shared := { s.shared with staleEngine := none } } := { h with }
      exact (hcleared.loop hrace hpc).turn hrace (hin (by simp [hpc])) hturn
  -- the lane is at work from here on
  | @joined lane route rest hrace hpc hcurrent =>
      refine ⟨h.move hrace (by simp [hpc]) (by simp [hpc]) rfl (by simp) rfl rfl rfl rfl (.inl rfl), ?_⟩
      intro _ _
      exact ⟨lane, hin (by simp [hpc]), by simp [launch]⟩
  | @failed _ lane client route rest _ _ hrace hheld hdue failure hturn =>
      have hnoted : Hands lanes (s.note route failure) := { h with }
      exact hnoted.giveUp hrace (hin fun hpc => by simp [hpc, Pc.client] at hheld) hheld hturn
  | dropped _ hrace hheld hdue hcurrent hturn =>
      exact h.giveUp hrace (hin fun hpc => by simp [hpc, Pc.client] at hheld) hheld hturn
  | @started lane client port route rest hrace hpc hcurrent =>
      refine ⟨h.move hrace (by simp [hpc]) (by simp [hpc]) rfl (by simp) rfl rfl rfl rfl (.inl rfl), ?_⟩
      intro _ _
      exact ⟨lane, hin (by simp [hpc]), by simp⟩
  | @late lane client port route rest hrace hpc hdecided =>
      obtain ⟨hpcs, hsame⟩ := release_fields (s := s) route client true
      have hwinner := release_winner (s := s) route client true
      -- the race is decided, by whomever
      have hsome : ∀ {t : State}, t.winner = s.winner → t.winner ≠ none := by
        intro t ht hnone
        rw [← ht, hnone] at hdecided
        cases hdecided
      refine ⟨(h.release route client true).move (hsame.trans hrace) (by simp [hpcs, hpc]) (by simp [hpcs, hpc]) rfl
        (fun _ => hsome hwinner) rfl rfl rfl rfl (.inl rfl), fun _ hnone => absurd hnone (hsome hwinner)⟩
  | @wins lane client port route rest hrace hpc hundecided =>
      obtain ⟨hpcs, hsame⟩ := release_fields (s := s) route client true
      refine ⟨(h.release route client true).move (hsame.trans hrace) (by simp [hpcs, hpc]) (by simp [hpcs, hpc]) rfl
        (fun _ => by simp) rfl rfl rfl rfl (.inr ⟨_, rfl⟩), ?_⟩
      rintro _ ⟨⟩
  | lost hrace hwinner => exact ⟨h.settle (by simp) (by simpa using hwinner), hover (by simp [Race.settle])⟩
  | heard hrace hwinner hcurrent =>
      exact ⟨h.settle (by simp) (by simpa using hwinner), hover (by simp [Race.settle])⟩
  | @unheard w hrace hwinner hcurrent =>
      have hsettled : Hands lanes (Race.settle lanes (.returned (some w)) (some w) s) :=
        h.settle (by simp) (by simpa using hwinner)
      exact ⟨{ hsettled with }, hover (by simp [Race.settle, State.stop])⟩
  | cancel hrace => exact ⟨h.settle (by simp) (by simp), hover (by simp [Race.settle])⟩
  | @released lane client route hrace hlane hheld =>
      obtain ⟨hpcs, hsame⟩ := release_fields (s := s) route client false
      have hreleased : (Race.release route client false s).race ≠ .awaiting := by rwa [hsame]
      exact ⟨(h.release route client false).unwind hreleased, hover hreleased⟩
  | unwound hrace hlane hnone hrunning => exact ⟨h.unwind hrace, hover hrace⟩
  | replace => exact ⟨{ h with }, hworking⟩
  | stopCarrier => exact ⟨{ h with }, hworking⟩
  | elsewhere hrace hforeign => exact ⟨{ h with }, hover hrace⟩

end Hands

/-! ## What has been tried -/

section Tried

variable {lanes : List Lane} {s s' : State} {lane client : Nat} {route : AutoRoute} {rest : List AutoRoute}

/-- A route that a lane has not come to yet, or that is on record. -/
def Due (s : State) (lane : Nat) (route : AutoRoute) : Prop :=
  s.pc lane = .waiting ∨ route ∈ (s.pc lane).due ∨ ∃ failure, (route, failure) ∈ s.log

/-- While nothing has won and the session goes on, no route is passed over. -/
def Tried (lanes : List Lane) (s : State) : Prop :=
  s.current = true → (∀ w, s.winner ≠ some (some w)) → s.race ≠ .cancelled →
    ∀ i l, lanes[i]? = some l → ∀ route ∈ l.routes, Due s i route

theorem release_tried (route : AutoRoute) (client : Nat) (kept : Bool) :
    (release route client kept s).log = s.log ∧ (release route client kept s).current = s.current := by
  unfold release
  split <;> dsimp only <;> split <;> first | exact ⟨rfl, rfl⟩ | (cases kept <;> exact ⟨rfl, rfl⟩)

theorem handOn_tried (lanes : List Lane) (s : State) :
    (handOn lanes s).log = s.log ∧ (handOn lanes s).current = s.current ∧ (handOn lanes s).pc = s.pc ∧
      (handOn lanes s).race = s.race ∧ ∀ w, (handOn lanes s).winner = some (some w) ↔ s.winner = some (some w) := by
  unfold handOn
  split
  next => exact ⟨rfl, rfl, rfl, rfl, fun _ => Iff.rfl⟩
  next =>
    split
    next => exact ⟨rfl, rfl, rfl, rfl, fun _ => Iff.rfl⟩
    next =>
      unfold State.complete
      split
      next => exact ⟨rfl, rfl, rfl, rfl, fun _ => Iff.rfl⟩
      next hnone =>
        refine ⟨rfl, rfl, rfl, rfl, fun w => ?_⟩
        rw [Option.not_isSome_iff_eq_none.1 hnone]
        simp

/-- Only this lane has moved, and what it has moved past is on record. -/
theorem Tried.move (h : Tried lanes s) {pc : Pc} (hpc : s'.pc = Function.update s.pc lane pc)
    (hcurrent : s'.current = s.current) (hwinner : ∀ w, s.winner = some (some w) → s'.winner = some (some w))
    (hrace : s'.race = s.race) (hlog : ∀ entry ∈ s.log, entry ∈ s'.log)
    (hdue : ∀ l, lanes[lane]? = some l → ∀ route ∈ l.routes, Due s lane route → s'.current = true →
      (∀ w, s'.winner ≠ some (some w)) → s.race ≠ .cancelled → Due s' lane route) : Tried lanes s' := by
  intro hgoing hundecided hrunning i l hl route hroute
  have hbefore := h (hcurrent ▸ hgoing) (fun w hw => hundecided w (hwinner w hw)) (hrace ▸ hrunning) i l hl route
    hroute
  by_cases heq : i = lane
  · subst heq
    exact hdue l hl route hroute hbefore hgoing hundecided (hrace ▸ hrunning)
  · unfold Due at hbefore ⊢
    rw [show s'.pc i = s.pc i by rw [hpc]; exact Function.update_of_ne heq ..]
    rcases hbefore with hwaiting | hrest | ⟨failure, hmem⟩
    · exact .inl hwaiting
    · exact .inr (.inl hrest)
    · exact .inr (.inr ⟨failure, hlog _ hmem⟩)

/-- A lane that runs out has tried everything, or the session is over for it. -/
theorem Tried.finish (h : Tried lanes s) (hhands : Hands lanes s) (hlane : lane < lanes.length)
    (hpc : s.pc lane = .looping rest)
    (hover : rest = [] ∨ s.winner.isSome = true ∨ s.current = false) : Tried lanes (finish lanes lane s) := by
  obtain ⟨hlog, hcurrent, hpcs, hrace, hwinner⟩ := handOn_tried lanes
    { s.setPc lane .ended with finished := Function.update s.finished lane true }
  have hended : (Race.finish lanes lane s).pc = Function.update s.pc lane .ended := hpcs
  refine h.move hended hcurrent (fun w hw => (hwinner w).2 hw) hrace (fun entry hentry => hlog ▸ hentry) ?_
  intro l hl route hroute hdue hgoing hundecided hrunning
  -- an answer without a winner comes only when all lanes have ended, and this one has not
  have hlost : s.winner ≠ some none := by
    intro hnone
    have hended := hhands.ended lane (hhands.lost hnone lane hlane)
    rw [hpc] at hended
    cases hended
  rcases hover with rfl | hsome | hstale
  -- no route is left, so what was due is in the log
  · rcases hdue with hwaiting | hmem | hlogged
    · rw [hpc] at hwaiting
      cases hwaiting
    · rw [hpc] at hmem
      cases hmem
    · exact .inr (.inr (hlog ▸ hlogged))
  -- nothing had won so far, so there is no such end
  · obtain ⟨answer, hanswer⟩ := Option.isSome_iff_exists.1 hsome
    cases answer with
    | none => exact absurd hanswer hlost
    | some w => exact absurd ((hwinner w).2 hanswer) (hundecided w)
  -- the session is over, so nothing is due
  · rw [show (Race.finish lanes lane s).current = s.current from hcurrent, hstale] at hgoing
    cases hgoing

theorem Tried.turn (h : Tried lanes s) (hhands : Hands lanes s) (hlane : lane < lanes.length)
    (hturn : turn lanes lane s = some s') : Tried lanes s' := by
  unfold Race.turn at hturn
  split at hturn
  next hpc =>
    cases hturn
    exact h.finish hhands hlane hpc (.inl rfl)
  next route rest hpc =>
    -- what was due is due still, or has come into the log
    have hsame : ∀ {t : State} {pc : Pc}, t.pc lane = pc → pc.due = route :: rest → (∀ e ∈ s.log, e ∈ t.log) →
        ∀ r, Due s lane r → Due t lane r := by
      intro t pc ht hdue hlog r hr
      rcases hr with hwaiting | hmem | ⟨failure, hmem⟩
      · rw [hpc] at hwaiting
        cases hwaiting
      · rw [hpc] at hmem
        exact .inr (.inl (by rw [ht, hdue]; exact hmem))
      · exact .inr (.inr ⟨failure, hlog _ hmem⟩)
    split_ifs at hturn with hover
    · cases hturn
      exact h.finish hhands hlane hpc (.inr (by simpa using hover))
    · cases hturn
      exact h.move rfl rfl (fun _ hw => hw) rfl (fun _ he => he)
        fun _ _ r _ hr _ _ _ => hsame (setPc_same _) rfl (fun _ he => he) r hr
    · cases hturn
      exact h.move rfl rfl (fun _ hw => hw) rfl (fun _ he => he)
        fun _ _ r _ hr _ _ _ => hsame (setPc_same _) rfl (fun _ he => he) r hr
  next => cases hturn

theorem Tried.giveUp (h : Tried lanes s) (hhands : Hands lanes s) (hrace : s.race = .awaiting)
    (hlane : lane < lanes.length) (hheld : (s.pc lane).client = some (route, client))
    (hdue : (s.pc lane).due = route :: rest)
    (hlogged : s.current = true → ∃ failure, (route, failure) ∈ s.log)
    (hturn : giveUp lanes lane route client rest s = some s') : Tried lanes s' := by
  obtain ⟨hlog, hcurrent⟩ := release_tried (s := s) route client false
  obtain ⟨hpcs, hsame⟩ := release_fields (s := s) route client false
  have hwinner := release_winner (s := s) route client false
  have hdropped : Tried lanes ((Race.release route client false s).setPc lane (.looping rest)) := by
    refine h.move (by rw [← hpcs]; rfl) hcurrent (fun w hw => hwinner.trans hw) hsame (fun e he => hlog ▸ he) ?_
    intro l hl r hr hbefore hgoing _ _
    rcases hbefore with hwaiting | hmem | ⟨failure, hmem⟩
    · rw [hwaiting] at hheld
      cases hheld
    · rw [hdue, List.mem_cons] at hmem
      rcases hmem with rfl | hrest
      · obtain ⟨failure, hmem⟩ := hlogged (hcurrent ▸ hgoing)
        exact .inr (.inr ⟨failure, hlog ▸ hmem⟩)
      · exact .inr (.inl (by rw [setPc_same]; exact hrest))
    · exact .inr (.inr ⟨failure, hlog ▸ hmem⟩)
  exact hdropped.turn (hhands.drop hrace hheld) hlane hturn

/-- **What one step keeps of what has been tried.** -/
theorem Tried.step (h : Tried lanes s) (hhands : Hands lanes s) (hclients : Clients lanes s) {l : Label}
    (hmoves : Moves lanes s l s') : Tried lanes s' := by
  have hin : ∀ {lane : Nat}, s.pc lane ≠ .waiting → lane < lanes.length := by
    intro lane hpc
    obtain ⟨l, hl, -⟩ := (hclients.placed lane).resolve_left hpc
    exact (List.getElem?_eq_some_iff.1 hl).1
  have hheldIn : ∀ {lane client : Nat} {route : AutoRoute}, (s.pc lane).client = some (route, client) →
      lane < lanes.length := by
    intro lane client route hheld
    refine hin fun hpc => ?_
    rw [hpc] at hheld
    cases hheld
  have hnoted : ∀ {route : AutoRoute} {failure : Failure}, Tried lanes (s.note route failure) := by
    intro route failure hgoing hundecided hrunning i l hl r hr
    rcases h hgoing hundecided hrunning i l hl r hr with hwaiting | hmem | ⟨cause, hmem⟩
    · exact .inl hwaiting
    · exact .inr (.inl hmem)
    · exact .inr (.inr ⟨cause, List.mem_append_left _ hmem⟩)
  have hlast : ∀ {route : AutoRoute} {failure : Failure}, (route, failure) ∈ (s.note route failure).log :=
    List.mem_append_right _ List.mem_cons_self
  -- once there is an answer, a lane that has not ended says that something has won
  have hopen : ∀ {lane : Nat} {t : State}, s.winner.isSome = true → lane < lanes.length → s.pc lane ≠ .ended →
      t.winner = s.winner → (∀ w, t.winner ≠ some (some w)) → False := by
    intro lane t hsome hlane hrunning hsame hundecided
    obtain ⟨answer, hanswer⟩ := Option.isSome_iff_exists.1 hsome
    cases answer with
    | none => exact hrunning (hhands.ended lane (hhands.lost hanswer lane hlane))
    | some w => exact hundecided w (hsame.trans hanswer)
  have hheard : s.race ≠ .awaiting → s.race ≠ .cancelled → s.winner.isSome = true := by
    intro hover hgoing
    cases hrace : s.race with
    | awaiting => exact absurd hrace hover
    | cancelled => exact absurd hrace hgoing
    | returned result => rw [hhands.heard result hrace, Option.isSome_some]
  cases hmoves with
  | tick => exact h
  | @begin lane l _ hl hrace hpc hstart hturn =>
      have hlane := (List.getElem?_eq_some_iff.1 hl).1
      have hbegun : Tried lanes
          { s.setPc lane (.looping l.routes) with begun := Function.update s.begun lane true } := by
        refine h.move rfl rfl (fun _ hw => hw) rfl (fun _ he => he) ?_
        intro l' hl' r hr _ _ _ _
        rw [hl] at hl'
        cases hl'
        exact .inr (.inl (by
          rw [show (s.setPc lane (.looping l.routes)).pc lane = _ from setPc_same _]
          exact hr))
      exact hbegun.turn (hhands.begin hl hrace hpc hstart) hlane hturn
  | @stale lane route rest _ hrace hpc hturn =>
      have hlooping : Tried lanes ((s.note route .engineNotStopped).setPc lane (.looping rest)) := by
        refine hnoted.move rfl rfl (fun _ hw => hw) rfl (fun _ he => he) ?_
        intro l hl r hr hbefore _ _ _
        rcases hbefore with hwaiting | hmem | hlogged
        · exact absurd hwaiting (by simp [State.note, hpc])
        · have hmem' : r ∈ (Pc.joining route rest).due := by
            rw [← hpc]
            exact hmem
          rcases List.mem_cons.1 hmem' with rfl | hrest
          · exact .inr (.inr ⟨_, hlast⟩)
          · exact .inr (.inl (by rw [setPc_same]; exact hrest))
        · exact .inr (.inr hlogged)
      have hhands' : Hands lanes (s.note route .engineNotStopped) := { hhands with }
      exact hlooping.turn (hhands'.loop hrace hpc) (hin (by simp [hpc])) hturn
  | @outdated lane route rest _ hrace hpc hcurrent hturn =>
      have hlooping : Tried lanes (State.setPc lane (.looping rest)
          { s with shared := { s.shared with staleEngine := none } }) := by
        intro hgoing
        change s.current = true at hgoing
        rw [hcurrent] at hgoing
        cases hgoing
      have hhands' : Hands lanes { s with shared := { s.shared with staleEngine := none } } := { hhands with }
      exact hlooping.turn (hhands'.loop hrace hpc) (hin (by simp [hpc])) hturn
  | @joined lane route rest hrace hpc hcurrent =>
      refine h.move rfl rfl (fun _ hw => hw) rfl (fun _ he => he) ?_
      intro l hl r hr hbefore _ _ _
      rcases hbefore with hwaiting | hmem | hlogged
      · exact absurd hwaiting (by simp [hpc])
      · rw [hpc] at hmem
        exact .inr (.inl (by rw [launch, setPc_same]; exact hmem))
      · exact .inr (.inr hlogged)
  | @failed _ lane client route rest _ _ hrace hheld hdue failure hturn =>
      have hhands' : Hands lanes (s.note route failure) := { hhands with }
      exact hnoted.giveUp hhands' hrace (hheldIn hheld) hheld hdue (fun _ => ⟨_, hlast⟩) hturn
  | dropped _ hrace hheld hdue hcurrent hturn =>
      refine h.giveUp hhands hrace (hheldIn hheld) hheld hdue (fun hgoing => ?_) hturn
      rw [hcurrent] at hgoing
      cases hgoing
  | @started lane client port route rest hrace hpc hcurrent =>
      refine h.move rfl rfl (fun _ hw => hw) rfl (fun _ he => he) ?_
      intro l hl r hr hbefore _ _ _
      rcases hbefore with hwaiting | hmem | hlogged
      · exact absurd hwaiting (by simp [hpc])
      · rw [hpc] at hmem
        exact .inr (.inl (by rw [setPc_same]; exact hmem))
      · exact .inr (.inr hlogged)
  | @late lane client port route rest hrace hpc hdecided =>
      intro _ hundecided
      have hwaiting : s.pc lane ≠ .waiting := by simp [hpc]
      have hrunning : s.pc lane ≠ .ended := by simp [hpc]
      exact (hopen hdecided (hin hwaiting) hrunning (release_winner route client true) hundecided).elim
  | wins hrace hpc hundecided =>
      intro _ hwinner
      exact absurd rfl (hwinner _)
  | lost hrace hwinner =>
      intro hgoing hundecided _
      exact h hgoing hundecided (by simp [hrace])
  | heard hrace hwinner hcurrent =>
      intro _ hnone
      exact absurd hwinner (hnone _)
  | unheard hrace hwinner hcurrent =>
      intro _ hnone
      exact absurd hwinner (hnone _)
  | cancel hrace =>
      intro _ _ hnot
      exact absurd rfl hnot
  | @released lane client route hover hlane hheld =>
      intro _ hundecided hrunning
      have hreturned := hheard hover fun hcancelled =>
        hrunning ((release_fields route client false).2.trans hcancelled)
      refine (hopen hreturned hlane ?_ (release_winner route client false) hundecided).elim
      intro hended
      rw [hended] at hheld
      cases hheld
  | unwound hover hlane hnone hrunning =>
      intro _ hundecided hgoing
      exact (hopen (hheard hover hgoing) hlane hrunning rfl hundecided).elim
  | replace =>
      rintro ⟨⟩
  | stopCarrier => exact h
  | elsewhere => exact h

end Tried

end Race
end Service
end AuroraVpn
