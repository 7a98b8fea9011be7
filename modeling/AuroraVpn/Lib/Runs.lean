import Mathlib.Logic.Basic
import Mathlib.Tactic.ByContra
import Mathlib.Tactic.SplitIfs

/-!
# Runs — runs of a system whose steps may go wrong

A machine says which steps the surroundings may take in a state, and what state a step leads to, or
that it panics.  `Reach m ok s` says that a run of steps that all meet `ok` leads to `s`.

* `Reach.invariant`: what holds at the start and is kept by every step that meets the condition
  holds in every state reached by such steps.
* `Reach.mono`: a weaker condition on the steps reaches more.
* `Machine.within`: the steps that are taken where a predicate holds.
* `exists_reach`: a run that is replayed step by step.
* `Later.keeps`: what every step keeps from some state on holds from there on.
* `Along.imp`, `Along.of_settled`: when all steps of a run are of one kind if they are of another.

Nothing here depends on what the states are.
-/

namespace AuroraVpn
namespace Runs

/-- `step l s` is `none` when the step panics. -/
structure Machine (S L : Type) where
  init : S → Prop
  enabled : L → S → Prop
  step : L → S → Option S

section Reach

variable {S L : Type} {m : Machine S L} {ok ok' : S → L → Prop} {P Q : S → Prop} {s : S}

/-- A state that a run of steps all of which meet `ok` leads to. -/
inductive Reach (m : Machine S L) (ok : S → L → Prop) : S → Prop
  | init {s : S} (h : m.init s) : Reach m ok s
  | step {s s' : S} {l : L} (hs : Reach m ok s) (hl : m.enabled l s) (hok : ok s l)
      (h : m.step l s = some s') : Reach m ok s'

/-- A state that some run leads to. -/
abbrev Reachable (m : Machine S L) (s : S) : Prop :=
  Reach m (fun _ _ => True) s

/-- A predicate that holds at the start and that the steps of a machine keep. -/
structure Invariant (m : Machine S L) (P : S → Prop) : Prop where
  init : ∀ s, m.init s → P s
  step : ∀ s l s', P s → m.enabled l s → m.step l s = some s' → P s'

theorem Reach.mono (h : Reach m ok s) (himp : ∀ s l, ok s l → ok' s l) : Reach m ok' s := by
  induction h with
  | init h => exact .init h
  | step _ hl hok h ih => exact .step ih hl (himp _ _ hok) h

theorem Reach.reachable (h : Reach m ok s) : Reachable m s :=
  h.mono fun _ _ _ => trivial

/-- **Invariants hold in every reachable state.** -/
theorem Invariant.reachable (hP : Invariant m P) (h : Reachable m s) : P s := by
  induction h with
  | init h => exact hP.init _ h
  | step _ hl _ h ih => exact hP.step _ _ _ ih hl h

/-- **A condition on the steps carries a property through a run.**  The step may rely on an
invariant of the machine. -/
theorem Reach.invariant (hQ : Invariant m Q) (hinit : ∀ s, m.init s → P s)
    (hstep : ∀ s l s', Q s → P s → m.enabled l s → ok s l → m.step l s = some s' → P s')
    (h : Reach m ok s) : P s := by
  induction h with
  | init h => exact hinit _ h
  | step hs hl hok h ih => exact hstep _ _ _ (hQ.reachable hs.reachable) ih hl hok h

/-- Two invariants, the second of which may rely on the first. -/
theorem Invariant.and (hP : Invariant m P) (hinit : ∀ s, m.init s → Q s)
    (hstep : ∀ s l s', P s → Q s → m.enabled l s → m.step l s = some s' → Q s') :
    Invariant m (fun s => P s ∧ Q s) where
  init s h := ⟨hP.init s h, hinit s h⟩
  step s l s' hs hl h := ⟨hP.step s l s' hs.1 hl h, hstep s l s' hs.1 hs.2 hl h⟩

/-- The machine with the steps that are taken where `P` holds. -/
def Machine.within (m : Machine S L) (P : S → Prop) : Machine S L where
  init := m.init
  enabled l s := m.enabled l s ∧ P s
  step := m.step

/-- The state that steps lead to, one after the other, while a check of them succeeds. -/
def Machine.follow (m : Machine S L) (check : S → L → Bool) : List L → S → Option S
  | [], s => some s
  | l :: ls, s => if check s l then (m.step l s).bind (m.follow check ls) else none

/-- Steps that may be taken wherever they do not panic, and that the check finds to meet the condition,
lead to a state that is reached.  The check may rely on what the steps that pass it keep. -/
theorem Reach.follow {check : S → L → Bool} {ls : List L} {s' : S} (hs : Reach m ok s)
    (henabled : ∀ l s, (m.step l s).isSome → m.enabled l s)
    (hkeeps : ∀ s l s', P s → check s l = true → m.step l s = some s' → P s')
    (hcheck : ∀ s l, P s → check s l = true → ok s l) (hP : P s) (h : m.follow check ls s = some s') :
    Reach m ok s' := by
  induction ls generalizing s with
  | nil =>
      cases h
      exact hs
  | cons l ls ih =>
      unfold Machine.follow at h
      split_ifs at h with hl
      obtain ⟨t, ht, hrest⟩ := Option.bind_eq_some_iff.1 h
      exact ih (.step hs (henabled l s (by rw [ht]; rfl)) (hcheck s l hP hl) ht) (hkeeps s l t hP hl ht) hrest

/-- A run that is replayed up to a state with a property, by a check that relies on what it keeps. -/
theorem exists_reach_of_keeps {check : S → L → Bool} (ls : List L) (p : S → Bool) (hinit : m.init s)
    (henabled : ∀ l s, (m.step l s).isSome → m.enabled l s)
    (hkeeps : ∀ s l s', P s → check s l = true → m.step l s = some s' → P s')
    (hcheck : ∀ s l, P s → check s l = true → ok s l) (hP : P s) (h : (m.follow check ls s).any p = true) :
    ∃ s', Reach m ok s' ∧ p s' = true := by
  cases hfollow : m.follow check ls s with
  | none =>
      rw [hfollow] at h
      cases h
  | some s' =>
      rw [hfollow] at h
      exact ⟨s', .follow (.init hinit) henabled hkeeps hcheck hP hfollow, h⟩

theorem exists_reach {check : S → L → Bool} (ls : List L) (p : S → Bool) (hinit : m.init s)
    (henabled : ∀ l s, (m.step l s).isSome → m.enabled l s)
    (hcheck : ∀ s l, check s l = true → ok s l) (h : (m.follow check ls s).any p = true) :
    ∃ s', Reach m ok s' ∧ p s' = true :=
  exists_reach_of_keeps ls p hinit henabled (fun _ _ _ _ _ _ => trivial) (fun s l _ => hcheck s l) trivial h

theorem exists_reachable (ls : List L) (p : S → Bool) (hinit : m.init s)
    (henabled : ∀ l s, (m.step l s).isSome → m.enabled l s)
    (h : (m.follow (fun _ _ => true) ls s).any p = true) : ∃ s', Reachable m s' ∧ p s' = true :=
  exists_reach ls p hinit henabled (fun _ _ _ => trivial) h

/-- A state that some run leads to from another. -/
inductive Later (m : Machine S L) (s : S) : S → Prop
  | refl : Later m s s
  | step {s' s'' : S} {l : L} (hs : Later m s s') (hl : m.enabled l s')
      (h : m.step l s' = some s'') : Later m s s''

theorem Later.reachable {s' : S} (h : Later m s s') (hs : Reachable m s) : Reachable m s' := by
  induction h with
  | refl => exact hs
  | step _ hl h ih => exact .step ih hl trivial h

theorem Later.keeps {s' : S} (hQ : Invariant m Q) (hs : Reachable m s)
    (hstep : ∀ s l s', Q s → P s → m.enabled l s → m.step l s = some s' → P s')
    (hP : P s) (h : Later m s s') : P s' := by
  induction h with
  | refl => exact hP
  | step hlater hl h ih => exact hstep _ _ _ (hQ.reachable (hlater.reachable hs)) ih hl h

end Reach

section Along

variable {S L : Type} {m : Machine S L} {p q : S → L → Prop} {P D : S → Prop} {s s' : S} {ls : List L}

/-- The state that a list of steps leads to, `none` where one of them cannot be taken. -/
def Machine.runs (m : Machine S L) : List L → S → Option S
  | [], s => some s
  | l :: ls, s => (m.step l s).bind (m.runs ls)

/-- Each step of a list meets `p` in the state in which it is taken. -/
def Machine.Along (m : Machine S L) (p : S → L → Prop) : List L → S → Prop
  | [], _ => True
  | l :: ls, s => p s l ∧ ∀ s' ∈ m.step l s, m.Along p ls s'

instance decidableAlong [∀ s l, Decidable (p s l)] :
    (ls : List L) → (s : S) → Decidable (m.Along p ls s)
  | [], _ => .isTrue trivial
  | l :: ls, s =>
      have (s' : S) : Decidable (m.Along p ls s') := decidableAlong ls s'
      inferInstanceAs (Decidable (p s l ∧ ∀ s' ∈ m.step l s, m.Along p ls s'))

theorem runs_cons {l : L} (h : m.runs (l :: ls) s = some s') :
    ∃ t, m.step l s = some t ∧ m.runs ls t = some s' :=
  Option.bind_eq_some_iff.1 h

theorem along_congr (h : ∀ s l, p s l ↔ q s l) (ls : List L) (s : S) :
    m.Along p ls s ↔ m.Along q ls s := by
  induction ls generalizing s with
  | nil => exact Iff.rfl
  | cons l ls ih => exact and_congr (h s l) (forall₂_congr fun s' _ => ih s')

theorem Along.cons {l : L} (hp : p s l) (hstep : m.step l s = some s') (h : m.Along p ls s') :
    m.Along p (l :: ls) s := by
  refine ⟨hp, fun t ht => ?_⟩
  obtain rfl : s' = t := Option.some.inj (hstep.symm.trans ht)
  exact h

theorem Along.and (hp : m.Along p ls s) (hq : m.Along q ls s) : m.Along (fun s l => p s l ∧ q s l) ls s := by
  induction ls generalizing s with
  | nil => trivial
  | cons l ls ih => exact ⟨⟨hp.1, hq.1⟩, fun t ht => ih (hp.2 t ht) (hq.2 t ht)⟩

/-- The last step of a run is taken in the state that the steps before it lead to. -/
theorem Along.last {l : L} (h : m.Along p (ls ++ [l]) s) (hrun : m.runs ls s = some s') : p s' l := by
  induction ls generalizing s with
  | nil =>
      cases hrun
      exact h.1
  | cons l' ls ih =>
      obtain ⟨t, ht, hrest⟩ := runs_cons hrun
      exact ih (h.2 t ht) hrest

/-- What the steps that meet `p` keep holds at the end of a run of such steps. -/
theorem Along.keeps (hstep : ∀ s l s', P s → p s l → m.step l s = some s' → P s')
    (hP : P s) (h : m.Along p ls s) (hrun : m.runs ls s = some s') : P s' := by
  induction ls generalizing s with
  | nil =>
      cases hrun
      exact hP
  | cons l ls ih =>
      obtain ⟨t, ht, hrest⟩ := runs_cons hrun
      exact ih (hstep s l t hP h.1 ht) (h.2 t ht) hrest

/-- Steps that meet `p` meet `q` as well, by an invariant that they keep. -/
theorem Along.imp (hstep : ∀ s l s', P s → p s l → m.step l s = some s' → P s')
    (himp : ∀ s l, P s → p s l → q s l) (hP : P s) (h : m.Along p ls s) : m.Along q ls s := by
  induction ls generalizing s with
  | nil => trivial
  | cons l ls ih =>
      exact ⟨himp s l hP h.1, fun t ht => ih (hstep s l t hP h.1 ht) (h.2 t ht)⟩

/-- **A debt that is settled at the end was never taken on.**  A step that fails `q` leaves a debt,
the steps that meet `p` keep it, and there is none at the end of the run. -/
theorem Along.of_settled (hP : ∀ s l s', P s → m.step l s = some s' → P s')
    (howes : ∀ s l s', P s → ¬ q s l → m.step l s = some s' → D s')
    (hkeeps : ∀ s l s', D s → p s l → m.step l s = some s' → D s')
    (hs : P s) (h : m.Along p ls s) (hrun : m.runs ls s = some s') (hsettled : ¬ D s') :
    m.Along q ls s := by
  induction ls generalizing s with
  | nil => trivial
  | cons l ls ih =>
      obtain ⟨t, ht, hrest⟩ := runs_cons hrun
      refine ⟨?_, fun t' ht' => ?_⟩
      · by_contra hq
        exact hsettled (Along.keeps hkeeps (howes s l t hs hq ht) (h.2 t ht) hrest)
      · obtain rfl : t' = t := Option.some.inj (ht'.symm.trans ht)
        exact ih (hP s l t' hs ht) (h.2 t' ht) hrest

end Along

end Runs
end AuroraVpn
