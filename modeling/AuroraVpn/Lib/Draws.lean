import AuroraVpn.Basic
import Mathlib.Data.List.Basic

/-!
# Draws — programs that read a random generator

A program takes the numbers that a generator yields, one by one.  Nothing is known about these, so what
holds of a program holds for all of them (`Always`).

* `always_yields`: every outcome is one that the program can have (`Yields`).
* `always_bind`: what holds of a program whose steps are known.
* `always_times`: a program that is run again and again.
* `always_each`: a program that is run for each entry of a list.
-/

namespace AuroraVpn
namespace Draws

/-- What the generator yields from here on. -/
abbrev Yield := Nat → Nat

abbrev Drawing := StateM Yield

/-- One number. -/
def draw : Drawing Nat := fun yields => (yields 0, fun i => yields (i + 1))

/-- A number from `lo` to `hi`, both of which may come up. -/
def between (lo hi : Nat) : Drawing Nat := do
  let n ← draw
  pure (lo + n % (hi - lo + 1))

section Repeat

variable {α β : Type}

/-- What a program yields when it is run `n` times. -/
def times (act : Drawing α) : Nat → Drawing (List α)
  | 0 => pure []
  | n + 1 => do
      let a ← act
      let rest ← times act n
      pure (a :: rest)

/-- What a program yields for each entry of a list. -/
def each (act : α → Drawing β) : List α → Drawing (List β)
  | [] => pure []
  | a :: as => do
      let b ← act a
      let rest ← each act as
      pure (b :: rest)

theorem each_map {γ : Type} (act : β → Drawing γ) (f : α → β) (as : List α) :
    each act (as.map f) = each (fun a => act (f a)) as := by
  induction as with
  | nil => rfl
  | cons a as ih => rw [List.map_cons, each, each, ih]

theorem each_congr {act act' : α → Drawing β} {as : List α} (h : ∀ a ∈ as, act a = act' a) :
    each act as = each act' as := by
  induction as with
  | nil => rfl
  | cons a as ih =>
      rw [each, each, h a List.mem_cons_self, ih fun a' ha' => h a' (List.mem_cons_of_mem _ ha')]

end Repeat

section Always

variable {α β : Type} {p q : α → Prop} {act : Drawing α}

/-- Whatever the generator yields, the outcome has the property. -/
structure Always (act : Drawing α) (p : α → Prop) : Prop where
  outcome : ∀ yields, p (act.run yields).1

/-- An outcome of the program, for some run of the generator. -/
def Yields (act : Drawing α) (a : α) : Prop :=
  ∃ yields, (act.run yields).1 = a

theorem always_yields (act : Drawing α) : Always act (Yields act) where
  outcome yields := ⟨yields, rfl⟩

theorem Always.and (hp : Always act p) (hq : Always act q) : Always act fun a => p a ∧ q a where
  outcome yields := ⟨hp.outcome yields, hq.outcome yields⟩

theorem Always.imp (h : Always act p) (himp : ∀ a, p a → q a) : Always act q where
  outcome yields := himp _ (h.outcome yields)

theorem always_true (act : Drawing α) : Always act fun _ => True where
  outcome _ := trivial

theorem always_pure {a : α} (h : p a) : Always (pure a) p where
  outcome _ := h

/-- **What holds of the first step is known in the next.** -/
theorem always_bind {next : α → Drawing β} {r : β → Prop} (hact : Always act p)
    (hnext : ∀ a, p a → Always (next a) r) : Always (act >>= next) r where
  outcome yields := (hnext _ (hact.outcome yields)).outcome _

theorem always_between {lo hi : Nat} (h : lo ≤ hi) : Always (between lo hi) fun n => lo ≤ n ∧ n ≤ hi := by
  apply always_bind (always_true draw)
  intro n _
  apply always_pure
  have hlt : n % (hi - lo + 1) < hi - lo + 1 := Nat.mod_lt n (Nat.succ_pos _)
  omega

theorem always_times (h : Always act p) (n : Nat) :
    Always (times act n) fun as => as.length = n ∧ ∀ a ∈ as, p a := by
  induction n with
  | zero => exact always_pure ⟨rfl, fun a ha => absurd ha List.not_mem_nil⟩
  | succ n ih =>
      apply always_bind h
      intro a ha
      apply always_bind ih
      rintro rest ⟨hlength, hrest⟩
      apply always_pure
      refine ⟨congrArg Nat.succ hlength, ?_⟩
      exact List.forall_mem_cons.2 ⟨ha, hrest⟩

theorem always_each {act : α → Drawing β} {r : α → β → Prop} (as : List α)
    (h : ∀ a ∈ as, Always (act a) (r a)) : Always (each act as) (List.Forall₂ r as) := by
  induction as with
  | nil => exact always_pure .nil
  | cons a as ih =>
      apply always_bind (h a List.mem_cons_self)
      intro b hb
      apply always_bind (ih fun a' ha' => h a' (List.mem_cons_of_mem _ ha'))
      intro rest hrest
      exact always_pure (.cons hb hrest)

end Always

end Draws
end AuroraVpn
