import Mathlib.Data.List.Induction

/-!
# Record — records and updates of some of their fields

An update gives values to some of the fields of a record.  After several updates a field has the value that the
last update to set it gave it (`applyAll_field`), so it is as it was exactly if that value is the one it had
(`applyAll_field_eq_iff`).
-/

namespace AuroraVpn
namespace Record

variable {F : Type*} {V : F → Type*}

/-- The fields that are set, with their values. -/
abbrev Update (V : F → Type*) := ∀ f, Option (V f)

def apply (u : Update V) (r : ∀ f, V f) : ∀ f, V f :=
  fun f => (u f).getD (r f)

/-- Updates in the order in which they are made. -/
def applyAll (us : List (Update V)) (r : ∀ f, V f) : ∀ f, V f :=
  us.foldl (fun r u => apply u r) r

/-- The value that the last of the updates to set a field gave it. -/
def lastSet (us : List (Update V)) (f : F) : Option (V f) :=
  us.reverse.findSome? fun u => u f

variable {u : Update V} {us vs : List (Update V)} {r r' : ∀ f, V f} {f : F}

theorem apply_of_none (h : u f = none) : apply u r f = r f := by
  rw [apply, h, Option.getD_none]

theorem apply_of_some {v : V f} (h : u f = some v) : apply u r f = v := by
  rw [apply, h, Option.getD_some]

theorem applyAll_concat : applyAll (us ++ [u]) r = apply u (applyAll us r) := by
  unfold applyAll
  rw [List.foldl_append, List.foldl_cons, List.foldl_nil]

theorem applyAll_append : applyAll (us ++ vs) r = applyAll vs (applyAll us r) :=
  List.foldl_append

/-- **A field has the value of the last update that set it**, or the one it had. -/
theorem applyAll_field : applyAll us r f = (lastSet us f).getD (r f) := by
  induction us using List.reverseRecOn with
  | nil => rfl
  | append_singleton us u ih =>
      unfold lastSet at *
      rw [applyAll_concat, List.reverse_append, List.reverse_singleton, List.singleton_append,
        List.findSome?_cons]
      cases hu : u f with
      | none => rw [apply_of_none hu, ih]
      | some v => rw [apply_of_some hu, Option.getD_some]

/-- **A field is as it was** if no update set it, or the last one to set it gave it the value it had. -/
theorem applyAll_field_eq_iff : applyAll us r f = r f ↔ ∀ v ∈ lastSet us f, v = r f := by
  rw [applyAll_field]
  cases lastSet us f with
  | none => simp
  | some v => simp

end Record
end AuroraVpn
