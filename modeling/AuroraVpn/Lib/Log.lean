import Mathlib.Data.List.Basic

/-!
# Log — properties of the entries of a log

`Log.Each ok log` says that every entry meets `ok` together with what stands before it.  A log that
grows at its end is taken apart by `Log.each_append`.
-/

namespace AuroraVpn
namespace Log

variable {E : Type} {ok ok' : List E → E → Prop} {log fresh : List E} {e : E}

def Each (ok : List E → E → Prop) (log : List E) : Prop :=
  ∀ before e after, log = before ++ e :: after → ok before e

@[simp] theorem each_nil : Each ok [] := by
  intro before e after h
  simp at h

@[simp] theorem each_cons :
    Each ok (e :: log) ↔ ok [] e ∧ Each (fun before => ok (e :: before)) log := by
  constructor
  · intro h
    refine ⟨h [] e log rfl, fun before e' after hlog => ?_⟩
    exact h (e :: before) e' after (by rw [hlog]; rfl)
  · rintro ⟨hfirst, hrest⟩ before e' after hlog
    cases before with
    | nil =>
        obtain ⟨rfl, rfl⟩ := List.cons.inj hlog
        exact hfirst
    | cons b before =>
        obtain ⟨rfl, htail⟩ := List.cons.inj hlog
        exact hrest before e' after htail

theorem each_append :
    Each ok (log ++ fresh) ↔ Each ok log ∧ Each (fun before => ok (log ++ before)) fresh := by
  induction log generalizing ok with
  | nil => simp
  | cons e log ih => simp [ih, and_assoc]

/-- What holds of each entry by itself. -/
theorem each_of_forall (h : ∀ e ∈ log, ∀ before, ok before e) : Each ok log := by
  rintro before e after rfl
  exact h e (by simp) before

end Log
end AuroraVpn
