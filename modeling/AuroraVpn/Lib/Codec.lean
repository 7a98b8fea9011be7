import AuroraVpn.Basic

/-!
# Codec — a text form that is read back as what was written

A format turns values into texts and texts into values, and either may fail.  What it wrote it reads
back.  `ofTable` is the format that knows the entries of a table.

Nothing here depends on what is written.
-/

namespace AuroraVpn

structure Codec (α : Type) where
  encode : α → Except String Text
  decode : Text → Except String α
  decode_encode : ∀ a t, encode a = .ok t → decode t = .ok a

namespace Codec

variable {α : Type} [DecidableEq α]

/-- The value the first entry of a table with text `t` has. -/
def find (table : List (α × Text)) (t : Text) : Option α :=
  (table.find? fun e => e.2 = t).map Prod.fst

/-- An entry of a table whose text is not that of an earlier one. -/
def written (table : List (α × Text)) (a : α) : Option Text :=
  (table.find? fun e => e.1 = a ∧ find table e.2 = some a).map Prod.snd

def ofTable (table : List (α × Text)) : Codec α where
  encode a := (written table a).elim (.error "not in the table") .ok
  decode t := (find table t).elim (.error "not in the table") .ok
  decode_encode a t h := by
    cases hw : written table a with
    | none => simp [hw] at h
    | some u =>
        simp only [hw, Option.elim_some, Except.ok.injEq] at h
        subst h
        obtain ⟨e, he, rfl⟩ := Option.map_eq_some_iff.1 hw
        have hmatch := List.find?_some he
        simp only [decide_eq_true_eq] at hmatch
        simp [hmatch.2]

@[simp] theorem ofTable_decode_head (a : α) (t : Text) (table : List (α × Text)) :
    (ofTable ((a, t) :: table)).decode t = .ok a := by
  simp [ofTable, find]

@[simp] theorem ofTable_encode_head (a : α) (t : Text) (table : List (α × Text)) :
    (ofTable ((a, t) :: table)).encode a = .ok t := by
  simp [ofTable, written, find]

end Codec

end AuroraVpn
