import AuroraVpn.Lib.Text

/-!
# Joined — texts with a separator between them

* `intercalate_append`: what is joined of two lists, with the separator in the middle.
* `splitOn_suffix_iff`: the parts of a text are the last parts of another where it stands at its end, behind
  a separator.
-/

namespace AuroraVpn

section Joined

variable {sep c : Char} {part s t : Text} {parts more : List Text}

theorem intercalate_cons (h : parts ≠ []) :
    [sep].intercalate (part :: parts) = part ++ sep :: [sep].intercalate parts := by
  cases parts with
  | nil => exact absurd rfl h
  | cons next parts => simp [List.intercalate, List.intersperse]

theorem intercalate_append (h : parts ≠ []) (hmore : more ≠ []) :
    [sep].intercalate (parts ++ more) = [sep].intercalate parts ++ sep :: [sep].intercalate more := by
  induction parts with
  | nil => exact absurd rfl h
  | cons part parts ih =>
      cases parts with
      | nil =>
          have hone : [sep].intercalate [part] = part := by simp [List.intercalate]
          rw [hone]
          exact intercalate_cons hmore
      | cons next parts =>
          rw [List.cons_append, intercalate_cons (List.append_ne_nil_of_left_ne_nil (List.cons_ne_nil _ _) _),
            intercalate_cons (List.cons_ne_nil next parts), ih (List.cons_ne_nil next parts), List.append_assoc,
            List.cons_append]

theorem mem_intercalate (hc : c ∈ [sep].intercalate parts) : c = sep ∨ ∃ part ∈ parts, c ∈ part := by
  induction parts with
  | nil => exact absurd hc nofun
  | cons part parts ih =>
      cases parts with
      | nil => exact .inr ⟨part, List.mem_singleton.2 rfl, by simpa [List.intercalate] using hc⟩
      | cons next parts =>
          rw [intercalate_cons (List.cons_ne_nil next parts)] at hc
          rcases List.mem_append.1 hc with hc | hc
          · exact .inr ⟨part, List.mem_cons_self, hc⟩
          rcases List.mem_cons.1 hc with rfl | hc
          · exact .inl rfl
          · exact (ih hc).imp_right fun ⟨q, hq, hc⟩ => ⟨q, List.mem_cons_of_mem _ hq, hc⟩

theorem intercalate_ne_nil (h : part ≠ []) : [sep].intercalate (part :: parts) ≠ [] := by
  cases parts with
  | nil => simpa [List.intercalate] using h
  | cons next parts =>
      rw [intercalate_cons (List.cons_ne_nil next parts)]
      exact fun hnil => h (List.append_eq_nil_iff.1 hnil).1

/-- The parts of a text are the last parts of another where it stands at its end. -/
theorem splitOn_suffix_iff : s.splitOn sep <:+ t.splitOn sep ↔ t = s ∨ sep :: s <:+ t := by
  have hback : ∀ u : Text, [sep].intercalate (u.splitOn sep) = u := fun u => List.intercalate_splitOn sep
  constructor
  · rintro ⟨front, hfront⟩
    cases front with
    | nil =>
        rw [List.nil_append] at hfront
        exact .inl ((hback t).symm.trans (hfront ▸ hback s))
    | cons part front =>
        refine .inr ⟨[sep].intercalate (part :: front), ?_⟩
        have hjoin := @intercalate_append sep _ _ (List.cons_ne_nil part front) (List.splitOn_ne_nil sep s)
        rw [hfront, hback, hback] at hjoin
        exact hjoin.symm
  · rintro (rfl | ⟨front, rfl⟩)
    · exact List.suffix_rfl
    · exact ⟨front.splitOn sep, (List.splitOn_append_cons_self front s).symm⟩

/-- The front of a split has no separator. -/
theorem not_mem_of_splitOnce {c : Char} {t front back : Text} (h : splitOnce c t = some (front, back)) :
    c ∉ front := by
  unfold splitOnce at h
  split_ifs at h
  cases h
  intro hc
  exact absurd (List.mem_takeWhile_imp hc) (by simp)

end Joined

end AuroraVpn
