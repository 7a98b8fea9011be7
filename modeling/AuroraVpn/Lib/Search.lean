import Mathlib.Data.List.Infix

/-!
# Search — the first place where a list stands in another

`find` with what stands before the place and behind it, and trimming, over lists of anything.

* `splitAround_append`: a list is found where nothing in front of it begins one.
* `splitAround_pair`: two items that end a line.
* `trimWith_append`: blanks at the end are taken off.
-/

namespace AuroraVpn
namespace Search

section Split

variable {α : Type} [DecidableEq α]

/-- What stands before the first place where `sep` stands, and what stands behind it. -/
def splitAround (sep : List α) : List α → Option (List α × List α)
  | [] => if sep = [] then some ([], []) else none
  | a :: t =>
      if sep.isPrefixOf (a :: t) then some ([], (a :: t).drop sep.length)
      else (splitAround sep t).map fun parts => (a :: parts.1, parts.2)

/-- Behind `head`, and not before, stands the first `sep`. -/
def FirstAt (sep head : List α) : Prop :=
  ¬ sep <:+: head ++ sep.dropLast

theorem eq_of_splitAround {sep t head rest : List α} (h : splitAround sep t = some (head, rest)) :
    t = head ++ sep ++ rest := by
  induction t generalizing head rest with
  | nil =>
      unfold splitAround at h
      split at h
      next hsep => cases h; simp [hsep]
      next => cases h
  | cons a t ih =>
      unfold splitAround at h
      split at h
      next hfound =>
        cases h
        obtain ⟨rest, hrest⟩ := List.isPrefixOf_iff_prefix.1 hfound
        rw [← hrest, List.drop_left, List.nil_append]
      next =>
        obtain ⟨⟨head', rest'⟩, hsplit, heq⟩ := Option.map_eq_some_iff.1 h
        cases heq
        rw [ih hsplit]
        rfl

theorem length_of_splitAround {sep t head rest : List α} (h : splitAround sep t = some (head, rest)) :
    t.length = head.length + sep.length + rest.length := by
  rw [eq_of_splitAround h, List.length_append, List.length_append]

/-- `sep` is found behind a head that does not begin it. -/
theorem splitAround_append {sep head : List α} (hsep : sep ≠ []) (h : FirstAt sep head) (rest : List α) :
    splitAround sep (head ++ sep ++ rest) = some (head, rest) := by
  induction head with
  | nil =>
      cases sep with
      | nil => exact absurd rfl hsep
      | cons a sep =>
          rw [List.nil_append, List.cons_append, splitAround, if_pos]
          · rw [List.length_cons, List.drop_succ_cons, List.drop_left]
          · exact List.isPrefixOf_iff_prefix.2 ⟨rest, by simp⟩
  | cons a head ih =>
      -- the separator does not begin within the head, nor within its tail
      have hlater : FirstAt sep head := fun hfound => h (hfound.trans (List.suffix_cons a _).isInfix)
      have hnot : ¬ sep <+: a :: (head ++ sep ++ rest) := by
        intro hprefix
        -- a separator found at the head would end inside the head and the separator itself
        have hfront : a :: head ++ sep.dropLast <+: a :: (head ++ sep ++ rest) := by
          have hlast : sep.dropLast <+: sep ++ rest := (List.dropLast_prefix sep).trans (List.prefix_append sep rest)
          simpa [List.append_assoc] using List.prefix_append_right_inj (a :: head) |>.2 hlast
        have hlength : sep.length ≤ (a :: head ++ sep.dropLast).length := by
          simp only [List.length_append, List.length_cons, List.length_dropLast]
          omega
        exact h (List.prefix_of_prefix_length_le hprefix hfront hlength).isInfix
      rw [List.cons_append, List.cons_append, splitAround, if_neg, ih hlater]
      · rfl
      · exact fun htrue => hnot (List.isPrefixOf_iff_prefix.1 htrue)

/-- A separator of two items is found behind what does not hold the first of them. -/
theorem splitAround_pair {a b : α} {head : List α} (h : a ∉ head) (rest : List α) :
    splitAround [a, b] (head ++ a :: b :: rest) = some (head, rest) := by
  induction head with
  | nil => simp [splitAround]
  | cons c head ih =>
      have hc : a ≠ c := fun heq => h (heq ▸ List.mem_cons_self)
      rw [List.cons_append, splitAround, if_neg (by simp [hc]), ih fun hmem => h (List.mem_cons_of_mem c hmem)]
      rfl

/-- `rfind`. -/
def rsplitAround (sep t : List α) : Option (List α × List α) :=
  (splitAround sep.reverse t.reverse).map fun parts => (parts.2.reverse, parts.1.reverse)

theorem rsplitAround_append {sep inner : List α} (hsep : sep ≠ []) (h : ¬ sep <:+: sep.tail ++ inner)
    (before : List α) : rsplitAround sep (before ++ sep ++ inner) = some (before, inner) := by
  have hfirst : FirstAt sep.reverse inner.reverse := by
    unfold FirstAt
    rw [List.dropLast_reverse, ← List.reverse_append, List.reverse_infix]
    exact h
  have hreverse : (before ++ sep ++ inner).reverse = inner.reverse ++ sep.reverse ++ before.reverse := by simp
  unfold rsplitAround
  rw [hreverse, splitAround_append (by simpa using hsep) hfirst]
  simp

/-! ## Lines -/

/-- A line, its end, and more. -/
theorem splitAround_line {a b c : α} {line rest : List α} (hline : a ∉ line) (hc : a ≠ c) (hab : a ≠ b) :
    splitAround [a, b, a, b] (line ++ a :: b :: c :: rest) =
      (splitAround [a, b, a, b] (c :: rest)).map fun parts => (line ++ a :: b :: parts.1, parts.2) := by
  induction line with
  | nil =>
      rw [List.nil_append, splitAround, if_neg (by simp [hc]), splitAround, if_neg (by simp [hab]), Option.map_map]
      rfl
  | cons d line ih =>
      have hd : a ≠ d := fun heq => hline (heq ▸ List.mem_cons_self)
      rw [List.cons_append, splitAround, if_neg (by simp [hd]), ih fun hmem => hline (List.mem_cons_of_mem d hmem),
        Option.map_map]
      rfl

theorem splitAround_last {a b : α} {line : List α} (hline : a ∉ line) (rest : List α) :
    splitAround [a, b, a, b] (line ++ a :: b :: a :: b :: rest) = some (line, rest) := by
  induction line with
  | nil => simp [splitAround]
  | cons d line ih =>
      have hd : a ≠ d := fun heq => hline (heq ▸ List.mem_cons_self)
      rw [List.cons_append, splitAround, if_neg (by simp [hd]), ih fun hmem => hline (List.mem_cons_of_mem d hmem)]
      rfl

/-- **The lines of a head end with the first empty one.** -/
theorem splitAround_lines {a b : α} (hab : a ≠ b) {first : List α} {lines : List (List α)}
    (hfirst : a ∉ first) (hlines : ∀ line ∈ lines, a ∉ line ∧ line ≠ []) (rest : List α) :
    splitAround [a, b, a, b] (first ++ lines.flatMap (fun line => a :: b :: line) ++ a :: b :: a :: b :: rest) =
      some (first ++ lines.flatMap (fun line => a :: b :: line), rest) := by
  induction lines generalizing first with
  | nil => simpa using splitAround_last hfirst rest
  -- the empty line is the separator: nothing in front of it is one
  | cons line lines ih =>
      obtain ⟨hfree, hsome⟩ := hlines line List.mem_cons_self
      cases line with
      | nil => exact absurd rfl hsome
      | cons c line =>
          have hc : a ≠ c := fun heq => hfree (heq ▸ List.mem_cons_self)
          have hrest := ih hfree fun other hother => hlines other (List.mem_cons_of_mem _ hother)
          have hshape : first ++ ((c :: line) :: lines).flatMap (fun line => a :: b :: line) ++
              a :: b :: a :: b :: rest =
              first ++ a :: b :: c :: (line ++ lines.flatMap (fun line => a :: b :: line) ++
                a :: b :: a :: b :: rest) := by
            simp
          rw [hshape, splitAround_line hfirst hc hab]
          rw [List.cons_append, List.cons_append] at hrest
          rw [hrest]
          simp

end Split

/-! ## Trimming -/

section Trim

variable {α : Type}

/-- Blanks taken off both ends. -/
def trimWith (blank : α → Bool) (t : List α) : List α :=
  ((t.dropWhile blank).reverse.dropWhile blank).reverse

theorem trimWith_append {blank : α → Bool} {t blanks : List α} (ht : ∀ a ∈ t, blank a = false) (hsome : t ≠ [])
    (hblanks : ∀ a ∈ blanks, blank a = true) : trimWith blank (t ++ blanks) = t := by
  have hfront : (t ++ blanks).dropWhile blank = t ++ blanks := by
    cases t with
    | nil => exact absurd rfl hsome
    | cons a t => exact List.dropWhile_cons_of_neg (by simp [ht a List.mem_cons_self])
  have hback : (blanks.reverse ++ t.reverse).dropWhile blank = t.reverse := by
    rw [List.dropWhile_append_of_pos fun a ha => hblanks a (List.mem_reverse.1 ha)]
    cases hreverse : t.reverse with
    | nil => rfl
    | cons a s =>
        have ha : a ∈ t := by
          rw [← List.mem_reverse, hreverse]
          exact List.mem_cons_self
        exact List.dropWhile_cons_of_neg (by simp [ht a ha])
  unfold trimWith
  rw [hfront, List.reverse_append, hback, List.reverse_reverse]

end Trim

end Search
end AuroraVpn
