import AuroraVpn.Basic
import Mathlib.Data.List.Basic
import Mathlib.Data.List.DropRight

/-!
# Text — what the programs use of `str`

Trimming, and splitting at the first occurrence of a character.  Trimming twice trims no more than
once (`trim_trim`), and a text without blanks is its own trimmed form (`trim_eq_self`).
-/

namespace AuroraVpn

/-- `char::is_whitespace`. -/
def isWhitespace (c : Char) : Bool :=
  let n := c.toNat
  (0x09 ≤ n && n ≤ 0x0D) || n = 0x20 || n = 0x85 || n = 0xA0 || n = 0x1680 ||
    (0x2000 ≤ n && n ≤ 0x200A) || n = 0x2028 || n = 0x2029 || n = 0x202F || n = 0x205F || n = 0x3000

/-- `str::trim`. -/
def trim (t : Text) : Text :=
  ((t.dropWhile isWhitespace).reverse.dropWhile isWhitespace).reverse

/-- `trim_start_matches`. -/
def trimStartMatches (c : Char) (t : Text) : Text :=
  t.dropWhile (· = c)

/-- `trim_end_matches`. -/
def trimEndMatches (c : Char) (t : Text) : Text :=
  (t.reverse.dropWhile (· = c)).reverse

/-- `split_once`. -/
def splitOnce (c : Char) (t : Text) : Option (Text × Text) :=
  if c ∈ t then some (t.takeWhile (· ≠ c), (t.dropWhile (· ≠ c)).tail) else none

/-- A literal, as its characters. -/
theorem toList_literal {s : String} {t : Text} (h : s = String.ofList t) : s.toList = t := by
  rw [h, String.toList_ofList]

/-! ## Trimming -/

/-- Blanks taken off both ends. -/
def trimBy (blank : Char → Bool) (t : Text) : Text :=
  ((t.dropWhile blank).reverse.dropWhile blank).reverse

/-- `Char.isWhitespace` of Kotlin. -/
def isWhitespaceKotlin (c : Char) : Bool :=
  let n := c.toNat
  (0x09 ≤ n && n ≤ 0x0D) || (0x1C ≤ n && n ≤ 0x20) || n = 0xA0 || n = 0x1680 ||
    (0x2000 ≤ n && n ≤ 0x200A) || n = 0x2028 || n = 0x2029 || n = 0x202F || n = 0x205F || n = 0x3000

/-- `String.trim` of Kotlin. -/
def trimKotlin (t : Text) : Text :=
  trimBy isWhitespaceKotlin t

section TrimBy

variable {blank : Char → Bool}

theorem dropWhile_trimBy (t : Text) : (trimBy blank t).dropWhile blank = trimBy blank t := by
  cases htrim : trimBy blank t with
  | nil => rfl
  | cons c rest =>
      -- the first character of what is left is the first one that is no blank
      have hfront : c :: rest <+: t.dropWhile blank := by
        rw [← htrim]
        exact List.reverse_suffix.1 (by rw [trimBy, List.reverse_reverse]; exact List.dropWhile_suffix _)
      obtain ⟨more, hmore⟩ := hfront
      have hstarts := List.head?_dropWhile_not blank t
      rw [← hmore] at hstarts
      exact List.dropWhile_cons_of_neg (Bool.eq_false_iff.1 hstarts)

theorem trimBy_trimBy (t : Text) : trimBy blank (trimBy blank t) = trimBy blank t := by
  have hends : (trimBy blank t).reverse.dropWhile blank = (trimBy blank t).reverse := by
    unfold trimBy
    rw [List.reverse_reverse, List.dropWhile_idempotent]
  calc trimBy blank (trimBy blank t)
      = (((trimBy blank t).dropWhile blank).reverse.dropWhile blank).reverse := rfl
    _ = ((trimBy blank t).reverse.dropWhile blank).reverse := by rw [dropWhile_trimBy]
    _ = trimBy blank t := by rw [hends, List.reverse_reverse]

theorem trimBy_subset {t : Text} : ∀ {c : Char}, c ∈ trimBy blank t → c ∈ t := by
  intro c hc
  have hback := (List.dropWhile_suffix blank).subset (List.mem_reverse.1 hc)
  exact (List.dropWhile_suffix blank).subset (List.mem_reverse.1 hback)

theorem trimBy_eq_self {t : Text} (h : ∀ c ∈ t, blank c = false) : trimBy blank t = t := by
  have hkeep : ∀ {s : Text}, (∀ c ∈ s, blank c = false) → s.dropWhile blank = s := by
    intro s hs
    cases s with
    | nil => rfl
    | cons c s => exact List.dropWhile_cons_of_neg (by simp [hs c List.mem_cons_self])
  unfold trimBy
  rw [hkeep h, hkeep (fun c hc => h c (List.mem_reverse.1 hc)), List.reverse_reverse]

end TrimBy

theorem trim_trim (t : Text) : trim (trim t) = trim t :=
  trimBy_trimBy t

theorem trim_subset {t : Text} : ∀ {c : Char}, c ∈ trim t → c ∈ t :=
  trimBy_subset

theorem trim_eq_self {t : Text} (h : ∀ c ∈ t, isWhitespace c = false) : trim t = t :=
  trimBy_eq_self h

/-- Only blanks are trimmed. -/
theorem mem_trim {c : Char} {t : Text} (hc : c ∈ t) (hblank : isWhitespace c = false) : c ∈ trim t := by
  have hkeep : ∀ {s : Text}, c ∈ s → c ∈ s.dropWhile isWhitespace := by
    intro s hs
    induction s with
    | nil => exact hs
    | cons d s ih =>
        by_cases hd : isWhitespace d = true
        · rw [List.dropWhile_cons_of_pos hd]
          rcases List.mem_cons.1 hs with rfl | hs
          · rw [hblank] at hd
            cases hd
          · exact ih hs
        · rw [List.dropWhile_cons_of_neg hd]
          exact hs
  unfold trim
  exact List.mem_reverse.2 (hkeep (List.mem_reverse.2 (hkeep hc)))

theorem splitOnce_eq_none {c : Char} {t : Text} : splitOnce c t = none ↔ c ∉ t := by
  unfold splitOnce
  split_ifs with h <;> simp [h]

/-- The two parts of a split make the text up again. -/
theorem eq_of_splitOnce {c : Char} {t front back : Text} (h : splitOnce c t = some (front, back)) :
    t = front ++ c :: back := by
  unfold splitOnce at h
  split_ifs at h with hc
  cases h
  cases hdrop : t.dropWhile (· ≠ c) with
  | nil =>
      have hall := List.dropWhile_eq_nil_iff.1 hdrop c hc
      simp at hall
  | cons d back =>
      have hd := List.head?_dropWhile_not (· ≠ c) t
      rw [hdrop] at hd
      have hdc : d = c := by simpa using hd
      rw [List.tail_cons, ← hdc]
      conv_lhs => rw [← List.takeWhile_append_dropWhile (p := (· ≠ c)) (l := t), hdrop]
      rw [hdc]

/-- A text is split in front of and behind the first of its `c`. -/
theorem splitOnce_append {c : Char} {s t : Text} (h : c ∉ s) : splitOnce c (s ++ c :: t) = some (s, t) := by
  have hfront : ∀ d ∈ s, (decide (d ≠ c)) = true := fun d hd =>
    decide_eq_true fun hdc => h (hdc ▸ hd)
  have htake : (s ++ c :: t).takeWhile (· ≠ c) = s := by
    rw [List.takeWhile_append_of_pos hfront]
    simp
  have hdrop : (s ++ c :: t).dropWhile (· ≠ c) = c :: t := by
    rw [List.dropWhile_append_of_pos hfront]
    simp
  rw [splitOnce, if_pos (by simp), htake, hdrop]
  rfl

/-- A part of a text between separators has no separator. -/
theorem mem_of_mem_splitOnP {p : Char → Bool} {t : Text} :
    ∀ {part : Text}, part ∈ t.splitOnP p → ∀ c ∈ part, p c = false ∧ c ∈ t := by
  induction t with
  | nil =>
      intro part hpart
      rw [List.splitOnP_nil, List.mem_singleton] at hpart
      rw [hpart]
      exact nofun
  | cons d t ih =>
      intro part hpart c hc
      rw [List.splitOnP_cons_eq_if_modifyHead] at hpart
      -- a separator ends an empty part; any other character goes to the front of the first part
      by_cases hd : p d = true
      · rw [if_pos hd] at hpart
        rcases List.mem_cons.1 hpart with rfl | hpart
        · cases hc
        · exact (ih hpart c hc).imp_right (List.mem_cons_of_mem d)
      · rw [if_neg hd] at hpart
        obtain ⟨first, parts, hsplit⟩ := List.exists_cons_of_ne_nil (List.splitOnP_ne_nil p t)
        rw [hsplit, List.modifyHead_cons] at hpart
        rw [hsplit] at ih
        rcases List.mem_cons.1 hpart with rfl | hpart
        · -- the character in front belongs to the first part
          rcases List.mem_cons.1 hc with rfl | hc
          · exact ⟨Bool.eq_false_iff.2 hd, List.mem_cons_self⟩
          · exact (ih List.mem_cons_self c hc).imp_right (List.mem_cons_of_mem d)
        · exact (ih (List.mem_cons_of_mem _ hpart) c hc).imp_right (List.mem_cons_of_mem d)

end AuroraVpn
