import AuroraVpn.Basic
import Mathlib.Data.List.Basic
import Mathlib.Data.List.TakeWhile

/-!
# Json — objects of texts, whole numbers and objects as text

How such an object is written, member by member, and a reader that reads what was written.

* `readChars_escape`: a text is read up to its closing quote.
* `readNumber_display`: a number is read up to the first character that is no digit.
* `readMembers_print`: an object is read as it was written, where its members are.

Nothing here depends on what the members are.
-/

namespace AuroraVpn
namespace Json

/-! ## Texts -/

def quote : Char := Char.ofNat 0x22

def backslash : Char := Char.ofNat 0x5c

def hexDigit (n : Nat) : Char :=
  Char.ofNat (if n < 10 then 0x30 + n else 0x57 + n)

def hexValue (c : Char) : Nat :=
  if c.toNat < 0x40 then c.toNat - 0x30 else c.toNat - 0x57

/-- The letter that stands for a control character behind a backslash. -/
def shortEscapes : List (Char × Char) :=
  [('\t', 't'), (Char.ofNat 8, 'b'), ('\n', 'n'), ('\r', 'r'), (Char.ofNat 12, 'f')]

def escapeChar (c : Char) : Text :=
  if c = quote ∨ c = backslash ∨ c = '/' then [backslash, c]
  else
    match shortEscapes.lookup c with
    | some letter => [backslash, letter]
    | none =>
        if c.toNat ≤ 0x1F then
          [backslash, 'u', '0', '0', hexDigit (c.toNat / 16), hexDigit (c.toNat % 16)]
        else [c]

def quoted (t : Text) : Text :=
  quote :: t.flatMap escapeChar ++ [quote]

/-- The character that a letter behind a backslash stands for. -/
def unescape (letter : Char) : Char :=
  ((shortEscapes.find? fun entry => entry.2 = letter).map Prod.fst).getD letter

/-- A text up to its closing quote, and what follows. -/
def readChars : Text → Option (Text × Text)
  | [] => none
  | c :: rest =>
      if c = quote then some ([], rest)
      else if c = backslash then
        match rest with
        | 'u' :: h₃ :: h₂ :: h₁ :: h₀ :: rest =>
            (readChars rest).map fun (t, rest) =>
              (Char.ofNat (4096 * hexValue h₃ + 256 * hexValue h₂ + 16 * hexValue h₁ + hexValue h₀) :: t, rest)
        | letter :: rest => (readChars rest).map fun (t, rest) => (unescape letter :: t, rest)
        | [] => none
      else (readChars rest).map fun (t, rest) => (c :: t, rest)

theorem control_table : ∀ n < 0x20,
    4096 * hexValue '0' + 256 * hexValue '0' + 16 * hexValue (hexDigit (n / 16)) +
      hexValue (hexDigit (n % 16)) = n := by
  decide

theorem letter_table : ∀ entry ∈ shortEscapes, entry.2 ≠ 'u' ∧ unescape entry.2 = entry.1 := by
  decide

theorem readChars_letter {letter : Char} (hu : letter ≠ 'u') (rest : Text) :
    readChars (backslash :: letter :: rest) =
      (readChars rest).map fun (t, rest) => (unescape letter :: t, rest) := by
  rw [readChars.eq_def]
  simp only [if_neg (show backslash ≠ quote by decide), if_pos]
  split
  · next heq => exact absurd (List.cons.inj heq).1 hu
  · next heq => rw [(List.cons.inj heq).1, (List.cons.inj heq).2]
  · next heq => cases heq

theorem readChars_quote (rest : Text) : readChars (quote :: rest) = some ([], rest) := by
  rw [readChars.eq_def]
  exact if_pos rfl

theorem readChars_plain {c : Char} (hquote : c ≠ quote) (hbackslash : c ≠ backslash) (rest : Text) :
    readChars (c :: rest) = (readChars rest).map fun (t, rest) => (c :: t, rest) := by
  rw [readChars.eq_def]
  exact (if_neg hquote).trans (if_neg hbackslash)

/-- An escaped character is read on its own. -/
theorem readChars_escapeChar (c : Char) (rest : Text) :
    readChars (escapeChar c ++ rest) = (readChars rest).map fun (t, rest) => (c :: t, rest) := by
  unfold escapeChar
  -- the three that are written as a backslash and themselves
  by_cases hplain : c = quote ∨ c = backslash ∨ c = '/'
  · rw [if_pos hplain]
    obtain rfl | rfl | rfl := hplain
    all_goals exact readChars_letter (by decide) rest
  · rw [if_neg hplain]
    cases hshort : shortEscapes.lookup c with
    | some letter =>
        obtain ⟨front, back, hmem, -⟩ := List.lookup_eq_some_iff.1 hshort
        obtain ⟨hu, hback⟩ := letter_table (c, letter) (hmem ▸ by simp)
        exact (readChars_letter hu rest).trans (by rw [hback])
    | none =>
        -- no short form: a control character is written by its code, anything else as it is
        by_cases hcontrol : c.toNat ≤ 0x1F
        · have hcode := control_table c.toNat (Nat.lt_succ_of_le hcontrol)
          simp only [if_pos hcontrol, List.cons_append, List.nil_append]
          rw [readChars.eq_def]
          simp only [if_neg (show backslash ≠ quote by decide), if_pos, hcode, Char.ofNat_toNat]
        · obtain ⟨hquote, hbackslash, -⟩ := not_or.1 hplain |>.imp_right not_or.1
          simp only [if_neg hcontrol, List.singleton_append]
          exact readChars_plain hquote hbackslash rest

theorem readChars_escape (t rest : Text) :
    readChars (t.flatMap escapeChar ++ quote :: rest) = some (t, rest) := by
  induction t with
  | nil => exact readChars_quote rest
  | cons c t ih =>
      rw [List.flatMap_cons, List.append_assoc, readChars_escapeChar, ih]
      rfl

/-! ## Whole numbers -/

def displayInt (n : Int) : Text :=
  if n < 0 then '-' :: Nat.toDigits 10 n.natAbs else Nat.toDigits 10 n.natAbs

/-- A number of 64 bits up to the first character that is no digit, and what follows. -/
def readNumber (t : Text) : Option (Int64 × Text) :=
  let negative := t.head? = some '-'
  let body := if negative then t.tail else t
  let digits := body.takeWhile Char.isDigit
  let value : Int := Nat.ofDigitChars 10 digits 0
  if digits = [] then none
  else some (Int64.ofInt (if negative then -value else value), body.dropWhile Char.isDigit)

/-- What may follow a number: nothing, or what is no digit. -/
def Ends (rest : Text) : Prop :=
  ∀ c ∈ rest.head?, c.isDigit = false

theorem takeWhile_toDigits (n : Nat) {rest : Text} (hends : Ends rest) :
    (Nat.toDigits 10 n ++ rest).takeWhile Char.isDigit = Nat.toDigits 10 n ∧
      (Nat.toDigits 10 n ++ rest).dropWhile Char.isDigit = rest := by
  have hdigits : ∀ c ∈ Nat.toDigits 10 n, c.isDigit = true := fun c hc =>
    Nat.isDigit_of_mem_toDigits (by decide) (by decide) hc
  rw [List.takeWhile_append_of_pos hdigits, List.dropWhile_append_of_pos hdigits]
  cases rest with
  | nil => simp
  | cons c rest =>
      have hc : c.isDigit = false := hends c rfl
      simp [hc]

theorem readNumber_display (n : Int64) {rest : Text} (hends : Ends rest) :
    readNumber (displayInt n.toInt ++ rest) = some (n, rest) := by
  obtain ⟨htake, hdrop⟩ := takeWhile_toDigits n.toInt.natAbs hends
  by_cases hneg : n.toInt < 0
  · have hvalue : -(n.toInt.natAbs : Int) = n.toInt := by omega
    rw [displayInt, if_pos hneg]
    generalize n.toInt.natAbs = digits at htake hdrop hvalue ⊢
    simp [readNumber, htake, hdrop, Nat.ofDigitChars_ten_toDigits, Nat.toDigits_ne_nil, hvalue]
  · have hvalue : (n.toInt.natAbs : Int) = n.toInt := by omega
    have hhead : (Nat.toDigits 10 n.toInt.natAbs ++ rest).head? ≠ some '-' := by
      intro hhead
      rw [List.head?_append_of_ne_nil _ Nat.toDigits_ne_nil] at hhead
      exact absurd (Nat.isDigit_of_mem_toDigits (by decide) (by decide) (List.mem_of_mem_head? hhead)) (by decide)
    rw [displayInt, if_neg hneg, readNumber]
    simp only [if_neg hhead, htake, hdrop, Nat.ofDigitChars_ten_toDigits, if_neg Nat.toDigits_ne_nil, hvalue,
      Int64.ofInt_toInt]

/-! ## Objects -/

section Members

variable {α : Type} (print : α → Text) (read : Text → Option (α × Text))

def printMember (m : Text × α) : Text :=
  quoted m.1 ++ ':' :: print m.2

/-- What follows the first member. -/
def printRest : List (Text × α) → Text
  | [] => ['}']
  | m :: ms => ',' :: (printMember print m ++ printRest ms)

def printMembers : List (Text × α) → Text
  | [] => ['{', '}']
  | m :: ms => '{' :: (printMember print m ++ printRest print ms)

def readMember : Text → Option ((Text × α) × Text)
  | [] => none
  | c :: t =>
      if c = quote then
        (readChars t).bind fun (name, t) =>
          if t.head? = some ':' then (read t.tail).map fun (a, t) => ((name, a), t) else none
      else none

def readRest : Nat → Text → Option (List (Text × α) × Text)
  | fuel + 1, ',' :: t =>
      (readMember read t).bind fun (m, t) => (readRest fuel t).map fun (ms, t) => (m :: ms, t)
  | _, '}' :: t => some ([], t)
  | _, _ => none

def readMembers : Text → Option (List (Text × α) × Text)
  | '{' :: '}' :: t => some ([], t)
  | '{' :: t =>
      (readMember read t).bind fun (m, t) => (readRest read t.length t).map fun (ms, t) => (m :: ms, t)
  | _ => none

/-- What stands behind a value in an object. -/
def Follows (rest : Text) : Prop :=
  rest.head? = some ',' ∨ rest.head? = some '}'

theorem Follows.ends {rest : Text} (h : Follows rest) : Ends rest := by
  intro c hc
  rcases h with h | h
  all_goals
    obtain rfl := Option.some.inj (h.symm.trans hc)
    decide

/-- A value that fits is read as it was written. -/
def Reads (fits : α → Prop) : Prop :=
  ∀ a, fits a → ∀ rest, Follows rest → read (print a ++ rest) = some (a, rest)

variable {print read}

theorem follows_printRest (ms : List (Text × α)) (rest : Text) : Follows (printRest print ms ++ rest) := by
  cases ms with
  | nil => exact .inr rfl
  | cons m ms => exact .inl rfl

theorem length_le_printRest (ms : List (Text × α)) : ms.length < (printRest print ms).length := by
  induction ms with
  | nil => exact Nat.one_pos
  | cons m ms ih =>
      simp only [printRest, List.length_cons, List.length_append]
      omega

variable {fits : α → Prop} (hreads : Reads print read fits)
include hreads

theorem readMember_print {m : Text × α} (hm : fits m.2) {rest : Text} (hrest : Follows rest) :
    readMember read (printMember print m ++ rest) = some (m, rest) := by
  have hname : printMember print m ++ rest =
      quote :: (m.1.flatMap escapeChar ++ quote :: ':' :: (print m.2 ++ rest)) := by
    simp [printMember, quoted]
  rw [hname, readMember, if_pos rfl, readChars_escape]
  simp [hreads m.2 hm rest hrest]

theorem readRest_print {ms : List (Text × α)} (hms : ∀ m ∈ ms, fits m.2) (rest : Text) {fuel : Nat}
    (hfuel : ms.length ≤ fuel) : readRest read fuel (printRest print ms ++ rest) = some (ms, rest) := by
  induction ms generalizing fuel with
  | nil => cases fuel <;> rfl
  | cons m ms ih =>
      obtain ⟨hm, hms⟩ := List.forall_mem_cons.1 hms
      cases fuel with
      | zero => cases hfuel
      | succ fuel =>
          rw [printRest, List.cons_append, List.append_assoc, readRest,
            readMember_print hreads hm (follows_printRest ms rest)]
          simp [ih hms (Nat.le_of_succ_le_succ hfuel)]

/-- An object is read as it was written, whatever follows. -/
theorem readMembers_print {ms : List (Text × α)} (hms : ∀ m ∈ ms, fits m.2) (rest : Text) :
    readMembers read (printMembers print ms ++ rest) = some (ms, rest) := by
  cases ms with
  | nil => rfl
  | cons m ms =>
      obtain ⟨hm, hms⟩ := List.forall_mem_cons.1 hms
      have hlength : ms.length ≤ (printRest print ms ++ rest).length := by
        rw [List.length_append]
        exact (length_le_printRest ms).le.trans (Nat.le_add_right _ _)
      rw [printMembers, List.cons_append, List.append_assoc]
      -- a member begins with the quote of its name
      have hopen : readMembers read ('{' :: (printMember print m ++ (printRest print ms ++ rest))) =
          (readMember read (printMember print m ++ (printRest print ms ++ rest))).bind fun (m, t) =>
            (readRest read t.length t).map fun (ms, t) => (m :: ms, t) := rfl
      rw [hopen, readMember_print hreads hm (follows_printRest ms rest), Option.bind_some]
      simp only [readRest_print hreads hms rest hlength, Option.map_some]

end Members

end Json
end AuroraVpn
