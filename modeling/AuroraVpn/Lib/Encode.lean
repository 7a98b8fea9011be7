import AuroraVpn.Lib.Utf8
import Mathlib.Data.Nat.Find
import Mathlib.Data.String.Basic
import Mathlib.Order.Basic

/-!
# Encode — text as UTF-8, and back

* `fromUtf8Lossy_encode`: decoding is undone by nothing that was encoded.
* `mem_encode_iff`: a byte of ASCII stands for its character and for no other.
* `fromUtf8Lossy_append`: what stands on either side of a character of ASCII is decoded on its own.
* `mem_of_mem_fromUtf8Lossy`: a character of ASCII is decoded from its byte only.
-/

namespace AuroraVpn
namespace Utf8

/-- `str::as_bytes`. -/
def encode (t : Text) : Bytes :=
  t.flatMap String.utf8EncodeChar

section Bytes

variable (b first : UInt8)

theorem toNat_and_0x3F : (b &&& 0x3F).toNat = b.toNat % 64 :=
  Nat.and_two_pow_sub_one_eq_mod b.toNat 6

theorem toNat_and_0x1F : (b &&& 0x1F).toNat = b.toNat % 32 :=
  Nat.and_two_pow_sub_one_eq_mod b.toNat 5

theorem toNat_and_0x0F : (b &&& 0x0F).toNat = b.toNat % 16 :=
  Nat.and_two_pow_sub_one_eq_mod b.toNat 4

theorem toNat_and_0x07 : (b &&& 0x07).toNat = b.toNat % 8 :=
  Nat.and_two_pow_sub_one_eq_mod b.toNat 3

/-- The bytes that a sequence goes on with. -/
theorem isContinuation_iff : isContinuation b = true ↔ 0x80 ≤ b.toNat ∧ b.toNat < 0xC0 := by
  have hhigh : (b &&& 0xC0).toNat / 2 ^ 6 = b.toNat / 2 ^ 6 % 4 := by
    rw [UInt8.toNat_and, Nat.and_div_two_pow]
    exact Nat.and_two_pow_sub_one_eq_mod _ 2
  have hlow : (b &&& 0xC0).toNat % 2 ^ 6 = 0 := by
    rw [UInt8.toNat_and, Nat.and_mod_two_pow]
    exact Nat.and_zero _
  have hlt := b.toNat_lt
  rw [isContinuation, beq_iff_eq, ← UInt8.toNat_inj]
  change (b &&& 0xC0).toNat = 128 ↔ _
  omega

theorem charWidth_eq : charWidth b = if b.toNat < 0x80 then 1 else if b.toNat < 0xC2 then 0
    else if b.toNat < 0xE0 then 2 else if b.toNat < 0xF0 then 3 else if b.toNat < 0xF5 then 4 else 0 :=
  rfl

theorem continuation_byte (n : Nat) (hn : n < 64) : isContinuation (UInt8.ofNat (n + 0x80)) = true ∧
    (UInt8.ofNat (n + 0x80) &&& 0x3F).toNat = n := by
  rw [isContinuation_iff, toNat_and_0x3F, UInt8.toNat_ofNat_of_lt' (by omega : n + 0x80 < 256)]
  omega

theorem lead_two (n : Nat) (hn : n < 32) (h : 2 ≤ n) : charWidth (UInt8.ofNat (n + 0xc0)) = 2 ∧
    (UInt8.ofNat (n + 0xc0) &&& 0x1F).toNat = n := by
  rw [charWidth_eq, toNat_and_0x1F, UInt8.toNat_ofNat_of_lt' (by omega : n + 0xc0 < 256)]
  refine ⟨?_, by omega⟩
  rw [if_neg (by omega), if_neg (by omega), if_pos (by omega)]

theorem lead_three (n : Nat) (hn : n < 16) : charWidth (UInt8.ofNat (n + 0xe0)) = 3 ∧
    (UInt8.ofNat (n + 0xe0) &&& 0x0F).toNat = n := by
  rw [charWidth_eq, toNat_and_0x0F, UInt8.toNat_ofNat_of_lt' (by omega : n + 0xe0 < 256)]
  refine ⟨?_, by omega⟩
  rw [if_neg (by omega), if_neg (by omega), if_neg (by omega), if_pos (by omega)]

theorem lead_four (n : Nat) (hn : n < 5) : charWidth (UInt8.ofNat (n + 0xf0)) = 4 ∧
    (UInt8.ofNat (n + 0xf0) &&& 0x07).toNat = n := by
  rw [charWidth_eq, toNat_and_0x07, UInt8.toNat_ofNat_of_lt' (by omega : n + 0xf0 < 256)]
  refine ⟨?_, by omega⟩
  rw [if_neg (by omega), if_neg (by omega), if_neg (by omega), if_neg (by omega), if_pos (by omega)]

/-- The range of a second byte, by the first. -/
theorem secondOk_iff : secondOk first b = true ↔
    (if first.toNat = 0xE0 then 0xA0 else if first.toNat = 0xF0 then 0x90 else 0x80) ≤ b.toNat ∧
      b.toNat ≤ (if first.toNat = 0xED then 0x9F else if first.toNat = 0xF4 then 0x8F else 0xBF) := by
  have hbyte : ∀ x : UInt8, (first == x) = decide (first.toNat = x.toNat) := fun x => by
    rw [beq_eq_decide, decide_eq_decide, UInt8.toNat_inj]
  simp only [secondOk, hbyte, decide_eq_true_eq]
  change (if first.toNat = 0xE0 then _ else if first.toNat = 0xED then _ else if first.toNat = 0xF0 then _
    else if first.toNat = 0xF4 then _ else _) = true ↔ _
  split_ifs <;> first
    | omega
    | (rw [isContinuation_iff]; omega)
    | (rw [Bool.and_eq_true, decide_eq_true_eq, decide_eq_true_eq, UInt8.le_iff_toNat_le, UInt8.le_iff_toNat_le]; rfl)

/-- Neither overlong nor a surrogate. -/
theorem second_three (n : Nat) (hn : n < 16) (m : Nat) (hm : m < 64) (hlow : n = 0 → 32 ≤ m)
    (hhigh : n = 13 → m < 32) : secondOk (UInt8.ofNat (n + 0xe0)) (UInt8.ofNat (m + 0x80)) = true := by
  rw [secondOk_iff, UInt8.toNat_ofNat_of_lt' (by omega : n + 0xe0 < 256),
    UInt8.toNat_ofNat_of_lt' (by omega : m + 0x80 < 256)]
  split_ifs <;> omega

/-- Neither overlong nor beyond the last character. -/
theorem second_four (n : Nat) (hn : n < 5) (m : Nat) (hm : m < 64) (hlow : n = 0 → 16 ≤ m)
    (hhigh : n = 4 → m < 16) : secondOk (UInt8.ofNat (n + 0xf0)) (UInt8.ofNat (m + 0x80)) = true := by
  rw [secondOk_iff, UInt8.toNat_ofNat_of_lt' (by omega : n + 0xf0 < 256),
    UInt8.toNat_ofNat_of_lt' (by omega : m + 0x80 < 256)]
  split_ifs <;> omega

theorem ascii_byte (n : Nat) (hn : n < 128) : charWidth (UInt8.ofNat n) = 1 ∧ (UInt8.ofNat n).toNat = n := by
  rw [charWidth_eq, UInt8.toNat_ofNat_of_lt' (by omega : n < 256)]
  exact ⟨if_pos hn, rfl⟩

theorem toNat_ofNat_ascii {n : Nat} (hn : n < 128) : (Char.ofNat n).toNat = n := by
  rw [Char.ofNat, dif_pos (.inl (by omega))]
  rfl

/-- What the bits of a first byte say, by the sequence that it announces. -/
theorem lead_bits : (charWidth first = 1 → first < 0x80) ∧
    (charWidth first = 2 → 2 ≤ (first &&& 0x1F).toNat) ∧
    (charWidth first = 3 → first = 0xE0 ∨ 1 ≤ (first &&& 0x0F).toNat) ∧
    (charWidth first = 4 → first = 0xF0 ∨ 1 ≤ (first &&& 0x07).toNat) := by
  rw [charWidth_eq, toNat_and_0x1F, toNat_and_0x0F, toNat_and_0x07, UInt8.lt_iff_toNat_lt, ← UInt8.toNat_inj,
    ← UInt8.toNat_inj]
  change (_ → _ < 128) ∧ _ ∧ (_ → _ = 224 ∨ _) ∧ (_ → _ = 240 ∨ _)
  refine ⟨fun h => ?_, fun h => ?_, fun h => ?_, fun h => ?_⟩ <;> split_ifs at h <;> omega

theorem second_bits (second : UInt8) : (secondOk 0xE0 second = true → 2 ≤ (second &&& 0x3F).toNat) ∧
    (secondOk 0xF0 second = true → 2 ≤ (second &&& 0x3F).toNat) := by
  rw [secondOk_iff, secondOk_iff, toNat_and_0x3F]
  change (160 ≤ _ ∧ _ ≤ 191 → _) ∧ (144 ≤ _ ∧ _ ≤ 191 → _)
  omega

end Bytes

section Char

/-- A character's bytes are one sequence, whatever follows. -/
theorem scan_encodeChar (c : Char) : ∃ first cont, String.utf8EncodeChar c = first :: cont ∧
    codePoint first cont = c ∧ ∀ rest, scan first (cont ++ rest) = (cont.length, true) := by
  have hchar : ∀ {n : Nat}, n = c.val.toNat → Char.ofNat n = c := by
    rintro _ rfl
    exact Char.ofNat_toNat c
  have hvalid : c.val.toNat < 0xd800 ∨ 0xdfff < c.val.toNat ∧ c.val.toNat < 0x110000 := c.valid
  rw [String.utf8EncodeChar]
  generalize c.val.toNat = v at hchar hvalid
  -- by the width of the sequence, as `String.utf8EncodeChar` cuts the range
  by_cases h1 : v ≤ 0x7f
  · obtain ⟨hwidth, hnat⟩ := ascii_byte v (by omega)
    refine ⟨_, [], if_pos h1, ?_, fun rest => ?_⟩
    · exact hchar hnat
    · simp [scan, hwidth]
  -- two bytes: five bits in the lead and six behind it
  by_cases h2 : v ≤ 0x7ff
  · obtain ⟨hwidth, hbits⟩ := lead_two (v / 64 % 32) (by omega) (by omega)
    obtain ⟨hcont, hlow⟩ := continuation_byte (v % 64) (by omega)
    refine ⟨_, [_], (if_neg h1).trans (if_pos h2), ?_, fun rest => ?_⟩
    · refine hchar ?_
      simp only [List.foldl, hbits, hlow]
      omega
    · simp only [List.cons_append, List.nil_append, scan, hwidth, hcont, if_true, List.length]
  by_cases h3 : v ≤ 0xffff
  · obtain ⟨hwidth, hbits⟩ := lead_three (v / 4096 % 16) (by omega)
    obtain ⟨-, hmid⟩ := continuation_byte (v / 64 % 64) (by omega)
    obtain ⟨hcont, hlow⟩ := continuation_byte (v % 64) (by omega)
    have hsecond := second_three (v / 4096 % 16) (by omega) (v / 64 % 64) (by omega) (by omega) (by omega)
    refine ⟨_, [_, _], (if_neg h1).trans ((if_neg h2).trans (if_pos h3)), ?_, fun rest => ?_⟩
    · refine hchar ?_
      simp only [List.foldl, hbits, hmid, hlow]
      omega
    · simp only [List.cons_append, List.nil_append, scan, hwidth, hcont, hsecond, Bool.not_true,
        Bool.false_eq_true, if_false, if_true, List.length]
  -- four bytes, the last width there is
  · obtain ⟨hwidth, hbits⟩ := lead_four (v / 262144 % 8) (by omega)
    obtain ⟨-, hhigh⟩ := continuation_byte (v / 4096 % 64) (by omega)
    obtain ⟨hcont, hmid⟩ := continuation_byte (v / 64 % 64) (by omega)
    obtain ⟨hcont', hlow⟩ := continuation_byte (v % 64) (by omega)
    have hsecond := second_four (v / 262144 % 8) (by omega) (v / 4096 % 64) (by omega) (by omega) (by omega)
    refine ⟨_, [_, _, _], (if_neg h1).trans ((if_neg h2).trans (if_neg h3)), ?_, fun rest => ?_⟩
    · refine hchar ?_
      simp only [List.foldl, hbits, hhigh, hmid, hlow]
      omega
    · simp only [List.cons_append, List.nil_append, scan, hwidth, hcont, hcont', hsecond, Bool.not_true,
        Bool.false_eq_true, if_false, if_true, List.length]

end Char

section Ascii

variable {b : UInt8} {c : Char} {t : Text}

theorem encodeChar_ascii (h : c.toNat < 128) : String.utf8EncodeChar c = [UInt8.ofNat c.toNat] :=
  if_pos (Nat.le_of_lt_succ h)

theorem encode_append (s t : Text) : encode (s ++ t) = encode s ++ encode t :=
  List.flatMap_append

theorem encode_ascii (h : ∀ c ∈ t, c.toNat < 128) : encode t = asciiBytes t := by
  induction t with
  | nil => rfl
  | cons c t ih =>
      calc encode (c :: t) = String.utf8EncodeChar c ++ encode t := rfl
        _ = asciiBytes (c :: t) := by
            rw [encodeChar_ascii (h c List.mem_cons_self), ih fun c hc => h c (List.mem_cons_of_mem _ hc)]
            rfl

/-- The bytes of any other character are not ASCII. -/
theorem le_of_mem_encodeChar (h : 128 ≤ c.toNat) (hb : b ∈ String.utf8EncodeChar c) : 0x80 ≤ b := by
  have hbyte : ∀ n, 128 ≤ n → n < 256 → 0x80 ≤ UInt8.ofNat n := by
    intro n hle hlt
    rw [UInt8.le_iff_toNat_le, UInt8.toNat_ofNat_of_lt' hlt]
    exact hle
  have hv : 128 ≤ c.val.toNat := h
  rw [String.utf8EncodeChar] at hb
  generalize c.val.toNat = v at hb hv
  split_ifs at hb with h1
  · omega
  · simp only [List.mem_cons, List.not_mem_nil, or_false] at hb
    obtain rfl | rfl := hb <;> exact hbyte _ (by omega) (by omega)
  · simp only [List.mem_cons, List.not_mem_nil, or_false] at hb
    obtain rfl | rfl | rfl := hb <;> exact hbyte _ (by omega) (by omega)
  · simp only [List.mem_cons, List.not_mem_nil, or_false] at hb
    obtain rfl | rfl | rfl | rfl := hb <;> exact hbyte _ (by omega) (by omega)

/-- A byte of ASCII stands for its character and for no other. -/
theorem mem_encode_iff (hb : b < 0x80) : b ∈ encode t ↔ Char.ofNat b.toNat ∈ t := by
  have hlt : b.toNat < 128 := UInt8.lt_iff_toNat_lt.1 hb
  have hnat : (Char.ofNat b.toNat).toNat = b.toNat := toNat_ofNat_ascii hlt
  have hchar : ∀ c : Char, b ∈ String.utf8EncodeChar c ↔ Char.ofNat b.toNat = c := by
    intro c
    by_cases hc : c.toNat < 128
    · rw [encodeChar_ascii hc, List.mem_singleton]
      constructor
      · rintro rfl
        rw [UInt8.toNat_ofNat_of_lt' (by omega : c.toNat < 256)]
        exact Char.ofNat_toNat c
      · rintro rfl
        rw [hnat, UInt8.ofNat_toNat]
    -- all bytes of a longer sequence lie above the ASCII range
    · refine iff_of_false (fun hmem => ?_) ?_
      · exact absurd (le_of_mem_encodeChar (Nat.le_of_not_lt hc) hmem) (UInt8.not_le.2 hb)
      · rintro rfl
        exact hc (hnat.trans_lt hlt)
  rw [encode, List.mem_flatMap]
  simp only [hchar]
  exact ⟨fun ⟨c, hc, heq⟩ => heq ▸ hc, fun h => ⟨_, h, rfl⟩⟩

end Ascii

section Decode

variable {n m : Nat} {bs rest : Bytes} {t : Text} {b : UInt8}

/-- More turns than there are bytes make no difference. -/
theorem decodeLoop_fuel (hn : bs.length ≤ n) (hm : bs.length ≤ m) : decodeLoop n bs = decodeLoop m bs := by
  induction n generalizing m bs with
  | zero =>
      rw [List.eq_nil_of_length_eq_zero (Nat.le_zero.1 hn)]
      cases m <;> rfl
  | succ n ih =>
      cases bs with
      | nil => cases m <;> rfl
      | cons first bs =>
          cases m with
          | zero => exact absurd hm (Nat.not_succ_le_zero _)
          | succ m =>
              have hdrop : (bs.drop (scan first bs).1).length ≤ bs.length := by simp
              exact congrArg (_ :: ·) (ih (hdrop.trans (Nat.le_of_succ_le_succ hn))
                (hdrop.trans (Nat.le_of_succ_le_succ hm)))

/-- One turn of the decoder. -/
theorem fromUtf8Lossy_cons (first : UInt8) (rest : Bytes) : fromUtf8Lossy (first :: rest) =
    (if (scan first rest).2 then codePoint first (rest.take (scan first rest).1) else replacement) ::
      fromUtf8Lossy (rest.drop (scan first rest).1) :=
  congrArg (_ :: ·) (decodeLoop_fuel (by simp) le_rfl)

theorem fromUtf8Lossy_encodeChar (c : Char) (rest : Bytes) :
    fromUtf8Lossy (String.utf8EncodeChar c ++ rest) = c :: fromUtf8Lossy rest := by
  obtain ⟨first, cont, hencode, hcode, hscan⟩ := scan_encodeChar c
  rw [hencode, List.cons_append, fromUtf8Lossy_cons, hscan rest, if_pos rfl, List.take_left, hcode,
    List.drop_left]

theorem fromUtf8Lossy_encode_append (t : Text) (rest : Bytes) :
    fromUtf8Lossy (encode t ++ rest) = t ++ fromUtf8Lossy rest := by
  induction t with
  | nil => rfl
  | cons c t ih =>
      calc fromUtf8Lossy (encode (c :: t) ++ rest)
          = fromUtf8Lossy (String.utf8EncodeChar c ++ (encode t ++ rest)) :=
            congrArg fromUtf8Lossy (List.append_assoc _ _ _)
        _ = c :: (t ++ fromUtf8Lossy rest) := by rw [fromUtf8Lossy_encodeChar, ih]

/-- **What was encoded is decoded to what it was.** -/
theorem fromUtf8Lossy_encode (t : Text) : fromUtf8Lossy (encode t) = t := by
  have happend := fromUtf8Lossy_encode_append t []
  rwa [List.append_nil, show fromUtf8Lossy [] = [] from rfl, List.append_nil] at happend

/-- **What was encoded is well-formed.** -/
theorem fromUtf8_encode (t : Text) : fromUtf8 (encode t) = some t := by
  -- fuel as long as the text is enough, by induction on the text
  have hstrict : ∀ n, (encode t).length ≤ n → decodeStrict n (encode t) = some t := by
    induction t with
    | nil =>
        intro n _
        cases n <;> rfl
    | cons c t ih =>
        intro n hn
        obtain ⟨first, cont, hencode, hcode, hscan⟩ := scan_encodeChar c
        have hcons : encode (c :: t) = first :: (cont ++ encode t) :=
          congrArg (· ++ encode t) hencode
        rw [hcons] at hn ⊢
        cases n with
        | zero => cases hn
        | succ n =>
            have htail : (encode t).length ≤ n := by
              rw [List.length_cons, List.length_append] at hn
              omega
            rw [decodeStrict, hscan]
            dsimp only
            rw [if_pos rfl, List.take_left, List.drop_left, hcode, ih n htail]
            rfl
  exact hstrict _ le_rfl

/-! ### Around a byte of ASCII -/

theorem scan_le (first : UInt8) (rest : Bytes) : (scan first rest).1 ≤ rest.length := by
  unfold scan
  split
  all_goals try split_ifs
  all_goals simp

theorem not_isContinuation (hb : b < 0x80) : isContinuation b = false := by
  rw [Bool.eq_false_iff, Ne, isContinuation_iff, not_and_or]
  exact .inl (Nat.not_le.2 (UInt8.lt_iff_toNat_lt.1 hb))

theorem not_secondOk (hb : b < 0x80) (first : UInt8) : secondOk first b = false := by
  have hlt : b.toNat < 128 := UInt8.lt_iff_toNat_lt.1 hb
  rw [Bool.eq_false_iff, Ne, secondOk_iff]
  split_ifs <;> omega

/-- No sequence goes on into a byte of ASCII. -/
theorem scan_append (hb : b < 0x80) (first : UInt8) (cont : Bytes) :
    scan first (cont ++ b :: rest) = scan first cont := by
  have hcont := not_isContinuation hb
  have hsecond := not_secondOk hb first
  generalize hwidth : charWidth first = width
  match cont, rest with
  | [], [] | [], [_] | [], _ :: _ :: _ | [x], [] | [x], _ :: _ | [x, y], _ | x :: y :: _ :: _, _ =>
      match width with
      | 0 | 1 | 2 | 3 | 4 | _ + 5 =>
          simp only [scan, hwidth, hcont, hsecond, List.nil_append, List.cons_append] <;> grind

theorem fromUtf8Lossy_append (hb : b < 0x80) (bs rest : Bytes) :
    fromUtf8Lossy (bs ++ b :: rest) = fromUtf8Lossy bs ++ Char.ofNat b.toNat :: fromUtf8Lossy rest := by
  induction hlen : bs.length using Nat.strong_induction_on generalizing bs with
  | _ k ih =>
      cases bs with
      | nil =>
          have hwidth : scan b rest = (0, true) := by
            simp [scan, charWidth, hb]
          rw [List.nil_append, fromUtf8Lossy_cons, hwidth]
          rfl
      | cons first bs =>
          have hused := scan_le first bs
          have hrest : (bs.drop (scan first bs).1).length < k := by
            rw [List.length_drop, ← hlen, List.length_cons]
            omega
          have hdrop := ih _ hrest _ rfl
          rw [List.cons_append, fromUtf8Lossy_cons, fromUtf8Lossy_cons, scan_append hb,
            List.take_append_of_le_length hused, List.drop_append_of_le_length hused, hdrop,
            List.cons_append]

/-! ### With more bytes to come -/

/-- More bytes change nothing about a sequence, unless it was cut short. -/
theorem scan_more (first : UInt8) (cont more : Bytes) : scan first (cont ++ more) = scan first cont ∨
    (scan first cont).2 = false ∧ cont.drop (scan first cont).1 = [] := by
  generalize hwidth : charWidth first = width
  match cont, more with
  | _, [] => exact .inl (by rw [List.append_nil])
  | [], [_] | [], [_, _] | [], _ :: _ :: _ :: _ | [_], [_] | [_], _ :: _ :: _ | [_, _], _ :: _
  | _ :: _ :: _ :: _, _ :: _ =>
      match width with
      | 0 | 1 | 2 | 3 | 4 | _ + 5 =>
          simp only [scan, hwidth, List.nil_append, List.cons_append]
          grind

/-- More bytes change nothing of what was decoded but for a sequence that was cut short at the end. -/
theorem fromUtf8Lossy_more {p : Bytes} {s : Text} {c : Char} (hc : c ≠ replacement)
    (h : fromUtf8Lossy p = s ++ c :: t) (more : Bytes) : ∃ t', fromUtf8Lossy (p ++ more) = s ++ c :: t' := by
  induction hlen : p.length using Nat.strong_induction_on generalizing p s with
  | _ k ih =>
      cases p with
      | nil => exact absurd h.symm (List.append_ne_nil_of_right_ne_nil _ (List.cons_ne_nil _ _))
      | cons first cont =>
          have hused := scan_le first cont
          rw [fromUtf8Lossy_cons] at h
          rcases scan_more first cont more with hscan | ⟨hcut, hdrop⟩
          · rw [List.cons_append, fromUtf8Lossy_cons, hscan, List.take_append_of_le_length hused,
              List.drop_append_of_le_length hused]
            cases s with
            | nil => exact ⟨_, congrArg (· :: _) (List.cons.inj h).1⟩
            | cons d s =>
                obtain ⟨hhead, htail⟩ := List.cons.inj h
                -- the sequence that was read is gone, so the induction is on what is left
                have hrest : (cont.drop (scan first cont).1).length < k := by
                  rw [List.length_drop, ← hlen, List.length_cons]
                  omega
                obtain ⟨t', ht'⟩ := ih _ hrest htail rfl
                exact ⟨t', by rw [hhead, ht']; rfl⟩
          · -- nothing but the replacement was decoded
            rw [hcut, hdrop] at h
            cases s with
            | nil => exact absurd (List.cons.inj h).1.symm hc
            | cons d s =>
                exact absurd (List.cons.inj h).2.symm (List.append_ne_nil_of_right_ne_nil _ (List.cons_ne_nil _ _))

end Decode

/-! ### The bytes a character of ASCII came from -/

section Turns

variable {b first : UInt8} {bs rest : Bytes} {n : Nat}

/-- The forms of a complete sequence. -/
theorem scan_complete (h : (scan first rest).2 = true) :
    (charWidth first = 1 ∧ (scan first rest).1 = 0) ∨
    (charWidth first = 2 ∧ ∃ x tail, rest = x :: tail ∧ (scan first rest).1 = 1) ∨
    (charWidth first = 3 ∧ ∃ x y tail, rest = x :: y :: tail ∧ secondOk first x = true ∧ (scan first rest).1 = 2) ∨
    (charWidth first = 4 ∧ ∃ x y z tail, rest = x :: y :: z :: tail ∧ secondOk first x = true ∧
      (scan first rest).1 = 3) := by
  -- the width says how many bytes are asked for, and each of them in turn may end the scan
  unfold scan at h ⊢
  split at h
  · rename_i hwidth
    exact .inl ⟨hwidth, by simp⟩
  · rename_i x tail hwidth
    refine .inr (.inl ⟨hwidth, x, tail, rfl, ?_⟩)
    split_ifs at h with hx
    simp [hx]
  · rename_i x y tail hwidth
    refine .inr (.inr (.inl ⟨hwidth, x, y, tail, rfl, ?_⟩))
    split_ifs at h with hx hy
    simp only [Bool.not_eq_true', Bool.not_eq_false] at hx
    simp [hx, hy]
  · split_ifs at h
  · rename_i x y z tail hwidth
    refine .inr (.inr (.inr ⟨hwidth, x, y, z, tail, rfl, ?_⟩))
    split_ifs at h with hx hy hz
    simp only [Bool.not_eq_true', Bool.not_eq_false] at hx hy
    simp [hx, hy, hz]
  · split_ifs at h
  · split_ifs at h
  · cases h

theorem ofNat_ne (hb : b < 0x80) (hpos : 0 < b) (hn : 128 ≤ n) : Char.ofNat n ≠ Char.ofNat b.toNat := by
  have hlt : b.toNat < 128 := UInt8.lt_iff_toNat_lt.1 hb
  have hne : 0 < b.toNat := UInt8.lt_iff_toNat_lt.1 hpos
  -- what is no character becomes the first one
  have hnat : (Char.ofNat n).toNat = n ∨ (Char.ofNat n).toNat = 0 := by
    by_cases hvalid : n.isValidChar
    · exact .inl (congrArg Char.toNat (dif_pos hvalid))
    · exact .inr (congrArg Char.toNat (dif_neg hvalid))
  intro h
  rw [h, toNat_ofNat_ascii hlt] at hnat
  omega

/-- A turn of the decoder gives a character of ASCII for its byte only. -/
theorem turn_eq_ascii (hb : b < 0x80) (hpos : 0 < b)
    (h : (if (scan first rest).2 then codePoint first (rest.take (scan first rest).1) else replacement) =
      Char.ofNat b.toNat) : first = b := by
  -- a sequence that is incomplete decodes to the replacement, which is no character of ASCII
  by_cases hcomplete : (scan first rest).2 = true
  · rw [if_pos hcomplete] at h
    obtain ⟨hone, htwo, hthree, hfour⟩ := lead_bits first
    rcases scan_complete hcomplete with ⟨hwidth, hused⟩ | ⟨hwidth, x, tail, rfl, hused⟩ |
      ⟨hwidth, x, y, tail, rfl, hx, hused⟩ | ⟨hwidth, x, y, z, tail, rfl, hx, hused⟩
    · rw [hused] at h
      have hchar := congrArg Char.toNat (show Char.ofNat first.toNat = Char.ofNat b.toNat from h)
      rw [toNat_ofNat_ascii (UInt8.lt_iff_toNat_lt.1 (hone hwidth)),
        toNat_ofNat_ascii (UInt8.lt_iff_toNat_lt.1 hb)] at hchar
      exact UInt8.toNat_inj.1 hchar
    -- a longer form does not code a character below 0x80, since its lead bits are not all zero
    · rw [hused] at h
      refine absurd h (ofNat_ne hb hpos ?_)
      have hbits := htwo hwidth
      simp only [List.take_succ_cons, List.take_zero, List.foldl_cons, List.foldl_nil]
      omega
    · rw [hused] at h
      refine absurd h (ofNat_ne hb hpos ?_)
      have hbits : 2 ≤ (first &&& 0x0F).toNat * 64 + (x &&& 0x3F).toNat := by
        rcases hthree hwidth with rfl | hbits
        · have := (second_bits x).1 hx
          omega
        · omega
      simp only [List.take_succ_cons, List.take_zero, List.foldl_cons, List.foldl_nil]
      omega
    · rw [hused] at h
      refine absurd h (ofNat_ne hb hpos ?_)
      have hbits : 2 ≤ (first &&& 0x07).toNat * 64 + (x &&& 0x3F).toNat := by
        rcases hfour hwidth with rfl | hbits
        · have := (second_bits x).2 hx
          omega
        · omega
      simp only [List.take_succ_cons, List.take_zero, List.foldl_cons, List.foldl_nil]
      omega
  · rw [if_neg hcomplete] at h
    exact absurd h (ofNat_ne hb hpos (by decide))

theorem mem_of_mem_fromUtf8Lossy (hb : b < 0x80) (hpos : 0 < b) (h : Char.ofNat b.toNat ∈ fromUtf8Lossy bs) :
    b ∈ bs := by
  induction hlen : bs.length using Nat.strong_induction_on generalizing bs with
  | _ k ih =>
      cases bs with
      | nil => cases h
      | cons first rest =>
          rw [fromUtf8Lossy_cons] at h
          rcases List.mem_cons.1 h with hfirst | hmem
          · rw [turn_eq_ascii hb hpos hfirst.symm]
            exact List.mem_cons_self
          · have hrest : (rest.drop (scan first rest).1).length < k := by
              rw [List.length_drop, ← hlen, List.length_cons]
              omega
            exact List.mem_cons_of_mem _ (List.mem_of_mem_drop (ih _ hrest hmem rfl))

theorem head?_of_head?_fromUtf8Lossy (hb : b < 0x80) (hpos : 0 < b)
    (h : (fromUtf8Lossy bs).head? = some (Char.ofNat b.toNat)) : bs.head? = some b := by
  cases bs with
  | nil => cases h
  | cons first rest =>
      rw [fromUtf8Lossy_cons] at h
      exact congrArg some (turn_eq_ascii hb hpos (Option.some.inj h))

end Turns

end Utf8
end AuroraVpn
