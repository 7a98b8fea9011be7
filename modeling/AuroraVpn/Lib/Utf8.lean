import AuroraVpn.Basic
import Mathlib.Tactic.SplitIfs

/-!
# Utf8 — decoding text that may be ill-formed

`String::from_utf8_lossy`: well-formed sequences become their characters, and every maximal
ill-formed part becomes one replacement character.  ASCII decodes to itself (`fromUtf8Lossy_ascii`).
-/

namespace AuroraVpn
namespace Utf8

/-- Length of the sequence a first byte announces; 0 for a byte that starts none. -/
def charWidth (b : UInt8) : Nat :=
  if b < 0x80 then 1
  else if b < 0xC2 then 0
  else if b < 0xE0 then 2
  else if b < 0xF0 then 3
  else if b < 0xF5 then 4
  else 0

def isContinuation (b : UInt8) : Bool :=
  b &&& 0xC0 == 0x80

/-- The range of the second byte of a sequence of three or four. -/
def secondOk (first second : UInt8) : Bool :=
  if first == 0xE0 then 0xA0 ≤ second && second ≤ 0xBF
  else if first == 0xED then 0x80 ≤ second && second ≤ 0x9F
  else if first == 0xF0 then 0x90 ≤ second && second ≤ 0xBF
  else if first == 0xF4 then 0x80 ≤ second && second ≤ 0x8F
  else isContinuation second

/-- How many of the bytes behind `first` belong to its sequence, and whether that completes it. -/
def scan (first : UInt8) (rest : Bytes) : Nat × Bool :=
  match charWidth first, rest with
  | 1, _ => (0, true)
  | 2, b :: _ => if isContinuation b then (1, true) else (0, false)
  | 3, b :: c :: _ =>
      if !secondOk first b then (0, false)
      else if isContinuation c then (2, true)
      else (1, false)
  | 3, [b] => if secondOk first b then (1, false) else (0, false)
  | 4, b :: c :: d :: _ =>
      if !secondOk first b then (0, false)
      else if !isContinuation c then (1, false)
      else if isContinuation d then (3, true)
      else (2, false)
  | 4, [b, c] =>
      if !secondOk first b then (0, false)
      else if isContinuation c then (2, false)
      else (1, false)
  | 4, [b] => if secondOk first b then (1, false) else (0, false)
  | _, _ => (0, false)

/-- The character of a complete sequence. -/
def codePoint (first : UInt8) (rest : Bytes) : Char :=
  let bits := rest.foldl (fun acc b => acc * 64 + (b &&& 0x3F).toNat)
  match rest.length with
  | 0 => Char.ofNat first.toNat
  | 1 => Char.ofNat (bits (first &&& 0x1F).toNat)
  | 2 => Char.ofNat (bits (first &&& 0x0F).toNat)
  | _ => Char.ofNat (bits (first &&& 0x07).toNat)

def replacement : Char := Char.ofNat 0xFFFD

/-- Decodes with as many turns as there are bytes, each of which takes at least one. -/
def decodeLoop : Nat → Bytes → Text
  | _, [] => []
  | 0, _ => []
  | n + 1, first :: rest =>
      let (used, complete) := scan first rest
      (if complete then codePoint first (rest.take used) else replacement) ::
        decodeLoop n (rest.drop used)

def fromUtf8Lossy (bs : Bytes) : Text :=
  decodeLoop bs.length bs

/-- Decodes what is well-formed throughout. -/
def decodeStrict : Nat → Bytes → Option Text
  | _, [] => some []
  | 0, _ => none
  | n + 1, first :: rest =>
      let (used, complete) := scan first rest
      if complete then (decodeStrict n (rest.drop used)).map (codePoint first (rest.take used) :: ·)
      else none

/-- `str::from_utf8`. -/
def fromUtf8 (bs : Bytes) : Option Text :=
  decodeStrict bs.length bs

/-- The bytes of a text of ASCII characters. -/
def asciiBytes (t : Text) : Bytes :=
  t.map (fun c => UInt8.ofNat c.toNat)

theorem decodeLoop_ascii {t : Text} (h : ∀ c ∈ t, c.toNat < 128) {n : Nat} (hn : t.length ≤ n) :
    decodeLoop n (asciiBytes t) = t := by
  induction t generalizing n with
  | nil => cases n <;> rfl
  | cons c t ih =>
      cases n with
      | zero => simp at hn
      | succ n =>
          -- a byte of ASCII is a sequence by itself
          have hc : c.toNat < 128 := h c (by simp)
          have hbyte : (UInt8.ofNat c.toNat).toNat = c.toNat := by
            rw [UInt8.toNat_ofNat']
            omega
          have hwidth : charWidth (UInt8.ofNat c.toNat) = 1 := by
            have hlt : UInt8.ofNat c.toNat < 0x80 := by
              rw [UInt8.lt_iff_toNat_lt, hbyte]
              exact hc
            simp [charWidth, hlt]
          have htail := ih (fun d hd => h d (by simp [hd])) (n := n) (by simpa using hn)
          change decodeLoop (n + 1) (UInt8.ofNat c.toNat :: asciiBytes t) = c :: t
          simp [decodeLoop, scan, hwidth, codePoint, hbyte, Char.ofNat_toNat, htail]

/-- **ASCII text survives decoding.** -/
theorem fromUtf8Lossy_ascii {t : Text} (h : ∀ c ∈ t, c.toNat < 128) :
    fromUtf8Lossy (asciiBytes t) = t :=
  decodeLoop_ascii h (by simp [asciiBytes])

theorem decodeLoop_of_strict {n : Nat} {bs : Bytes} {t : Text} (h : decodeStrict n bs = some t) :
    decodeLoop n bs = t := by
  induction n generalizing bs t with
  | zero =>
      cases bs with
      | nil =>
          cases h
          rfl
      | cons first rest => cases h
  | succ n ih =>
      cases bs with
      | nil =>
          cases h
          rfl
      | cons first rest =>
          unfold decodeStrict at h
          unfold decodeLoop
          dsimp only at h ⊢
          split_ifs at h with hcomplete
          -- the strict decoder stops where the lossy one puts a replacement, so here both go on
          obtain ⟨tail, htail, rfl⟩ := Option.map_eq_some_iff.1 h
          rw [if_pos hcomplete, ih htail]

/-- What is well-formed decodes to the same text either way. -/
theorem fromUtf8Lossy_of_fromUtf8 {bs : Bytes} {t : Text} (h : fromUtf8 bs = some t) :
    fromUtf8Lossy bs = t :=
  decodeLoop_of_strict h

example : fromUtf8Lossy [0x61, 0xE2, 0x82, 0xAC, 0xE2, 0x82, 0x41, 0xFF] =
    ['a', '€', replacement, 'A', replacement] := by decide

end Utf8
end AuroraVpn
