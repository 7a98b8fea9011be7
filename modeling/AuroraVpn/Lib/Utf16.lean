import AuroraVpn.Lib.Encode

/-!
# Utf16 — text as units of sixteen bits

* `mem_utf16_iff`: a unit of ASCII stands for its character and for no other.
* `length_utf16_le`: a text has no more units than bytes.
* `length_utf16_lt`: it has less of them, where it is not ASCII.
-/

namespace AuroraVpn
namespace Utf16

open Utf8

abbrev Units := List UInt16

/-- A character as one or two units. -/
def utf16Char (c : Char) : Units :=
  if c.toNat < 0x10000 then [UInt16.ofNat c.toNat]
  else [UInt16.ofNat (0xD800 + (c.toNat - 0x10000) / 0x400), UInt16.ofNat (0xDC00 + (c.toNat - 0x10000) % 0x400)]

def utf16 (t : Text) : Units :=
  t.flatMap utf16Char

@[simp] theorem utf16_nil : utf16 [] = [] := rfl

theorem utf16_cons (c : Char) (t : Text) : utf16 (c :: t) = utf16Char c ++ utf16 t := rfl

theorem utf16_append (s t : Text) : utf16 (s ++ t) = utf16 s ++ utf16 t :=
  List.flatMap_append

theorem utf16_flatMap {α : Type} (f : α → Text) (l : List α) :
    utf16 (l.flatMap f) = l.flatMap fun a => utf16 (f a) :=
  List.flatMap_assoc

theorem utf16Char_ascii {c : Char} (h : c.toNat < 128) : utf16Char c = [UInt16.ofNat c.toNat] :=
  if_pos (by omega)

theorem utf16_ascii {t : Text} (h : ∀ c ∈ t, c.toNat < 128) :
    utf16 t = t.map fun c => UInt16.ofNat c.toNat := by
  induction t with
  | nil => rfl
  | cons c t ih =>
      rw [utf16_cons, utf16Char_ascii (h c List.mem_cons_self), ih fun d hd => h d (List.mem_cons_of_mem c hd)]
      rfl

/-- Both units of a pair are beyond ASCII. -/
theorem toNat_of_mem_utf16Char {c : Char} {u : UInt16} (hu : u.toNat < 128) (h : u ∈ utf16Char c) :
    c.toNat = u.toNat := by
  have hvalid : c.toNat < 0x110000 := by
    rcases c.valid with hlow | ⟨-, hhigh⟩
    · exact lt_trans hlow (by decide)
    · exact hhigh
  unfold utf16Char at h
  split at h
  next hlow =>
    rw [List.mem_singleton.1 h, UInt16.toNat_ofNat_of_lt' hlow]
  next hhigh =>
    have hpair : ∀ n, 128 ≤ n → n < 0x10000 → u ≠ UInt16.ofNat n := by
      rintro n hle hlt rfl
      rw [UInt16.toNat_ofNat_of_lt' hlt] at hu
      omega
    simp only [List.mem_cons, List.not_mem_nil, or_false] at h
    rcases h with heq | heq
    · exact absurd heq (hpair _ (by omega) (by omega))
    · exact absurd heq (hpair _ (by omega) (by omega))

/-- A unit of ASCII stands for its character and for no other. -/
theorem mem_utf16_iff {c : Char} {t : Text} (hc : c.toNat < 128) : UInt16.ofNat c.toNat ∈ utf16 t ↔ c ∈ t := by
  have hunit : (UInt16.ofNat c.toNat).toNat = c.toNat := UInt16.toNat_ofNat_of_lt' (lt_trans hc (by decide))
  constructor
  · intro h
    obtain ⟨d, hd, hmem⟩ := List.mem_flatMap.1 h
    have hsame := toNat_of_mem_utf16Char (by omega) hmem
    rw [hunit] at hsame
    rwa [← Char.toNat_inj.1 hsame]
  · intro h
    refine List.mem_flatMap.2 ⟨c, h, ?_⟩
    rw [utf16Char_ascii hc]
    exact List.mem_singleton_self _

section Length

theorem length_utf16Char_le (c : Char) : (utf16Char c).length ≤ (String.utf8EncodeChar c).length := by
  rw [String.length_utf8EncodeChar]
  unfold utf16Char Char.utf8Size
  simp only [UInt32.le_iff_toNat_le, Char.toNat]
  split_ifs <;> simp_all
  omega

theorem length_utf16Char_lt {c : Char} (h : 128 ≤ c.toNat) :
    (utf16Char c).length < (String.utf8EncodeChar c).length := by
  rw [String.length_utf8EncodeChar]
  unfold utf16Char Char.utf8Size
  simp only [UInt32.le_iff_toNat_le, Char.toNat] at *
  split_ifs <;> simp_all <;> omega

/-- A text has no more units than bytes. -/
theorem length_utf16_le (t : Text) : (utf16 t).length ≤ (encode t).length := by
  induction t with
  | nil => exact Nat.le_refl 0
  | cons c t ih =>
      calc (utf16 (c :: t)).length = (utf16Char c).length + (utf16 t).length := List.length_append
        _ ≤ (String.utf8EncodeChar c).length + (encode t).length := Nat.add_le_add (length_utf16Char_le c) ih
        _ = (encode (c :: t)).length := List.length_append.symm

/-- It has less of them, where it is not ASCII. -/
theorem length_utf16_lt {t : Text} (h : ∃ c ∈ t, 128 ≤ c.toNat) : (utf16 t).length < (encode t).length := by
  obtain ⟨c, hc, hhigh⟩ := h
  obtain ⟨front, back, rfl⟩ := List.append_of_mem hc
  have hfront := length_utf16_le front
  have hback := length_utf16_le back
  have hchar := length_utf16Char_lt hhigh
  have hunits : (utf16 (front ++ c :: back)).length =
      (utf16 front).length + ((utf16Char c).length + (utf16 back).length) := by
    rw [utf16_append, utf16_cons, List.length_append, List.length_append]
  have hbytes : (encode (front ++ c :: back)).length =
      (encode front).length + ((String.utf8EncodeChar c).length + (encode back).length) := by
    rw [encode_append, List.length_append]
    exact congrArg _ List.length_append
  omega

end Length

end Utf16
end AuroraVpn
