import AuroraVpn.Lib.BigEndian
import Mathlib.Algebra.Group.Nat.Even
import Mathlib.Tactic.Ring

/-!
# OnesComplement — the checksum of the internet protocols

The sum of the words of two bytes, with the carries brought back in, and its complement.

* `checksum_filled`: a checksum that stands in its own place brings the sum to nothing.
-/

namespace AuroraVpn
namespace OnesComplement

open BigEndian

/-- The sum of the words of two bytes; the last one may be half. -/
def wordSum : Bytes → Nat
  | hi :: lo :: bs => hi.toNat * 256 + lo.toNat + wordSum bs
  | [b] => b.toNat * 256
  | [] => 0

/-- The carries are added to the low word until there are none. -/
def foldCarry (n : Nat) : Nat :=
  if n < 65536 then n else foldCarry (n % 65536 + n / 65536)
termination_by n
decreasing_by omega

def checksum (bs : Bytes) : Nat :=
  65535 - foldCarry (wordSum bs)

theorem foldCarry_lt (n : Nat) : foldCarry n < 65536 := by
  induction n using foldCarry.induct with
  | case1 n h => rwa [foldCarry, if_pos h]
  | case2 n h ih => rwa [foldCarry, if_neg h]

theorem foldCarry_mod (n : Nat) : foldCarry n % 65535 = n % 65535 := by
  induction n using foldCarry.induct with
  | case1 n h => rw [foldCarry, if_pos h]
  | case2 n h ih =>
      rw [foldCarry, if_neg h, ih]
      omega

theorem foldCarry_pos {n : Nat} (hn : 0 < n) : 0 < foldCarry n := by
  induction n using foldCarry.induct with
  | case1 n h => rwa [foldCarry, if_pos h]
  | case2 n h ih =>
      rw [foldCarry, if_neg h]
      apply ih
      omega

/-- A sum that is a multiple of the largest word comes down to that word. -/
theorem foldCarry_of_mod {n : Nat} (hn : 0 < n) (hmod : n % 65535 = 0) : foldCarry n = 65535 := by
  have hlt := foldCarry_lt n
  have hpos := foldCarry_pos hn
  have heq := foldCarry_mod n
  omega

theorem wordSum_append {front : Bytes} (hfront : Even front.length) (bs : Bytes) :
    wordSum (front ++ bs) = wordSum front + wordSum bs := by
  induction front using wordSum.induct with
  | case1 hi lo front ih =>
      have heven : Even front.length := by
        have hlength : (hi :: lo :: front).length = front.length + 2 := rfl
        rw [hlength] at hfront
        exact (Nat.even_add.1 hfront).2 even_two
      simp only [List.cons_append, wordSum, ih heven]
      ring
  | case2 b => exact absurd hfront Nat.not_even_one
  | case3 => simp [wordSum]

theorem wordSum_toBe {v : Nat} (hv : v < 65536) (bs : Bytes) : wordSum (toBe 2 v ++ bs) = v + wordSum bs := by
  have hhi : (UInt8.ofNat (v / 256)).toNat = v / 256 := by
    rw [UInt8.toNat_ofNat']
    omega
  have hlo : (UInt8.ofNat v).toNat = v % 256 := by rw [UInt8.toNat_ofNat']
  have hshape : toBe 2 v ++ bs = UInt8.ofNat (v / 256) :: UInt8.ofNat v :: bs := by
    simp [toBe]
  rw [hshape, wordSum, hhi, hlo]
  omega

/-- **A checksum that stands in its own place brings the sum to nothing.** -/
theorem checksum_filled {front : Bytes} (hfront : Even front.length) (rest : Bytes) :
    checksum (front ++ toBe 2 (checksum (front ++ [0, 0] ++ rest)) ++ rest) = 0 := by
  have hempty : wordSum (front ++ [0, 0] ++ rest) = wordSum front + wordSum rest := by
    rw [List.append_assoc, wordSum_append hfront]
    simp [wordSum]
  have hlt := foldCarry_lt (wordSum front + wordSum rest)
  have hmod := foldCarry_mod (wordSum front + wordSum rest)
  have hsum : wordSum (front ++ toBe 2 (checksum (front ++ [0, 0] ++ rest)) ++ rest) =
      wordSum front + wordSum rest + (65535 - foldCarry (wordSum front + wordSum rest)) := by
    unfold checksum
    rw [hempty, List.append_assoc, wordSum_append hfront, wordSum_toBe (by omega)]
    ring
  have hzero := foldCarry_of_mod (n := 0)
  rw [checksum, hsum, foldCarry_of_mod]
  · rcases Nat.eq_zero_or_pos (wordSum front + wordSum rest) with hnone | hsome
    · rw [hnone, foldCarry, if_pos (by decide)]
      decide
    · omega
  · omega

end OnesComplement
end AuroraVpn
