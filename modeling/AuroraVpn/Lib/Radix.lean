import AuroraVpn.Lib.IpAddr
import Mathlib.Tactic.IntervalCases

/-!
# Radix — numbers of any length, read from their digits

* `fromStrRadix_of_digitsValue`: digits without a sign are read as the number that they stand for.
-/

namespace AuroraVpn
namespace Radix

open IpAddr

/-- The number that digits stand for, one after the other. -/
def valueOf (radix : Nat) (digits : List Nat) : Nat :=
  digits.foldl (fun n digit => n * radix + digit) 0

/-- What digits are worth, however many there are. -/
def digitsValue (radix : Nat) (digits : Text) : Option Nat :=
  (digits.mapM (toDigit radix)).map (valueOf radix)

/-- `from_str_radix` of an unsigned type, for numbers below a limit. -/
def fromStrRadix (limit radix : Nat) (digits : Text) : Option Nat :=
  let digits := if digits.head? = some '+' then digits.tail else digits
  if digits = [] then none else (digitsValue radix digits).filter (· < limit)

theorem toDigit_of_digitsValue {radix n : Nat} {digits : Text} (h : digitsValue radix digits = some n) :
    ∀ a ∈ digits, (toDigit radix a).isSome := by
  obtain ⟨ds, hds, -⟩ := Option.map_eq_some_iff.1 h
  clear h
  induction digits generalizing ds with
  | nil => exact nofun
  | cons a digits ih =>
      simp only [List.mapM_cons, Option.bind_eq_bind, Option.bind_eq_some_iff, Option.pure_def] at hds
      obtain ⟨digit, hdigit, rest, hrest, -⟩ := hds
      intro b hb
      rcases List.mem_cons.1 hb with rfl | hb
      · rw [hdigit]
        rfl
      · exact ih rest hrest b hb

/-- Digits and letters, by their codes. -/
theorem digit_bounds {radix : Nat} {a : Char} (h : (toDigit radix a).isSome) :
    0x30 ≤ a.toNat ∧ a.toNat ≤ 0x7A ∧ a.toNat ≠ 0x3B := by
  obtain ⟨d, hd⟩ := Option.isSome_iff_exists.1 h
  unfold toDigit at hd
  obtain ⟨hsome, -⟩ := Option.filter_eq_some_iff.1 hd
  simp only [Char.le_def, UInt32.le_iff_toNat_le] at hsome
  have hcases : (48 ≤ a.toNat ∧ a.toNat ≤ 57) ∨ (97 ≤ a.toNat ∧ a.toNat ≤ 122) ∨
      (65 ≤ a.toNat ∧ a.toNat ≤ 90) := by
    split at hsome
    · exact .inl ‹_›
    · split at hsome
      · exact .inr (.inl ‹_›)
      · split at hsome
        · exact .inr (.inr ‹_›)
        · cases hsome
  omega

/-- A sign is no digit. -/
theorem toDigit_plus (radix : Nat) : toDigit radix '+' = none := rfl

theorem fromStrRadix_of_digitsValue {limit radix n : Nat} {digits : Text} (hsome : digits ≠ []) (hn : n < limit)
    (h : digitsValue radix digits = some n) : fromStrRadix limit radix digits = some n := by
  have hplus : digits.head? ≠ some '+' := by
    intro hhead
    have hdigit := toDigit_of_digitsValue h '+' (List.mem_of_mem_head? (Option.mem_def.2 hhead))
    rw [toDigit_plus] at hdigit
    cases hdigit
  unfold fromStrRadix
  simp only [hplus, if_false, hsome, h]
  simpa using hn

theorem toDigit_hexDigit {d : Nat} (hd : d < 16) : toDigit 16 d.digitChar = some d := by
  interval_cases d <;> rfl

theorem toDigit_decimal {d : Nat} (hd : d < 10) : toDigit 10 d.digitChar = some d := by
  interval_cases d <;> rfl

theorem digitsValue_concat {radix n d : Nat} {digits : Text} {a : Char} (h : digitsValue radix digits = some n)
    (ha : toDigit radix a = some d) : digitsValue radix (digits ++ [a]) = some (n * radix + d) := by
  obtain ⟨ds, hds, rfl⟩ := Option.map_eq_some_iff.1 h
  simp [digitsValue, List.mapM_append, hds, ha, valueOf]

/-- A number is worth what its decimal digits are. -/
theorem digitsValue_toDigits (n : Nat) : digitsValue 10 (Nat.toDigits 10 n) = some n := by
  induction n using Nat.strongRecOn with
  | ind n ih =>
      by_cases hn : n < 10
      · rw [Nat.toDigits_of_lt_base hn]
        simp [digitsValue, toDigit_decimal hn, valueOf]
      · have hfront := ih (n / 10) (by omega)
        have hlast : n % 10 < 10 := Nat.mod_lt n (by decide)
        rw [Nat.toDigits_of_base_le (by decide) (by omega), digitsValue_concat hfront (toDigit_decimal hlast),
          Nat.div_add_mod']

end Radix
end AuroraVpn
