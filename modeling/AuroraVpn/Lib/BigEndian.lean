import AuroraVpn.Basic
import Mathlib.Data.List.Basic
import Mathlib.Tactic.Ring

/-!
# BigEndian — integers in network order

Writing an integer and reading it back (`ofBe_toBe`), and the other way round (`toBe_ofBe`).
-/

namespace AuroraVpn
namespace BigEndian

/-- Value of a byte string read most significant byte first. -/
def ofBe : Bytes → Nat
  | [] => 0
  | b :: bs => b.toNat * 256 ^ bs.length + ofBe bs

/-- The low `n` bytes of `v`, most significant byte first. -/
def toBe : Nat → Nat → Bytes
  | 0, _ => []
  | n + 1, v => UInt8.ofNat (v / 256 ^ n) :: toBe n v

@[simp] theorem length_toBe (n v : Nat) : (toBe n v).length = n := by
  induction n with
  | zero => rfl
  | succ n ih => simp [toBe, ih]

theorem ofBe_lt (bs : Bytes) : ofBe bs < 256 ^ bs.length := by
  induction bs with
  | nil => simp [ofBe]
  | cons b bs ih =>
      have hb : b.toNat + 1 ≤ 256 := b.toNat_lt
      have hmul : (b.toNat + 1) * 256 ^ bs.length ≤ 256 * 256 ^ bs.length :=
        Nat.mul_le_mul_right _ hb
      simp only [ofBe, List.length_cons, Nat.pow_succ]
      rw [Nat.add_mul] at hmul
      omega

theorem ofBe_toBe (n v : Nat) : ofBe (toBe n v) = v % 256 ^ n := by
  induction n with
  | zero => simp [toBe, ofBe, Nat.mod_one]
  | succ n ih =>
      have hsplit : v % 256 ^ (n + 1) = v / 256 ^ n % 256 * 256 ^ n + v % 256 ^ n := by
        rw [Nat.pow_succ, Nat.mod_mul]
        ring
      simp [toBe, ofBe, ih, hsplit]

theorem toBe_add (n k : Nat) {v : Nat} : toBe n (k * 256 ^ n + v) = toBe n v := by
  induction n generalizing k v with
  | zero => rfl
  | succ n ih =>
      have hsplit : k * 256 ^ (n + 1) + v = k * 256 * 256 ^ n + v := by ring
      have hdiv : (k * 256 * 256 ^ n + v) / 256 ^ n = v / 256 ^ n + k * 256 := by
        rw [Nat.add_comm, Nat.add_mul_div_right _ _ (Nat.pow_pos (by decide))]
      have hbyte : UInt8.ofNat (v / 256 ^ n + k * 256) = UInt8.ofNat (v / 256 ^ n) := by
        apply UInt8.toNat_inj.1
        simp [UInt8.toNat_ofNat']
      rw [hsplit, toBe, toBe, hdiv, hbyte, ih]

theorem toBe_ofBe (bs : Bytes) : toBe bs.length (ofBe bs) = bs := by
  induction bs with
  | nil => rfl
  | cons b bs ih =>
      have hlt := ofBe_lt bs
      have hdiv : (b.toNat * 256 ^ bs.length + ofBe bs) / 256 ^ bs.length = b.toNat := by
        rw [Nat.add_comm, Nat.add_mul_div_right _ _ (Nat.pow_pos (by decide)), Nat.div_eq_of_lt hlt,
          Nat.zero_add]
      simp [toBe, ofBe, hdiv, toBe_add, ih]

end BigEndian
end AuroraVpn
