import AuroraVpn.Lib.BigEndian
import Mathlib.Data.Nat.Bitwise
import Mathlib.Tactic.IntervalCases
import Mathlib.Tactic.Ring

/-!
# Octets — the network-order byte buffers of the vendored `octets` crate

The reader `Octets` is modelled by the bytes from its offset on, so `cap` is the length of the
list.  The writer `OctetsMut` keeps the bytes written so far and the room behind them.  Every read
and write that does not fit is refused with `BufferTooShortError` and changes nothing, which the
model reports as `none`.

The results this file is for are `getVarint_varintBytes`, that a variable-length integer written
with any of the four lengths reads back as the number it was written from, and
`getVarint_eq_some`, that nothing else reads as it.
-/

namespace AuroraVpn
namespace Octets

open BigEndian

/-! ## Reading -/

/-- `peek_u8`. -/
def peekU8 (b : Bytes) : Option UInt8 :=
  b.head?

/-- `get_u8`, `get_u16`, `get_u32` and `get_u64`: an unsigned integer of `n` bytes. -/
def getU (n : Nat) (b : Bytes) : Option (Nat × Bytes) :=
  if b.length < n then none else some (ofBe (b.take n), b.drop n)

def getU8 (b : Bytes) : Option (UInt8 × Bytes) :=
  match b with
  | [] => none
  | x :: r => some (x, r)

/-- `get_bytes`. -/
def getBytes (len : Nat) (b : Bytes) : Option (Bytes × Bytes) :=
  if b.length < len then none else some (b.take len, b.drop len)

/-- `varint_parse_len`: the two top bits of the first byte give the length. -/
def varintParseLen (first : UInt8) : Nat :=
  match (first >>> 6).toNat with
  | 0 => 1
  | 1 => 2
  | 2 => 4
  | _ => 8

/-- What `get_varint` keeps of the integer it read: everything but the two length bits. -/
def maskVarint (len v : Nat) : Nat :=
  match len with
  | 1 => v
  | 2 => v &&& 0x3fff
  | 4 => v &&& 0x3fffffff
  | _ => v &&& 0x3fffffffffffffff

/-- `get_varint`. -/
def getVarint (b : Bytes) : Option (Nat × Bytes) := do
  let first ← peekU8 b
  let len := varintParseLen first
  if len > b.length then
    none
  else
    let (v, r) ← getU len b
    pure (maskVarint len v, r)

/-! ## Writing -/

/-- The bytes in front of the offset and the room behind it. -/
structure OctetsMut where
  written : Bytes
  room : Nat
  deriving DecidableEq, Repr

namespace OctetsMut

/-- `with_slice` on a zeroed slice of `n` bytes. -/
def withSlice (n : Nat) : OctetsMut :=
  { written := [], room := n }

/-- The whole slice: what was written, and the zeros that were not overwritten. -/
def slice (b : OctetsMut) : Bytes :=
  b.written ++ List.replicate b.room 0

/-- `put_bytes`; the `put_u*` family writes its big-endian bytes the same way. -/
def putBytes (b : OctetsMut) (v : Bytes) : Option OctetsMut :=
  if b.room < v.length then none
  else some { written := b.written ++ v, room := b.room - v.length }

end OctetsMut

/-- `buf[0] |= tag`. -/
def tagFirst (tag : UInt8) : Bytes → Bytes
  | [] => []
  | x :: xs => (x ||| tag) :: xs

/-- The bytes `put_varint_with_len` leaves in the buffer. -/
def varintBytes (v len : Nat) : Bytes :=
  match len with
  | 1 => toBe 1 v
  | 2 => tagFirst 0x40 (toBe 2 v)
  | 4 => tagFirst 0x80 (toBe 4 v)
  | _ => tagFirst 0xc0 (toBe 8 v)

/-- `varint_len` of the crate; it is not called on values past `MAX_VAR_INT`. -/
def varintLen (v : Nat) : Nat :=
  if v ≤ 63 then 1
  else if v ≤ 16383 then 2
  else if v ≤ 1073741823 then 4
  else 8

/-- `put_varint`. -/
def OctetsMut.putVarint (b : OctetsMut) (v : Nat) : Option OctetsMut :=
  if b.room < varintLen v then none else b.putBytes (varintBytes v (varintLen v))

/-! ## What reading consumes -/

theorem getU_extend {n : Nat} {b r : Bytes} {v : Nat} :
    getU n b = some (v, r) → ∀ x, getU n (b ++ x) = some (v, r ++ x) := by
  intro h x
  unfold getU at h
  split at h
  · cases h
  · rename_i hlen
    cases h
    have hle : n ≤ b.length := Nat.le_of_not_lt hlen
    have hlen' : ¬ (b ++ x).length < n := by
      simp only [List.length_append]
      omega
    simp only [getU, if_neg hlen', List.take_append_of_le_length hle,
      List.drop_append_of_le_length hle]

theorem getU_length {n : Nat} {b r : Bytes} {v : Nat} :
    getU n b = some (v, r) → r.length + n = b.length := by
  intro h
  unfold getU at h
  split at h
  · cases h
  · cases h
    simp only [List.length_drop]
    omega

theorem getBytes_extend {n : Nat} {b v r : Bytes} :
    getBytes n b = some (v, r) → ∀ x, getBytes n (b ++ x) = some (v, r ++ x) := by
  intro h x
  unfold getBytes at h
  split at h
  · cases h
  · rename_i hlen
    cases h
    have hle : n ≤ b.length := Nat.le_of_not_lt hlen
    have hlen' : ¬ (b ++ x).length < n := by
      simp only [List.length_append]
      omega
    simp only [getBytes, if_neg hlen', List.take_append_of_le_length hle,
      List.drop_append_of_le_length hle]

theorem getBytes_length {n : Nat} {b v r : Bytes} :
    getBytes n b = some (v, r) → r.length + n = b.length := by
  intro h
  unfold getBytes at h
  split at h
  · cases h
  · cases h
    simp only [List.length_drop]
    omega

theorem getBytes_append (v x : Bytes) : getBytes v.length (v ++ x) = some (v, x) := by
  simp [getBytes]

theorem varintParseLen_pos (first : UInt8) : 0 < varintParseLen first := by
  unfold varintParseLen
  split <;> omega

/-- The read behind `getVarint`, once the first byte is known. -/
theorem getVarint_cons (first : UInt8) (bs : Bytes) :
    getVarint (first :: bs) =
      (getU (varintParseLen first) (first :: bs)).map
        (fun vr => (maskVarint (varintParseLen first) vr.1, vr.2)) := by
  simp only [getVarint, peekU8, List.head?_cons, Option.bind_eq_bind, Option.bind_some]
  split
  · rename_i hlen
    rw [getU, if_pos hlen, Option.map_none]
  · cases getU (varintParseLen first) (first :: bs) <;> rfl

theorem getVarint_extend {b r : Bytes} {v : Nat} :
    getVarint b = some (v, r) → ∀ x, getVarint (b ++ x) = some (v, r ++ x) := by
  intro h x
  cases b with
  | nil => simp [getVarint, peekU8] at h
  | cons first bs =>
      rw [getVarint_cons, Option.map_eq_some_iff] at h
      obtain ⟨⟨u, r'⟩, hu, hpair⟩ := h
      cases hpair
      have hext := getU_extend hu x
      rw [List.cons_append] at hext ⊢
      rw [getVarint_cons, hext]
      rfl

theorem getVarint_length {b r : Bytes} {v : Nat} :
    getVarint b = some (v, r) → r.length < b.length := by
  intro h
  cases b with
  | nil => simp [getVarint, peekU8] at h
  | cons first bs =>
      rw [getVarint_cons, Option.map_eq_some_iff] at h
      obtain ⟨⟨u, r'⟩, hu, hpair⟩ := h
      cases hpair
      have hlen := getU_length hu
      have hpos := varintParseLen_pos first
      show r'.length < (first :: bs).length
      omega

/-! ## Round trip -/

/-- The four lengths a varint may be written with. -/
def IsVarintLen (len : Nat) : Prop :=
  len = 1 ∨ len = 2 ∨ len = 4 ∨ len = 8

instance (len : Nat) : Decidable (IsVarintLen len) := by
  unfold IsVarintLen
  infer_instance

@[simp] theorem length_tagFirst (tag : UInt8) (bs : Bytes) :
    (tagFirst tag bs).length = bs.length := by
  cases bs <;> rfl

theorem length_varintBytes {len : Nat} (hlen : IsVarintLen len) (v : Nat) :
    (varintBytes v len).length = len := by
  rcases hlen with rfl | rfl | rfl | rfl <;> simp [varintBytes]

/-- Setting the length bits of a byte whose own top bits are clear adds them. -/
theorem or_tag_toNat (x : UInt8) : x.toNat < 64 →
    (x ||| 0x40).toNat = x.toNat + 64 ∧ (x ||| 0x80).toNat = x.toNat + 128 ∧
      (x ||| 0xc0).toNat = x.toNat + 192 := by
  intro hx
  have hor : ∀ k : Nat, x.toNat ||| 2 ^ 6 * k = x.toNat + 2 ^ 6 * k := by
    intro k
    rw [Nat.or_comm, ← Nat.two_pow_add_eq_or_of_lt hx, Nat.add_comm]
  simp only [UInt8.toNat_or]
  exact ⟨hor 1, hor 2, hor 3⟩

/-- Reading a byte string whose first byte carries the length bits `t`. -/
theorem getVarint_of_first {x y : UInt8} {bs : Bytes} {t : Nat} (hy : y.toNat = x.toNat + t)
    (hparse : varintParseLen y = bs.length + 1) (rest : Bytes) :
    getVarint (y :: bs ++ rest) =
      some (maskVarint (bs.length + 1) (t * 256 ^ bs.length + ofBe (x :: bs)), rest) := by
  have hval : ofBe (y :: bs) = t * 256 ^ bs.length + ofBe (x :: bs) := by
    simp only [ofBe, hy, Nat.add_mul]
    omega
  have hget : getU (bs.length + 1) (y :: bs ++ rest) = some (ofBe (y :: bs), rest) := by
    simp [getU]
  rw [List.cons_append, getVarint_cons, hparse, ← List.cons_append, hget]
  simp only [Option.map_some, hval]

theorem varintParseLen_eq (y : UInt8) :
    varintParseLen y =
      if y.toNat < 64 then 1 else if y.toNat < 128 then 2 else if y.toNat < 192 then 4 else 8 := by
  have hshift : (y >>> 6).toNat = y.toNat / 64 := by
    rw [UInt8.toNat_shiftRight]
    exact Nat.shiftRight_eq_div_pow _ _
  have hy : y.toNat < 256 := y.toNat_lt
  have hquarter : y.toNat / 64 = 0 ∨ y.toNat / 64 = 1 ∨ y.toNat / 64 = 2 ∨ y.toNat / 64 = 3 := by
    omega
  unfold varintParseLen
  rcases hquarter with hq | hq | hq | hq <;> simp only [hshift, hq] <;> split_ifs <;> omega

/-- The first byte of a value that leaves the two length bits free. -/
theorem toBe_first_lt {n v : Nat} : v < 64 * 256 ^ n → (UInt8.ofNat (v / 256 ^ n)).toNat < 64 := by
  intro hv
  have hdiv : v / 256 ^ n < 64 := by
    rw [Nat.div_lt_iff_lt_mul (by positivity)]
    exact hv
  rw [UInt8.toNat_ofNat']
  exact lt_of_le_of_lt (Nat.mod_le _ _) hdiv

/-- A big-endian value behind a first byte that carries the length bits `t` for its length. -/
theorem getVarint_of_tag {n v t : Nat} {y : UInt8} (hv : v < 64 * 256 ^ n)
    (hy : y.toNat = (UInt8.ofNat (v / 256 ^ n)).toNat + t) (hparse : varintParseLen y = n + 1)
    (hmask : maskVarint (n + 1) (t * 256 ^ n + v) = v) (rest : Bytes) :
    getVarint (y :: toBe n v ++ rest) = some (v, rest) := by
  have hbe : ofBe (UInt8.ofNat (v / 256 ^ n) :: toBe n v) = v := by
    have hfits : v < 256 ^ (n + 1) := by
      rw [Nat.pow_succ]
      omega
    exact (ofBe_toBe (n + 1) v).trans (Nat.mod_eq_of_lt hfits)
  have hread := @getVarint_of_first _ _ (toBe n v) _ hy (by rw [hparse, length_toBe]) rest
  rw [hread, length_toBe, hbe, hmask]

/-- **Varints round trip.**  A number written with any of the four lengths it fits in reads back
as itself, and the bytes behind it are untouched. -/
theorem getVarint_varintBytes {v len : Nat} (hlen : IsVarintLen len)
    (hv : v < 64 * 256 ^ (len - 1)) (rest : Bytes) :
    getVarint (varintBytes v len ++ rest) = some (v, rest) := by
  have hfirst := toBe_first_lt hv
  obtain ⟨h40, h80, hc0⟩ := or_tag_toNat _ hfirst
  rcases hlen with rfl | rfl | rfl | rfl
  -- one byte has no tag; the others take theirs off again under the mask
  · refine getVarint_of_tag (n := 0) (t := 0) hv rfl ?_ ?_ rest
    · rw [varintParseLen_eq, if_pos hfirst]
    · simp [maskVarint]
  · refine getVarint_of_tag (n := 1) hv h40 ?_ ?_ rest
    · rw [varintParseLen_eq, h40]
      split_ifs <;> omega
    · rw [maskVarint, show 0x3fff = 2 ^ 14 - 1 from rfl, Nat.and_two_pow_sub_one_eq_mod]
      omega
  · refine getVarint_of_tag (n := 3) hv h80 ?_ ?_ rest
    · rw [varintParseLen_eq, h80]
      split_ifs <;> omega
    · rw [maskVarint, show 0x3fffffff = 2 ^ 30 - 1 from rfl, Nat.and_two_pow_sub_one_eq_mod]
      omega
  · refine getVarint_of_tag (n := 7) hv hc0 ?_ ?_ rest
    · rw [varintParseLen_eq, hc0]
      split_ifs <;> omega
    · show (192 * 256 ^ 7 + v) &&& (2 ^ 62 - 1) = v
      rw [Nat.and_two_pow_sub_one_eq_mod]
      omega

/-! ## What reads as a varint -/

/-- The bytes are the number, written with one of the lengths it fits in. -/
def IsVarint (v : Nat) (bs : Bytes) : Prop :=
  ∃ len, IsVarintLen len ∧ v < 64 * 256 ^ (len - 1) ∧ bs = varintBytes v len

/-- A first byte and the bytes its length bits ask for are some number written with that length. -/
theorem exists_isVarint {y : UInt8} {bs : Bytes} (hparse : varintParseLen y = bs.length + 1) :
    ∃ v, IsVarint v (y :: bs) := by
  -- the number is what the bytes say without the length bits
  let x : UInt8 := UInt8.ofNat (y.toNat % 64)
  have hx : x.toNat = y.toNat % 64 := by
    rw [UInt8.toNat_ofNat']
    exact Nat.mod_eq_of_lt (lt_trans (Nat.mod_lt _ (by decide)) (by decide))
  have hx64 : x.toNat < 64 := hx ▸ Nat.mod_lt _ (by decide)
  have hvalue : ofBe (x :: bs) < 64 * 256 ^ bs.length := by
    calc ofBe (x :: bs) = x.toNat * 256 ^ bs.length + ofBe bs := rfl
      _ < x.toNat * 256 ^ bs.length + 256 ^ bs.length := Nat.add_lt_add_left (ofBe_lt bs) _
      _ = (x.toNat + 1) * 256 ^ bs.length := (Nat.succ_mul _ _).symm
      _ ≤ 64 * 256 ^ bs.length := Nat.mul_le_mul_right _ hx64
  have hbytes : toBe (bs.length + 1) (ofBe (x :: bs)) = x :: bs := toBe_ofBe (x :: bs)
  obtain ⟨h40, h80, hc0⟩ := or_tag_toNat x hx64
  have hy : y.toNat < 256 := y.toNat_lt
  rw [varintParseLen_eq] at hparse
  refine ⟨ofBe (x :: bs), bs.length + 1, ?_, hvalue, ?_⟩
  · rw [← hparse]
    split_ifs <;> simp [IsVarintLen]
  · split_ifs at hparse with h1 h2 h3
    · rw [← hparse] at hbytes ⊢
      rw [show varintBytes (ofBe (x :: bs)) 1 = x :: bs from hbytes]
      congr 1
      apply UInt8.toNat_inj.1
      omega
    · rw [← hparse] at hbytes ⊢
      rw [show varintBytes (ofBe (x :: bs)) 2 = tagFirst 0x40 (x :: bs) from
        congrArg (tagFirst 0x40) hbytes]
      congr 1
      apply UInt8.toNat_inj.1
      omega
    · rw [← hparse] at hbytes ⊢
      rw [show varintBytes (ofBe (x :: bs)) 4 = tagFirst 0x80 (x :: bs) from
        congrArg (tagFirst 0x80) hbytes]
      congr 1
      apply UInt8.toNat_inj.1
      omega
    · rw [← hparse] at hbytes ⊢
      rw [show varintBytes (ofBe (x :: bs)) 8 = tagFirst 0xc0 (x :: bs) from
        congrArg (tagFirst 0xc0) hbytes]
      congr 1
      apply UInt8.toNat_inj.1
      omega

/-- **What reads as a number is the number written with one of the lengths it fits in.** -/
theorem getVarint_eq_some {b r : Bytes} {v : Nat} :
    getVarint b = some (v, r) ↔ ∃ bs, IsVarint v bs ∧ b = bs ++ r := by
  constructor
  · intro h
    cases b with
    | nil => simp [getVarint, peekU8] at h
    | cons y bs =>
        have hread := h
        rw [getVarint_cons, Option.map_eq_some_iff] at hread
        obtain ⟨⟨u, r'⟩, hu, hpair⟩ := hread
        cases hpair
        -- the bytes read, and those behind them
        obtain ⟨n, hn⟩ : ∃ n, varintParseLen y = n + 1 := Nat.exists_eq_succ_of_ne_zero
          (varintParseLen_pos y).ne'
        rw [hn] at hu
        have hlen : r'.length + (n + 1) = (y :: bs).length := getU_length hu
        have hr : r' = bs.drop n := by
          unfold getU at hu
          split_ifs at hu
          cases hu
          rfl
        have htake : (bs.take n).length = n := by
          rw [List.length_take, List.length_cons] at *
          omega
        have hparse : varintParseLen y = (bs.take n).length + 1 := by rw [hn, htake]
        obtain ⟨w, len, hislen, hfits, hbytes⟩ := exists_isVarint hparse
        have hsplit : y :: bs = varintBytes w len ++ r' := by
          rw [← hbytes, hr, List.cons_append, List.take_append_drop]
        rw [hsplit, getVarint_varintBytes hislen hfits] at h
        cases h
        exact ⟨_, ⟨len, hislen, hfits, rfl⟩, hsplit⟩
  · rintro ⟨bs, ⟨len, hislen, hfits, rfl⟩, rfl⟩
    exact getVarint_varintBytes hislen hfits r

end Octets
end AuroraVpn
