import AuroraVpn.Lib.IpAddr
import AuroraVpn.Lib.Joined

/-!
# IpText — how an address is written

`IpAddr::to_string`: four decimal groups, or hexadecimal groups with the longest run of zeros left out.

* `display_chars`: what an address is written with.
-/

namespace AuroraVpn
namespace IpAddr

def segments : Bytes → List Nat
  | hi :: lo :: bs => (hi.toNat * 256 + lo.toNat) :: segments bs
  | _ => []

/-- A run of groups that are zero. -/
structure Span where
  start : Nat := 0
  len : Nat := 0

/-- The first of the longest runs. -/
def longestZeroes (segments : List Nat) : Span :=
  (segments.zipIdx.foldl (fun (spans : Span × Span) segment =>
    if segment.1 = 0 then
      let current : Span :=
        if spans.2.len = 0 then ⟨segment.2, 1⟩ else ⟨spans.2.start, spans.2.len + 1⟩
      (if spans.1.len < current.len then current else spans.1, current)
    else (spans.1, {})) ({}, {})).1

def displayV4 (octets : List.Vector UInt8 4) : Text :=
  ['.'].intercalate (octets.toList.map fun b => Nat.toDigits 10 b.toNat)

def displaySegments (chunk : List Nat) : Text :=
  [':'].intercalate (chunk.map (Nat.toDigits 16))

def displayV6 (octets : List.Vector UInt8 16) : Text :=
  match toIpv4Mapped octets with
  | some ipv4 => "::ffff:".toList ++ displayV4 ipv4
  | none =>
      let segments := segments octets.toList
      let zeroes := longestZeroes segments
      if 1 < zeroes.len then
        displaySegments (segments.take zeroes.start) ++ "::".toList ++
          displaySegments (segments.drop (zeroes.start + zeroes.len))
      else displaySegments segments

def display : IpAddr → Text
  | .v4 octets => displayV4 octets
  | .v6 octets => displayV6 octets

section Proofs

variable {c : Char}

/-- What an address is written with. -/
def IsAddrChar (c : Char) : Prop :=
  isHexDigit c = true ∨ c = '.' ∨ c = ':'

theorem mem_toDigits {radix n : Nat} (hlow : 1 < radix) (hradix : radix ≤ 16)
    (hc : c ∈ Nat.toDigits radix n) : isHexDigit c = true := by
  have hdigit : ∀ d < 16, isHexDigit d.digitChar = true := by decide
  induction n using Nat.strong_induction_on with
  | _ n ih =>
      rw [Nat.toDigits_eq_if hlow] at hc
      split_ifs at hc with hn
      · rw [List.mem_singleton.1 hc]
        exact hdigit n (by omega)
      · rcases List.mem_append.1 hc with hc | hc
        · exact ih _ (Nat.div_lt_self (by omega) hlow) hc
        · rw [List.mem_singleton.1 hc]
          exact hdigit _ ((Nat.mod_lt _ (by omega)).trans_le hradix)

theorem displayV4_chars {octets : List.Vector UInt8 4} (hc : c ∈ displayV4 octets) : IsAddrChar c := by
  rcases mem_intercalate hc with rfl | ⟨part, hpart, hc⟩
  · exact .inr (.inl rfl)
  · obtain ⟨b, -, rfl⟩ := List.mem_map.1 hpart
    exact .inl (mem_toDigits (by decide) (by decide) hc)

theorem displaySegments_chars {chunk : List Nat} (hc : c ∈ displaySegments chunk) : IsAddrChar c := by
  rcases mem_intercalate hc with rfl | ⟨part, hpart, hc⟩
  · exact .inr (.inr rfl)
  · obtain ⟨n, -, rfl⟩ := List.mem_map.1 hpart
    exact .inl (mem_toDigits (by decide) (by decide) hc)

theorem displayV6_chars {octets : List.Vector UInt8 16} (hc : c ∈ displayV6 octets) : IsAddrChar c := by
  have hfront : ∀ c ∈ "::ffff:".toList, IsAddrChar c := by
    intro c hc
    have hchar : ∀ c ∈ "::ffff:".toList, c = ':' ∨ c = 'f' := by decide
    rcases hchar c hc with rfl | rfl
    · exact .inr (.inr rfl)
    · exact .inl (by decide)
  have hmid : ∀ c ∈ "::".toList, c = ':' := by decide
  unfold displayV6 at hc
  split at hc
  · exact (List.mem_append.1 hc).elim (hfront c) displayV4_chars
  · dsimp only at hc
    split_ifs at hc
    · rcases List.mem_append.1 hc with hc | hc
      · exact (List.mem_append.1 hc).elim displaySegments_chars fun hc => .inr (.inr (hmid c hc))
      · exact displaySegments_chars hc
    · exact displaySegments_chars hc

/-- **What an address is written with.** -/
theorem display_chars {ip : IpAddr} (hc : c ∈ display ip) : IsAddrChar c := by
  cases ip with
  | v4 octets => exact displayV4_chars hc
  | v6 octets => exact displayV6_chars hc

theorem display_ne_nil (ip : IpAddr) : display ip ≠ [] := by
  cases ip with
  | v4 octets =>
      obtain ⟨bytes, hlen⟩ := octets
      cases bytes with
      | nil => exact absurd hlen (by decide)
      | cons b bytes => exact intercalate_ne_nil Nat.toDigits_ne_nil
  | v6 octets =>
      change displayV6 octets ≠ []
      unfold displayV6
      split
      · exact fun h => absurd (List.append_eq_nil_iff.1 h).1 (by decide)
      · dsimp only
        split_ifs
        · intro h
          exact absurd (List.append_eq_nil_iff.1 (List.append_eq_nil_iff.1 h).1).2 (by decide)
        · obtain ⟨bytes, hlen⟩ := octets
          match bytes, hlen with
          | hi :: lo :: bytes, _ => exact intercalate_ne_nil Nat.toDigits_ne_nil

end Proofs

end IpAddr
end AuroraVpn
