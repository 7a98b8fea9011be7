import AuroraVpn.Dns.Query
import AuroraVpn.Lib.Draws
import AuroraVpn.Lib.OnesComplement
import AuroraVpn.Lib.Text
import Mathlib.Data.Vector.Basic

/-!
# Probe — the packet that asks whether a tunnel carries data

`build_dns_query`, `ipv4_checksum` and `build_dataplane_probe` of `wireguard.rs`.

* `readUdp_buildDataplaneProbe`: a reader of the internet protocol takes every probe for the query that it is.
-/

namespace AuroraVpn
namespace WireGuard

open BigEndian Draws

/-! ## Writing -/

/-- `rand::random::<u16>()`. -/
def randomU16 : Drawing UInt16 := do
  let n ← between 0 65535
  pure (UInt16.ofNat n)

def probeLabels : List Text :=
  ["cloudflare".toList, "com".toList]

/-- The query of the probe, which asks for an address. -/
def buildDnsQuery (id : UInt16) : Bytes :=
  Dns.queryFor probeLabels 1 id

def ipv4Checksum (header : Bytes) : Nat :=
  OnesComplement.checksum header

/-- The header in front of its checksum. -/
def ipv4Front (totalLen : Nat) (id : UInt16) : Bytes :=
  [0x45, 0x00] ++ toBe 2 totalLen ++ toBe 2 id.toNat ++ [0x00, 0x00] ++ [64] ++ [17]

def ipv4Addrs (src : List.Vector UInt8 4) : Bytes :=
  src.toList ++ [8, 8, 8, 8]

def ipv4Header (src : List.Vector UInt8 4) (totalLen : Nat) (id : UInt16) : Bytes :=
  let csum := ipv4Checksum (ipv4Front totalLen id ++ [0x00, 0x00] ++ ipv4Addrs src)
  ipv4Front totalLen id ++ toBe 2 csum ++ ipv4Addrs src

def udpHeader (sport udpLen : Nat) : Bytes :=
  toBe 2 sport ++ toBe 2 53 ++ toBe 2 udpLen ++ [0x00, 0x00]

def buildDataplaneProbe (src : List.Vector UInt8 4) : Drawing Bytes := do
  let queryId ← randomU16
  let dns := buildDnsQuery queryId
  let udpLen := 8 + dns.length
  let totalLen := 20 + udpLen
  let id ← randomU16
  let sport ← between 20000 59999
  pure (ipv4Header src totalLen id ++ udpHeader sport udpLen ++ dns)

/-! ## Reading -/

structure Datagram where
  src : Bytes
  dst : Bytes
  sport : Nat
  dport : Nat
  payload : Bytes
  deriving DecidableEq

/-- `n` bytes of a packet, from a place on. -/
def field (pkt : Bytes) (i n : Nat) : Bytes :=
  (pkt.drop i).take n

/-- A packet of the internet protocol that is whole, undamaged and one datagram. -/
def readUdp (pkt : Bytes) : Option Datagram :=
  if field pkt 0 1 = [0x45] ∧ ofBe (field pkt 2 2) = pkt.length ∧ ofBe (field pkt 6 2) % 0x4000 = 0 ∧
      field pkt 9 1 = [17] ∧ OnesComplement.checksum (field pkt 0 20) = 0 ∧
      ofBe (field pkt 24 2) + 20 = pkt.length then
    some ⟨field pkt 12 4, field pkt 16 4, ofBe (field pkt 20 2), ofBe (field pkt 22 2), pkt.drop 28⟩
  else none

section Proofs

variable {src : List.Vector UInt8 4} {totalLen sport udpLen i n : Nat} {id : UInt16} {front part rest pkt : Bytes}

theorem field_append (hfront : front.length = i) (hpart : part.length = n) :
    field (front ++ (part ++ rest)) i n = part := by
  rw [field, List.drop_left' hfront, List.take_left' hpart]

/-- A part of the front of a packet. -/
theorem field_front (hwithin : i + n ≤ front.length) : field (front ++ rest) i n = field front i n := by
  have hdrop : (front ++ rest).drop i = front.drop i ++ rest := List.drop_append_of_le_length (by omega)
  rw [field, field, hdrop]
  apply List.take_append_of_le_length
  rw [List.length_drop]
  omega

@[simp] theorem length_ipv4Front : (ipv4Front totalLen id).length = 10 := by
  simp [ipv4Front]

@[simp] theorem length_ipv4Addrs : (ipv4Addrs src).length = 8 := by
  simp [ipv4Addrs]

@[simp] theorem length_ipv4Header : (ipv4Header src totalLen id).length = 20 := by
  simp [ipv4Header]

@[simp] theorem length_udpHeader : (udpHeader sport udpLen).length = 8 := by
  simp [udpHeader]

theorem length_buildDnsQuery (id : UInt16) : (buildDnsQuery id).length = 32 := by
  have hlabels : probeLabels = [['c', 'l', 'o', 'u', 'd', 'f', 'l', 'a', 'r', 'e'], ['c', 'o', 'm']] := by
    rw [probeLabels, toList_literal rfl, toList_literal rfl]
  rw [buildDnsQuery, hlabels, Dns.queryFor]
  simp only [List.length_append, length_toBe]
  rfl

/-- The fields of the header, but for its checksum. -/
theorem fields_ipv4Header (src : List.Vector UInt8 4) (id : UInt16) (htotal : totalLen < 65536) :
    field (ipv4Header src totalLen id) 0 1 = [0x45] ∧ ofBe (field (ipv4Header src totalLen id) 2 2) = totalLen ∧
      ofBe (field (ipv4Header src totalLen id) 6 2) % 0x4000 = 0 ∧
      field (ipv4Header src totalLen id) 9 1 = [17] ∧
      field (ipv4Header src totalLen id) 12 4 = src.toList ∧
      field (ipv4Header src totalLen id) 16 4 = [8, 8, 8, 8] := by
  have hlength : field (ipv4Header src totalLen id) 2 2 = toBe 2 totalLen := rfl
  have hfragment : field (ipv4Header src totalLen id) 6 2 = [0x00, 0x00] := rfl
  refine ⟨rfl, ?_, ?_, rfl, ?_, ?_⟩
  · rw [hlength, ofBe_toBe]
    exact Nat.mod_eq_of_lt htotal
  · rw [hfragment]
    rfl
  · apply field_append
    · simp
    · exact src.toList_length
  · have hfront (csum : Bytes) (hcsum : csum.length = 2) :
        (ipv4Front totalLen id ++ csum ++ src.toList).length = 16 := by
      simp [hcsum]
    rw [ipv4Header, ipv4Addrs, ← List.append_assoc, ← List.append_nil [8, 8, 8, 8]]
    exact field_append (hfront _ (length_toBe 2 _)) rfl

/-- The checksum makes the header add up. -/
theorem checksum_ipv4Header : OnesComplement.checksum (ipv4Header src totalLen id) = 0 := by
  apply OnesComplement.checksum_filled
  rw [length_ipv4Front]
  decide

theorem readUdp_packet {payload : Bytes} (hsport : sport < 65536) (hpayload : payload.length = 32) :
    readUdp (ipv4Header src 60 id ++ udpHeader sport 40 ++ payload) =
      some ⟨src.toList, [8, 8, 8, 8], sport, 53, payload⟩ := by
  have hheader : (ipv4Header src 60 id).length = 20 := length_ipv4Header
  have hwhole : (ipv4Header src 60 id ++ udpHeader sport 40 ++ payload).length = 60 := by
    simp [hpayload]
  -- a field of the IPv4 header lies in the first twenty octets
  have hfront : ∀ i n, i + n ≤ 20 → field (ipv4Header src 60 id ++ udpHeader sport 40 ++ payload) i n =
      field (ipv4Header src 60 id) i n := by
    intro i n hwithin
    rw [List.append_assoc]
    exact field_front (by omega)
  -- a field of the UDP header lies behind them
  have hports (part back : Bytes) (i : Nat) (front : Bytes) (hudp : udpHeader sport 40 = front ++ (part ++ back))
      (hi : front.length = i) : field (ipv4Header src 60 id ++ udpHeader sport 40 ++ payload) (20 + i) part.length =
        part := by
    rw [hudp, List.append_assoc, List.append_assoc, List.append_assoc, ← List.append_assoc (ipv4Header src 60 id)]
    apply field_append _ rfl
    rw [List.length_append, hheader, hi]
  have hsource := hports (toBe 2 sport) (toBe 2 53 ++ toBe 2 40 ++ [0x00, 0x00]) 0 [] rfl rfl
  have hdest := hports (toBe 2 53) (toBe 2 40 ++ [0x00, 0x00]) 2 (toBe 2 sport) rfl rfl
  have hlen := hports (toBe 2 40) [0x00, 0x00] 4 (toBe 2 sport ++ toBe 2 53) rfl rfl
  have hall : field (ipv4Header src 60 id) 0 20 = ipv4Header src 60 id := by
    rw [field, List.drop_zero, List.take_of_length_le hheader.le]
  have hrest : (ipv4Header src 60 id ++ udpHeader sport 40 ++ payload).drop 28 = payload := by
    apply List.drop_left'
    simp
  have hsmall : 60 < 65536 := by decide
  obtain ⟨hversion, htotal, hfragment, hprotocol, hsrc, hdst⟩ := fields_ipv4Header src id hsmall
  -- what the reader checks
  have hchecks : field (ipv4Header src 60 id ++ udpHeader sport 40 ++ payload) 9 1 = [17] ∧
      OnesComplement.checksum (field (ipv4Header src 60 id ++ udpHeader sport 40 ++ payload) 0 20) = 0 ∧
      ofBe (field (ipv4Header src 60 id ++ udpHeader sport 40 ++ payload) 24 2) + 20 = 60 := by
    refine ⟨(hfront 9 1 (by decide)).trans hprotocol, ?_, ?_⟩
    · rw [hfront 0 20 (by decide), hall]
      exact checksum_ipv4Header
    · rw [show field (ipv4Header src 60 id ++ udpHeader sport 40 ++ payload) 24 2 = toBe 2 40 from hlen, ofBe_toBe]
      rfl
  -- the two ports
  have hports' : ofBe (field (ipv4Header src 60 id ++ udpHeader sport 40 ++ payload) 20 2) = sport ∧
      ofBe (field (ipv4Header src 60 id ++ udpHeader sport 40 ++ payload) 22 2) = 53 := by
    refine ⟨?_, ?_⟩
    · rw [show field (ipv4Header src 60 id ++ udpHeader sport 40 ++ payload) 20 2 = toBe 2 sport from hsource,
        ofBe_toBe]
      exact Nat.mod_eq_of_lt hsport
    · rw [show field (ipv4Header src 60 id ++ udpHeader sport 40 ++ payload) 22 2 = toBe 2 53 from hdest, ofBe_toBe]
      rfl
  -- all checks pass, and the fields are those that were written
  unfold readUdp
  rw [hwhole, if_pos]
  · rw [hfront 12 4 (by decide), hfront 16 4 (by decide), hsrc, hdst, hports'.1, hports'.2, hrest]
  · rw [hfront 0 1 (by decide), hfront 2 2 (by decide), hfront 6 2 (by decide)]
    exact ⟨hversion, htotal, hfragment, hchecks⟩

/-- **A reader takes every probe for the query that it is.** -/
theorem readUdp_buildDataplaneProbe (src : List.Vector UInt8 4) :
    Always (buildDataplaneProbe src) fun pkt => ∃ queryId sport, 20000 ≤ sport ∧ sport < 60000 ∧
      readUdp pkt = some ⟨src.toList, [8, 8, 8, 8], sport, 53, buildDnsQuery queryId⟩ := by
  apply always_bind (always_true randomU16)
  intro queryId _
  apply always_bind (always_true randomU16)
  intro id _
  apply always_bind (always_between (by decide))
  intro sport hsport
  apply always_pure
  refine ⟨queryId, sport, hsport.1, by omega, ?_⟩
  simp only [length_buildDnsQuery]
  exact readUdp_packet (by omega) (length_buildDnsQuery queryId)

end Proofs

end WireGuard
end AuroraVpn
