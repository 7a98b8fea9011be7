import AuroraVpn.Masque.Receive

/-!
# Transport — IP packets over the HTTP/2 tunnel, end to end

`pumpOutbound` gathers queued packets into frames of datagram capsules; the far side receives the
same bytes cut at arbitrary places.  The main result, `transport_lossless`, is that the packets
come out of `CapsuleParser` and `stripDatagramContext` exactly as they went in.

The context id is the delicate part.  Datagrams are written without one, and the receive path takes
one off if it thinks it sees one.  It cannot see one in front of an IP packet: the first byte of a
packet has the top bits of a two-byte varint, and version and header length make its value nonzero
(`strip_ipPacket`).
-/

namespace AuroraVpn
namespace Masque

open Octets BigEndian Framing

def H2_SEND_BATCH_BYTES : Nat := 32 * 1024

/-! ## The send path -/

/-- What wakes `pump_outbound` up: a framed capsule or the end from the control channel, or a
packet, with the number of packets already queued behind it. -/
inductive Turn
  | control (framed : Bytes)
  | finish
  | packet (queued : Nat)
  deriving DecidableEq, Repr

/-- `while batch.len() < H2_SEND_BATCH_BYTES { .. }` over the packets queued right now. -/
def gather (batch : Bytes) : Nat → List Bytes → Bytes × List Bytes
  | 0, outbound => (batch, outbound)
  | _ + 1, [] => (batch, [])
  | queued + 1, next :: outbound =>
      if batch.length < H2_SEND_BATCH_BYTES then
        gather (appendDatagramCapsule batch next) queued outbound
      else
        (batch, next :: outbound)

/-- `send_capsule` sends nothing for an empty capsule. -/
def sendCapsule (data : Bytes) : List Bytes :=
  if data.length = 0 then [] else [data]

/-- The frames `pump_outbound` puts on the stream, and the packets still in its queue. -/
def pumpOutbound : List Turn → List Bytes → List Bytes × List Bytes
  | [], outbound => ([], outbound)
  | .finish :: _, outbound => ([], outbound)
  | .control framed :: turns, outbound =>
      let (frames, left) := pumpOutbound turns outbound
      (sendCapsule framed ++ frames, left)
  | .packet _ :: _, [] => ([], [])
  | .packet queued :: turns, packet :: outbound =>
      let (batch, outbound) := gather (appendDatagramCapsule [] packet) queued outbound
      let (frames, left) := pumpOutbound turns outbound
      (sendCapsule batch ++ frames, left)

theorem flatten_sendCapsule (data : Bytes) : (sendCapsule data).flatten = data := by
  unfold sendCapsule
  split
  · rename_i hlen
    rw [List.eq_nil_of_length_eq_zero hlen]
    rfl
  · simp

/-- The capsules of a list of packets, one behind the other. -/
def datagramStream (packets : List Bytes) : Bytes :=
  (packets.map encodeDatagramCapsule).flatten

theorem gather_stream :
    ∀ (queued : Nat) (batch : Bytes) (outbound : List Bytes),
      (gather batch queued outbound).1 ++ datagramStream (gather batch queued outbound).2 =
        batch ++ datagramStream outbound := by
  intro queued
  induction queued with
  | zero => intros; rfl
  | succ queued ih =>
      intro batch outbound
      cases outbound with
      | nil => rfl
      | cons next outbound =>
          unfold gather
          split
          · rw [ih, appendDatagramCapsule, appendCapsule_append]
            simp [datagramStream, encodeDatagramCapsule]
          · rfl

/-- However the packets are grouped, the frames carry their capsules in order. -/
theorem pumpOutbound_stream :
    ∀ (queued : List Nat) (outbound : List Bytes),
      (pumpOutbound (queued.map .packet) outbound).1.flatten ++
          datagramStream (pumpOutbound (queued.map .packet) outbound).2 =
        datagramStream outbound := by
  intro queued
  induction queued with
  | nil => intros; rfl
  | cons n queued ih =>
      intro outbound
      cases outbound with
      | nil => rfl
      | cons packet outbound =>
          have hgather := gather_stream n (appendDatagramCapsule [] packet) outbound
          simp only [List.map_cons, pumpOutbound, List.flatten_append, flatten_sendCapsule,
            List.append_assoc]
          rw [ih, hgather, appendDatagramCapsule, appendCapsule_append]
          simp [datagramStream, encodeDatagramCapsule]

/-! ## IP packets -/

/-- An IPv4 packet with a whole header, or an IPv6 packet. -/
def IsIpPacket (packet : Bytes) : Prop :=
  (∃ first ∈ packet.head?, (first >>> 4 = 4 ∧ 5 ≤ first &&& 0x0f) ∨ first >>> 4 = 6) ∧
    20 ≤ packet.length ∧ packet.length ≤ 65535

/-- A packet that the tunnel may be given. -/
abbrev IpPacket := {packet : Bytes // IsIpPacket packet}

theorem looksLikeIpPacket_of_isIpPacket {packet : Bytes} :
    IsIpPacket packet → looksLikeIpPacket packet = true := by
  rintro ⟨⟨first, hfirst, hversion⟩, hlen, _⟩
  have hnibble : (first >>> 4 == 4 || first >>> 4 == 6) = true := by
    rcases hversion with ⟨h4, _⟩ | h6
    · simp [h4]
    · simp [h6]
  simp [looksLikeIpPacket, Option.mem_def.1 hfirst, hnibble, hlen]

/-- The first byte of an IP packet is that of a two-byte varint, and not the least such byte. -/
theorem first_byte_bounds {first : UInt8} :
    (first >>> 4 = 4 ∧ 5 ≤ first &&& 0x0f) ∨ first >>> 4 = 6 →
      64 < first.toNat ∧ first.toNat < 128 := by
  intro h
  have hshift : (first >>> 4).toNat = first.toNat / 16 := by
    rw [UInt8.toNat_shiftRight]
    exact Nat.shiftRight_eq_div_pow _ _
  have hand : (first &&& 0x0f).toNat = first.toNat % 16 := by
    rw [UInt8.toNat_and]
    exact Nat.and_two_pow_sub_one_eq_mod _ 4
  rcases h with ⟨h4, hihl⟩ | h6
  · have hdiv := congrArg UInt8.toNat h4
    have hmod : 5 ≤ (first &&& 0x0f).toNat := UInt8.le_iff_toNat_le.1 hihl
    rw [hshift] at hdiv
    rw [hand] at hmod
    have h4' : (4 : UInt8).toNat = 4 := rfl
    omega
  · have hdiv := congrArg UInt8.toNat h6
    rw [hshift] at hdiv
    have h6' : (6 : UInt8).toNat = 6 := rfl
    omega

/-- No IP packet starts with the context id of a datagram. -/
theorem getVarint_ipPacket {packet : Bytes} :
    IsIpPacket packet → ∃ ctx inner, getVarint packet = some (ctx, inner) ∧ ctx ≠ 0 := by
  rintro ⟨⟨first, hfirst, hversion⟩, hlen, _⟩
  obtain ⟨hlo, hhi⟩ := first_byte_bounds hversion
  obtain ⟨second, tail, rfl⟩ : ∃ second tail, packet = first :: second :: tail := by
    match packet, hfirst, hlen with
    | a :: b :: tail, hfirst, _ =>
        have ha : a = first := by simpa using hfirst
        exact ⟨b, tail, by rw [ha]⟩
  have hparse : varintParseLen first = 2 := by
    rw [varintParseLen_eq]
    split_ifs <;> omega
  have hget : getU 2 (first :: second :: tail) =
      some (first.toNat * 256 + second.toNat, tail) := by
    simp [getU, ofBe]
  refine ⟨_, tail, by rw [getVarint_cons, hparse, hget]; rfl, ?_⟩
  show (first.toNat * 256 + second.toNat) &&& (2 ^ 14 - 1) ≠ 0
  have hsecond : second.toNat < 256 := second.toNat_lt
  rw [Nat.and_two_pow_sub_one_eq_mod]
  omega

/-- **The context-id heuristic never eats the first bytes of a packet.** -/
theorem strip_ipPacket {packet : Bytes} :
    IsIpPacket packet → stripDatagramContext packet = some packet := by
  intro hip
  obtain ⟨ctx, inner, hget, hctx⟩ := getVarint_ipPacket hip
  have hne : packet.isEmpty = false := by
    cases packet with
    | nil => cases hget
    | cons _ _ => rfl
  simp [stripDatagramContext, hne, hget, CONNECT_IP_CONTEXT_ID, hctx,
    looksLikeIpPacket_of_isIpPacket hip]

/-! ## End to end -/

/-- A packet's datagram capsule, as an item of the stream. -/
def datagramItem (packet : IpPacket) : CapsuleItem where
  bytes := encodeDatagramCapsule packet.1
  value := (CAPSULE_DATAGRAM, packet.1)
  frame := by
    have hlen : packet.1.length ≤ 65535 := packet.2.2.2
    have hread := @takeCapsule_wire CAPSULE_DATAGRAM _ _ packet.1
      (isVarintLen_varintLen _) (isVarintLen_varintLen _) (varintLen_fits (by decide))
      (varintLen_fits (by omega)) []
    rw [Frame, encodeDatagramCapsule, encodeCapsule, appendCapsule_eq]
    simpa using hread

theorem length_datagramItem (packet : IpPacket) : (datagramItem packet).bytes.length ≤ 65540 := by
  have hlen : packet.1.length ≤ 65535 := packet.2.2.2
  have hlv : varintLen packet.1.length ≤ 4 := by
    unfold varintLen
    split_ifs <;> omega
  have hkind : varintLen CAPSULE_DATAGRAM = 1 := rfl
  simp only [datagramItem, encodeDatagramCapsule, encodeCapsule, appendCapsule_eq,
    List.nil_append, List.length_append, length_varintBytes (isVarintLen_varintLen _)]
  omega

theorem wire_datagramItem (packets : List IpPacket) :
    wire (packets.map datagramItem) = datagramStream (packets.map Subtype.val) := by
  simp only [wire, datagramStream, List.map_map]
  rfl

/-- **The HTTP/2 capsule transport is lossless.**  Packets pumped out in any batches, received in
any chunks of at most 128 KiB, come out in order and unchanged; no capsule is reported as an error
and the receive buffer is never reset. -/
theorem transport_lossless (packets : List IpPacket) (queued : List Nat) (chunks : List Bytes)
    (hpumped : (pumpOutbound (queued.map .packet) (packets.map Subtype.val)).2 = [])
    (hcut : chunks.flatten = (pumpOutbound (queued.map .packet) (packets.map Subtype.val)).1.flatten)
    (hchunk : ∀ c ∈ chunks, c.length ≤ 128 * 1024) :
    resets .new chunks = false ∧
      (receive .new chunks).1 = packets.map (fun p => .ok (.datagram p.1)) ∧
      (datagrams (receive .new chunks).1).map stripDatagramContext =
        packets.map (fun p => some p.1) := by
  have hstream := pumpOutbound_stream queued (packets.map Subtype.val)
  -- what was pumped out is the stream of the capsules, whatever had been queued
  have hwire : chunks.flatten = wire (packets.map datagramItem) := by
    rw [wire_datagramItem, ← hstream, hpumped, hcut]
    simp [datagramStream]
  have hok : ∀ w ∈ packets.map datagramItem, malformed w.value = false := by
    intro w hw
    obtain ⟨packet, _, rfl⟩ := List.mem_map.1 hw
    rfl
  have hreset : resets .new chunks = false := by
    refine @resets_eq_false_of_frames [] chunks .new (packets.map datagramItem) hok ?_ ?_
      takeCapsule_incremental.nil_eq_none ?_
    -- every capsule is short, so a chunk of 128 KiB fits beside any part of one
    · intro w hw c hc
      obtain ⟨packet, _, rfl⟩ := List.mem_map.1 hw
      have hlen := length_datagramItem packet
      have hc := hchunk c hc
      simp only [MAX_CAPSULE_BUF]
      omega
    · intro c hc
      have hc := hchunk c hc
      simp only [MAX_CAPSULE_BUF]
      omega
    · simpa [CapsuleParser.new] using hwire
  have hreport : (receive .new chunks).1 = packets.map (fun p => .ok (.datagram p.1)) := by
    rw [receive_all hok hwire hreset, List.map_map]
    rfl
  refine ⟨hreset, hreport, ?_⟩
  -- the reports are the datagrams, each with the context that is stripped
  have hpayloads : datagrams (receive .new chunks).1 = packets.map Subtype.val := by
    rw [hreport, datagrams, List.filterMap_map]
    simp
  rw [hpayloads, List.map_map]
  exact List.map_congr_left fun packet _ => strip_ipPacket packet.2

/-- A bare IPv4 header, the smallest packet there is. -/
def bareHeader : IpPacket :=
  ⟨0x45 :: List.replicate 19 0, ⟨⟨0x45, rfl, Or.inl (by decide)⟩, by decide, by decide⟩⟩

/-- Two packets sent as one batch, cut inside the second capsule's header. -/
theorem transport_lossless_two :
    resets .new [(encodeDatagramCapsule bareHeader.1) ++ [0], 20 :: bareHeader.1] = false ∧
      (receive .new [(encodeDatagramCapsule bareHeader.1) ++ [0], 20 :: bareHeader.1]).1 =
        [bareHeader, bareHeader].map (fun p => .ok (.datagram p.1)) ∧
      (datagrams (receive .new
          [(encodeDatagramCapsule bareHeader.1) ++ [0], 20 :: bareHeader.1]).1).map
          stripDatagramContext = [bareHeader, bareHeader].map (fun p => some p.1) :=
  transport_lossless [bareHeader, bareHeader] [1] _ (by decide) (by decide) (by decide)

end Masque
end AuroraVpn
