import AuroraVpn.Masque.Capsule

/-!
# Datagram — IP packets in the datagrams of an HTTP/3 tunnel

A datagram carries the quarter of its stream's id, the connect-ip context id and the packet.

* `decodeIpDatagram_eq_some`: the datagrams that are read as a packet of a stream.
* `ipDatagram_codec`: a packet comes out of the stream it was put in and of no other one.
-/

namespace AuroraVpn
namespace Masque

open Octets

def quarterStreamId (streamId : UInt64) : UInt64 :=
  streamId / 4

/-- The slice has room for exactly the two varints and the packet. -/
def encodeIpDatagram (streamId : UInt64) (ipPacket : Bytes) : Except AetherError Bytes := do
  let qsid := (quarterStreamId streamId).toNat
  let ctx := CONNECT_IP_CONTEXT_ID
  let b := OctetsMut.withSlice (varintLen qsid + varintLen ctx + ipPacket.length)
  let b ← orShort (b.putVarint qsid)
  let b ← orShort (b.putVarint ctx)
  let b ← orShort (b.putBytes ipPacket)
  pure b.slice

def decodeIpDatagram (datagram : Bytes) (expectStreamId : UInt64) :
    Except AetherError (Option Bytes) := do
  let (qsid, b) ← orShort (getVarint datagram)
  if qsid ≠ (quarterStreamId expectStreamId).toNat then
    pure none
  else
    let (ctx, b) ← orShort (getVarint b)
    if ctx ≠ CONNECT_IP_CONTEXT_ID then
      pure none
    else
      -- everything that is left
      let (payload, _) ← orShort (getBytes b.length b)
      pure (some payload)

variable {streamId other : UInt64} {datagram ipPacket : Bytes}

/-- The quarter of an id is within what a varint can hold. -/
theorem quarterStreamId_fits (streamId : UInt64) :
    (quarterStreamId streamId).toNat < 64 * 256 ^ 7 := by
  have hid : streamId.toNat < 2 ^ 64 := streamId.toNat_lt
  calc (quarterStreamId streamId).toNat = streamId.toNat / 4 := UInt64.toNat_div streamId 4
    _ < 64 * 256 ^ 7 := by
        apply Nat.div_lt_of_lt_mul
        exact hid

theorem isVarint_varintLen {v : Nat} (hv : v < 64 * 256 ^ 7) :
    IsVarint v (varintBytes v (varintLen v)) :=
  ⟨varintLen v, isVarintLen_varintLen v, varintLen_fits hv, rfl⟩

/-- The writes fill the slice. -/
theorem encodeIpDatagram_eq (streamId : UInt64) (ipPacket : Bytes) :
    encodeIpDatagram streamId ipPacket =
      .ok (varintBytes (quarterStreamId streamId).toNat (varintLen (quarterStreamId streamId).toNat) ++
        (varintBytes CONNECT_IP_CONTEXT_ID (varintLen CONNECT_IP_CONTEXT_ID) ++ ipPacket)) := by
  unfold encodeIpDatagram OctetsMut.withSlice
  generalize (quarterStreamId streamId).toNat = qsid
  generalize CONNECT_IP_CONTEXT_ID = ctx
  have hroom : varintLen qsid + varintLen ctx + ipPacket.length - varintLen qsid - varintLen ctx =
      ipPacket.length := by omega
  dsimp only
  rw [putVarint_of_room (v := qsid) (Nat.le_add_right_of_le (Nat.le_add_right _ _))]
  dsimp only [orShort, pure, Except.pure, bind, Except.bind]
  rw [putVarint_of_room (v := ctx) (by dsimp only; omega)]
  simp [OctetsMut.putBytes, OctetsMut.slice, hroom]

/-- **The datagrams read as a packet of a stream.** -/
theorem decodeIpDatagram_eq_some :
    decodeIpDatagram datagram streamId = .ok (some ipPacket) ↔
      ∃ qsid ctx, IsVarint (quarterStreamId streamId).toNat qsid ∧
        IsVarint CONNECT_IP_CONTEXT_ID ctx ∧ datagram = qsid ++ (ctx ++ ipPacket) := by
  constructor
  -- the two numbers are read and compared one after the other, each with its own error
  · intro h
    obtain ⟨⟨q, b⟩, hq, h⟩ := bind_eq_ok.1 h
    dsimp only at h
    split_ifs at h with hstream
    · cases h
    obtain ⟨⟨c, b'⟩, hc, h⟩ := bind_eq_ok.1 h
    dsimp only at h
    split_ifs at h with hctx
    · cases h
    obtain ⟨⟨payload, rest⟩, hpayload, h⟩ := bind_eq_ok.1 h
    cases h
    obtain ⟨qsid, hqsid, rfl⟩ := getVarint_eq_some.1 (orShort_eq_ok.1 hq)
    obtain ⟨ctx, hctx', rfl⟩ := getVarint_eq_some.1 (orShort_eq_ok.1 hc)
    -- what is left is copied as a whole: `get_bytes` is asked for all of it
    have hwhole : payload = b' := by
      have hbytes := orShort_eq_ok.1 hpayload
      simp only [getBytes, lt_irrefl, if_false, List.take_length] at hbytes
      cases hbytes
      rfl
    rw [hwhole]
    exact ⟨qsid, ctx, not_not.1 hstream ▸ hqsid, not_not.1 hctx ▸ hctx', rfl⟩
  -- numbers that are written in any of their forms are read back
  · rintro ⟨qsid, ctx, hqsid, hctx, rfl⟩
    have hq := getVarint_eq_some.2 ⟨qsid, hqsid, @rfl _ (qsid ++ (ctx ++ ipPacket))⟩
    have hc := getVarint_eq_some.2 ⟨ctx, hctx, @rfl _ (ctx ++ ipPacket)⟩
    simp [decodeIpDatagram, hq, hc, orShort, getBytes]
    rfl

/-- A datagram of another stream is not looked into. -/
theorem decodeIpDatagram_other {qsid rest : Bytes}
    (hqsid : IsVarint (quarterStreamId streamId).toNat qsid)
    (hother : quarterStreamId other ≠ quarterStreamId streamId) :
    decodeIpDatagram (qsid ++ rest) other = .ok none := by
  have hq := getVarint_eq_some.2 ⟨qsid, hqsid, @rfl _ (qsid ++ rest)⟩
  have hne : (quarterStreamId streamId).toNat ≠ (quarterStreamId other).toNat := fun h =>
    hother (UInt64.toNat_inj.1 h.symm)
  simp [decodeIpDatagram, hq, hne, orShort, pure, Except.pure, bind, Except.bind]

/-- **The datagram codec.**  A packet comes out of the stream it was put in, whole; no stream with
another quarter id takes the datagram for its own; and what a stream takes for a packet is that
packet behind the quarter id and the context id, each in one of its spellings. -/
theorem ipDatagram_codec (streamId : UInt64) (ipPacket : Bytes) :
    (∃ datagram, encodeIpDatagram streamId ipPacket = .ok datagram ∧
      decodeIpDatagram datagram streamId = .ok (some ipPacket) ∧
      ∀ other, quarterStreamId other ≠ quarterStreamId streamId →
        decodeIpDatagram datagram other = .ok none) ∧
    ∀ datagram, decodeIpDatagram datagram streamId = .ok (some ipPacket) ↔
      ∃ qsid ctx, IsVarint (quarterStreamId streamId).toNat qsid ∧
        IsVarint CONNECT_IP_CONTEXT_ID ctx ∧ datagram = qsid ++ (ctx ++ ipPacket) := by
  have hqsid := isVarint_varintLen (quarterStreamId_fits streamId)
  have hctx : IsVarint CONNECT_IP_CONTEXT_ID _ := isVarint_varintLen (by decide)
  refine ⟨⟨_, encodeIpDatagram_eq streamId ipPacket, ?_, fun other hother => ?_⟩, fun datagram => ?_⟩
  · exact decodeIpDatagram_eq_some.2 ⟨_, _, hqsid, hctx, rfl⟩
  · exact decodeIpDatagram_other hqsid hother
  · exact decodeIpDatagram_eq_some

/-- A quarter id that needs two bytes, and the same datagram with the id in four. -/
example : decodeIpDatagram [0x40, 0x40, 0x00, 0x45] 256 = .ok (some [0x45]) ∧
    decodeIpDatagram [0x80, 0x00, 0x00, 0x40, 0x00, 0x45] 256 = .ok (some [0x45]) := by decide

end Masque
end AuroraVpn
