import AuroraVpn.Lib.IpAddr
import AuroraVpn.Masque.H2

/-!
# Drain — what a call of `drain_capsules` leaves behind

`drainInbound` says whether the call delivered anything; here it keeps what it hands on as well, the
packets offered to the inbound queue and the addresses the edge assigned.

* `drainInto_frames`: the drain gets to the first capsule that it cannot read.
* `leavesNothing_iff`: when a drain leaves no whole capsule in the buffer.
-/

namespace AuroraVpn
namespace Masque

open Octets Framing H2

structure AssignedAddr where
  ip : IpAddr
  prefixLen : UInt8
  deriving DecidableEq

/-- `bytes_to_ip`. -/
def bytesToIp (version : UInt8) (bytes : Bytes) : Option IpAddr :=
  match version with
  | 4 => if h : bytes.length = 4 then some (.v4 ⟨bytes, h⟩) else none
  | 6 => if h : bytes.length = 16 then some (.v6 ⟨bytes, h⟩) else none
  | _ => none

/-- The addresses of a capsule that are passed on. -/
def assignedAddrs (addrs : List AssignedAddress) : List AssignedAddr :=
  addrs.filterMap fun a => (bytesToIp a.ipVersion a.address).map fun ip => ⟨ip, a.prefixLen⟩

structure Drained where
  capsules : CapsuleParser
  delivered : Bool := false
  /-- What `inbound_tx.try_send` was called with. -/
  offered : List Bytes := []
  assigned : List AssignedAddr := []

/-- The loop of `drain_capsules`. -/
def drainInto (inbound : Nat → TrySend) : Nat → Drained → Drained
  | 0, d => d
  | n + 1, d =>
      match d.capsules.next with
      | (.ok (some (.datagram payload)), capsules) =>
          match stripDatagramContext payload with
          | none => drainInto inbound n { d with capsules }
          | some packet =>
              let d' := { d with capsules, delivered := true, offered := d.offered ++ [packet] }
              match inbound d.offered.length with
              | .closed => d'
              | _ => drainInto inbound n d'
      | (.ok (some (.addressAssign addrs)), capsules) =>
          drainInto inbound n { d with capsules, assigned := d.assigned ++ assignedAddrs addrs }
      | (.ok (some _), capsules) => drainInto inbound n { d with capsules }
      | (.ok none, capsules) => { d with capsules }
      | (.error _, capsules) => { d with capsules }

/-- `drain_capsules`. -/
def drainCapsulesInto (inbound : Nat → TrySend) (capsules : CapsuleParser) : Drained :=
  drainInto inbound (capsules.buf.length + 1) { capsules }

/-! ## What a drain leaves behind -/

/-- The packets of the datagram capsules among some capsules. -/
def packets (kvs : List (Nat × Bytes)) : List Bytes :=
  kvs.filterMap fun kv => if kv.1 = CAPSULE_DATAGRAM then stripDatagramContext kv.2 else none

/-- The whole capsules in a buffer, each with its kind and value. -/
def capsulesIn (p : CapsuleParser) : List (Nat × Bytes) :=
  items takeCapsule p.buf

/-- With the inbound queue open, the drain behind a chunk leaves no whole capsule in the buffer and
offers the queue the packet of every datagram capsule that was there. -/
def LeavesNothing (p : CapsuleParser) (chunk : Bytes) : Prop :=
  ∀ inbound : Nat → TrySend, (∀ k, inbound k ≠ .closed) →
    takeCapsule (drainCapsulesInto inbound (p.push chunk)).capsules.buf = none ∧
      (drainCapsulesInto inbound (p.push chunk)).offered = packets (capsulesIn (p.push chunk))

theorem interpret_eq_datagram {kv : Nat × Bytes} {payload : Bytes} :
    interpret kv = .ok (.datagram payload) ↔ kv.1 = CAPSULE_DATAGRAM ∧ kv.2 = payload := by
  obtain ⟨kind, value⟩ := kv
  unfold interpret
  dsimp only
  split_ifs with hassign hrequest hroute hdatagram
  · cases parseAddressAssign value <;> simp [Except.map, hassign, CAPSULE_ADDRESS_ASSIGN, CAPSULE_DATAGRAM]
  · simp [pure, Except.pure, hrequest, CAPSULE_ADDRESS_REQUEST, CAPSULE_DATAGRAM]
  · cases parseRouteAdvertisement value <;>
      simp [Except.map, hroute, CAPSULE_ROUTE_ADVERTISEMENT, CAPSULE_DATAGRAM]
  · simp [pure, Except.pure, hdatagram]
  · simp [pure, Except.pure, hdatagram]

theorem packets_cons_datagram {kv : Nat × Bytes} {payload : Bytes} {kvs : List (Nat × Bytes)}
    (hkv : interpret kv = .ok (.datagram payload)) :
    packets (kv :: kvs) = (stripDatagramContext payload).toList ++ packets kvs := by
  obtain ⟨hkind, rfl⟩ := interpret_eq_datagram.1 hkv
  cases hstrip : stripDatagramContext kv.2 <;> simp [packets, hkind, hstrip]

theorem packets_cons_other {kv : Nat × Bytes} {kvs : List (Nat × Bytes)}
    (hkv : ∀ payload, interpret kv ≠ .ok (.datagram payload)) : packets (kv :: kvs) = packets kvs := by
  have hkind : kv.1 ≠ CAPSULE_DATAGRAM := fun h => hkv kv.2 (interpret_eq_datagram.2 ⟨h, rfl⟩)
  simp [packets, hkind]

/-- **The loop is a drain of frames that a malformed capsule stops**, with the packets of what it
takes off offered on the way. -/
theorem drainInto_frames {inbound : Nat → TrySend} (hopen : ∀ k, inbound k ≠ .closed) (n : Nat) :
    ∀ d : Drained,
      (drainInto inbound n d).capsules.buf = (drain takeCapsule malformed n d.capsules.buf).2 ∧
        (drainInto inbound n d).offered =
          d.offered ++ packets (drain takeCapsule malformed n d.capsules.buf).1 := by
  induction n with
  | zero =>
      intro d
      exact ⟨rfl, (List.append_nil _).symm⟩
  | succ n ih =>
      intro d
      unfold drainInto drain
      cases htake : takeCapsule d.capsules.buf with
      | none =>
          have hnext : d.capsules.next = (.ok none, d.capsules) := by
            simp [CapsuleParser.next, htake, pure, Except.pure]
          rw [hnext]
          exact ⟨rfl, (List.append_nil _).symm⟩
      | some kvr =>
          obtain ⟨kv, rest⟩ := kvr
          have hnext : d.capsules.next = ((interpret kv).map some, { buf := rest }) := by
            simp [CapsuleParser.next, htake]
          rw [hnext]
          cases hkv : interpret kv with
          | error e =>
              -- the malformed capsule is off the buffer, and the loop is over
              have hbad : malformed kv = true := by simp [malformed, hkv]
              have hnone : packets [kv] = [] := packets_cons_other (by simp [hkv])
              simp [hbad, hnone, Except.map]
          | ok capsule =>
              have hgood : malformed kv = false := by simp [malformed, hkv]
              simp only [hgood, Except.map, Bool.false_eq_true, if_false]
              cases capsule with
              | datagram payload =>
                  rw [packets_cons_datagram hkv]
                  cases hstrip : stripDatagramContext payload with
                  | none =>
                      simp only [hstrip]
                      exact ih _
                  | some packet =>
                      have hstep := ih { d with capsules := { buf := rest }, delivered := true,
                                                offered := d.offered ++ [packet] }
                      rw [List.append_assoc] at hstep
                      cases hanswer : inbound d.offered.length with
                      | closed => exact absurd hanswer (hopen _)
                      | sent =>
                          simp only [hstrip]
                          exact hstep
                      | full =>
                          simp only [hstrip]
                          exact hstep
              | _ =>
                  rw [packets_cons_other (by simp [hkv])]
                  exact ih _

/-- **When a drain leaves nothing behind**: when no capsule but the last one in the buffer is
malformed. -/
theorem leavesNothing_iff (p : CapsuleParser) (chunk : Bytes) :
    LeavesNothing p chunk ↔ ∀ kv ∈ (capsulesIn (p.push chunk)).dropLast, malformed kv = false := by
  have hfuel : (p.push chunk).buf.length < (p.push chunk).buf.length + 1 := Nat.lt_succ_self _
  have hexhausts := drain_exhausts_iff takeCapsule_incremental malformed hfuel
  constructor
  · intro h
    have hopen : ∀ k : Nat, TrySend.sent ≠ .closed := fun _ => nofun
    have hnone := (h (fun _ => .sent) hopen).1
    rw [drainCapsulesInto, (drainInto_frames hopen _ _).1] at hnone
    exact hexhausts.1 hnone
  · intro h inbound hopen
    have hnone := hexhausts.2 h
    have hall := drain_append_items takeCapsule_incremental malformed
      ((p.push chunk).buf.length + 1) (p.push chunk).buf
    rw [items_of_none hnone, List.append_nil] at hall
    obtain ⟨hbuf, hoffered⟩ := drainInto_frames hopen ((p.push chunk).buf.length + 1)
      { capsules := p.push chunk }
    refine ⟨(congrArg takeCapsule hbuf).trans hnone, hoffered.trans ?_⟩
    rw [hall, List.nil_append]
    rfl

/-- The chunk of an ADDRESS_ASSIGN capsule that breaks off behind its request id, with a datagram
capsule of an IPv4 header behind it. -/
def brokenAssign : Bytes :=
  [0x01, 0x01, 0x00] ++ encodeDatagramCapsule (0x45 :: List.replicate 19 0)

/-- The datagram behind the malformed capsule is still in the buffer when the call returns. -/
theorem not_leavesNothing_brokenAssign : ¬ LeavesNothing .new brokenAssign := by
  rw [leavesNothing_iff]
  intro h
  have hitems : capsulesIn (CapsuleParser.new.push brokenAssign) =
      [(0x01, [0x00]), (0x00, 0x45 :: List.replicate 19 0)] := by decide
  have hbad : malformed (0x01, [0x00]) = true := by decide
  rw [h _ (by rw [hitems]; simp)] at hbad
  cases hbad

end Masque
end AuroraVpn
