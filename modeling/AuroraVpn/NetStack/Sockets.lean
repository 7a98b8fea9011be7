import AuroraVpn.Lib.IpAddr

/-!
# Sockets — what the userspace stack uses of `smoltcp`

The sockets are a type of their own with the calls the stack makes on them.  What the stack relies
on is `TcpLaws`: the calls do not disturb the receive buffer, and the bytes accepted in order from
the peer stay in it until they are read, whatever state the socket goes to, as long as the
connection is not broken off.
-/

namespace AuroraVpn
namespace Net

/-- `tcp::State`. -/
inductive TcpStage
  | closed
  | listen
  | synSent
  | synReceived
  | established
  | finWait1
  | finWait2
  | closeWait
  | closing
  | lastAck
  | timeWait
  deriving DecidableEq, Repr

/-- An IPv4 and an IPv6 address with their prefix lengths. -/
structure AddrPair where
  v4 : Option (List.Vector UInt8 4 × Nat)
  v6 : Option (List.Vector UInt8 16 × Nat)
  deriving DecidableEq

/-- `Interface`: its addresses and its default routes. -/
structure Interface where
  addrs : AddrPair
  gatewayV4 : Option (List.Vector UInt8 4)
  gatewayV6 : Option (List.Vector UInt8 16)
  deriving DecidableEq

namespace TcpStage

/-- The stages in which a connection counts as connected. -/
def connected (stage : TcpStage) : Bool :=
  stage = .established || stage = .closeWait

/-- The stages in which a connection is over. -/
def finished (stage : TcpStage) : Bool :=
  stage = .closed || stage = .timeWait

/-- The stages that a socket whose handshake is done can be in. -/
def opened (stage : TcpStage) : Bool :=
  !(stage = .listen || stage = .synSent || stage = .synReceived)

theorem opened_of_connected {stage : TcpStage} (h : stage.connected = true) :
    stage.opened = true := by
  revert h
  cases stage <;> decide

end TcpStage

/-- The calls on a TCP socket `σ`.  The stack does not look at the last three: `received` is
everything the socket has accepted in order from its peer, `readable` the chunks in which the part
of it that has not been read will be read, and `broken` whether the connection was reset or timed
out. -/
structure TcpOps (σ : Type) where
  new : (keepalive : Nat) → σ
  connect : Interface → SocketAddr → (localPort : Nat) → σ → Except String σ
  stage : σ → TcpStage
  canSend : σ → Bool
  sendSlice : Bytes → σ → Option Nat × σ
  canRecv : σ → Bool
  recv : σ → Option Bytes × σ
  close : σ → σ
  abort : σ → σ
  /-- What a poll of the interface may make of a socket. -/
  polls : σ → σ → Prop
  received : σ → Bytes
  readable : σ → List Bytes
  broken : σ → Prop

/-- The calls on a UDP socket `υ`. -/
structure UdpOps (υ : Type) where
  new : υ
  bind : (localPort : Nat) → υ → Except String υ
  sendSlice : Bytes → SocketAddr → υ → υ
  canRecv : υ → Bool
  recv : υ → Option (SocketAddr × Bytes) × υ
  polls : υ → υ → Prop

section TcpLaws

variable {σ : Type} (ops : TcpOps σ)

/-- Two states of a socket with the same receive buffer. -/
structure SameBuffer (x y : σ) : Prop where
  received : ops.received y = ops.received x
  readable : ops.readable y = ops.readable x
  broken : ops.broken y ↔ ops.broken x

structure TcpLaws : Prop where
  /-- A socket that has just been asked to connect has received nothing. -/
  connect_fresh : ∀ {iface dst port keepalive x},
    ops.connect iface dst port (ops.new keepalive) = .ok x →
      ops.received x = [] ∧ ops.readable x = []
  canSend_stage : ∀ {x}, ops.canSend x = true → (ops.stage x).connected = true
  sendSlice_le : ∀ {data x n}, (ops.sendSlice data x).1 = some n → n ≤ data.length
  sendSlice_same : ∀ data x, SameBuffer ops x (ops.sendSlice data x).2
  sendSlice_stage : ∀ data x, ops.stage (ops.sendSlice data x).2 = ops.stage x
  canRecv_iff : ∀ x, ops.canRecv x = true ↔ ops.readable x ≠ []
  /-- A read takes the first chunk, which is not empty, and leaves the rest of the socket alone. -/
  recv_readable : ∀ {x chunk rest}, ops.readable x = chunk :: rest → chunk ≠ [] ∧
    ∃ y, ops.recv x = (some chunk, y) ∧ ops.readable y = rest ∧
      ops.received y = ops.received x ∧ (ops.broken y ↔ ops.broken x) ∧ ops.stage y = ops.stage x
  close_same : ∀ x, SameBuffer ops x (ops.close x)
  close_finished : ∀ {x}, (ops.stage x).finished = true → ops.close x = x
  /-- A close does not end an open connection at once. -/
  close_opened : ∀ {x}, (ops.stage x).opened = true → (ops.stage (ops.close x)).opened = true ∧
    ((ops.stage (ops.close x)).finished = true → (ops.stage x).finished = true)
  polls_opened : ∀ {x y}, ops.polls x y →
    (ops.stage x).opened = true → (ops.stage y).opened = true
  /-- A poll may add to the buffer and change the stage; only a break takes bytes away. -/
  polls_keep : ∀ {x y}, ops.polls x y → ¬ops.broken y → ¬ops.broken x ∧
    ∃ fresh, ops.received y = ops.received x ++ fresh ∧
      (ops.readable y).flatten = (ops.readable x).flatten ++ fresh

theorem SameBuffer.refl (x : σ) : SameBuffer ops x x :=
  ⟨rfl, rfl, Iff.rfl⟩

variable {ops}

end TcpLaws

/-- A slot of the socket set. -/
inductive Socket (σ υ : Type)
  | tcp (sock : σ)
  | udp (sock : υ)

/-- `SocketSet`: the sockets by their handles.  A handle is free again once its socket is removed. -/
abbrev SocketSet (σ υ : Type) := Nat → Option (Socket σ υ)

/-- Whether a poll may turn one slot into the other. -/
def Socket.polls {σ υ : Type} (tcp : TcpOps σ) (udp : UdpOps υ) :
    Option (Socket σ υ) → Option (Socket σ υ) → Prop
  | none, none => True
  | some (.tcp x), some (.tcp y) => tcp.polls x y
  | some (.udp x), some (.udp y) => udp.polls x y
  | _, _ => False

end Net
end AuroraVpn
