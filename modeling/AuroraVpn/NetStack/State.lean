import AuroraVpn.Lib.Channel
import AuroraVpn.NetStack.Sockets

/-!
# State — the data of the userspace stack

`NetStack` of `netstack.rs` and what its tables hold.  The hash maps are partial functions; their
iteration order is an input of the steps that iterate.  Three fields marked as ghosts are not in the
source: they count the calls of `alloc_port` and keep what each connection got from it.

An `Event` is something a step does that the state alone does not show.
-/

namespace AuroraVpn
namespace Net

def MAX_INGEST_PER_TICK : Nat := 512
def MAX_RECV_CHUNKS : Nat := 128

structure TcpLimits where
  connect : Nat
  keepalive : Nat
  orphanLinger : Nat
  deriving DecidableEq, Repr

/-- `app_queue()` and `max_tcp_pending()`. -/
structure Tuning where
  appQueue : Nat
  maxTcpPending : Nat
  deriving DecidableEq, Repr

inductive Proto
  | tcp
  | udp
  deriving DecidableEq, Repr

inductive DataIn
  | tcp (id : Nat) (data : Bytes)
  | tcpClose (id : Nat)
  | udp (id : Nat) (dst : SocketAddr) (data : Bytes)
  | udpClose (id : Nat)
  deriving DecidableEq

namespace DataIn

def proto : DataIn → Proto
  | .tcp _ _ | .tcpClose _ => .tcp
  | .udp _ _ _ | .udpClose _ => .udp

def id : DataIn → Nat
  | .tcp id _ | .tcpClose id | .udp id _ _ | .udpClose id => id

/-- The message that a dropped sender tries to leave behind. -/
def close : Proto → Nat → DataIn
  | .tcp, id => .tcpClose id
  | .udp, id => .udpClose id

end DataIn

/-- The answering end of an open command; `closed` once nobody waits for the answer. -/
structure OpenResp where
  closed : Bool
  deriving DecidableEq, Repr

inductive Cmd
  | openTcp (dst : SocketAddr) (resp : OpenResp)
  | openUdp (resp : OpenResp)
  | setAddrs (v4 : Option (List.Vector UInt8 4 × Nat)) (v6 : Option (List.Vector UInt8 16 × Nat))
  deriving DecidableEq

structure TcpState where
  handle : Nat
  toApp : Channel Bytes
  fromStackRx : Bool
  connectResp : Option OpenResp
  connectDeadline : Nat
  pending : Bytes
  established : Bool
  halfClosed : Bool
  orphanedAt : Option Nat
  aborted : Bool
  /-- ghost: the local port, and how many ports had been allocated before it -/
  localPort : Nat
  ticket : Nat
  deriving DecidableEq, Repr

structure UdpState where
  handle : Nat
  toApp : Channel (SocketAddr × Bytes)
  /-- ghost, as in `TcpState` -/
  localPort : Nat
  ticket : Nat
  deriving DecidableEq

structure Device where
  rx : List Bytes
  tx : List Bytes
  deriving DecidableEq, Repr

structure NetStack (σ υ : Type) where
  iface : Interface
  device : Device
  sockets : SocketSet σ υ
  tcpConns : Nat → Option TcpState
  udpConns : Nat → Option UdpState
  /-- a `usize`, which wraps -/
  nextId : Nat
  nextPort : Nat
  dataIn : Channel DataIn
  tcpLimits : TcpLimits
  /-- ghost: how often `alloc_port` has been called -/
  allocs : Nat

inductive Event (σ : Type)
  /-- an open command answered with an error -/
  | refused (message : String)
  /-- put on the data channel -/
  | queued (d : DataIn)
  /-- taken off the data channel -/
  | dequeued (d : DataIn)
  /-- taken from `pending` by the socket of `id` -/
  | sent (id : Nat) (data : Bytes)
  /-- read from the socket of `id` and put into its `to_app` channel -/
  | delivered (id : Nat) (chunk : Bytes)
  /-- the application has got its end of connection `id` -/
  | handed (proto : Proto) (id : Nat)
  /-- the application has dropped its sending end of connection `id` -/
  | senderDropped (proto : Proto) (id : Nat)
  /-- `close()` called on the socket of `id`, with what was in `pending`, whether the application
  had closed its side, and whether its receiver was open -/
  | closed (id : Nat) (pending : Bytes) (halfClosed rxOpen : Bool)
  /-- entry `id` removed, with its socket -/
  | removed (id : Nat) (st : TcpState) (sock : σ)

/-! ## The tables -/

section Tables

variable {σ υ : Type} (s : NetStack σ υ)

/-- `sockets.get_mut::<tcp::Socket>(handle)`, which panics on anything else. -/
def getTcp (handle : Nat) : Option σ :=
  match s.sockets handle with
  | some (.tcp sock) => some sock
  | _ => none

/-- `sockets.get_mut::<udp::Socket>(handle)`, which panics on anything else. -/
def getUdp (handle : Nat) : Option υ :=
  match s.sockets handle with
  | some (.udp sock) => some sock
  | _ => none

def setSocket (handle : Nat) (sock : Socket σ υ) : NetStack σ υ :=
  { s with sockets := Function.update s.sockets handle (some sock) }

/-- `sockets.remove(handle)`, which panics when there is no such socket. -/
def removeSocket (handle : Nat) : Option (NetStack σ υ) :=
  (s.sockets handle).map fun _ => { s with sockets := Function.update s.sockets handle none }

def setTcpConn (id : Nat) (st : TcpState) : NetStack σ υ :=
  { s with tcpConns := Function.update s.tcpConns id (some st) }

def removeTcpConn (id : Nat) : NetStack σ υ :=
  { s with tcpConns := Function.update s.tcpConns id none }

def setUdpConn (id : Nat) (st : UdpState) : NetStack σ υ :=
  { s with udpConns := Function.update s.udpConns id (some st) }

def removeUdpConn (id : Nat) : NetStack σ υ :=
  { s with udpConns := Function.update s.udpConns id none }

end Tables

end Net
end AuroraVpn
