import AuroraVpn.NetStack.State

/-!
# Command — opening connections and changing addresses

`handle_cmd` of `netstack.rs`, with `alloc_port` and `apply_addrs`.
-/

namespace AuroraVpn
namespace Net

/-- The port given out, and the next one. -/
def allocPort (p : Nat) : Nat × Nat :=
  (p, if 65000 ≤ p then 49152 else p + 1)

def routablePrefixV4 (p : Nat) : Nat :=
  if 31 ≤ p then 24 else p

def routablePrefixV6 (p : Nat) : Nat :=
  if 127 ≤ p then 64 else p

/-- The gateway next to an IPv4 address: host 1 of its network, or host 2 if that is the address. -/
def gatewayV4 (ip : List.Vector UInt8 4) : List.Vector UInt8 4 :=
  ip.set 3 (if ip.get 3 = 1 then 2 else 1)

def gatewayV6 (ip : List.Vector UInt8 16) : List.Vector UInt8 16 :=
  ip.set 15 (if ip.get 15 = 1 then 2 else 1)

def applyAddrs (iface : Interface) (addrs : AddrPair) : Interface where
  addrs := ⟨addrs.v4.map fun a => (a.1, routablePrefixV4 a.2),
    addrs.v6.map fun a => (a.1, routablePrefixV6 a.2)⟩
  gatewayV4 := (addrs.v4.map fun a => gatewayV4 a.1).or iface.gatewayV4
  gatewayV6 := (addrs.v6.map fun a => gatewayV6 a.1).or iface.gatewayV6

def currentAddrs (iface : Interface) : AddrPair :=
  iface.addrs

section HandleCmd

variable {σ υ : Type} (tcp : TcpOps σ) (udp : UdpOps υ) (tuning : Tuning)

/-- The entry of a connection that has just been asked for. -/
def TcpState.opening (now handle localPort : Nat) (resp : OpenResp) (s : NetStack σ υ) :
    TcpState where
  handle
  toApp := .new tuning.appQueue
  fromStackRx := true
  connectResp := some resp
  connectDeadline := now + s.tcpLimits.connect
  pending := []
  established := false
  halfClosed := false
  orphanedAt := none
  aborted := false
  localPort
  ticket := s.allocs

/-- `handle` is the slot that `sockets.add` picks. -/
def openTcp (now handle : Nat) (dst : SocketAddr) (resp : OpenResp) (s : NetStack σ υ) :
    NetStack σ υ × List (Event σ) :=
  let (localPort, nextPort) := allocPort s.nextPort
  let s' := { s with nextPort, allocs := s.allocs + 1 }
  match tcp.connect s.iface dst localPort (tcp.new s.tcpLimits.keepalive) with
  | .error e => (s', [.refused ("connect: " ++ e)])
  | .ok socket =>
      let s' := setSocket { s' with nextId := (s.nextId + 1) % 2 ^ 64 } handle (.tcp socket)
      (setTcpConn s' s.nextId (.opening tuning now handle localPort resp s), [])

/-- When nobody waits for the answer, the connection in it is dropped: its receiver goes, and it
tries to queue its own close. -/
def openUdp (handle : Nat) (resp : OpenResp) (s : NetStack σ υ) : NetStack σ υ × List (Event σ) :=
  let (localPort, nextPort) := allocPort s.nextPort
  let s' := { s with nextPort, allocs := s.allocs + 1 }
  match udp.bind localPort udp.new with
  | .error e => (s', [.refused ("bind: " ++ e)])
  | .ok socket =>
      let st : UdpState := ⟨handle, .new tuning.appQueue, localPort, s.allocs⟩
      let s' := setSocket { s' with nextId := (s.nextId + 1) % 2 ^ 64 } handle (.udp socket)
      if resp.closed then
        let s' := setUdpConn s' s.nextId { st with toApp := st.toApp.dropReceiver }
        ({ s' with dataIn := s'.dataIn.trySend (.udpClose s.nextId) },
          if s'.dataIn.tryReserve = .permit then [.queued (.udpClose s.nextId)] else [])
      else
        (setUdpConn s' s.nextId st, [.handed .udp s.nextId])

def handleCmd (now handle : Nat) (cmd : Cmd) (s : NetStack σ υ) : NetStack σ υ × List (Event σ) :=
  match cmd with
  | .openTcp dst resp => openTcp tcp tuning now handle dst resp s
  | .openUdp resp => openUdp udp tuning handle resp s
  | .setAddrs v4 v6 =>
      let current := currentAddrs s.iface
      ({ s with iface := applyAddrs s.iface ⟨v4.or current.v4, v6.or current.v6⟩ }, [])

/-! ## What an open command comes to -/

section Equations

variable {tcp udp tuning} {now handle : Nat} {dst : SocketAddr} {resp : OpenResp}
variable {s : NetStack σ υ}

/-- A port has been given out. -/
def portTaken (s : NetStack σ υ) : NetStack σ υ :=
  { s with nextPort := (allocPort s.nextPort).2, allocs := s.allocs + 1 }

theorem openTcp_error {e : String}
    (h : tcp.connect s.iface dst s.nextPort (tcp.new s.tcpLimits.keepalive) = .error e) :
    openTcp tcp tuning now handle dst resp s =
      (portTaken s, [.refused ("connect: " ++ e)]) := by
  simp [openTcp, allocPort, portTaken, h]

theorem openTcp_ok {socket : σ}
    (h : tcp.connect s.iface dst s.nextPort (tcp.new s.tcpLimits.keepalive) = .ok socket) :
    openTcp tcp tuning now handle dst resp s =
      (setTcpConn
        (setSocket { portTaken s with nextId := (s.nextId + 1) % 2 ^ 64 } handle (.tcp socket))
        s.nextId (.opening tuning now handle s.nextPort resp s), []) := by
  simp [openTcp, allocPort, portTaken, h]

theorem openUdp_error {e : String} (h : udp.bind s.nextPort udp.new = .error e) :
    openUdp udp tuning handle resp s = (portTaken s, [.refused ("bind: " ++ e)]) := by
  simp [openUdp, allocPort, portTaken, h]

/-- What is left of an open command for UDP that succeeds: whoever waits for it or not, the
connection is entered; if nobody does, its close is queued. -/
structure UdpOpened (handle : Nat) (socket : υ) (s s' : NetStack σ υ) (st : UdpState)
    (events : List (Event σ)) : Prop where
  handle_eq : st.handle = handle
  localPort : st.localPort = s.nextPort
  ticket : st.ticket = s.allocs
  tcpConns : s'.tcpConns = s.tcpConns
  udpConns : s'.udpConns = Function.update s.udpConns s.nextId (some st)
  sockets : s'.sockets = Function.update s.sockets handle (some (.udp socket))
  nextId : s'.nextId = (s.nextId + 1) % 2 ^ 64
  nextPort : s'.nextPort = (allocPort s.nextPort).2
  allocs : s'.allocs = s.allocs + 1
  events : (s'.dataIn = s.dataIn ∧ (events = [] ∨ events = [.handed .udp s.nextId])) ∨
    (s'.dataIn = s.dataIn.push (.udpClose s.nextId) ∧ events = [.queued (.udpClose s.nextId)])

theorem openUdp_ok {socket : υ} (h : udp.bind s.nextPort udp.new = .ok socket) :
    ∃ s' st events, openUdp udp tuning handle resp s = (s', events) ∧
      UdpOpened handle socket s s' st events := by
  cases hclosed : resp.closed with
  | false =>
      refine ⟨_, ⟨handle, .new tuning.appQueue, s.nextPort, s.allocs⟩, _, rfl, ?_⟩
      constructor <;> simp [allocPort, h, hclosed, setUdpConn, setSocket]
  | true =>
      refine ⟨_, ⟨handle, (Channel.new tuning.appQueue).dropReceiver, s.nextPort, s.allocs⟩, _,
        rfl, ?_⟩
      constructor
      case events =>
        -- the close is queued just when the channel has room
        cases hreserve : s.dataIn.tryReserve <;>
          simp [h, hclosed, setUdpConn, setSocket, Channel.trySend, hreserve]
      all_goals simp [allocPort, h, hclosed, setUdpConn, setSocket]

end Equations

end HandleCmd

end Net
end AuroraVpn
