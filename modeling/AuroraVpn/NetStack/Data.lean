import AuroraVpn.NetStack.State

/-!
# Data — messages from the applications

`try_handle_data` of `netstack.rs`, and the loop of `run` that retries what it gave back.
-/

namespace AuroraVpn
namespace Net

variable {σ υ : Type} (udp : UdpOps υ) (tuning : Tuning)

/-- What `pending` takes of a chunk, and the rest of it if there is one. -/
def appendPending (max : Nat) (pending data : Bytes) : Bytes × Option Bytes :=
  if max ≤ pending.length then
    (pending, some data)
  else
    let space := max - pending.length
    if data.length ≤ space then
      (pending ++ data, none)
    else
      (pending ++ data.take space, some (data.drop space))

/-- Handles a message; what has to be deferred is given back.  `none` is a panic. -/
def tryHandleData (s : NetStack σ υ) : DataIn → Option (NetStack σ υ × Option DataIn)
  | .tcp id data =>
      match s.tcpConns id with
      | some st =>
          -- what does not fit is deferred, the connection keeps the rest
          let (pending, back) := appendPending tuning.maxTcpPending st.pending data
          some (setTcpConn s id { st with pending }, back.map (.tcp id))
      | none => some (s, none)
  | .tcpClose id =>
      match s.tcpConns id with
      | some st => some (setTcpConn s id { st with halfClosed := true }, none)
      | none => some (s, none)
  | .udp id dst data =>
      match s.udpConns id with
      | some st => do
          let sock ← getUdp s st.handle
          some (setSocket s st.handle (.udp (udp.sendSlice data dst sock)), none)
      | none => some (s, none)
  | .udpClose id =>
      match s.udpConns id with
      -- the application has closed it: the socket goes with the connection
      | some st => do
          let s' ← removeSocket (removeUdpConn s id) st.handle
          some (s', none)
      | none => some (s, none)

section Equations

variable {udp tuning} {s : NetStack σ υ} {id : Nat} {data : Bytes}

theorem tryHandleData_tcp {st : TcpState} (hst : s.tcpConns id = some st) :
    tryHandleData udp tuning s (.tcp id data) =
      some (setTcpConn s id
          { st with pending := (appendPending tuning.maxTcpPending st.pending data).1 },
        (appendPending tuning.maxTcpPending st.pending data).2.map (.tcp id)) := by
  simp [tryHandleData, hst]

theorem tryHandleData_tcpClose {st : TcpState} (hst : s.tcpConns id = some st) :
    tryHandleData udp tuning s (.tcpClose id) =
      some (setTcpConn s id { st with halfClosed := true }, none) := by
  simp [tryHandleData, hst]

theorem tryHandleData_udp {st : UdpState} {sock : υ} {dst : SocketAddr}
    (hst : s.udpConns id = some st) (hsock : getUdp s st.handle = some sock) :
    tryHandleData udp tuning s (.udp id dst data) =
      some (setSocket s st.handle (.udp (udp.sendSlice data dst sock)), none) := by
  simp [tryHandleData, hst, hsock]

theorem tryHandleData_udpClose {st : UdpState} {sock : Socket σ υ} (hst : s.udpConns id = some st)
    (hsock : s.sockets st.handle = some sock) :
    tryHandleData udp tuning s (.udpClose id) =
      some ({ removeUdpConn s id with sockets := Function.update s.sockets st.handle none },
        none) := by
  simp [tryHandleData, hst, hsock, removeSocket, removeUdpConn]

end Equations

/-- Retries the deferred messages in order, up to the first that is given back again. -/
def retryDeferred (s : NetStack σ υ) : List DataIn → Option (NetStack σ υ × List DataIn)
  | [] => some (s, [])
  | d :: deferred => do
      let (s', back) ← tryHandleData udp tuning s d
      match back with
      | some back => some (s', back :: deferred)
      | none => retryDeferred s' deferred

end Net
end AuroraVpn
