import AuroraVpn.NetStack.State

/-!
# Service — one round over the connections

`service_tcp` and `service_udp` of `netstack.rs`, one connection at a time.  The body of
`service_tcp` is a sequence of blocks, each of which looks up the entry and the socket again; a
block is a function on the two (`Conn`), and `onConn` makes the lookups, which panic when there is
nothing to be found.

The applications run at the same time.  What they do to the channel of a connection while its
socket is read is an input, one `Move` before each slot that is asked for.
-/

namespace AuroraVpn
namespace Net

/-- What an application does to its end of a channel between two sends. -/
structure Move where
  takes : Nat
  drops : Bool
  deriving DecidableEq, Repr

def Move.idle : Move :=
  ⟨0, false⟩

def Move.apply {α : Type} (m : Move) (c : Channel α) : Channel α :=
  if m.drops then (c.take m.takes).dropReceiver else c.take m.takes

/-- An entry of `tcp_conns` together with its socket. -/
structure Conn (σ : Type) where
  st : TcpState
  sock : σ

/-- How the receive loop ended. -/
structure LoopEnd where
  backpressured : Bool
  appGone : Bool
  deriving DecidableEq, Repr

section Blocks

variable {σ : Type} (tcp : TcpOps σ)

/-- Hands the connection to whoever asked for it; the flag says that nobody took it, so that it was
dropped again. -/
def establish (id : Nat) (stage : TcpStage) (c : Conn σ) : Conn σ × Bool × List (Event σ) :=
  if !c.st.established && stage.connected then
    let st := { c.st with established := true, connectResp := none, fromStackRx := false }
    match c.st.connectResp, c.st.fromStackRx with
    | some resp, true =>
        if resp.closed then
          (⟨{ st with toApp := st.toApp.dropReceiver }, c.sock⟩, true, [])
        else
          (⟨st, c.sock⟩, false, [.handed .tcp id])
    | none, true => (⟨{ st with toApp := st.toApp.dropReceiver }, c.sock⟩, false, [])
    | _, false => (⟨st, c.sock⟩, false, [])
  else
    (c, false, [])

/-- Nobody waits for the connection any more, or the wait is over. -/
def givenUp (now : Nat) (st : TcpState) : Bool :=
  (match st.connectResp with
    | some resp => resp.closed
    | none => true) || st.connectDeadline ≤ now

/-- Gives the socket what it takes of `pending`. -/
def flushPending (id : Nat) (c : Conn σ) : Option (Conn σ × List (Event σ)) :=
  if !tcp.canSend c.sock || c.st.pending.isEmpty then
    some (c, [])
  else
    let (result, sock) := tcp.sendSlice c.st.pending c.sock
    let sent := result.getD 0
    -- `pending.drain(0..sent)` panics behind the end
    if c.st.pending.length < sent then
      none
    else
      some (⟨{ c.st with pending := c.st.pending.drop sent }, sock⟩,
        [.sent id (c.st.pending.take sent)])

def closeSocket (id : Nat) (c : Conn σ) : Conn σ × List (Event σ) :=
  (⟨c.st, tcp.close c.sock⟩, [.closed id c.st.pending c.st.halfClosed c.st.toApp.rxOpen])

def halfClose (id : Nat) (c : Conn σ) : Conn σ × List (Event σ) :=
  if c.st.halfClosed && c.st.pending.isEmpty then closeSocket tcp id c else (c, [])

/-- Reads up to `n` chunks from the socket into the `to_app` channel. -/
def receiveLoop (id : Nat) : Nat → List Move → Conn σ → Conn σ × LoopEnd × List (Event σ)
  | 0, _, c => (c, ⟨false, false⟩, [])
  | n + 1, moves, c =>
      let toApp := (moves.headD .idle).apply c.st.toApp
      let c : Conn σ := ⟨{ c.st with toApp }, c.sock⟩
      match toApp.tryReserve with
      | .full => (c, ⟨true, false⟩, [])
      | .closed => (c, ⟨false, true⟩, [])
      | .permit =>
          if !tcp.canRecv c.sock then
            (c, ⟨false, false⟩, [])
          else
            match tcp.recv c.sock with
            | (some (b :: chunk), sock) =>
                let next := receiveLoop id n moves.tail
                  ⟨{ c.st with toApp := toApp.push (b :: chunk) }, sock⟩
                (next.1, next.2.1, .delivered id (b :: chunk) :: next.2.2)
            | (_, sock) => (⟨c.st, sock⟩, ⟨false, false⟩, [])

/-- When the application is gone, the socket is aborted if there is something nobody will read or
the linger is over (the flag), and else closed. -/
def orphan (id now linger : Nat) (appGone : Bool) (c : Conn σ) : Conn σ × Bool × List (Event σ) :=
  if !appGone then
    (c, false, [])
  else
    let orphanedAt := c.st.orphanedAt.getD now
    let st := { c.st with orphanedAt := some orphanedAt }
    if tcp.canRecv c.sock || linger ≤ now - orphanedAt then
      let sock := if tcp.stage c.sock = .closed then c.sock else tcp.abort c.sock
      (⟨{ st with aborted := true }, sock⟩, true, [])
    else
      let closing := closeSocket tcp id ⟨st, c.sock⟩
      (closing.1, false, closing.2)

/-- The peer has closed its side: close ours. -/
def closeWait (id : Nat) (c : Conn σ) : Conn σ × List (Event σ) :=
  if tcp.stage c.sock = .closeWait then closeSocket tcp id c else (c, [])

/-- Nothing can be sent any more. -/
def clearPending (stage : TcpStage) (c : Conn σ) : Conn σ :=
  if stage = .timeWait then ⟨{ c.st with pending := [] }, c.sock⟩ else c

end Blocks

/-! ## On the tables -/

section Tables

variable {σ υ : Type} (tcp : TcpOps σ) (udp : UdpOps υ)

def putConn (s : NetStack σ υ) (id handle : Nat) (c : Conn σ) : NetStack σ υ :=
  setTcpConn (setSocket s handle (.tcp c.sock)) id c.st

/-- The entry and the socket that a block looks up. -/
def lookupConn (s : NetStack σ υ) (id handle : Nat) : Option (Conn σ) := do
  let st ← s.tcpConns id
  let sock ← getTcp s handle
  some ⟨st, sock⟩

/-- Runs a block on the entry and the socket that it looks up. -/
def onConn {α : Type} (id handle : Nat) (block : Conn σ → Option (Conn σ × α)) (s : NetStack σ υ) :
    Option (NetStack σ υ × α) := do
  let c ← lookupConn s id handle
  let (c', a) ← block c
  some (putConn s id handle c', a)

/-- `s.sockets.remove(handle); s.tcp_conns.remove(&id);` -/
def dropConn (id handle : Nat) (s : NetStack σ υ) : Option (NetStack σ υ × List (Event σ)) := do
  let c ← lookupConn s id handle
  let s' ← removeSocket s handle
  some (removeTcpConn s' id, [.removed id c.st c.sock])

/-- An open command answered with an error, if it has not been answered yet. -/
def refusal (st : TcpState) (message : String) : List (Event σ) :=
  if st.connectResp.isSome then [.refused message] else []

/-- The `DataIn::TcpClose` of a connection that nobody took. -/
def queueClose (id : Nat) (s : NetStack σ υ) : NetStack σ υ × List (Event σ) :=
  ({ s with dataIn := s.dataIn.trySend (.tcpClose id) },
    if s.dataIn.tryReserve = .permit then [.queued (.tcpClose id)] else [])

/-- The end of a round: close behind the peer, and remove what is over. -/
def serviceFinish (id handle : Nat) (s : NetStack σ υ) :
    Option (NetStack σ υ × List (Event σ)) := do
  let c ← lookupConn s id handle
  let stage := tcp.stage c.sock
  let (s, ev₁) ← onConn id handle (fun c => some (closeWait tcp id c)) s
  let (s, _) ← onConn id handle (fun c => some (clearPending stage c, ())) s
  let c ← lookupConn s id handle
  if stage.finished && c.st.established then
    let (s, ev₂) ← dropConn id handle s
    some (s, ev₁ ++ ev₂)
  else
    some (s, ev₁)

/-- Send what is pending, and close when the application has. -/
def serviceSend (id handle : Nat) (s : NetStack σ υ) :
    Option (NetStack σ υ × List (Event σ)) := do
  let (s, ev₁) ← onConn id handle (flushPending tcp id) s
  let (s, ev₂) ← onConn id handle (fun c => some (halfClose tcp id c)) s
  some (s, ev₁ ++ ev₂)

/-- Receive, and see to a connection that nobody receives from; the flags say whether the channel
was full and whether the connection was aborted. -/
def serviceReceive (id handle now : Nat) (moves : List Move) (s : NetStack σ υ) :
    Option (NetStack σ υ × (Bool × Bool) × List (Event σ)) := do
  let (s, ended, ev₁) ← onConn id handle
    (fun c => some (receiveLoop tcp id MAX_RECV_CHUNKS moves c)) s
  let linger := s.tcpLimits.orphanLinger
  let (s, aborted, ev₂) ← onConn id handle
    (fun c => some (orphan tcp id now linger ended.appGone c)) s
  some (s, (ended.backpressured, aborted), ev₁ ++ ev₂)

/-- What is done for a connection that is established. -/
def serviceEstablished (id handle now : Nat) (moves : List Move) (s : NetStack σ υ) :
    Option (NetStack σ υ × Bool × List (Event σ)) := do
  let (s, ev₁) ← serviceSend tcp id handle s
  let (s, (backpressured, aborted), ev₂) ← serviceReceive tcp id handle now moves s
  if aborted then
    some (s, backpressured, ev₁ ++ ev₂)
  else
    let (s, ev₃) ← serviceFinish tcp id handle s
    some (s, backpressured, ev₁ ++ ev₂ ++ ev₃)

/-- One connection of `service_tcp`; the flag asks for another round soon.  `none` is a panic. -/
def serviceTcpConn (now : Nat) (moves : List Move) (id : Nat) (s : NetStack σ υ) :
    Option (NetStack σ υ × Bool × List (Event σ)) :=
  match s.tcpConns id with
  | none => some (s, false, [])
  | some st =>
      let handle := st.handle
      if st.aborted then do
        let (s, ev) ← dropConn id handle s
        some (s, false, ev)
      -- the stage is looked up once, and stands for the rest of the round
      else do
        let c ← lookupConn s id handle
        let stage := tcp.stage c.sock
        let (s, untaken, ev₁) ← onConn id handle (fun c => some (establish id stage c)) s
        let (s, ev₂) := if untaken then queueClose id s else (s, [])
        let c ← lookupConn s id handle
        if !c.st.established && stage.finished then
          let (s, ev₃) ← dropConn id handle s
          some (s, false, ev₁ ++ ev₂ ++ refusal c.st "connection refused" ++ ev₃)
        else if !c.st.established then
          if givenUp now c.st then
            let (s, ev₃) ← dropConn id handle s
            some (s, false, ev₁ ++ ev₂ ++ refusal c.st "connection timed out" ++ ev₃)
          else
            some (s, false, ev₁ ++ ev₂)
        -- established: the data of both directions
        else
          let (s, backpressured, ev₃) ← serviceEstablished tcp id handle now moves s
          some (s, backpressured, ev₁ ++ ev₂ ++ ev₃)

/-- Reads up to `n` datagrams from a UDP socket into the `to_app` channel. -/
def receiveUdp : Nat → List Move → UdpState × υ → (UdpState × υ) × LoopEnd
  | 0, _, c => (c, ⟨false, false⟩)
  | n + 1, moves, (st, sock) =>
      let toApp := (moves.headD .idle).apply st.toApp
      let st := { st with toApp }
      match toApp.tryReserve with
      | .full => ((st, sock), ⟨true, false⟩)
      | .closed => ((st, sock), ⟨false, true⟩)
      | .permit =>
          if !udp.canRecv sock then
            ((st, sock), ⟨false, false⟩)
          else
            match udp.recv sock with
            | (some datagram, sock) =>
                receiveUdp n moves.tail ({ st with toApp := toApp.push datagram }, sock)
            | (none, sock) => ((st, sock), ⟨false, false⟩)

/-- One connection of `service_udp`; the flag asks for another round soon.  `none` is a panic. -/
def serviceUdpConn (moves : List Move) (id : Nat) (s : NetStack σ υ) :
    Option (NetStack σ υ × Bool) :=
  match s.udpConns id with
  | none => some (s, false)
  | some st => do
      let sock ← getUdp s st.handle
      let (c, ended) := receiveUdp udp MAX_RECV_CHUNKS moves (st, sock)
      let s := setUdpConn (setSocket s st.handle (.udp c.2)) id c.1
      if ended.appGone then
        let s ← removeSocket (removeUdpConn s id) st.handle
        some (s, ended.backpressured)
      else
        some (s, ended.backpressured)

end Tables

end Net
end AuroraVpn
