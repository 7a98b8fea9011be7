import AuroraVpn.Lib.Runs
import AuroraVpn.NetStack.Command
import AuroraVpn.NetStack.Data
import AuroraVpn.NetStack.Service

/-!
# Loop — the loop of the stack among its applications

`run` of `netstack.rs`, cut where something else can come in between: one step is a poll of the
interface, the service of one connection, a retry of `deferred`, one branch of the `select!`, or one
message of the drain.  Between any two of these an application may move: send or close, drop its
sender (which tries to queue a close), take what is in its channel, drop its receiver, or stop
waiting for an answer.

The events of a run are kept in `trace`.
-/

namespace AuroraVpn
namespace Net

/-- Where the loop is. -/
inductive Phase
  | poll
  /-- in `service_tcp`, with its `now` and the connections it still has to look at -/
  | tcp (now : Nat) (ids : List Nat)
  | udp (ids : List Nat)
  | flush
  | retry
  | select
  /-- in the branch of the data channel, behind a message -/
  | drain
  /-- returned, since a channel is closed -/
  | returned
  deriving DecidableEq, Repr

structure World (σ υ : Type) where
  stack : NetStack σ υ
  deferred : List DataIn
  phase : Phase
  /-- the connections whose sending end an application holds -/
  senders : Proto → Nat → Bool
  trace : List (Event σ)

/-- What can happen next.  A label carries everything that comes from outside. -/
inductive Label (σ υ : Type)
  | poll (sockets : SocketSet σ υ) (device : Device) (now : Nat) (ids : List Nat)
  | serviceTcp (now id : Nat) (ids : List Nat) (moves : List Move)
  | startUdp (ids : List Nat)
  | serviceUdp (id : Nat) (ids : List Nat) (moves : List Move)
  | flush (closedAt : Nat)
  | retry
  | inbound (pkts : List Bytes)
  | cmd (now handle : Nat) (cmd : Cmd)
  | data (d : DataIn)
  | timer
  | stop
  | drain (d : DataIn)
  | drained
  | send (d : DataIn)
  | dropSender (proto : Proto) (id : Nat)
  | recvTcp (id n : Nat)
  | recvUdp (id n : Nat)
  | dropReceiverTcp (id : Nat)
  | dropReceiverUdp (id : Nat)
  | dropResp (id : Nat)

section Step

variable {σ υ : Type} (tcp : TcpOps σ) (udp : UdpOps υ) (tuning : Tuning)

/-- The keys of a table in some order. -/
structure Keys {α : Type} (ids : List Nat) (table : Nat → Option α) : Prop where
  nodup : ids.Nodup
  mem : ∀ id, id ∈ ids ↔ (table id).isSome = true

def handOver (events : List (Event σ)) (senders : Proto → Nat → Bool) : Proto → Nat → Bool :=
  events.foldl (fun senders e => match e with
    | .handed proto id => Function.update senders proto (Function.update (senders proto) id true)
    | _ => senders) senders

/-- The world behind a step of the loop that does `events`. -/
def World.after (w : World σ υ) (stack : NetStack σ υ) (phase : Phase) (events : List (Event σ)) :
    World σ υ :=
  { w with stack, phase, senders := handOver events w.senders, trace := w.trace ++ events }

/-- `flush_tx`: packets go out or are dropped until the receiver is found to be gone, which loses
the packet that finds it. -/
def flushTx (closedAt : Nat) (s : NetStack σ υ) : NetStack σ υ :=
  { s with device := { s.device with tx := s.device.tx.drop (closedAt + 1) } }

/-- A message off the data channel; what it leaves is deferred. -/
def takeData (d : DataIn) (w : World σ υ) : Option (World σ υ) := do
  let s := { w.stack with dataIn := w.stack.dataIn.take 1 }
  let (stack, back) ← tryHandleData udp tuning s d
  let deferred := w.deferred ++ back.toList
  some { w with stack, deferred, phase := .drain, trace := w.trace ++ [.dequeued d] }

/-- What an application puts on the data channel. -/
def putData (d : DataIn) (w : World σ υ) : World σ υ :=
  match w.stack.dataIn.tryReserve with
  | .permit =>
      { w with
        stack := { w.stack with dataIn := w.stack.dataIn.push d }
        trace := w.trace ++ [.queued d] }
  | .full | .closed => w

/-- Drops a sender, which leaves a close behind when the channel has room. -/
def dropSender (proto : Proto) (id : Nat) (w : World σ υ) : World σ υ :=
  let senders := Function.update w.senders proto (Function.update (w.senders proto) id false)
  putData (.close proto id) { w with senders, trace := w.trace ++ [.senderDropped proto id] }

/-- Changes the entry of a TCP connection, if there is one. -/
def updateTcp (id : Nat) (f : TcpState → TcpState) (w : World σ υ) : World σ υ :=
  match w.stack.tcpConns id with
  | some st => { w with stack := setTcpConn w.stack id (f st) }
  | none => w

def updateUdp (id : Nat) (f : UdpState → UdpState) (w : World σ υ) : World σ υ :=
  match w.stack.udpConns id with
  | some st => { w with stack := setUdpConn w.stack id (f st) }
  | none => w

/-- Which labels can happen in a world. -/
def enabled (l : Label σ υ) (w : World σ υ) : Prop :=
  match l with
  | .poll sockets _ _ ids =>
      w.phase = .poll ∧ (∀ h, Socket.polls tcp udp (w.stack.sockets h) (sockets h)) ∧
        Keys ids w.stack.tcpConns
  | .serviceTcp now id ids _ => w.phase = .tcp now (id :: ids)
  | .startUdp ids => (∃ now, w.phase = .tcp now []) ∧ Keys ids w.stack.udpConns
  | .serviceUdp id ids _ => w.phase = .udp (id :: ids)
  | .flush _ => w.phase = .udp []
  | .retry => w.phase = .retry
  | .inbound pkts => w.phase = .select ∧ pkts ≠ [] ∧ pkts.length ≤ MAX_INGEST_PER_TICK + 1
  | .cmd _ handle _ => w.phase = .select ∧ w.stack.sockets handle = none
  | .data d => w.phase = .select ∧ w.deferred = [] ∧ w.stack.dataIn.queue.head? = some d
  -- with no connection left the delay comes from the interface, which may ask for any
  | .timer => w.phase = .select
  | .stop => w.phase = .select
  | .drain d => w.phase = .drain ∧ w.deferred = [] ∧ w.stack.dataIn.queue.head? = some d
  | .drained => w.phase = .drain ∧ (w.deferred = [] → w.stack.dataIn.queue = [])
  | .send d => w.senders d.proto d.id = true ∧ w.stack.dataIn.tryReserve = .permit
  | .dropSender proto id => w.senders proto id = true
  | .recvTcp id n => ∃ st, w.stack.tcpConns id = some st ∧ st.fromStackRx = false ∧
      n ≤ st.toApp.queue.length
  | .recvUdp id n => ∃ st, w.stack.udpConns id = some st ∧ n ≤ st.toApp.queue.length
  | .dropReceiverTcp id => ∃ st, w.stack.tcpConns id = some st ∧ st.fromStackRx = false
  | .dropReceiverUdp id => ∃ st, w.stack.udpConns id = some st
  | .dropResp id => ∃ st, w.stack.tcpConns id = some st ∧ st.connectResp.isSome = true

/-- What a label does; `none` is a panic. -/
def step (l : Label σ υ) (w : World σ υ) : Option (World σ υ) :=
  match l with
  | .poll sockets device now ids =>
      some { w with stack := { w.stack with sockets, device }, phase := .tcp now ids }
  | .serviceTcp now id ids moves => do
      let (stack, _, events) ← serviceTcpConn tcp now moves id w.stack
      some (w.after stack (.tcp now ids) events)
  | .startUdp ids => some { w with phase := .udp ids }
  | .serviceUdp id ids moves => do
      let (stack, _) ← serviceUdpConn udp moves id w.stack
      some { w with stack, phase := .udp ids }
  | .flush closedAt => some { w with stack := flushTx closedAt w.stack, phase := .retry }
  | .retry => do
      let (stack, deferred) ← retryDeferred udp tuning w.stack w.deferred
      some { w with stack, deferred, phase := .select }
  -- the branches of the `select!`, one message each
  | .inbound pkts =>
      let device := { w.stack.device with rx := w.stack.device.rx ++ pkts }
      some { w with stack := { w.stack with device }, phase := .poll }
  | .cmd now handle cmd =>
      let (stack, events) := handleCmd tcp udp tuning now handle cmd w.stack
      some (w.after stack .poll events)
  | .data d | .drain d => takeData udp tuning d w
  | .timer | .drained => some { w with phase := .poll }
  | .stop => some { w with phase := .returned }
  -- the moves of the applications
  | .send d => some (putData d w)
  | .dropSender proto id => some (dropSender proto id w)
  | .recvTcp id n => some (updateTcp id (fun st => { st with toApp := st.toApp.take n }) w)
  | .recvUdp id n => some (updateUdp id (fun st => { st with toApp := st.toApp.take n }) w)
  | .dropReceiverTcp id =>
      some (updateTcp id (fun st => { st with toApp := st.toApp.dropReceiver }) w)
  | .dropReceiverUdp id =>
      some (updateUdp id (fun st => { st with toApp := st.toApp.dropReceiver }) w)
  | .dropResp id => some (updateTcp id (fun st => { st with connectResp := some ⟨true⟩ }) w)

/-- `spawn`: no connection yet, whatever the addresses and the limits. -/
def spawned (w : World σ υ) : Prop :=
  ∃ iface tcpLimits, w =
    { stack :=
        { iface
          device := ⟨[], []⟩
          sockets := fun _ => none
          tcpConns := fun _ => none
          udpConns := fun _ => none
          nextId := 1
          nextPort := 49152
          dataIn := .new tuning.appQueue
          tcpLimits
          allocs := 0 }
      deferred := []
      phase := .poll
      senders := fun _ _ => false
      trace := [] }

/-- The loop as a machine. -/
def loop : Runs.Machine (World σ υ) (Label σ υ) where
  init := spawned tuning
  enabled := enabled tcp udp
  step := step tcp udp tuning

/-- `next_id` has not come to the end of a `usize`, so that the next connection leaves an id behind. -/
def World.IdsLeft (w : World σ υ) : Prop :=
  w.stack.nextId + 1 < 2 ^ 64

/-- The loop as long as there are ids. -/
abbrev idLoop : Runs.Machine (World σ υ) (Label σ υ) :=
  (loop tcp udp tuning).within World.IdsLeft

end Step

end Net
end AuroraVpn
