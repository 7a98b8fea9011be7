import AuroraVpn.NetStack.Service

/-!
# Round — a round on one connection by itself

`serveConn` is the body of `service_tcp` as a function of one entry and its socket, without the
tables.  `serviceTcpConn_eq` says that the body is just this function run on what the lookups find;
everything else about the service of a connection is proved of `serveConn`.
-/

namespace AuroraVpn
namespace Net

/-- What a round makes of a connection. -/
structure Served (σ : Type) where
  conn : Conn σ
  /-- nobody took the connection, so that a close is queued -/
  untaken : Bool
  removed : Bool
  backpressured : Bool
  /-- what happens before that close is queued -/
  before : List (Event σ)
  events : List (Event σ)

section Serve

variable {σ : Type} (tcp : TcpOps σ)

/-- The entry and the socket go. -/
def drop (id : Nat) (c : Conn σ) (events : List (Event σ)) : Served σ where
  conn := c
  untaken := false
  removed := true
  backpressured := false
  before := []
  events := events ++ [.removed id c.st c.sock]

def keep (c : Conn σ) (events : List (Event σ)) : Served σ where
  conn := c
  untaken := false
  removed := false
  backpressured := false
  before := []
  events

/-- The end of a round. -/
def finish (id : Nat) (c : Conn σ) : Served σ :=
  let stage := tcp.stage c.sock
  let (c, ev) := closeWait tcp id c
  let c := clearPending stage c
  if stage.finished && c.st.established then drop id c ev else keep c ev

def sending (id : Nat) (c : Conn σ) : Option (Conn σ × List (Event σ)) := do
  let (c, ev₁) ← flushPending tcp id c
  let (c, ev₂) := halfClose tcp id c
  some (c, ev₁ ++ ev₂)

def receiving (id now linger : Nat) (moves : List Move) (c : Conn σ) :
    Conn σ × (Bool × Bool) × List (Event σ) :=
  let (c, ended, ev₁) := receiveLoop tcp id MAX_RECV_CHUNKS moves c
  let (c, aborted, ev₂) := orphan tcp id now linger ended.appGone c
  (c, (ended.backpressured, aborted), ev₁ ++ ev₂)

def rest (id now linger : Nat) (moves : List Move) (sent : Conn σ × List (Event σ)) : Served σ :=
  let (c, (backpressured, aborted), ev) := receiving tcp id now linger moves sent.1
  let r := if aborted then keep c [] else finish tcp id c
  { r with backpressured, events := sent.2 ++ ev ++ r.events }

def serveEstablished (id now linger : Nat) (moves : List Move) (c : Conn σ) : Option (Served σ) :=
  (sending tcp id c).map (rest tcp id now linger moves)

def serveConn (id now linger : Nat) (moves : List Move) (c : Conn σ) : Option (Served σ) :=
  if c.st.aborted then
    some (drop id c [])
  else
    let stage := tcp.stage c.sock
    let (c, untaken, before) := establish id stage c
    if !c.st.established && stage.finished then
      some { drop id c (refusal c.st "connection refused") with untaken, before }
    else if !c.st.established then
      if givenUp now c.st then
        some { drop id c (refusal c.st "connection timed out") with untaken, before }
      else
        some { keep c [] with untaken, before }
    else do
      let r ← serveEstablished tcp id now linger moves c
      some { r with untaken, before }

/-- **The exits of a round**: removed one round after an abort; refused or given up before the
connection stands; still waiting; or established. -/
theorem serveConn_cases {id now linger : Nat} {moves : List Move} {c : Conn σ} {r : Served σ}
    (h : serveConn tcp id now linger moves c = some r) :
    (c.st.aborted = true ∧ r = drop id c []) ∨
    (c.st.aborted = false ∧ ∃ c₁,
      establish id (tcp.stage c.sock) c = (c₁, r.untaken, r.before) ∧
      ((c₁.st.established = false ∧ r.removed = true ∧ r.conn = c₁ ∧
          ∃ message, r.events = refusal c₁.st message ++ [.removed id c₁.st c₁.sock]) ∨
        (c₁.st.established = false ∧ r.removed = false ∧ r.conn = c₁ ∧ r.events = []) ∨
        (c₁.st.established = true ∧ ∃ r', serveEstablished tcp id now linger moves c₁ = some r' ∧
          r.conn = r'.conn ∧ r.removed = r'.removed ∧ r.events = r'.events))) := by
  unfold serveConn at h
  split at h
  case isTrue haborted => exact .inl ⟨haborted, (Option.some.inj h).symm⟩
  -- not aborted, so the connection is looked at once: the three exits come in this order
  case isFalse haborted =>
    refine .inr ⟨by simpa using haborted, ?_⟩
    dsimp only at h
    generalize establish id (tcp.stage c.sock) c = established at h ⊢
    obtain ⟨c₁, untaken, before⟩ := established
    split at h
    case isTrue hrefused =>
      obtain rfl := Option.some.inj h
      exact ⟨c₁, rfl, .inl ⟨by simp_all, rfl, rfl, _, rfl⟩⟩
    case isFalse =>
      split at h
      case isTrue hwaiting =>
        have hst : c₁.st.established = false := by simpa using hwaiting
        split at h
        case isTrue =>
          obtain rfl := Option.some.inj h
          exact ⟨c₁, rfl, .inl ⟨hst, rfl, rfl, _, rfl⟩⟩
        case isFalse =>
          obtain rfl := Option.some.inj h
          exact ⟨c₁, rfl, .inr (.inl ⟨hst, rfl, rfl, rfl⟩)⟩
      case isFalse hstands =>
        obtain ⟨r', hr', h⟩ := Option.bind_eq_some_iff.mp h
        obtain rfl := Option.some.inj h
        exact ⟨c₁, rfl, .inr (.inr ⟨by simpa using hstands, r', hr', rfl, rfl, rfl⟩)⟩

end Serve

/-! ## The tables -/

section Tables

variable {σ υ : Type} {tcp : TcpOps σ} {s : NetStack σ υ} {id handle : Nat} {c : Conn σ}

/-- What a round leaves in the tables. -/
def Served.put (r : Served σ) (id handle : Nat) (s : NetStack σ υ) : NetStack σ υ :=
  if r.removed then
    { s with
      sockets := Function.update s.sockets handle none
      tcpConns := Function.update s.tcpConns id none }
  else
    putConn s id handle r.conn

/-- The close that is queued for a connection nobody took. -/
def Served.queue (r : Served σ) (id : Nat) (s : NetStack σ υ) : NetStack σ υ × List (Event σ) :=
  if r.untaken then queueClose id s else (s, [])

/-- Putting back what has been looked up changes nothing. -/
theorem putConn_self {st : TcpState} {sock : σ} (hst : s.tcpConns id = some st)
    (hsock : getTcp s handle = some sock) : putConn s id handle ⟨st, sock⟩ = s := by
  have hslot : s.sockets handle = some (.tcp sock) := by
    revert hsock
    unfold getTcp
    split <;> simp_all
  simp [putConn, setTcpConn, setSocket, ← hst, ← hslot]

@[simp] theorem lookupConn_putConn : lookupConn (putConn s id handle c) id handle = some c := by
  simp [lookupConn, putConn, setTcpConn, setSocket, getTcp]

@[simp] theorem putConn_putConn (c' : Conn σ) :
    putConn (putConn s id handle c) id handle c' = putConn s id handle c' := by
  simp [putConn, setTcpConn, setSocket]

@[simp] theorem putConn_tcpLimits : (putConn s id handle c).tcpLimits = s.tcpLimits := rfl

@[simp] theorem onConn_putConn {α : Type} (block : Conn σ → Option (Conn σ × α)) :
    onConn id handle block (putConn s id handle c) =
      (block c).map fun r => (putConn s id handle r.1, r.2) := by
  simp only [onConn, lookupConn_putConn, Option.bind_eq_bind, Option.bind_some, putConn_putConn]
  cases block c <;> rfl

@[simp] theorem dropConn_putConn :
    dropConn id handle (putConn s id handle c) =
      some ({ s with
        sockets := Function.update s.sockets handle none
        tcpConns := Function.update s.tcpConns id none }, [.removed id c.st c.sock]) := by
  simp [dropConn, removeSocket, removeTcpConn, putConn, setTcpConn, setSocket, lookupConn, getTcp]

theorem serviceFinish_eq :
    serviceFinish tcp id handle (putConn s id handle c) =
      some ((finish tcp id c).put id handle s, (finish tcp id c).events) := by
  simp only [serviceFinish, lookupConn_putConn, onConn_putConn, Option.map_some,
    Option.bind_eq_bind, Option.bind_some, dropConn_putConn, finish]
  split
  case isTrue => simp [drop, Served.put]
  case isFalse => simp [keep, Served.put]

theorem serviceSend_eq :
    serviceSend tcp id handle (putConn s id handle c) =
      (sending tcp id c).map fun r => (putConn s id handle r.1, r.2) := by
  simp only [serviceSend, sending, onConn_putConn]
  cases flushPending tcp id c with
  | none => rfl
  | some flushed => simp

theorem serviceReceive_eq (now : Nat) (moves : List Move) :
    serviceReceive tcp id handle now moves (putConn s id handle c) =
      some (putConn s id handle (receiving tcp id now s.tcpLimits.orphanLinger moves c).1,
        (receiving tcp id now s.tcpLimits.orphanLinger moves c).2) := by
  simp [serviceReceive, receiving]

theorem serviceEstablished_eq (now : Nat) (moves : List Move) :
    serviceEstablished tcp id handle now moves (putConn s id handle c) =
      (serveEstablished tcp id now s.tcpLimits.orphanLinger moves c).map fun r =>
        (r.put id handle s, r.backpressured, r.events) := by
  unfold serviceEstablished serveEstablished
  rw [serviceSend_eq]
  cases sending tcp id c with
  | none => rfl
  | some sent =>
      obtain ⟨c₁, ev₁⟩ := sent
      simp only [Option.map_some, Option.bind_eq_bind, Option.bind_some, serviceReceive_eq, rest]
      generalize receiving tcp id now s.tcpLimits.orphanLinger moves c₁ = received
      obtain ⟨c₂, ⟨backpressured, aborted⟩, ev₂⟩ := received
      cases aborted with
      | true => simp [keep, Served.put]
      | false => simp [serviceFinish_eq, Served.put]

theorem queueClose_queue (untaken : Bool) :
    (if untaken = true then queueClose id (putConn s id handle c)
      else (putConn s id handle c, [])) =
      (putConn (if untaken = true then queueClose id s else (s, [])).1 id handle c,
        (if untaken = true then queueClose id s else (s, [])).2) := by
  cases untaken <;> rfl

theorem serviceTcpConn_putConn (now : Nat) (moves : List Move) (hhandle : handle = c.st.handle) :
    serviceTcpConn tcp now moves id (putConn s id handle c) =
      (serveConn tcp id now s.tcpLimits.orphanLinger moves c).map fun r =>
        (r.put id handle (r.queue id s).1, r.backpressured,
          r.before ++ (r.queue id s).2 ++ r.events) := by
  have hst : (putConn s id handle c).tcpConns id = some c.st := by
    simp [putConn, setTcpConn]
  unfold serviceTcpConn serveConn
  rw [hst]
  simp only [← hhandle]
  cases haborted : c.st.aborted with
  | true => simp [drop, Served.put, Served.queue]
  | false =>
      simp only [Bool.false_eq_true, if_false, Option.bind_eq_bind, lookupConn_putConn,
        Option.bind_some, onConn_putConn, Option.map_some, queueClose_queue]
      generalize establish id (tcp.stage c.sock) c = established
      obtain ⟨c₁, untaken, before⟩ := established
      generalize hq : (if untaken = true then queueClose id s else (s, [])) = queued
      have hlimits : queued.1.tcpLimits = s.tcpLimits := by
        rw [← hq]
        split <;> rfl
      -- the exits in the order of the source: refused, given up, waiting, established
      split
      case isTrue => simp [drop, Served.put, Served.queue, hq]
      case isFalse =>
        split
        case isTrue =>
          split
          case isTrue => simp [drop, Served.put, Served.queue, hq]
          case isFalse => simp [keep, Served.put, Served.queue, hq]
        case isFalse =>
          rw [serviceEstablished_eq, hlimits]
          cases serveEstablished tcp id now s.tcpLimits.orphanLinger moves c₁ with
          | none => rfl
          | some r => simp [Served.put, Served.queue, hq]

/-- **The service of a connection is `serveConn` on its entry and its socket.** -/
theorem serviceTcpConn_eq {st : TcpState} {sock : σ} (now : Nat) (moves : List Move)
    (hst : s.tcpConns id = some st) (hsock : getTcp s st.handle = some sock) :
    serviceTcpConn tcp now moves id s =
      (serveConn tcp id now s.tcpLimits.orphanLinger moves ⟨st, sock⟩).map fun r =>
        (r.put id st.handle (r.queue id s).1, r.backpressured,
          r.before ++ (r.queue id s).2 ++ r.events) := by
  have h := @serviceTcpConn_putConn _ _ tcp s id st.handle ⟨st, sock⟩ now moves rfl
  rwa [putConn_self hst hsock] at h

end Tables

end Net
end AuroraVpn
