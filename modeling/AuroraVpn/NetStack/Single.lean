import AuroraVpn.NetStack.Loop
import AuroraVpn.NetStack.Round
import AuroraVpn.NetStack.SimpleSocket

/-!
# Single — runs of a stack with one connection

What a stack with a single TCP connection does, round by round: `lap_reachable` goes from behind the
service of the connections to the next `select!`, and `single_round` is one poll and one round with
an application that does nothing meanwhile.  All of it is for steps under any condition that is about
rounds and commands only.
-/

namespace AuroraVpn
namespace Net

section Single

variable {tuning : Tuning} {c : Conn SimpleSocket} {sock : SimpleSocket} {allocs : Nat}
  {senders : Proto → Nat → Bool} {trace : List (Event SimpleSocket)} {r : Served SimpleSocket}
  {ok : World SimpleSocket Unit → Label SimpleSocket Unit → Prop}

/-- The loop over the simple sockets. -/
abbrev simpleLoop (tuning : Tuning) : Runs.Machine (World SimpleSocket Unit) (Label SimpleSocket Unit) :=
  idLoop SimpleSocket.ops SimpleSocket.udpOps tuning

/-- The steps that are neither a round on a TCP connection nor a command. -/
def Label.plain {σ υ : Type} : Label σ υ → Bool
  | .serviceTcp _ _ _ _ | .cmd _ _ _ => false
  | _ => true

/-- A condition on the steps that leaves the plain ones alone. -/
def Spares (ok : World SimpleSocket Unit → Label SimpleSocket Unit → Prop) : Prop :=
  ∀ w l, l.plain = true → ok w l

theorem spares_true : Spares fun _ _ => True :=
  fun _ _ _ => trivial

/-- A stack that has just been spawned. -/
def freshWorld (tuning : Tuning) : World SimpleSocket Unit where
  stack :=
    { iface := ⟨⟨none, none⟩, none, none⟩
      device := ⟨[], []⟩
      sockets := fun _ => none
      tcpConns := fun _ => none
      udpConns := fun _ => none
      nextId := 1
      nextPort := 49152
      dataIn := .new tuning.appQueue
      tcpLimits := ⟨30000, 60000, 10000⟩
      allocs := 0 }
  deferred := []
  phase := .poll
  senders := fun _ _ => false
  trace := []

/-- The stack before a poll, with one connection, the first that was opened. -/
def single (tuning : Tuning) (c : Conn SimpleSocket) (allocs : Nat) (senders : Proto → Nat → Bool)
    (trace : List (Event SimpleSocket)) : World SimpleSocket Unit :=
  { freshWorld tuning with
    stack :=
      { (freshWorld tuning).stack with
        sockets := Function.update (fun _ => none) 0 (some (.tcp c.sock))
        tcpConns := Function.update (fun _ => none) 1 (some c.st)
        nextId := 2
        nextPort := 49152 + allocs % 15849
        allocs }
    senders
    trace }

section Laps

variable (hspares : Spares ok)
include hspares

/-- A lap of the loop with nothing to do, from behind the TCP connections to the `select!`. -/
theorem lap_reachable {w : World SimpleSocket Unit} {now : Nat} (hids : w.IdsLeft)
    (h : Runs.Reach (simpleLoop tuning) ok { w with phase := .tcp now [] })
    (hdeferred : w.deferred = []) (hudp : w.stack.udpConns = fun _ => none)
    (hdevice : w.stack.device = ⟨[], []⟩) :
    Runs.Reach (simpleLoop tuning) ok { w with phase := .select } := by
  have hkeys : Keys [] w.stack.udpConns := by
    rw [hudp]
    exact ⟨List.nodup_nil, by simp⟩
  -- the device is empty, so a flush moves nothing
  have hflush : flushTx 0 w.stack = w.stack := by
    obtain ⟨⟨iface, device, sockets, tcpConns, udpConns, nextId, nextPort, dataIn, tcpLimits, allocs⟩,
      deferred, phase, senders, trace⟩ := w
    obtain rfl : device = ⟨[], []⟩ := hdevice
    rfl
  have hudpPhase : Runs.Reach (simpleLoop tuning) ok { w with phase := .udp [] } :=
    .step (l := .startUdp []) h ⟨⟨⟨now, rfl⟩, hkeys⟩, hids⟩ (hspares _ _ rfl) rfl
  have hretry : Runs.Reach (simpleLoop tuning) ok { w with phase := .retry } := by
    refine .step (l := .flush 0) hudpPhase ⟨rfl, hids⟩ (hspares _ _ rfl) ?_
    exact congrArg (fun stack => some { w with stack, phase := .retry }) hflush
  refine .step (l := .retry) hretry ⟨rfl, hids⟩ (hspares _ _ rfl) ?_
  obtain ⟨stack, deferred, phase, senders, trace⟩ := w
  obtain rfl : deferred = [] := hdeferred
  rfl

/-- The first connection has been asked for. -/
theorem single_opened (dst : SocketAddr) (hport : dst.port ≠ 0)
    (hok : ok { freshWorld tuning with phase := .select } (.cmd 0 0 (.openTcp dst ⟨false⟩))) :
    Runs.Reach (simpleLoop tuning) ok
      (single tuning
        ⟨.opening tuning 0 0 49152 ⟨false⟩ (freshWorld tuning).stack, ⟨.synSent, 0, [], [], false⟩⟩
        1 (fun _ _ => false) []) := by
  have hspawned : Runs.Reach (simpleLoop tuning) ok (freshWorld tuning) := .init ⟨_, _, rfl⟩
  have hids : (freshWorld tuning).IdsLeft := (by decide : 1 + 1 < 2 ^ 64)
  have hpolled : Runs.Reach (simpleLoop tuning) ok
      { freshWorld tuning with phase := .tcp 0 [] } := by
    -- one poll of an empty stack, and a lap to the `select!`
    refine .step (l := .poll (fun _ => none) ⟨[], []⟩ 0 []) hspawned ⟨?_, hids⟩ (hspares _ _ rfl) rfl
    exact ⟨rfl, fun _ => trivial, List.nodup_nil, by simp [freshWorld]⟩
  have hselect := lap_reachable hspares hids hpolled rfl rfl rfl
  refine .step (l := .cmd 0 0 (.openTcp dst ⟨false⟩)) hselect ⟨⟨rfl, rfl⟩, hids⟩ hok ?_
  -- the port is not 0, so the socket connects
  have hopen : SimpleSocket.ops.connect (freshWorld tuning).stack.iface dst 49152
      (SimpleSocket.ops.new 60000) = .ok ⟨.synSent, 0, [], [], false⟩ := by
    simp [SimpleSocket.ops, hport]
  have hcmd := @openTcp_ok _ _ SimpleSocket.ops tuning 0 0 dst ⟨false⟩ (freshWorld tuning).stack _
    hopen
  exact congrArg (fun opened : NetStack SimpleSocket Unit × List (Event SimpleSocket) =>
    some ((freshWorld tuning).after opened.1 .poll opened.2)) hcmd

omit hspares in
theorem single_idsLeft (phase : Phase) :
    { single tuning c allocs senders trace with phase }.IdsLeft :=
  (by decide : 2 + 1 < 2 ^ 64)

/-- A poll before a round. -/
theorem single_polled (h : Runs.Reach (simpleLoop tuning) ok (single tuning c allocs senders trace))
    (hpoll : SimpleSocket.ops.polls c.sock sock) :
    Runs.Reach (simpleLoop tuning) ok
      { single tuning ⟨c.st, sock⟩ allocs senders trace with phase := .tcp 0 [1] } := by
  refine .step (l := .poll (Function.update (fun _ => none) 0 (some (.tcp sock))) ⟨[], []⟩ 0 [1]) h
    ⟨⟨rfl, fun k => ?_, by simp, fun i => ?_⟩, single_idsLeft .poll⟩ (hspares _ _ rfl) rfl
  · by_cases hk : k = 0
    · subst hk
      simpa [single, Socket.polls] using hpoll
    · simp [single, Socket.polls, Function.update_of_ne hk]
  · by_cases hi : i = 1 <;> simp [single, hi]

/-- A poll and the round behind it. -/
theorem single_served (h : Runs.Reach (simpleLoop tuning) ok (single tuning c allocs senders trace))
    (hpoll : SimpleSocket.ops.polls c.sock sock) (hhandle : c.st.handle = 0)
    (hr : serveConn SimpleSocket.ops 1 0 10000 [] ⟨c.st, sock⟩ = some r)
    (htaken : r.untaken = false)
    (hok : ok { single tuning ⟨c.st, sock⟩ allocs senders trace with phase := .tcp 0 [1] }
      (.serviceTcp 0 1 [] [])) :
    Runs.Reach (simpleLoop tuning) ok
      ((single tuning ⟨c.st, sock⟩ allocs senders trace).after
        (r.put 1 0 (single tuning ⟨c.st, sock⟩ allocs senders trace).stack) (.tcp 0 [])
        (r.before ++ r.events)) := by
  -- one label, `.serviceTcp`, whose result is computed below
  refine .step (l := .serviceTcp 0 1 [] []) (single_polled hspares h hpoll)
    ⟨rfl, single_idsLeft (.tcp 0 [1])⟩ hok ?_
  have hserve := @serviceTcpConn_eq _ _ SimpleSocket.ops
    (single tuning ⟨c.st, sock⟩ allocs senders trace).stack 1 c.st sock 0 []
    (by simp [single]) (by simp [single, getTcp, hhandle])
  -- the limit as the number it is, so that the hypothesis about the round applies
  have hlimit : (single tuning ⟨c.st, sock⟩ allocs senders trace).stack.tcpLimits.orphanLinger =
      10000 := rfl
  rw [hlimit, hr] at hserve
  simp only [Option.map_some, Served.queue, htaken, Bool.false_eq_true, if_false, hhandle,
    List.append_nil] at hserve
  have hstep : (simpleLoop tuning).step (.serviceTcp 0 1 [] [])
      { single tuning ⟨c.st, sock⟩ allocs senders trace with phase := .tcp 0 [1] } =
      (serviceTcpConn SimpleSocket.ops 0 [] 1
        (single tuning ⟨c.st, sock⟩ allocs senders trace).stack).bind fun served =>
          some ((single tuning ⟨c.st, sock⟩ allocs senders trace).after served.1 (.tcp 0 [])
            served.2.2) := rfl
  rw [hstep, hserve]
  rfl

/-- A round that keeps the connection leads to the stack with what the round made of it, in the
`select!`. -/
theorem single_round (h : Runs.Reach (simpleLoop tuning) ok (single tuning c allocs senders trace))
    (hpoll : SimpleSocket.ops.polls c.sock sock) (hhandle : c.st.handle = 0)
    (hr : serveConn SimpleSocket.ops 1 0 10000 [] ⟨c.st, sock⟩ = some r)
    (htaken : r.untaken = false) (hkept : r.removed = false)
    (hok : ok { single tuning ⟨c.st, sock⟩ allocs senders trace with phase := .tcp 0 [1] }
      (.serviceTcp 0 1 [] [])) :
    Runs.Reach (simpleLoop tuning) ok
      { single tuning r.conn allocs (handOver (r.before ++ r.events) senders)
          (trace ++ (r.before ++ r.events)) with phase := .select } := by
  have hserved := single_served hspares h hpoll hhandle hr htaken hok
  have hput : r.put 1 0 (single tuning ⟨c.st, sock⟩ allocs senders trace).stack =
      (single tuning r.conn allocs (handOver (r.before ++ r.events) senders)
        (trace ++ (r.before ++ r.events))).stack := by
    simp [Served.put, hkept, putConn, setTcpConn, setSocket, single]
  rw [hput] at hserved
  exact lap_reachable hspares (single_idsLeft .poll) hserved rfl rfl rfl

/-- Nothing comes in the `select!` but its time. -/
theorem single_timer
    (h : Runs.Reach (simpleLoop tuning) ok
      { single tuning c allocs senders trace with phase := .select }) :
    Runs.Reach (simpleLoop tuning) ok (single tuning c allocs senders trace) :=
  .step (l := .timer) h ⟨rfl, single_idsLeft .select⟩ (hspares _ _ rfl) rfl

/-- In the `select!`, the application puts a message on its channel, and it is taken whole. -/
theorem single_given {d : DataIn} {st : TcpState}
    (h : Runs.Reach (simpleLoop tuning) ok
      { single tuning c allocs senders trace with phase := .select })
    (hsender : senders d.proto d.id = true) (hroom : (0 : Nat) < tuning.appQueue)
    (hhandled : tryHandleData SimpleSocket.udpOps tuning
      (single tuning c allocs senders trace).stack d =
        some (setTcpConn (single tuning c allocs senders trace).stack 1 st, none)) :
    Runs.Reach (simpleLoop tuning) ok
      (single tuning ⟨st, c.sock⟩ allocs senders (trace ++ [.queued d, .dequeued d])) := by
  let before := single tuning c allocs senders (trace ++ [.queued d])
  let behind := single tuning ⟨st, c.sock⟩ allocs senders (trace ++ [.queued d, .dequeued d])
  have hreserve : (Channel.new tuning.appQueue : Channel DataIn).tryReserve = .permit :=
    Channel.tryReserve_eq_permit.mpr ⟨rfl, hroom⟩
  -- first the message is put on the channel, then the loop takes it
  have hqueued : Runs.Reach (simpleLoop tuning) ok
      { before with
        stack := { before.stack with dataIn := (Channel.new tuning.appQueue).push d }
        phase := .select } := by
    refine .step (l := .send d) h ⟨⟨hsender, hreserve⟩, single_idsLeft .select⟩ (hspares _ _ rfl) ?_
    have hput : putData d { single tuning c allocs senders trace with phase := .select } =
        { before with
          stack := { before.stack with dataIn := (Channel.new tuning.appQueue).push d }
          phase := .select } := by
      unfold putData
      rw [show ({ single tuning c allocs senders trace with phase := .select } :
        World SimpleSocket Unit).stack.dataIn.tryReserve = .permit from hreserve]
      rfl
    exact congrArg some hput
  -- the channel is empty again, and the message is in the trace twice: queued and dequeued
  have htaken : Runs.Reach (simpleLoop tuning) ok { behind with phase := .drain } := by
    refine .step (l := .data d) hqueued ⟨⟨rfl, rfl, rfl⟩, (by decide : 2 + 1 < 2 ^ 64)⟩
      (hspares _ _ rfl) ?_
    have hstack : setTcpConn (single tuning c allocs senders trace).stack 1 st = behind.stack := by
      simp [setTcpConn, behind, single]
    have htake : takeData SimpleSocket.udpOps tuning d
        { before with
          stack := { before.stack with dataIn := (Channel.new tuning.appQueue).push d }
          phase := .select } =
        (tryHandleData SimpleSocket.udpOps tuning (single tuning c allocs senders trace).stack
          d).bind fun handled =>
          some { before with
            stack := handled.1
            deferred := [] ++ handled.2.toList
            phase := .drain
            trace := trace ++ [.queued d] ++ [.dequeued d] } := rfl
    refine htake.trans ?_
    rw [hhandled, hstack, List.append_assoc]
    rfl
  -- nothing else is waiting, so the drain ends at once
  exact .step (l := .drained) htaken ⟨⟨rfl, fun _ => rfl⟩, single_idsLeft .drain⟩ (hspares _ _ rfl) rfl

/-- An address to connect to. -/
def web : SocketAddr :=
  .new (.v4 ⟨[1, 2, 3, 4], rfl⟩) 80

/-- The connection when it stands. -/
def standing (toApp : Channel Bytes) (sock : SimpleSocket) : Conn SimpleSocket :=
  ⟨{ TcpState.opening ⟨128, 524288⟩ 0 0 49152 ⟨false⟩ (freshWorld ⟨128, 524288⟩).stack with
      toApp
      connectResp := none
      fromStackRx := false
      established := true }, sock⟩

/-- A socket that has seen `k` bytes, with some chunks still to be read. -/
def quietSocket (stage : TcpStage) (k : Nat) (chunks : List (UInt8 × Bytes)) : SimpleSocket :=
  ⟨stage, 0, chunks, List.replicate k 0, false⟩

/-- The first connection stands, and the application has its end. -/
theorem single_stands
    (hopen : ok { freshWorld ⟨128, 524288⟩ with phase := .select } (.cmd 0 0 (.openTcp web ⟨false⟩)))
    (hround : ok
      { single ⟨128, 524288⟩
          ⟨.opening ⟨128, 524288⟩ 0 0 49152 ⟨false⟩ (freshWorld ⟨128, 524288⟩).stack,
            quietSocket .established 0 []⟩ 1 (fun _ _ => false) [] with
        phase := .tcp 0 [1] }
      (.serviceTcp 0 1 [] [])) :
    Runs.Reach (simpleLoop ⟨128, 524288⟩) ok
      { single ⟨128, 524288⟩ (standing (.new 128) (quietSocket .established 0 [])) 1
          (handOver ([.handed .tcp 1] : List (Event SimpleSocket)) fun _ _ => false) [.handed .tcp 1] with
        phase := .select } := by
  have hopened := single_opened hspares web (by decide) hopen
  have hack : SimpleSocket.ops.polls ⟨.synSent, 0, [], [], false⟩ (quietSocket .established 0 []) :=
    ⟨fun _ => rfl, fun _ => ⟨rfl, [], rfl, rfl⟩⟩
  exact single_round hspares hopened hack rfl rfl rfl rfl hround

end Laps

end Single

end Net
end AuroraVpn
