import AuroraVpn.NetStack.Ownership

/-!
# View — the stack as independent connections

Without the tables, the handles and the phases, what is left of the stack is a set of TCP
connections, each with its socket, a queue of messages, the deferred ones, and the history.
`ViewStep` is a step of that simpler system, in which a round on one connection cannot reach
another, and `step_view` says that every step of the loop is one.
-/

namespace AuroraVpn
namespace Net

section View

variable {σ υ : Type}

structure View (σ : Type) where
  conns : Nat → Option (Conn σ)
  queue : List DataIn
  deferred : List DataIn
  nextId : Nat
  trace : List (Event σ)

/-- A TCP connection with its socket. -/
def connOf (s : NetStack σ υ) (id : Nat) : Option (Conn σ) :=
  (s.tcpConns id).bind fun st => (getTcp s st.handle).map fun sock => ⟨st, sock⟩

def view (w : World σ υ) : View σ where
  conns := connOf w.stack
  queue := w.stack.dataIn.queue
  deferred := w.deferred
  nextId := w.stack.nextId
  trace := w.trace

/-- What a message does to the connections, and what is left of it. -/
def handleOn (max : Nat) (conns : Nat → Option (Conn σ)) :
    DataIn → (Nat → Option (Conn σ)) × Option DataIn
  | .tcp id data =>
      match conns id with
      | some c =>
          let (pending, back) := appendPending max c.st.pending data
          (Function.update conns id (some ⟨{ c.st with pending }, c.sock⟩), back.map (.tcp id))
      | none => (conns, none)
  | .tcpClose id =>
      match conns id with
      | some c =>
          (Function.update conns id (some ⟨{ c.st with halfClosed := true }, c.sock⟩), none)
      | none => (conns, none)
  | .udp _ _ _ | .udpClose _ => (conns, none)

def retryOn (max : Nat) (conns : Nat → Option (Conn σ)) :
    List DataIn → (Nat → Option (Conn σ)) × List DataIn
  | [] => (conns, [])
  | d :: deferred =>
      match handleOn max conns d with
      | (conns, some back) => (conns, back :: deferred)
      | (conns, none) => retryOn max conns deferred

/-- A round on one connection, with the close that it may have queued. -/
def View.served (v : View σ) (id : Nat) (r : Served σ) (queued : List DataIn) : View σ :=
  { v with
    conns := Function.update v.conns id (if r.removed then none else some r.conn)
    queue := v.queue ++ queued
    trace := v.trace ++ (r.before ++ queued.map .queued ++ r.events) }

/-- A step of the connections. -/
inductive ViewStep (tcp : TcpOps σ) (max : Nat) (v : View σ) : Label σ υ → View σ → Prop
  /-- nothing that concerns the TCP connections -/
  | quiet {l} : ViewStep tcp max v l v
  | poll {l} (conns : Nat → Option (Conn σ))
      (h : ∀ id c', conns id = some c' →
        ∃ c, v.conns id = some c ∧ c'.st = c.st ∧ tcp.polls c.sock c'.sock) :
      ViewStep tcp max v l { v with conns }
  /-- a round on one connection, which may queue a close for it -/
  | serve {now id ids moves} (linger : Nat) (c : Conn σ) (r : Served σ) (queued : List DataIn)
      (hc : v.conns id = some c) (hr : serveConn tcp id now linger moves c = some r)
      (hqueued : queued = [] ∨ (r.untaken = true ∧ queued = [.tcpClose id])) :
      ViewStep tcp max v (.serviceTcp now id ids moves) (v.served id r queued)
  /-- a new connection -/
  | opened {l} (c : Conn σ) (iface : Interface) (dst : SocketAddr) (port keepalive : Nat)
      (hsock : tcp.connect iface dst port (tcp.new keepalive) = .ok c.sock)
      (hpending : c.st.pending = []) (hhalf : c.st.halfClosed = false)
      (hest : c.st.established = false) (haborted : c.st.aborted = false) :
      ViewStep tcp max v l
        { v with conns := Function.update v.conns v.nextId (some c), nextId := v.nextId + 1 }
  /-- the application has touched its end of the channel, or its answer -/
  | touch {l} (id : Nat) (c : Conn σ) (toApp : Channel Bytes) (connectResp : Option OpenResp)
      (hc : v.conns id = some c) :
      ViewStep tcp max v l { v with
        conns := Function.update v.conns id (some ⟨{ c.st with toApp, connectResp }, c.sock⟩) }
  /-- messages are queued, ids are given to others -/
  | outside {l} (nextId : Nat) (events : List (Event σ)) (hnext : v.nextId ≤ nextId)
      (houtside : ∀ e ∈ events, e.OfOutside) (hids : ∀ e ∈ events, ∀ i, e.id? = some i → i < nextId) :
      ViewStep tcp max v l { v with
        queue := v.queue ++ queuedLog events, nextId, trace := v.trace ++ events }
  | take {l} (d : DataIn) (queue : List DataIn) (hdeferred : v.deferred = [])
      (hqueue : v.queue = d :: queue) :
      ViewStep tcp max v l { v with
        conns := (handleOn max v.conns d).1
        queue
        deferred := (handleOn max v.conns d).2.toList
        trace := v.trace ++ [.dequeued d] }
  | retry {l} :
      ViewStep tcp max v l { v with
        conns := (retryOn max v.conns v.deferred).1
        deferred := (retryOn max v.conns v.deferred).2 }

/-- A connection of an updated table is the one put in, or was there. -/
theorem update_eq_some {conns : Nat → Option (Conn σ)} {id i : Nat} {o : Option (Conn σ)}
    {c : Conn σ} (h : Function.update conns id o i = some c) :
    (i = id ∧ o = some c) ∨ (i ≠ id ∧ conns i = some c) := by
  by_cases hi : i = id
  · subst hi
    rw [Function.update_self] at h
    exact .inl ⟨rfl, h⟩
  · rw [Function.update_of_ne hi] at h
    exact .inr ⟨hi, h⟩

/-! ## Looking at the connections -/

section ConnOf

variable {s s' : NetStack σ υ} {id handle : Nat} {c : Conn σ} {st : TcpState}

theorem connOf_eq_some :
    connOf s id = some c ↔ s.tcpConns id = some c.st ∧ getTcp s c.st.handle = some c.sock := by
  unfold connOf
  constructor
  · intro h
    obtain ⟨st, hst, h⟩ := Option.bind_eq_some_iff.mp h
    obtain ⟨sock, hsock, rfl⟩ := Option.map_eq_some_iff.mp h
    exact ⟨hst, hsock⟩
  · rintro ⟨hst, hsock⟩
    simp [hst, hsock]

theorem connOf_congr (hconns : s'.tcpConns = s.tcpConns) (hsockets : s'.sockets = s.sockets) :
    connOf s' = connOf s := by
  funext id
  simp [connOf, getTcp, hconns, hsockets]

/-- Where the tables are consistent, an entry has its connection. -/
theorem Consistent.connOf (h : Consistent s) (hst : s.tcpConns id = some st) :
    ∃ sock, Net.connOf s id = some ⟨st, sock⟩ ∧ Net.getTcp s st.handle = some sock := by
  obtain ⟨sock, -, hsock⟩ := h.getTcp hst
  exact ⟨sock, connOf_eq_some.mpr ⟨hst, hsock⟩, hsock⟩

theorem connOf_eq_none (h : Consistent s) : Net.connOf s id = none ↔ s.tcpConns id = none := by
  constructor
  · intro hnone
    cases hst : s.tcpConns id with
    | none => rfl
    | some st =>
        obtain ⟨sock, hc, -⟩ := h.connOf hst
        rw [hc] at hnone
        cases hnone
  · intro hnone
    simp [connOf, hnone]

/-- A socket that belongs to another owner is not looked at. -/
theorem connOf_of_sockets (h : Consistent s) {owner : Proto × Nat}
    (howner : handleOf s owner = some handle) (hne : owner ≠ (.tcp, id))
    (hconns : s'.tcpConns id = s.tcpConns id)
    (hsockets : ∀ k, k ≠ handle → s'.sockets k = s.sockets k) : Net.connOf s' id = Net.connOf s id := by
  unfold connOf
  rw [hconns]
  cases hst : s.tcpConns id with
  | none => rfl
  | some st =>
      have hother : st.handle ≠ handle :=
        h.owned.other howner (handleOf_tcp hst) (Ne.symm hne)
      simp [getTcp, hsockets _ hother]

/-- The socket of a UDP connection is none of theirs. -/
theorem connOf_of_udp (h : Consistent s) {st : UdpState} (hst : s.udpConns id = some st)
    (hconns : s'.tcpConns = s.tcpConns)
    (hsockets : ∀ k, k ≠ st.handle → s'.sockets k = s.sockets k) : Net.connOf s' = Net.connOf s := by
  funext i
  exact connOf_of_sockets h (handleOf_udp hst) (by simp) (congrFun hconns i) hsockets

/-- Writing an entry over, with the same handle, changes that connection only. -/
theorem connOf_setTcpConn (hc : Net.connOf s id = some c) {st' : TcpState}
    (hhandle : st'.handle = c.st.handle) :
    Net.connOf (setTcpConn s id st') = Function.update (Net.connOf s) id (some ⟨st', c.sock⟩) := by
  obtain ⟨-, hsock⟩ := connOf_eq_some.mp hc
  funext i
  by_cases hi : i = id
  · subst hi
    rw [Function.update_self, connOf_eq_some]
    exact ⟨by simp [setTcpConn], by rw [hhandle]; exact hsock⟩
  · rw [Function.update_of_ne hi]
    simp [connOf, setTcpConn, Function.update_of_ne hi, getTcp]

theorem connOf_put (h : Consistent s) (hc : Net.connOf s id = some c) {r : Served σ}
    (hhandle : r.removed = false → r.conn.st.handle = c.st.handle) :
    Net.connOf (r.put id c.st.handle s) =
      Function.update (Net.connOf s) id (if r.removed then none else some r.conn) := by
  obtain ⟨hst, hsock⟩ := connOf_eq_some.mp hc
  have howner := handleOf_tcp hst
  funext i
  by_cases hi : i = id
  · subst hi
    rw [Function.update_self]
    unfold Served.put
    -- removed: neither entry nor socket; else both stand at the handle of before
    cases hremoved : r.removed with
    | true => simp [connOf]
    | false =>
        simp only [Bool.false_eq_true, if_false]
        rw [connOf_eq_some]
        refine ⟨by simp [putConn, setTcpConn], ?_⟩
        simp [putConn, setTcpConn, setSocket, getTcp, hhandle hremoved]
  · rw [Function.update_of_ne hi]
    -- another connection has another socket, which the round leaves alone
    have hne : ((Proto.tcp, id) : Proto × Nat) ≠ (.tcp, i) := fun heq => hi (Prod.mk.inj heq).2.symm
    refine connOf_of_sockets h howner hne ?_ ?_
    · unfold Served.put
      split <;> simp [putConn, setTcpConn, setSocket, Function.update_of_ne hi]
    · intro k hk
      unfold Served.put
      split <;> simp [putConn, setTcpConn, setSocket, Function.update_of_ne hk]

end ConnOf

/-! ## Every step is one of the connections -/

section Simulation

variable {tcp : TcpOps σ} {udp : UdpOps υ} {tuning : Tuning} {s s' : NetStack σ υ} {w w' : World σ υ}

/-- Messages find the connection that the tables find. -/
theorem tryHandleData_view (h : Consistent s) {d : DataIn} {back : Option DataIn}
    (hd : tryHandleData udp tuning s d = some (s', back)) :
    handleOn tuning.maxTcpPending (connOf s) d = (connOf s', back) ∧ s'.nextId = s.nextId ∧
      s'.dataIn = s.dataIn := by
  cases d with
  -- the two kinds of TCP messages find their entry, or are dropped
  | tcp id data =>
      cases hst : s.tcpConns id with
      | none =>
          have hnone : connOf s id = none := (connOf_eq_none h).mpr hst
          obtain ⟨rfl, rfl⟩ : s = s' ∧ none = back := by simpa [tryHandleData, hst] using hd
          simp [handleOn, hnone]
      | some st =>
          obtain ⟨sock, hc, -⟩ := h.connOf hst
          rw [tryHandleData_tcp hst] at hd
          obtain ⟨rfl, rfl⟩ := Prod.mk.inj (Option.some.inj hd)
          refine ⟨?_, rfl, rfl⟩
          simp only [handleOn, hc]
          let pending := (appendPending tuning.maxTcpPending st.pending data).1
          have hput := @connOf_setTcpConn _ _ s id _ hc { st with pending } rfl
          exact Prod.ext hput.symm rfl
  | tcpClose id =>
      cases hst : s.tcpConns id with
      | none =>
          have hnone : connOf s id = none := (connOf_eq_none h).mpr hst
          obtain ⟨rfl, rfl⟩ : s = s' ∧ none = back := by simpa [tryHandleData, hst] using hd
          simp [handleOn, hnone]
      | some st =>
          obtain ⟨sock, hc, -⟩ := h.connOf hst
          rw [tryHandleData_tcpClose hst] at hd
          obtain ⟨rfl, rfl⟩ := Prod.mk.inj (Option.some.inj hd)
          refine ⟨?_, rfl, rfl⟩
          simp only [handleOn, hc]
          have hput := @connOf_setTcpConn _ _ s id _ hc { st with halfClosed := true } rfl
          exact Prod.ext hput.symm rfl
  -- a datagram is for the other table, which the view leaves out
  | udp id dst data =>
      cases hst : s.udpConns id with
      | none =>
          obtain ⟨rfl, rfl⟩ : s = s' ∧ none = back := by simpa [tryHandleData, hst] using hd
          exact ⟨rfl, rfl, rfl⟩
      | some st =>
          obtain ⟨sock, -, hsock⟩ := h.getUdp hst
          rw [tryHandleData_udp hst hsock] at hd
          obtain ⟨hs', rfl⟩ := Prod.mk.inj (Option.some.inj hd)
          have hsame : connOf s' = connOf s := by
            subst hs'
            exact connOf_of_udp h hst rfl fun k hk => Function.update_of_ne hk _ _
          rw [hsame, ← hs']
          exact ⟨rfl, rfl, rfl⟩
  | udpClose id =>
      cases hst : s.udpConns id with
      | none =>
          obtain ⟨rfl, rfl⟩ : s = s' ∧ none = back := by simpa [tryHandleData, hst] using hd
          exact ⟨rfl, rfl, rfl⟩
      | some st =>
          obtain ⟨sock, hsock, -⟩ := h.getUdp hst
          rw [tryHandleData_udpClose hst hsock] at hd
          obtain ⟨hs', rfl⟩ := Prod.mk.inj (Option.some.inj hd)
          have hsame : connOf s' = connOf s := by
            subst hs'
            exact connOf_of_udp h hst rfl fun k hk => Function.update_of_ne hk _ _
          rw [hsame, ← hs']
          exact ⟨rfl, rfl, rfl⟩

theorem retryDeferred_view (h : Consistent s) {deferred deferred' : List DataIn}
    (hd : retryDeferred udp tuning s deferred = some (s', deferred')) :
    retryOn tuning.maxTcpPending (connOf s) deferred = (connOf s', deferred') ∧
      s'.nextId = s.nextId ∧ s'.dataIn = s.dataIn := by
  induction deferred generalizing s with
  | nil =>
      obtain ⟨rfl, rfl⟩ := Prod.mk.inj (Option.some.inj hd)
      exact ⟨rfl, rfl, rfl⟩
  | cons d deferred ih =>
      obtain ⟨s₁, back, hd₁, hgrows, -⟩ := @tryHandleData_grows _ _ _ udp tuning h d
      obtain ⟨hon, hnext, hdata⟩ := tryHandleData_view h hd₁
      simp only [retryDeferred, hd₁, Option.bind_eq_bind, Option.bind_some] at hd
      simp only [retryOn, hon]
      cases back with
      | some back =>
          obtain ⟨rfl, rfl⟩ := Prod.mk.inj (Option.some.inj hd)
          exact ⟨rfl, hnext, hdata⟩
      | none =>
          obtain ⟨hrest, hnext', hdata'⟩ := ih hgrows.consistent hd
          exact ⟨hrest, hnext'.trans hnext, hdata'.trans hdata⟩

/-- An application holds no sender for an id that has not been given out. -/
def SendersBelow (w : World σ υ) : Prop :=
  ∀ proto id, w.senders proto id = true → id < w.stack.nextId

theorem putData_view (d : DataIn) (w : World σ υ) :
    ∃ events : List (Event σ), (events = [] ∨ events = [.queued d]) ∧
      view (putData d w) = { view w with
        queue := (view w).queue ++ queuedLog events
        trace := (view w).trace ++ events } := by
  unfold putData
  split
  · refine ⟨[.queued d], .inr rfl, ?_⟩
    rfl
  · exact ⟨[], .inl rfl, by simp [view, queuedLog]⟩
  · exact ⟨[], .inl rfl, by simp [view, queuedLog]⟩

theorem handOver_below {events : List (Event σ)} {senders : Proto → Nat → Bool} {n : Nat}
    (hsenders : ∀ proto id, senders proto id = true → id < n)
    (hids : ∀ e ∈ events, ∀ i, e.id? = some i → i < n) :
    ∀ proto id, handOver events senders proto id = true → id < n := by
  induction events generalizing senders with
  | nil => exact hsenders
  | cons e events ih =>
      refine ih ?_ fun e' he' => hids e' (List.mem_cons_of_mem _ he')
      cases e with
      | handed proto id =>
          intro proto' id' h
          by_cases hid : id' = id
          · exact hid ▸ hids _ List.mem_cons_self id rfl
          · refine hsenders proto' id' ?_
            by_cases hproto : proto' = proto
            · subst hproto
              simpa [Function.update_of_ne hid] using h
            · simpa [Function.update_of_ne hproto] using h
      | _ => exact hsenders

/-- A new connection: the slot is free, so that it is nobody else's. -/
theorem connOf_opened (h : Consistent s) {handle : Nat} (hfree : s.sockets handle = none)
    {st : TcpState} {sock : σ} (hhandle : st.handle = handle)
    (hconns : s'.tcpConns = Function.update s.tcpConns s.nextId (some st))
    (hsockets : s'.sockets = Function.update s.sockets handle (some (.tcp sock))) :
    connOf s' = Function.update (connOf s) s.nextId (some ⟨st, sock⟩) := by
  funext i
  by_cases hi : i = s.nextId
  · subst hi
    rw [Function.update_self, connOf_eq_some]
    exact ⟨by simp [hconns], by simp [getTcp, hsockets, hhandle]⟩
  · rw [Function.update_of_ne hi]
    unfold connOf
    rw [hconns, Function.update_of_ne hi]
    cases hst : s.tcpConns i with
    | none => rfl
    | some st' =>
        -- the handle was free, so no other entry had it
        have hne : st'.handle ≠ handle := by
          intro heq
          obtain ⟨a, ha, -⟩ := h.owned.live (handleOf_tcp hst)
          rw [heq, hfree] at ha
          cases ha
        simp [getTcp, hsockets, Function.update_of_ne hne]

/-- The close of a connection nobody took is queued, if at all, behind everything else. -/
theorem queue_spec (r : Served σ) (id : Nat) (s : NetStack σ υ) :
    ∃ queued : List DataIn, (queued = [] ∨ (r.untaken = true ∧ queued = [.tcpClose id])) ∧
      (r.queue id s).1.dataIn.queue = s.dataIn.queue ++ queued ∧
      (r.queue id s).2 = queued.map Event.queued := by
  unfold Served.queue
  cases huntaken : r.untaken with
  | false => exact ⟨[], .inl rfl, by simp⟩
  | true =>
      unfold queueClose Channel.trySend
      cases s.dataIn.tryReserve with
      | permit => exact ⟨[.tcpClose id], .inr ⟨rfl, rfl⟩, rfl, rfl⟩
      | full => exact ⟨[], .inl rfl, by simp⟩
      | closed => exact ⟨[], .inl rfl, by simp⟩

theorem put_fields (r : Served σ) (id handle : Nat) (s : NetStack σ υ) :
    (r.put id handle s).dataIn = s.dataIn ∧ (r.put id handle s).nextId = s.nextId := by
  unfold Served.put
  split <;> exact ⟨rfl, rfl⟩

/-- The service of a connection is a round on it, or nothing when there is none. -/
theorem serviceTcp_served (laws : TcpLaws tcp) (h : Consistent w.stack) (hsenders : SendersBelow w)
    {now id : Nat} {ids : List Nat} {moves : List Move}
    (hstep : step tcp udp tuning (.serviceTcp now id ids moves) w = some w') :
    ((connOf w.stack id = none ∧ view w' = view w) ∨
      ∃ c r queued, connOf w.stack id = some c ∧
        serveConn tcp id now w.stack.tcpLimits.orphanLinger moves c = some r ∧
        (queued = [] ∨ (r.untaken = true ∧ queued = [.tcpClose id])) ∧
        view w' = (view w).served id r queued) ∧
      SendersBelow w' := by
  -- without an entry the round does nothing
  cases hst : w.stack.tcpConns id with
  | none =>
      have hs : serviceTcpConn tcp now moves id w.stack = some (w.stack, false, []) := by
        simp [serviceTcpConn, hst]
      simp only [step, hs, Option.bind_eq_bind, Option.bind_some, Option.some.injEq] at hstep
      obtain rfl := hstep
      refine ⟨.inl ⟨(connOf_eq_none h).mpr hst, ?_⟩, hsenders⟩
      simp [view, World.after]
  | some st =>
      obtain ⟨sock, r, hsock, hr, heq⟩ := serviceTcpConn_serves laws h hst now moves
      have hc : connOf w.stack id = some ⟨st, sock⟩ := connOf_eq_some.mpr ⟨hst, hsock⟩
      have hid : id < w.stack.nextId :=
        @Consistent.below _ _ _ h (.tcp, id) (by rw [handleOf_tcp hst]; rfl)
      -- the close that the round may queue leaves the tables as they are
      obtain ⟨hown, hsockets, hnext, htcp⟩ := handleOf_queue r id w.stack
      have hqueue : Consistent (r.queue id w.stack).1 := (Grows.congr h hown hsockets hnext).consistent
      have hconn : connOf (r.queue id w.stack).1 = connOf w.stack := connOf_congr htcp hsockets
      have hput := connOf_put hqueue (hconn ▸ hc) (r := r)
        fun hkept => (serveConn_kept laws hr hkept).1.handle
      have hevents := serveConn_ofService laws hr
      simp only [step, heq, Option.bind_eq_bind, Option.bind_some, Option.some.injEq] at hstep
      obtain rfl := hstep
      obtain ⟨queued, hqueued, hdata, hev⟩ := queue_spec r id w.stack
      obtain ⟨hputData, hputNext⟩ := put_fields r id st.handle (r.queue id w.stack).1
      have hnext' : (r.put id st.handle (r.queue id w.stack).1).nextId = w.stack.nextId :=
        hputNext.trans hnext
      refine ⟨.inr ⟨⟨st, sock⟩, r, queued, hc, hr, hqueued, ?_⟩, ?_⟩
      · simp only [view, View.served, World.after, hputData, hnext', hdata, hev]
        rw [hput, hconn]
      -- no sender is handed over but for ids below `next_id`
      · refine handOver_below (fun proto i hi => ?_) fun e he i hi => ?_
        · exact (hsenders proto i hi).trans_eq hnext'.symm
        · -- every event is about this connection, which has an id already
          have hi' : i = id := by
            rw [hev] at he
            simp only [List.mem_append, List.mem_map] at he
            rcases he with (he | ⟨d, hd, rfl⟩) | he
            · exact id?_ofService hevents e (List.mem_append_left _ he) i hi
            · rcases hqueued with rfl | ⟨-, rfl⟩
              · cases hd
              · obtain rfl := List.mem_singleton.mp hd
                exact (Option.some.inj hi).symm
            · exact id?_ofService hevents e (List.mem_append_right _ he) i hi
          rw [hi']
          exact hid.trans_eq hnext'.symm

theorem serviceTcp_view (laws : TcpLaws tcp) (h : Consistent w.stack) (hsenders : SendersBelow w)
    {now id : Nat} {ids : List Nat} {moves : List Move}
    (hstep : step tcp udp tuning (.serviceTcp now id ids moves) w = some w') :
    ViewStep tcp tuning.maxTcpPending (view w) (.serviceTcp now id ids moves : Label σ υ)
        (view w') ∧
      SendersBelow w' := by
  obtain ⟨hserved, hsenders'⟩ := serviceTcp_served laws h hsenders hstep
  refine ⟨?_, hsenders'⟩
  rcases hserved with ⟨-, hview⟩ | ⟨c, r, queued, hc, hr, hqueued, hview⟩
  · rw [hview]
    exact .quiet
  · rw [hview]
    exact .serve _ c r queued hc hr hqueued

theorem poll_view (h : Consistent w.stack) {sockets : SocketSet σ υ} {device : Device}
    {phase : Phase} (hpolls : ∀ k, Socket.polls tcp udp (w.stack.sockets k) (sockets k))
    (l : Label σ υ) :
    ViewStep tcp tuning.maxTcpPending (view w) l
      (view { w with stack := { w.stack with sockets, device }, phase }) := by
  refine .poll (connOf { w.stack with sockets, device }) fun id c' hc' => ?_
  obtain ⟨hst, hsock'⟩ := connOf_eq_some.mp hc'
  obtain ⟨sock, hslot, hsock⟩ := h.getTcp hst
  refine ⟨⟨c'.st, sock⟩, connOf_eq_some.mpr ⟨hst, hsock⟩, rfl, ?_⟩
  -- the slot was a TCP socket and still is one
  have hpoll := hpolls c'.st.handle
  rw [hslot] at hpoll
  revert hsock'
  unfold Net.getTcp
  dsimp only
  split
  case h_1 y hy =>
    intro heq
    obtain rfl := Option.some.inj heq
    rwa [hy] at hpoll
  case h_2 => nofun

theorem takeData_view (h : Consistent w.stack) {d : DataIn} (hdeferred : w.deferred = [])
    (hhead : w.stack.dataIn.queue.head? = some d) (hstep : takeData udp tuning d w = some w')
    (l : Label σ υ) :
    ViewStep tcp tuning.maxTcpPending (view w) l (view w') ∧
      w'.stack.nextId = w.stack.nextId ∧ w'.senders = w.senders := by
  obtain ⟨queue, hqueue⟩ : ∃ queue, w.stack.dataIn.queue = d :: queue := by
    cases hq : w.stack.dataIn.queue with
    | nil => simp [hq] at hhead
    | cons d' queue => exact ⟨queue, by simpa [hq] using hhead⟩
  -- taking a message off the channel leaves the tables as they are
  have htake : Grows w.stack { w.stack with dataIn := w.stack.dataIn.take 1 } :=
    .congr h rfl rfl rfl
  obtain ⟨s', back, hd, -, -⟩ := @tryHandleData_grows _ _ _ udp tuning htake.consistent d
  obtain ⟨hon, hnext, hdata⟩ := tryHandleData_view htake.consistent hd
  have hconn : connOf { w.stack with dataIn := w.stack.dataIn.take 1 } = connOf w.stack :=
    connOf_congr rfl rfl
  rw [hconn] at hon
  simp only [takeData, hd, Option.bind_eq_bind, Option.bind_some, Option.some.injEq] at hstep
  obtain rfl := hstep
  refine ⟨?_, hnext, rfl⟩
  -- one step of the view: take, then handle
  have htaken : ViewStep tcp tuning.maxTcpPending (view w) l _ :=
    .take d queue hdeferred hqueue
  convert htaken using 1
  have hon' : handleOn tuning.maxTcpPending (view w).conns d = (connOf s', back) := hon
  have hqueue' : s'.dataIn.queue = queue := by
    rw [hdata]
    simp [Channel.take, hqueue]
  simp only [hon']
  simp only [view, hnext, hqueue', hdeferred, List.nil_append]

theorem retry_view (h : Consistent w.stack) (hsenders : SendersBelow w)
    (hstep : step tcp udp tuning .retry w = some w') :
    ViewStep tcp tuning.maxTcpPending (view w) (.retry : Label σ υ) (view w') ∧
      SendersBelow w' := by
  obtain ⟨s', deferred, hd, -⟩ := @retryDeferred_grows _ _ _ udp tuning h w.deferred
  obtain ⟨hon, hnext, hdata⟩ := retryDeferred_view h hd
  simp only [step, hd, Option.bind_eq_bind, Option.bind_some, Option.some.injEq] at hstep
  obtain rfl := hstep
  refine ⟨?_, fun proto i hi => (hsenders proto i hi).trans_eq hnext.symm⟩
  have hretried : ViewStep tcp tuning.maxTcpPending (view w) (.retry : Label σ υ) _ := .retry
  convert hretried using 1
  have hon' : retryOn tuning.maxTcpPending (view w).conns (view w).deferred =
      (connOf s', deferred) := hon
  simp only [hon']
  simp only [view, hnext, hdata]

/-- An update of an entry that leaves all but the channel and the answer alone. -/
theorem updateTcp_view (h : Consistent w.stack) (id : Nat) (f : TcpState → TcpState)
    (hf : ∀ st, f st = { st with toApp := (f st).toApp, connectResp := (f st).connectResp })
    (l : Label σ υ) :
    ViewStep tcp tuning.maxTcpPending (view w) l (view (updateTcp id f w)) := by
  unfold updateTcp
  split
  case h_2 => exact .quiet
  case h_1 st hst =>
    obtain ⟨sock, hc, -⟩ := h.connOf hst
    have htouch : ViewStep tcp tuning.maxTcpPending (view w) l _ :=
      .touch id ⟨st, sock⟩ (f st).toApp (f st).connectResp hc
    convert htouch using 1
    have hhandle : (f st).handle = st.handle := by rw [hf st]
    simp only [view]
    rw [connOf_setTcpConn hc hhandle, ← hf st]
    rfl

theorem updateTcp_senders (hsenders : SendersBelow w) (id : Nat) (f : TcpState → TcpState) :
    SendersBelow (updateTcp id f w) := by
  unfold updateTcp
  split <;> exact hsenders

theorem updateUdp_view (hsenders : SendersBelow w) (id : Nat) (f : UdpState → UdpState)
    (l : Label σ υ) :
    ViewStep tcp tuning.maxTcpPending (view w) l (view (updateUdp id f w)) ∧
      SendersBelow (updateUdp id f w) := by
  unfold updateUdp
  split
  · exact ⟨.quiet, hsenders⟩
  · exact ⟨.quiet, hsenders⟩

/-- A step that moves nothing on the TCP connections. -/
theorem outside_view (hsenders : SendersBelow w) (stack : NetStack σ υ) (phase : Phase)
    {events : List (Event σ)} (hconns : connOf stack = connOf w.stack)
    (hqueue : stack.dataIn.queue = w.stack.dataIn.queue ++ queuedLog events)
    (hnext : w.stack.nextId ≤ stack.nextId) (houtside : ∀ e ∈ events, e.OfOutside)
    (hids : ∀ e ∈ events, ∀ i, e.id? = some i → i < stack.nextId) (l : Label σ υ) :
    ViewStep tcp tuning.maxTcpPending (view w) l (view (w.after stack phase events)) ∧
      SendersBelow (w.after stack phase events) := by
  refine ⟨?_, handOver_below (fun proto i hi => (hsenders proto i hi).trans_le hnext) hids⟩
  have hmoved : ViewStep tcp tuning.maxTcpPending (view w) l _ :=
    .outside stack.nextId events hnext houtside hids
  convert hmoved using 1
  simp only [view, World.after, hconns, hqueue]

theorem openTcp_view (h : Consistent w.stack) (hsenders : SendersBelow w) (hids : w.IdsLeft)
    {now handle : Nat} {dst : SocketAddr} {resp : OpenResp} (hfree : w.stack.sockets handle = none)
    (phase : Phase) (l : Label σ υ) :
    let opened := openTcp tcp tuning now handle dst resp w.stack
    ViewStep tcp tuning.maxTcpPending (view w) l (view (w.after opened.1 phase opened.2)) ∧
      SendersBelow (w.after opened.1 phase opened.2) := by
  cases hconnect : tcp.connect w.stack.iface dst w.stack.nextPort
      (tcp.new w.stack.tcpLimits.keepalive) with
  -- a socket that does not connect takes a port and nothing else
  | error e =>
      rw [openTcp_error hconnect]
      exact outside_view hsenders (portTaken w.stack) phase (connOf_congr rfl rfl)
        (List.append_nil _).symm le_rfl (by simp [Event.OfOutside]) (by simp [Event.id?]) l
  | ok socket =>
      rw [openTcp_ok hconnect, Nat.mod_eq_of_lt hids]
      refine ⟨?_, fun proto i hi => (hsenders proto i hi).trans (Nat.lt_succ_self _)⟩
      -- the connection as it is put into the table, under the id that was next
      let st : TcpState := .opening tuning now handle w.stack.nextPort resp w.stack
      have hopened : ViewStep tcp tuning.maxTcpPending (view w) l _ :=
        .opened ⟨st, socket⟩ w.stack.iface dst w.stack.nextPort _ hconnect rfl rfl rfl rfl
      convert hopened using 1
      simp only [view, World.after, List.append_nil]
      rw [@connOf_opened _ _ _ _ h _ hfree st socket rfl rfl rfl]
      rfl

theorem openUdp_view (h : Consistent w.stack) (hsenders : SendersBelow w) (hids : w.IdsLeft)
    {handle : Nat} {resp : OpenResp} (hfree : w.stack.sockets handle = none) (phase : Phase) (l : Label σ υ) :
    let opened := openUdp udp tuning handle resp w.stack
    ViewStep tcp tuning.maxTcpPending (view w) l (view (w.after opened.1 phase opened.2)) ∧
      SendersBelow (w.after opened.1 phase opened.2) := by
  cases hbind : udp.bind w.stack.nextPort udp.new with
  | error e =>
      rw [openUdp_error hbind]
      exact outside_view hsenders (portTaken w.stack) phase (connOf_congr rfl rfl)
        (List.append_nil _).symm le_rfl (by simp [Event.OfOutside]) (by simp [Event.id?]) l
  | ok socket =>
      obtain ⟨s', st, events, heq, hopened⟩ :=
        @openUdp_ok _ _ udp tuning handle resp w.stack _ hbind
      rw [heq]
      have hnext : w.stack.nextId < s'.nextId := by
        rw [hopened.nextId, Nat.mod_eq_of_lt hids]
        exact Nat.lt_succ_self _
      -- the new socket is in a free slot, which no TCP connection looks at
      have hconns : connOf s' = connOf w.stack := by
        funext i
        unfold connOf
        rw [hopened.tcpConns]
        cases hst : w.stack.tcpConns i with
        | none => rfl
        | some st' =>
            have hne : st'.handle ≠ handle := by
              intro hsame
              obtain ⟨sock, hslot, -⟩ := h.getTcp hst
              rw [hsame, hfree] at hslot
              cases hslot
            simp [Net.getTcp, hopened.sockets, Function.update_of_ne hne]
      refine outside_view hsenders s' phase hconns ?_ hnext.le ?_ ?_ l
      · rcases hopened.events with ⟨hdata, rfl | rfl⟩ | ⟨hdata, rfl⟩
        · rw [hdata]
          exact (List.append_nil _).symm
        · rw [hdata]
          exact (List.append_nil _).symm
        · rw [hdata]
          rfl
      · rcases hopened.events with ⟨-, rfl | rfl⟩ | ⟨-, rfl⟩ <;> simp [Event.OfOutside]
      · rcases hopened.events with ⟨-, rfl | rfl⟩ | ⟨-, rfl⟩
        · simp
        · simpa [Event.id?] using hnext
        · simpa [Event.id?, DataIn.id] using hnext

/-- What an application puts on the channel is for an id that has been given out. -/
theorem put_view (hsenders : SendersBelow w) {d : DataIn} (hid : d.id < w.stack.nextId)
    (before : List (Event σ)) (houtside : ∀ e ∈ before, e.OfOutside) (hqueued : queuedLog before = [])
    (hids : ∀ e ∈ before, ∀ i, e.id? = some i → i < w.stack.nextId)
    {senders : Proto → Nat → Bool} (l : Label σ υ)
    (hless : ∀ proto i, senders proto i = true → w.senders proto i = true) :
    ViewStep tcp tuning.maxTcpPending (view w) l
        (view (putData d { w with senders, trace := w.trace ++ before })) ∧
      SendersBelow (putData d { w with senders, trace := w.trace ++ before }) := by
  obtain ⟨events, hev, hput⟩ := putData_view d { w with senders, trace := w.trace ++ before }
  have hlog : queuedLog (before ++ events) = queuedLog events := by simp [hqueued]
  refine ⟨?_, ?_⟩
  · have hmoved : ViewStep tcp tuning.maxTcpPending (view w) l { view w with
        queue := (view w).queue ++ queuedLog (before ++ events)
        nextId := w.stack.nextId
        trace := (view w).trace ++ (before ++ events) } := by
      -- the new events are the given ones and at most one `queued`
      refine .outside w.stack.nextId (before ++ events) le_rfl ?_ ?_
      · intro e he
        rcases List.mem_append.mp he with he | he
        · exact houtside e he
        · rcases hev with rfl | rfl
          · cases he
          · obtain rfl := List.mem_singleton.mp he
            trivial
      · intro e he i hi
        rcases List.mem_append.mp he with he | he
        · exact hids e he i hi
        · rcases hev with rfl | rfl
          · cases he
          · obtain rfl := List.mem_singleton.mp he
            exact (Option.some.inj hi) ▸ hid
    convert hmoved using 1
    rw [hput, hlog]
    simp [view]
  · intro proto i hi
    have hnext := (putData_stack d { w with senders, trace := w.trace ++ before }).2.2
    rw [hnext]
    refine hsenders proto i (hless proto i ?_)
    revert hi
    unfold putData
    split <;> exact fun hi => hi

/-- **While there are ids, every step of the loop is a step of the connections by themselves.** -/
theorem step_view (laws : TcpLaws tcp) (h : Consistent w.stack) (hsenders : SendersBelow w)
    (hids : w.IdsLeft) {l : Label σ υ} (hl : enabled tcp udp l w) (hstep : step tcp udp tuning l w = some w') :
    ViewStep tcp tuning.maxTcpPending (view w) l (view w') ∧ SendersBelow w' := by
  have hnil : ∀ stack : NetStack σ υ, ∀ phase, connOf stack = connOf w.stack →
      stack.dataIn = w.stack.dataIn → stack.nextId = w.stack.nextId →
      ViewStep tcp tuning.maxTcpPending (view w) l (view { w with stack, phase }) ∧
        SendersBelow { w with stack, phase } := by
    intro stack phase hconns hdata hnext
    refine ⟨?_, fun proto i hi => (hsenders proto i hi).trans_eq hnext.symm⟩
    have hquiet : ViewStep tcp tuning.maxTcpPending (view w) l (view w) := .quiet
    convert hquiet using 1
    simp only [view, hconns, hdata, hnext]
  cases l with
  | poll sockets device now ids =>
      obtain rfl := Option.some.inj hstep
      exact ⟨poll_view h hl.2.1 _, hsenders⟩
  | serviceTcp now id ids moves => exact serviceTcp_view laws h hsenders hstep
  | startUdp ids =>
      obtain rfl := Option.some.inj hstep
      exact hnil _ _ rfl rfl rfl
  | serviceUdp id ids moves =>
      cases hst : w.stack.udpConns id with
      | none =>
          have hs : serviceUdpConn udp moves id w.stack = some (w.stack, false) := by
            simp [serviceUdpConn, hst]
          simp only [step, hs, Option.bind_eq_bind, Option.bind_some, Option.some.injEq] at hstep
          obtain rfl := hstep
          exact hnil _ _ rfl rfl rfl
      | some st =>
          obtain ⟨sock, s', backpressured, hs, hend⟩ :=
            @serviceUdpConn_cases _ _ _ _ udp st h hst moves
          simp only [step, hs, Option.bind_eq_bind, Option.bind_some, Option.some.injEq] at hstep
          obtain rfl := hstep
          rcases hend with ⟨st', -, -, -, rfl⟩ | rfl
          · exact hnil _ _ (connOf_of_udp h hst rfl fun k hk => Function.update_of_ne hk _ _) rfl rfl
          · exact hnil _ _ (connOf_of_udp h hst rfl fun k hk => Function.update_of_ne hk _ _) rfl rfl
  | flush closedAt =>
      obtain rfl := Option.some.inj hstep
      exact hnil _ _ (connOf_congr rfl rfl) rfl rfl
  | retry => exact retry_view h hsenders hstep
  | inbound pkts =>
      obtain rfl := Option.some.inj hstep
      exact hnil _ _ (connOf_congr rfl rfl) rfl rfl
  | cmd now handle cmd =>
      obtain rfl := Option.some.inj hstep
      cases cmd with
      | openTcp dst resp => exact openTcp_view h hsenders hids hl.2 .poll _
      | openUdp resp => exact openUdp_view h hsenders hids hl.2 .poll _
      | setAddrs v4 v6 =>
          exact outside_view hsenders _ .poll (connOf_congr rfl rfl) (List.append_nil _).symm le_rfl
            (by simp) (by simp) _
  | data d =>
      obtain ⟨hview, hnext, hsame⟩ := takeData_view h hl.2.1 hl.2.2 hstep (.data d)
      refine ⟨hview, fun proto i hi => ?_⟩
      rw [hnext]
      exact hsenders proto i (hsame ▸ hi)
  | timer =>
      obtain rfl := Option.some.inj hstep
      exact hnil _ _ rfl rfl rfl
  | stop =>
      obtain rfl := Option.some.inj hstep
      exact hnil _ _ rfl rfl rfl
  | drain d =>
      obtain ⟨hview, hnext, hsame⟩ := takeData_view h hl.2.1 hl.2.2 hstep (.drain d)
      refine ⟨hview, fun proto i hi => ?_⟩
      rw [hnext]
      exact hsenders proto i (hsame ▸ hi)
  | drained =>
      obtain rfl := Option.some.inj hstep
      exact hnil _ _ rfl rfl rfl
  | send d =>
      obtain rfl := Option.some.inj hstep
      have hput := @put_view _ _ tcp tuning w hsenders d (hsenders _ _ hl.1) [] (by simp) rfl
        (by simp) w.senders (.send d) fun _ _ hi => hi
      simpa using hput
  | dropSender proto id =>
      obtain rfl := Option.some.inj hstep
      have hid := hsenders _ _ hl
      have hclose : (DataIn.close proto id).id < w.stack.nextId := by cases proto <;> exact hid
      refine put_view hsenders hclose [.senderDropped proto id]
        (by simp [Event.OfOutside]) rfl (by simpa [Event.id?] using hid) _ fun proto' i hi => ?_
      -- one sender fewer
      by_cases hproto : proto' = proto
      · subst hproto
        by_cases hi' : i = id
        · subst hi'
          simp at hi
        · simpa [Function.update_of_ne hi'] using hi
      · simpa [Function.update_of_ne hproto] using hi
  | recvTcp id n =>
      obtain rfl := Option.some.inj hstep
      exact ⟨updateTcp_view h id _ (fun _ => rfl) _, updateTcp_senders hsenders id _⟩
  | recvUdp id n =>
      obtain rfl := Option.some.inj hstep
      exact updateUdp_view hsenders id _ _
  | dropReceiverTcp id =>
      obtain rfl := Option.some.inj hstep
      exact ⟨updateTcp_view h id _ (fun _ => rfl) _, updateTcp_senders hsenders id _⟩
  | dropReceiverUdp id =>
      obtain rfl := Option.some.inj hstep
      exact updateUdp_view hsenders id _ _
  | dropResp id =>
      obtain rfl := Option.some.inj hstep
      exact ⟨updateTcp_view h id _ (fun _ => rfl) _, updateTcp_senders hsenders id _⟩

/-- The invariant under which the steps of the loop are steps of the connections. -/
theorem view_invariant (laws : TcpLaws tcp) :
    Runs.Invariant (idLoop tcp udp tuning) fun w => Consistent w.stack ∧ SendersBelow w :=
  (consistent_invariant laws).and
    (fun w h => by
      obtain ⟨iface, tcpLimits, rfl⟩ := h
      nofun)
    fun _ _ _ h hsenders hl hstep => (step_view laws h hsenders hl.2 hl.1 hstep).2

end Simulation

end View

end Net
end AuroraVpn
