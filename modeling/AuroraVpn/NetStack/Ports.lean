import AuroraVpn.NetStack.SocketTable

/-!
# Ports — the local ports of the live connections

`alloc_port` counts from 49152 to 65000 and starts again, whatever is still in use.  So a connection
holds the port of its place in the count, and a new one gets the port of a live one just when a
multiple of 15,849 ports has been given out since.
-/

namespace AuroraVpn
namespace Net

/-- The port that is given out after `n` others. -/
def portAt (n : Nat) : Nat :=
  49152 + n % 15849

theorem allocPort_portAt (n : Nat) : allocPort (portAt n) = (portAt n, portAt (n + 1)) := by
  unfold allocPort portAt
  split
  case isTrue => simp only [Prod.mk.injEq, true_and]; omega
  case isFalse => simp only [Prod.mk.injEq, true_and]; omega

/-- A port comes again just when a multiple of the ports in between have been given out. -/
theorem portAt_eq_iff {m n : Nat} (h : m ≤ n) : portAt n = portAt m ↔ 15849 ∣ n - m := by
  unfold portAt
  omega

section Tables

variable {σ υ : Type} {s s' s'' : NetStack σ υ} {id : Nat}

/-- The local port of an entry, and how many ports had been given out before. -/
def portOf (s : NetStack σ υ) : Proto × Nat → Option (Nat × Nat)
  | (.tcp, id) => (s.tcpConns id).map fun st => (st.localPort, st.ticket)
  | (.udp, id) => (s.udpConns id).map fun st => (st.localPort, st.ticket)

/-- No port is given out, and the entries that are left have the ports they had. -/
structure PortsKept (s s' : NetStack σ υ) : Prop where
  nextPort : s'.nextPort = s.nextPort
  allocs : s'.allocs = s.allocs
  kept : ∀ {owner p}, portOf s' owner = some p → portOf s owner = some p

theorem PortsKept.refl (s : NetStack σ υ) : PortsKept s s :=
  ⟨rfl, rfl, fun h => h⟩

theorem PortsKept.trans (h : PortsKept s s') (h' : PortsKept s' s'') : PortsKept s s'' where
  nextPort := h'.nextPort.trans h.nextPort
  allocs := h'.allocs.trans h.allocs
  kept hp := h.kept (h'.kept hp)

/-- The two tables are the same. -/
theorem PortsKept.congr (hport : s'.nextPort = s.nextPort) (hallocs : s'.allocs = s.allocs)
    (htcp : s'.tcpConns = s.tcpConns) (hudp : s'.udpConns = s.udpConns) : PortsKept s s' where
  nextPort := hport
  allocs := hallocs
  kept {owner p} hp := by
    obtain ⟨proto, i⟩ := owner
    cases proto <;> simpa [portOf, htcp, hudp] using hp

theorem PortsKept.setTcpConn {st st' : TcpState} (hst : s.tcpConns id = some st)
    (hport : st'.localPort = st.localPort) (hticket : st'.ticket = st.ticket) :
    PortsKept s (setTcpConn s id st') where
  nextPort := rfl
  allocs := rfl
  kept {owner p} hp := by
    obtain ⟨proto, i⟩ := owner
    cases proto with
    | udp => exact hp
    | tcp =>
        by_cases hi : i = id
        · subst hi
          simpa [portOf, Net.setTcpConn, hst, hport, hticket] using hp
        · simpa [portOf, Net.setTcpConn, Function.update_of_ne hi] using hp

theorem PortsKept.setUdpConn {st st' : UdpState} (hst : s.udpConns id = some st)
    (hport : st'.localPort = st.localPort) (hticket : st'.ticket = st.ticket) :
    PortsKept s (setUdpConn s id st') where
  nextPort := rfl
  allocs := rfl
  kept {owner p} hp := by
    obtain ⟨proto, i⟩ := owner
    cases proto with
    | tcp => exact hp
    | udp =>
        by_cases hi : i = id
        · subst hi
          simpa [portOf, Net.setUdpConn, hst, hport, hticket] using hp
        · simpa [portOf, Net.setUdpConn, Function.update_of_ne hi] using hp

/-- An entry that goes. -/
theorem PortsKept.remove {owner : Proto × Nat} (hport : s'.nextPort = s.nextPort)
    (hallocs : s'.allocs = s.allocs)
    (hports : portOf s' = Function.update (portOf s) owner none) : PortsKept s s' where
  nextPort := hport
  allocs := hallocs
  kept {other p} hp := by
    rw [hports] at hp
    by_cases hother : other = owner
    · subst hother
      simp at hp
    · rwa [Function.update_of_ne hother] at hp

theorem portOf_removeTcpConn (s : NetStack σ υ) (id : Nat) :
    portOf (removeTcpConn s id) = Function.update (portOf s) (.tcp, id) none := by
  funext ⟨proto, i⟩
  cases proto <;> by_cases hi : i = id <;> simp [portOf, removeTcpConn, hi]

theorem portOf_removeUdpConn (s : NetStack σ υ) (id : Nat) :
    portOf (removeUdpConn s id) = Function.update (portOf s) (.udp, id) none := by
  funext ⟨proto, i⟩
  cases proto <;> by_cases hi : i = id <;> simp [portOf, removeUdpConn, hi]

/-! ## The steps that give out no port -/

section Operations

variable {tcp : TcpOps σ} {udp : UdpOps υ} {tuning : Tuning}

theorem tryHandleData_ports (h : Consistent s) {d : DataIn} {back : Option DataIn}
    (hd : tryHandleData udp tuning s d = some (s', back)) : PortsKept s s' := by
  cases d with
  | tcp id data =>
      cases hst : s.tcpConns id with
      -- a message for a connection that is gone is dropped
      | none =>
          obtain ⟨rfl, -⟩ : s = s' ∧ none = back := by simpa [tryHandleData, hst] using hd
          exact .refl s
      | some st =>
          rw [tryHandleData_tcp hst] at hd
          obtain ⟨rfl, -⟩ := Prod.mk.inj (Option.some.inj hd)
          exact .setTcpConn hst rfl rfl
  | tcpClose id =>
      cases hst : s.tcpConns id with
      | none =>
          obtain ⟨rfl, -⟩ : s = s' ∧ none = back := by simpa [tryHandleData, hst] using hd
          exact .refl s
      | some st =>
          rw [tryHandleData_tcpClose hst] at hd
          obtain ⟨rfl, -⟩ := Prod.mk.inj (Option.some.inj hd)
          exact .setTcpConn hst rfl rfl
  | udp id dst data =>
      cases hst : s.udpConns id with
      | none =>
          obtain ⟨rfl, -⟩ : s = s' ∧ none = back := by simpa [tryHandleData, hst] using hd
          exact .refl s
      | some st =>
          obtain ⟨sock, -, hsock⟩ := h.getUdp hst
          rw [tryHandleData_udp hst hsock] at hd
          obtain ⟨rfl, -⟩ := Prod.mk.inj (Option.some.inj hd)
          exact .congr rfl rfl rfl rfl
  | udpClose id =>
      cases hst : s.udpConns id with
      | none =>
          obtain ⟨rfl, -⟩ : s = s' ∧ none = back := by simpa [tryHandleData, hst] using hd
          exact .refl s
      | some st =>
          obtain ⟨sock, hsock, -⟩ := h.getUdp hst
          rw [tryHandleData_udpClose hst hsock] at hd
          obtain ⟨rfl, -⟩ := Prod.mk.inj (Option.some.inj hd)
          exact .remove rfl rfl (portOf_removeUdpConn s id)

theorem retryDeferred_ports (h : Consistent s) {deferred deferred' : List DataIn}
    (hd : retryDeferred udp tuning s deferred = some (s', deferred')) : PortsKept s s' := by
  induction deferred generalizing s with
  | nil =>
      obtain ⟨rfl, -⟩ := Prod.mk.inj (Option.some.inj hd)
      exact .refl s
  | cons d deferred ih =>
      obtain ⟨s₁, back, hd₁, hgrows, -⟩ := @tryHandleData_grows _ _ s udp tuning h d
      have hkept := tryHandleData_ports h hd₁
      simp only [retryDeferred, hd₁, Option.bind_eq_bind, Option.bind_some] at hd
      cases back with
      | some back =>
          obtain ⟨rfl, -⟩ := Prod.mk.inj (Option.some.inj hd)
          exact hkept
      | none => exact hkept.trans (ih hgrows.consistent hd)

theorem serviceTcpConn_ports (laws : TcpLaws tcp) (h : Consistent s) {now : Nat}
    {moves : List Move} {backpressured : Bool} {events : List (Event σ)}
    (hs : serviceTcpConn tcp now moves id s = some (s', backpressured, events)) :
    PortsKept s s' := by
  cases hst : s.tcpConns id with
  | none =>
      obtain ⟨rfl, -⟩ : s = s' ∧ _ := by simpa [serviceTcpConn, hst] using hs
      exact .refl s
  | some st =>
      obtain ⟨sock, r, -, hr, heq⟩ := serviceTcpConn_serves laws h hst now moves
      rw [heq] at hs
      obtain ⟨rfl, -⟩ := Prod.mk.inj (Option.some.inj hs)
      -- the close that an abort queues changes no entry
      have hqueue : PortsKept s (r.queue id s).1 ∧ (r.queue id s).1.tcpConns = s.tcpConns := by
        unfold Served.queue
        split
        · exact ⟨.congr rfl rfl rfl rfl, rfl⟩
        · exact ⟨.refl s, rfl⟩
      refine hqueue.1.trans ?_
      unfold Served.put
      split
      -- the entry goes, and its port with it
      case isTrue => exact .remove rfl rfl (portOf_removeTcpConn _ id)
      -- the entry stays, with the port it was given
      case isFalse hkept =>
        have hkeeps := (serveConn_kept laws hr (by simpa using hkept)).1
        have hput : PortsKept (r.queue id s).1
            (setSocket (r.queue id s).1 st.handle (.tcp r.conn.sock)) := .congr rfl rfl rfl rfl
        have hset : (setSocket (r.queue id s).1 st.handle (.tcp r.conn.sock)).tcpConns id = some st :=
          hqueue.2 ▸ hst
        exact hput.trans (.setTcpConn hset hkeeps.localPort hkeeps.ticket)

theorem serviceUdpConn_ports (h : Consistent s) {moves : List Move} {backpressured : Bool}
    (hs : serviceUdpConn udp moves id s = some (s', backpressured)) : PortsKept s s' := by
  cases hst : s.udpConns id with
  | none =>
      obtain ⟨rfl, -⟩ : s = s' ∧ _ := by simpa [serviceUdpConn, hst] using hs
      exact .refl s
  | some st =>
      obtain ⟨sock, s'', backpressured', heq, hend⟩ :=
        @serviceUdpConn_cases _ _ _ _ udp st h hst moves
      rw [heq] at hs
      obtain ⟨rfl, -⟩ := Prod.mk.inj (Option.some.inj hs)
      rcases hend with ⟨st', -, hport, hticket, rfl⟩ | rfl
      · have hput : PortsKept s (setSocket s st.handle (.udp sock)) := .congr rfl rfl rfl rfl
        have hset : (setSocket s st.handle (.udp sock)).udpConns id = some st := hst
        exact hput.trans (.setUdpConn hset hport hticket)
      · exact .remove rfl rfl (portOf_removeUdpConn s id)

theorem updateTcp_ports {w : World σ υ} (id : Nat) (f : TcpState → TcpState)
    (hf : ∀ st, (f st).localPort = st.localPort ∧ (f st).ticket = st.ticket) :
    PortsKept w.stack (updateTcp id f w).stack := by
  unfold updateTcp
  split
  case h_1 st hst => exact .setTcpConn hst (hf st).1 (hf st).2
  case h_2 => exact .refl _

theorem updateUdp_ports {w : World σ υ} (id : Nat) (f : UdpState → UdpState)
    (hf : ∀ st, (f st).localPort = st.localPort ∧ (f st).ticket = st.ticket) :
    PortsKept w.stack (updateUdp id f w).stack := by
  unfold updateUdp
  split
  case h_1 st hst => exact .setUdpConn hst (hf st).1 (hf st).2
  case h_2 => exact .refl _

theorem takeData_ports {w w' : World σ υ} (h : Consistent w.stack) {d : DataIn}
    (hd : takeData udp tuning d w = some w') : PortsKept w.stack w'.stack := by
  have htake : PortsKept w.stack { w.stack with dataIn := w.stack.dataIn.take 1 } :=
    .congr rfl rfl rfl rfl
  have hgrows : Grows w.stack { w.stack with dataIn := w.stack.dataIn.take 1 } :=
    .congr h rfl rfl rfl
  obtain ⟨s', back, hs, -⟩ := @tryHandleData_grows _ _ _ udp tuning hgrows.consistent d
  simp only [takeData, hs, Option.bind_eq_bind, Option.bind_some, Option.some.injEq] at hd
  obtain rfl := hd
  exact htake.trans (tryHandleData_ports hgrows.consistent hs)

theorem putData_ports (d : DataIn) (w : World σ υ) : PortsKept w.stack (putData d w).stack := by
  unfold putData
  split
  · exact .congr rfl rfl rfl rfl
  · exact .refl _
  · exact .refl _

/-- An open command gives out the next port: to nobody when it fails, else to a new entry. -/
structure PortGiven (proto : Proto) (opens : Prop) (s s' : NetStack σ υ) : Prop where
  nextPort : s'.nextPort = (allocPort s.nextPort).2
  allocs : s'.allocs = s.allocs + 1
  failed : ¬opens → portOf s' = portOf s
  opened : opens → portOf s' =
    Function.update (portOf s) (proto, s.nextId) (some (s.nextPort, s.allocs))

/-- Whether an open command succeeds. -/
def TcpOpens (tcp : TcpOps σ) (dst : SocketAddr) (s : NetStack σ υ) : Prop :=
  ∃ sock, tcp.connect s.iface dst s.nextPort (tcp.new s.tcpLimits.keepalive) = .ok sock

def UdpOpens (udp : UdpOps υ) (s : NetStack σ υ) : Prop :=
  ∃ sock, udp.bind s.nextPort udp.new = .ok sock

theorem portOf_congr (htcp : s'.tcpConns = s.tcpConns) (hudp : s'.udpConns = s.udpConns) :
    portOf s' = portOf s := by
  funext ⟨proto, i⟩
  cases proto with
  | tcp => simp [portOf, htcp]
  | udp => simp [portOf, hudp]

theorem openTcp_ports (now handle : Nat) (dst : SocketAddr) (resp : OpenResp) (s : NetStack σ υ) :
    PortGiven .tcp (TcpOpens tcp dst s) s (openTcp tcp tuning now handle dst resp s).1 := by
  cases hconnect : tcp.connect s.iface dst s.nextPort (tcp.new s.tcpLimits.keepalive) with
  | error e =>
      rw [openTcp_error hconnect]
      refine ⟨rfl, rfl, fun _ => portOf_congr rfl rfl, ?_⟩
      rintro ⟨sock, hok⟩
      rw [hconnect] at hok
      cases hok
  | ok socket =>
      rw [openTcp_ok hconnect]
      refine ⟨rfl, rfl, fun hfail => absurd ⟨socket, hconnect⟩ hfail, fun _ => ?_⟩
      funext ⟨proto, i⟩
      cases proto <;> by_cases hi : i = s.nextId <;>
        simp [portOf, Net.setTcpConn, setSocket, portTaken, TcpState.opening, hi]

theorem openUdp_ports (handle : Nat) (resp : OpenResp) (s : NetStack σ υ) :
    PortGiven .udp (UdpOpens udp s) s (openUdp udp tuning handle resp s).1 := by
  cases hbind : udp.bind s.nextPort udp.new with
  | error e =>
      rw [openUdp_error hbind]
      refine ⟨rfl, rfl, fun _ => portOf_congr rfl rfl, ?_⟩
      rintro ⟨sock, hok⟩
      rw [hbind] at hok
      cases hok
  | ok socket =>
      obtain ⟨s', st, events, heq, hopened⟩ := @openUdp_ok _ _ udp tuning handle resp s _ hbind
      rw [heq]
      refine ⟨hopened.nextPort, hopened.allocs, fun hfail => absurd ⟨socket, hbind⟩ hfail,
        fun _ => ?_⟩
      funext ⟨proto, i⟩
      cases proto <;> by_cases hi : i = s.nextId <;>
        simp [portOf, hopened.tcpConns, hopened.udpConns, hopened.localPort, hopened.ticket, hi]

/-! ## Ports by their place in the count -/

/-- Every entry holds the port of its place in the count. -/
structure Ported (s : NetStack σ υ) : Prop where
  nextPort : s.nextPort = portAt s.allocs
  ports : ∀ {owner port ticket}, portOf s owner = some (port, ticket) →
    port = portAt ticket ∧ ticket < s.allocs

/-- No two live connections of a protocol have the same local port. -/
def PortsDistinct (s : NetStack σ υ) : Prop :=
  ∀ proto i j port t u, portOf s (proto, i) = some (port, t) → portOf s (proto, j) = some (port, u) →
    i = j

theorem Ported.kept (h : Ported s) (hkept : PortsKept s s') : Ported s' where
  nextPort := by rw [hkept.nextPort, hkept.allocs, h.nextPort]
  ports hp := by
    rw [hkept.allocs]
    exact h.ports (hkept.kept hp)

theorem PortsDistinct.kept (h : PortsDistinct s) (hkept : PortsKept s s') : PortsDistinct s' :=
  fun proto i j port t u hi hj => h proto i j port t u (hkept.kept hi) (hkept.kept hj)

/-- The next id has no port yet. -/
theorem portOf_nextId (h : Consistent s) (proto : Proto) : portOf s (proto, s.nextId) = none := by
  have hnone : handleOf s (proto, s.nextId) = none := by
    rw [← Option.not_isSome_iff_eq_none]
    intro hsome
    exact lt_irrefl _ (h.below hsome)
  cases proto with
  | tcp => simpa [portOf, handleOf] using hnone
  | udp => simpa [portOf, handleOf] using hnone

theorem Ported.given (h : Ported s) {proto : Proto} {opens : Prop}
    (hgiven : PortGiven proto opens s s') : Ported s' where
  nextPort := by rw [hgiven.nextPort, hgiven.allocs, h.nextPort, allocPort_portAt]
  ports {owner port ticket} hp := by
    rw [hgiven.allocs]
    by_cases hopens : opens
    · rw [hgiven.opened hopens] at hp
      by_cases howner : owner = (proto, s.nextId)
      · subst howner
        rw [Function.update_self] at hp
        obtain ⟨rfl, rfl⟩ := Prod.mk.inj (Option.some.inj hp)
        exact ⟨h.nextPort, Nat.lt_succ_self _⟩
      · rw [Function.update_of_ne howner] at hp
        exact ⟨(h.ports hp).1, (h.ports hp).2.trans (Nat.lt_succ_self _)⟩
    · rw [hgiven.failed hopens] at hp
      exact ⟨(h.ports hp).1, (h.ports hp).2.trans (Nat.lt_succ_self _)⟩

/-- **A new connection gets a port of its own just when no live one is a multiple of the ports
older.** -/
theorem PortsDistinct.given (hdistinct : PortsDistinct s) (h : Ported s) (hc : Consistent s)
    {proto : Proto} {opens : Prop} (hgiven : PortGiven proto opens s s') :
    PortsDistinct s' ↔
      (opens → ∀ id port ticket, portOf s (proto, id) = some (port, ticket) →
        ¬15849 ∣ s.allocs - ticket) := by
  by_cases hopens : opens
  case neg =>
    have hsame : PortsDistinct s' ↔ PortsDistinct s := by
      unfold PortsDistinct
      rw [hgiven.failed hopens]
    exact iff_of_true (hsame.mpr hdistinct) fun hyes => absurd hyes hopens
  case pos =>
    have hports := hgiven.opened hopens
    have hfree := portOf_nextId hc proto
    -- a live connection has the port that is given out just when it is a lap older
    have hlap : ∀ {id port ticket}, portOf s (proto, id) = some (port, ticket) →
        (s.nextPort = port ↔ 15849 ∣ s.allocs - ticket) := by
      intro id port ticket hp
      obtain ⟨hport, hlt⟩ := h.ports hp
      rw [h.nextPort, hport]
      exact portAt_eq_iff hlt.le
    have hold : ∀ {id : Nat}, id ≠ s.nextId → portOf s' (proto, id) = portOf s (proto, id) := by
      intro id hid
      rw [hports, Function.update_of_ne]
      exact fun heq => hid (Prod.mk.inj heq).2
    constructor
    · intro hdistinct' _ id port ticket hp hdvd
      have hne : id ≠ s.nextId := by
        rintro rfl
        rw [hfree] at hp
        cases hp
      have hnew : portOf s' (proto, s.nextId) = some (port, s.allocs) := by
        rw [hports, Function.update_self, (hlap hp).mpr hdvd]
      exact hne (hdistinct' proto id s.nextId port ticket s.allocs ((hold hne).trans hp) hnew)
    · intro hfar proto' i j port t u hi hj
      rw [hports] at hi hj
      by_cases hi' : (proto', i) = (proto, s.nextId)
      · by_cases hj' : (proto', j) = (proto, s.nextId)
        · exact (Prod.mk.inj hi').2.trans (Prod.mk.inj hj').2.symm
        · rw [hi', Function.update_self] at hi
          rw [Function.update_of_ne hj', (Prod.mk.inj hi').1] at hj
          obtain ⟨rfl, -⟩ := Prod.mk.inj (Option.some.inj hi)
          exact absurd ((hlap hj).mp rfl) (hfar hopens j _ u hj)
      · by_cases hj' : (proto', j) = (proto, s.nextId)
        · rw [hj', Function.update_self] at hj
          rw [Function.update_of_ne hi', (Prod.mk.inj hj').1] at hi
          obtain ⟨rfl, -⟩ := Prod.mk.inj (Option.some.inj hj)
          exact absurd ((hlap hi).mp rfl) (hfar hopens i _ t hi)
        · rw [Function.update_of_ne hi'] at hi
          rw [Function.update_of_ne hj'] at hj
          exact hdistinct proto' i j port t u hi hj

end Operations

end Tables

/-! ## Runs -/

section Runs

variable {σ υ : Type} {tcp : TcpOps σ} {udp : UdpOps υ} {tuning : Tuning} {w w' : World σ υ}
  {l : Label σ υ}

/-- An open command that succeeds finds no live connection of its protocol for which a multiple of
15,849 ports, for whichever protocol and whatever came of them, have been given out since. -/
def WithinLap (tcp : TcpOps σ) (udp : UdpOps υ) (w : World σ υ) : Label σ υ → Prop
  | .cmd _ _ (.openTcp dst _) => TcpOpens tcp dst w.stack → ∀ id port ticket,
      portOf w.stack (.tcp, id) = some (port, ticket) → ¬15849 ∣ w.stack.allocs - ticket
  | .cmd _ _ (.openUdp _) => UdpOpens udp w.stack → ∀ id port ticket,
      portOf w.stack (.udp, id) = some (port, ticket) → ¬15849 ∣ w.stack.allocs - ticket
  | _ => True

/-- What a step does with ports: none is given out, or an open command gets the next one. -/
theorem step_ports (laws : TcpLaws tcp) (h : Consistent w.stack) (hl : enabled tcp udp l w)
    (hstep : step tcp udp tuning l w = some w') :
    (PortsKept w.stack w'.stack ∧ WithinLap tcp udp w l) ∨
    ∃ proto opens, PortGiven proto opens w.stack w'.stack ∧
      (WithinLap tcp udp w l ↔ (opens → ∀ id port ticket,
        portOf w.stack (proto, id) = some (port, ticket) → ¬15849 ∣ w.stack.allocs - ticket)) := by
  cases l with
  | poll sockets device now ids =>
      obtain rfl := Option.some.inj hstep
      exact .inl ⟨.congr rfl rfl rfl rfl, trivial⟩
  | serviceTcp now id ids moves =>
      obtain ⟨s', backpressured, events, hs, -⟩ := serviceTcpConn_grows laws h now id moves
      simp only [step, hs, Option.bind_eq_bind, Option.bind_some, Option.some.injEq] at hstep
      obtain rfl := hstep
      exact .inl ⟨serviceTcpConn_ports laws h hs, trivial⟩
  | startUdp ids =>
      obtain rfl := Option.some.inj hstep
      exact .inl ⟨.refl _, trivial⟩
  | serviceUdp id ids moves =>
      obtain ⟨s', backpressured, hs, -⟩ := @serviceUdpConn_grows _ _ _ udp h id moves
      simp only [step, hs, Option.bind_eq_bind, Option.bind_some, Option.some.injEq] at hstep
      obtain rfl := hstep
      exact .inl ⟨serviceUdpConn_ports h hs, trivial⟩
  | flush closedAt =>
      obtain rfl := Option.some.inj hstep
      exact .inl ⟨.congr rfl rfl rfl rfl, trivial⟩
  | retry =>
      obtain ⟨s', deferred, hs, -⟩ := @retryDeferred_grows _ _ _ udp tuning h w.deferred
      simp only [step, hs, Option.bind_eq_bind, Option.bind_some, Option.some.injEq] at hstep
      obtain rfl := hstep
      exact .inl ⟨retryDeferred_ports h hs, trivial⟩
  | inbound pkts =>
      obtain rfl := Option.some.inj hstep
      exact .inl ⟨.congr rfl rfl rfl rfl, trivial⟩
  | cmd now handle cmd =>
      obtain rfl := Option.some.inj hstep
      cases cmd with
      -- `alloc_port` is called for the two open commands only
      | openTcp dst resp => exact .inr ⟨.tcp, _, openTcp_ports now handle dst resp w.stack, Iff.rfl⟩
      | openUdp resp => exact .inr ⟨.udp, _, openUdp_ports handle resp w.stack, Iff.rfl⟩
      | setAddrs v4 v6 => exact .inl ⟨.congr rfl rfl rfl rfl, trivial⟩
  | data d => exact .inl ⟨takeData_ports h hstep, trivial⟩
  | timer =>
      obtain rfl := Option.some.inj hstep
      exact .inl ⟨.refl _, trivial⟩
  | stop =>
      obtain rfl := Option.some.inj hstep
      exact .inl ⟨.refl _, trivial⟩
  | drain d => exact .inl ⟨takeData_ports h hstep, trivial⟩
  | drained =>
      obtain rfl := Option.some.inj hstep
      exact .inl ⟨.refl _, trivial⟩
  | send d =>
      obtain rfl := Option.some.inj hstep
      exact .inl ⟨putData_ports d w, trivial⟩
  | dropSender proto id =>
      obtain rfl := Option.some.inj hstep
      exact .inl ⟨putData_ports (.close proto id) { w with
        senders := Function.update w.senders proto (Function.update (w.senders proto) id false)
        trace := w.trace ++ [.senderDropped proto id] }, trivial⟩
  | recvTcp id n =>
      obtain rfl := Option.some.inj hstep
      exact .inl ⟨updateTcp_ports id _ fun _ => ⟨rfl, rfl⟩, trivial⟩
  | recvUdp id n =>
      obtain rfl := Option.some.inj hstep
      exact .inl ⟨updateUdp_ports id _ fun _ => ⟨rfl, rfl⟩, trivial⟩
  | dropReceiverTcp id =>
      obtain rfl := Option.some.inj hstep
      exact .inl ⟨updateTcp_ports id _ fun _ => ⟨rfl, rfl⟩, trivial⟩
  | dropReceiverUdp id =>
      obtain rfl := Option.some.inj hstep
      exact .inl ⟨updateUdp_ports id _ fun _ => ⟨rfl, rfl⟩, trivial⟩
  | dropResp id =>
      obtain rfl := Option.some.inj hstep
      exact .inl ⟨updateTcp_ports id _ fun _ => ⟨rfl, rfl⟩, trivial⟩

theorem ported_invariant (laws : TcpLaws tcp) :
    Runs.Invariant (idLoop tcp udp tuning) fun w : World σ υ =>
      Consistent w.stack ∧ Ported w.stack :=
  (consistent_invariant laws).and
    (fun w h => by
      obtain ⟨iface, tcpLimits, rfl⟩ := h
      refine ⟨rfl, fun {owner port ticket} hp => ?_⟩
      obtain ⟨proto, i⟩ := owner
      cases proto <;> cases hp)
    fun w l w' hc hported hl hstep => by
      rcases step_ports laws hc hl.1 hstep with ⟨hkept, -⟩ | ⟨proto, opens, hgiven, -⟩
      · exact hported.kept hkept
      · exact hported.given hgiven

/-- One step keeps the ports distinct just when it meets the condition. -/
theorem distinct_step (laws : TcpLaws tcp) (h : Consistent w.stack) (hported : Ported w.stack)
    (hl : enabled tcp udp l w) (hstep : step tcp udp tuning l w = some w')
    (hdistinct : PortsDistinct w.stack) : PortsDistinct w'.stack ↔ WithinLap tcp udp w l := by
  rcases step_ports laws h hl hstep with ⟨hkept, hlap⟩ | ⟨proto, opens, hgiven, hlap⟩
  · exact iff_of_true (hdistinct.kept hkept) hlap
  · rw [hlap]
    exact hdistinct.given hported h hgiven

/-- **Live connections have ports of their own just as long as none is a lap older than a new one**:
in a run in which the open commands meet `WithinLap`, and in which `next_id` does not wrap, no two live
connections of a protocol share a port, and the next step keeps it so just when it meets `WithinLap`
too. -/
theorem ports_distinct_iff (laws : TcpLaws tcp)
    (h : Runs.Reach (idLoop tcp udp tuning) (WithinLap tcp udp) w) :
    PortsDistinct w.stack ∧
      ∀ l w', enabled tcp udp l w → step tcp udp tuning l w = some w' →
        (PortsDistinct w'.stack ↔ WithinLap tcp udp w l) := by
  have hinvariant := (@ported_invariant _ _ tcp udp tuning laws).reachable h.reachable
  have hdistinct : PortsDistinct w.stack := by
    refine Runs.Reach.invariant (P := fun w => PortsDistinct w.stack)
      (ported_invariant laws) ?_ ?_ h
    · rintro w₀ ⟨iface, tcpLimits, rfl⟩ proto i j port t u hi
      cases proto <;> cases hi
    · intro w₀ l w' hQ hP hl hok hstep
      exact (distinct_step laws hQ.1 hQ.2 hl.1 hstep hP).mpr hok
  exact ⟨hdistinct, fun l w' hl hstep =>
    distinct_step laws hinvariant.1 hinvariant.2 hl hstep hdistinct⟩

end Runs

/-! ## Runs with two connections -/

section Two

/-- The first connection, which waits for its handshake. -/
def waiting : Conn SimpleSocket :=
  ⟨.opening ⟨128, 524288⟩ 0 0 49152 ⟨false⟩ (freshWorld ⟨128, 524288⟩).stack,
    ⟨.synSent, 0, [], [], false⟩⟩

theorem waiting_polls : SimpleSocket.ops.polls waiting.sock waiting.sock :=
  ⟨fun h => h, fun _ => ⟨rfl, [], rfl, rfl⟩⟩

/-- The port of the first connection. -/
theorem portOf_waiting {id port ticket : Nat} (n : Nat) (senders : Proto → Nat → Bool)
    (trace : List (Event SimpleSocket))
    (h : portOf (single ⟨128, 524288⟩ waiting n senders trace).stack (.tcp, id) = some (port, ticket)) :
    id = 1 ∧ port = 49152 ∧ ticket = 0 := by
  by_cases hid : id = 1
  · subst hid
    have hport : some ((49152 : Nat), (0 : Nat)) = some (port, ticket) := by
      simpa [portOf, single, waiting, TcpState.opening, freshWorld] using h
    obtain ⟨rfl, rfl⟩ := Prod.mk.inj (Option.some.inj hport)
    exact ⟨rfl, rfl, rfl⟩
  · simp [portOf, single, Function.update_of_ne hid] at h

/-- A second connection beside the first. -/
theorem second_opened (n : Nat) (senders : Proto → Nat → Bool) (trace : List (Event SimpleSocket)) :
    ∃ w, (∀ ok : World SimpleSocket Unit → Label SimpleSocket Unit → Prop,
        Runs.Reach (simpleLoop ⟨128, 524288⟩) ok
          { single ⟨128, 524288⟩ waiting n senders trace with phase := .select } →
        ok { single ⟨128, 524288⟩ waiting n senders trace with phase := .select }
          (.cmd 0 1 (.openTcp web ⟨false⟩)) → Runs.Reach (simpleLoop ⟨128, 524288⟩) ok w) ∧
      portOf w.stack (.tcp, 1) = some (49152, 0) ∧ portOf w.stack (.tcp, 2) = some (portAt n, n) := by
  let s := (single ⟨128, 524288⟩ waiting n senders trace).stack
  have hopen : TcpOpens SimpleSocket.ops web s := ⟨_, rfl⟩
  have hports := (@openTcp_ports _ _ SimpleSocket.ops ⟨128, 524288⟩ 0 1 web ⟨false⟩ s).opened hopen
  refine ⟨_, fun ok h hok => .step (l := .cmd 0 1 (.openTcp web ⟨false⟩)) h
    ⟨⟨rfl, by simp [single]⟩, single_idsLeft .select⟩ hok rfl, ?_, ?_⟩
  · refine (congrFun hports (.tcp, 1)).trans ?_
    rw [Function.update_of_ne (by simp [s, single])]
    simp [portOf, s, single, waiting, TcpState.opening, freshWorld]
  · refine (congrFun hports (.tcp, 2)).trans ?_
    exact Function.update_self _ _ _

theorem spares_withinLap : Spares (WithinLap SimpleSocket.ops SimpleSocket.udpOps) := by
  intro w l h
  cases l with
  | cmd => cases h
  | _ => trivial

/-- Two connections that are open at a time. -/
theorem ports_distinct_iff_second : ∃ w : World SimpleSocket Unit, portOf w.stack (.tcp, 1) = some (49152, 0) ∧
    portOf w.stack (.tcp, 2) = some (49153, 1) ∧ PortsDistinct w.stack := by
  obtain ⟨w, hreach, hfirst, hsecond⟩ := second_opened 1 (handOver [] fun _ _ => false) ([] ++ ([] ++ []))
  refine ⟨w, hfirst, hsecond, (ports_distinct_iff SimpleSocket.laws (hreach _ ?_ ?_)).1⟩
  · have hopened := @single_opened ⟨128, 524288⟩ _ spares_withinLap web (by decide)
      fun _ id port ticket h => by cases h
    exact single_round spares_withinLap hopened waiting_polls rfl rfl rfl rfl trivial
  · intro _ id port ticket h
    obtain ⟨-, -, rfl⟩ := portOf_waiting 1 (fun _ _ => false) [] h
    show ¬15849 ∣ 1 - 0
    decide

/-- An open command for a port that cannot be addressed fails, and takes a local port all the same. -/
theorem single_refused {c : Conn SimpleSocket} {n : Nat} {senders : Proto → Nat → Bool}
    {trace : List (Event SimpleSocket)}
    (h : Runs.Reachable (simpleLoop ⟨128, 524288⟩)
      { single ⟨128, 524288⟩ c n senders trace with phase := .select }) :
    Runs.Reachable (simpleLoop ⟨128, 524288⟩) (single ⟨128, 524288⟩ c (n + 1) senders
      (trace ++ [.refused ("connect: " ++ "Unaddressable")])) := by
  refine .step (l := .cmd 0 1 (.openTcp (.new web.ip 0) ⟨false⟩)) h
    ⟨⟨rfl, by simp [single]⟩, single_idsLeft .select⟩ trivial ?_
  -- a socket does not connect to port 0
  have hfail : SimpleSocket.ops.connect (single ⟨128, 524288⟩ c n senders trace).stack.iface
      (.new web.ip 0) (single ⟨128, 524288⟩ c n senders trace).stack.nextPort
      (SimpleSocket.ops.new 60000) = .error "Unaddressable" := rfl
  have hcmd := @openTcp_error _ _ SimpleSocket.ops ⟨128, 524288⟩ 0 1 _ ⟨false⟩
    (single ⟨128, 524288⟩ c n senders trace).stack _ hfail
  -- the port is taken all the same, and the next one is offered from then on
  have htaken : portTaken (single ⟨128, 524288⟩ c n senders trace).stack =
      (single ⟨128, 524288⟩ c (n + 1) senders trace).stack := by
    have hnext := congrArg Prod.snd (allocPort_portAt n)
    unfold portTaken single
    dsimp only
    rw [show 49152 + n % 15849 = portAt n from rfl, hnext]
    rfl
  rw [htaken] at hcmd
  exact congrArg (fun opened : NetStack SimpleSocket Unit × List (Event SimpleSocket) =>
    some ((single ⟨128, 524288⟩ c n senders trace).after opened.1 .poll opened.2)) hcmd

/-- The first connection waits, through any number of open commands that fail. -/
theorem waiting_reachable (n : Nat) :
    ∃ trace, Runs.Reachable (simpleLoop ⟨128, 524288⟩)
      { single ⟨128, 524288⟩ waiting (n + 1) (fun _ _ => false) trace with phase := .select } := by
  induction n with
  | zero =>
      have hopened := @single_opened ⟨128, 524288⟩ _ spares_true web (by decide) trivial
      exact ⟨_, single_round spares_true hopened waiting_polls rfl rfl rfl rfl trivial⟩
  | succ n ih =>
      obtain ⟨trace, hreach⟩ := ih
      exact ⟨_, single_round spares_true (single_refused hreach) waiting_polls rfl rfl rfl rfl trivial⟩

/-- **Two live connections share a port**: one waits, 15,848 open commands fail, and the next one
gets its port. -/
theorem ports_shared :
    ∃ w, Runs.Reachable (simpleLoop ⟨128, 524288⟩) w ∧ ¬PortsDistinct w.stack := by
  obtain ⟨trace, hwaits⟩ := waiting_reachable 15848
  obtain ⟨w, hreach, hfirst, hsecond⟩ := second_opened 15849 (fun _ _ => false) trace
  refine ⟨w, hreach _ hwaits trivial, fun hdistinct => ?_⟩
  have hlap : portAt 15849 = 49152 := rfl
  rw [hlap] at hsecond
  have hsame : (1 : Nat) = 2 := hdistinct .tcp 1 2 49152 0 15849 hfirst hsecond
  cases hsame

end Two

end Net
end AuroraVpn
