import AuroraVpn.Lib.Ownership
import AuroraVpn.NetStack.Account
import AuroraVpn.NetStack.Loop

/-!
# Ownership — the tables and the sockets agree

An owner is an entry of `tcp_conns` or of `udp_conns`.  `Consistent` says that the owners and the
sockets are in step (`Owned`) and that every id is below `next_id`.  It is kept by every operation
of the stack until `next_id` wraps, and where it holds no lookup fails.
-/

namespace AuroraVpn
namespace Net

section Tables

variable {σ υ : Type}

/-- The handle that an entry of one of the two tables holds. -/
def handleOf (s : NetStack σ υ) : Proto × Nat → Option Nat
  | (.tcp, id) => (s.tcpConns id).map TcpState.handle
  | (.udp, id) => (s.udpConns id).map UdpState.handle

/-- The sockets that the entries of a table are for. -/
def Fits : Proto × Nat → Socket σ υ → Prop
  | (.tcp, _), .tcp _ => True
  | (.udp, _), .udp _ => True
  | (.tcp, _), .udp _ => False
  | (.udp, _), .tcp _ => False

structure Consistent (s : NetStack σ υ) : Prop where
  owned : Owned Fits (handleOf s) s.sockets
  below : ∀ {owner}, (handleOf s owner).isSome = true → owner.2 < s.nextId

variable {s s' : NetStack σ υ} {id handle : Nat}

/-! ## Lookups -/

/-- The entry of a TCP connection has its socket. -/
theorem Consistent.getTcp (h : Consistent s) {st : TcpState} (hst : s.tcpConns id = some st) :
    ∃ sock, s.sockets st.handle = some (.tcp sock) ∧ getTcp s st.handle = some sock := by
  have hown : handleOf s (.tcp, id) = some st.handle := by simp [handleOf, hst]
  obtain ⟨sock, hsock, hfits⟩ := h.owned.live hown
  cases sock with
  | tcp sock => exact ⟨sock, hsock, by simp [Net.getTcp, hsock]⟩
  | udp sock => exact hfits.elim

theorem Consistent.getUdp (h : Consistent s) {st : UdpState} (hst : s.udpConns id = some st) :
    ∃ sock, s.sockets st.handle = some (.udp sock) ∧ getUdp s st.handle = some sock := by
  have hown : handleOf s (.udp, id) = some st.handle := by simp [handleOf, hst]
  obtain ⟨sock, hsock, hfits⟩ := h.owned.live hown
  cases sock with
  | tcp sock => exact hfits.elim
  | udp sock => exact ⟨sock, hsock, by simp [Net.getUdp, hsock]⟩

/-! ## Changes of the tables -/

@[simp] theorem handleOf_setTcpConn (s : NetStack σ υ) (id : Nat) (st : TcpState) :
    handleOf (setTcpConn s id st) = Function.update (handleOf s) (.tcp, id) (some st.handle) := by
  funext ⟨proto, i⟩
  cases proto <;> by_cases hi : i = id <;> simp [handleOf, setTcpConn, hi]

@[simp] theorem handleOf_setUdpConn (s : NetStack σ υ) (id : Nat) (st : UdpState) :
    handleOf (setUdpConn s id st) = Function.update (handleOf s) (.udp, id) (some st.handle) := by
  funext ⟨proto, i⟩
  cases proto <;> by_cases hi : i = id <;> simp [handleOf, setUdpConn, hi]

@[simp] theorem handleOf_removeTcpConn (s : NetStack σ υ) (id : Nat) :
    handleOf (removeTcpConn s id) = Function.update (handleOf s) (.tcp, id) none := by
  funext ⟨proto, i⟩
  cases proto <;> by_cases hi : i = id <;> simp [handleOf, removeTcpConn, hi]

@[simp] theorem handleOf_removeUdpConn (s : NetStack σ υ) (id : Nat) :
    handleOf (removeUdpConn s id) = Function.update (handleOf s) (.udp, id) none := by
  funext ⟨proto, i⟩
  cases proto <;> by_cases hi : i = id <;> simp [handleOf, removeUdpConn, hi]

/-- Only the two tables matter. -/
theorem handleOf_congr (htcp : s'.tcpConns = s.tcpConns) (hudp : s'.udpConns = s.udpConns) :
    handleOf s' = handleOf s := by
  funext ⟨proto, i⟩
  cases proto with
  | tcp => simp [handleOf, htcp]
  | udp => simp [handleOf, hudp]

theorem handleOf_tcp {st : TcpState} (hst : s.tcpConns id = some st) :
    handleOf s (.tcp, id) = some st.handle := by
  simp [handleOf, hst]

theorem handleOf_udp {st : UdpState} (hst : s.udpConns id = some st) :
    handleOf s (.udp, id) = some st.handle := by
  simp [handleOf, hst]

/-- What a step of the stack does to the tables at most: what is gone stays gone, and a new entry
has a new id. -/
structure Grows (s s' : NetStack σ υ) : Prop where
  consistent : Consistent s'
  nextId : s.nextId ≤ s'.nextId
  dead : ∀ {owner}, handleOf s owner = none → owner.2 < s.nextId → handleOf s' owner = none

theorem Grows.refl (h : Consistent s) : Grows s s :=
  ⟨h, le_rfl, fun hnone _ => hnone⟩

theorem Grows.trans {s'' : NetStack σ υ} (h : Grows s s') (h' : Grows s' s'') : Grows s s'' where
  consistent := h'.consistent
  nextId := h.nextId.trans h'.nextId
  dead hnone hlt := h'.dead (h.dead hnone hlt) (hlt.trans_le h.nextId)

/-- The owners stay as they are, and so do the sockets up to one in place. -/
theorem Grows.keep (h : Consistent s) (hown : handleOf s' = handleOf s)
    (hsockets : Owned Fits (handleOf s) s'.sockets) (hnext : s'.nextId = s.nextId) :
    Grows s s' where
  consistent :=
    { owned := by
        rw [hown]
        exact hsockets
      below := by
        rw [hown, hnext]
        exact h.below }
  nextId := hnext.ge
  dead hnone _ := by rwa [hown]

/-- An entry and its socket go together. -/
theorem Grows.remove (h : Consistent s) {owner : Proto × Nat}
    (howner : handleOf s owner = some handle)
    (hown : handleOf s' = Function.update (handleOf s) owner none)
    (hsockets : s'.sockets = Function.update s.sockets handle none)
    (hnext : s'.nextId = s.nextId) : Grows s s' where
  consistent :=
    { owned := by
        rw [hown, hsockets]
        exact h.owned.remove howner
      below := by
        intro other hother
        rw [hnext]
        refine h.below ?_
        rw [hown] at hother
        -- the owner has no socket any more; those of the others are as before
        by_cases hne : other = owner
        · rw [hne, Function.update_self] at hother
          cases hother
        · rwa [Function.update_of_ne hne] at hother }
  nextId := hnext.ge
  dead {other} hnone _ := by
    rw [hown]
    by_cases hne : other = owner
    · rw [hne, Function.update_self]
    · rwa [Function.update_of_ne hne]

/-- A new entry has the next id and a free slot. -/
theorem Grows.insert (h : Consistent s) (proto : Proto) (sock : Socket σ υ)
    (hfree : s.sockets handle = none) (hfits : Fits (proto, s.nextId) sock)
    (hown : handleOf s' = Function.update (handleOf s) (proto, s.nextId) (some handle))
    (hsockets : s'.sockets = Function.update s.sockets handle (some sock))
    (hids : s.nextId + 1 < 2 ^ 64) (hnext : s'.nextId = (s.nextId + 1) % 2 ^ 64) : Grows s s' := by
  rw [Nat.mod_eq_of_lt hids] at hnext
  -- the next id is not in use
  have hnone : handleOf s (proto, s.nextId) = none := by
    cases hold : handleOf s (proto, s.nextId) with
    | none => rfl
    | some k =>
        have := @Consistent.below _ _ s h (proto, s.nextId) (by rw [hold]; rfl)
        exact absurd this (lt_irrefl _)
  refine ⟨⟨?_, ?_⟩, ?_, ?_⟩
  · rw [hown, hsockets]
    exact h.owned.insert hnone hfree hfits
  · intro other hother
    rw [hnext]
    rw [hown] at hother
    by_cases hne : other = (proto, s.nextId)
    · rw [hne]
      exact Nat.lt_succ_self _
    · rw [Function.update_of_ne hne] at hother
      exact (h.below hother).trans (Nat.lt_succ_self _)
  · rw [hnext]
    exact Nat.le_succ _
  · intro other hother hlt
    have hne : other ≠ (proto, s.nextId) := by
      rintro rfl
      exact absurd hlt (lt_irrefl _)
    rw [hown, Function.update_of_ne hne]
    exact hother

/-- Nothing but the tables, the sockets and `next_id` matters. -/
theorem Grows.congr (h : Consistent s) (hown : handleOf s' = handleOf s)
    (hsockets : s'.sockets = s.sockets) (hnext : s'.nextId = s.nextId) : Grows s s' :=
  .keep h hown (hsockets ▸ h.owned) hnext

theorem Grows.setTcpConn (h : Consistent s) {st st' : TcpState} (hst : s.tcpConns id = some st)
    (hhandle : st'.handle = st.handle) : Grows s (setTcpConn s id st') := by
  refine .congr h ?_ rfl rfl
  rw [handleOf_setTcpConn, hhandle]
  exact Function.update_eq_self_iff.mpr (handleOf_tcp hst).symm

theorem Grows.setUdpConn (h : Consistent s) {st st' : UdpState} (hst : s.udpConns id = some st)
    (hhandle : st'.handle = st.handle) : Grows s (setUdpConn s id st') := by
  refine .congr h ?_ rfl rfl
  rw [handleOf_setUdpConn, hhandle]
  exact Function.update_eq_self_iff.mpr (handleOf_udp hst).symm

theorem Grows.setSocket (h : Consistent s) {owner : Proto × Nat} {sock : Socket σ υ}
    (howner : handleOf s owner = some handle) (hfits : Fits owner sock) :
    Grows s (setSocket s handle sock) :=
  .keep h (handleOf_congr rfl rfl) (h.owned.set howner hfits) rfl

/-! ## The operations -/

section Operations

variable {tcp : TcpOps σ} {udp : UdpOps υ} {tuning : Tuning}

/-- A message whose connection is gone is dropped. -/
theorem tryHandleData_stale {d : DataIn} (h : handleOf s (d.proto, d.id) = none) :
    tryHandleData udp tuning s d = some (s, none) := by
  cases d <;> simp_all [tryHandleData, handleOf, DataIn.proto, DataIn.id]

/-- A message is handled without a panic, and touches no socket but that of its connection. -/
theorem tryHandleData_grows (h : Consistent s) (d : DataIn) :
    ∃ s' back, tryHandleData udp tuning s d = some (s', back) ∧ Grows s s' ∧
      ∀ handle, s'.sockets handle ≠ s.sockets handle →
        handleOf s (d.proto, d.id) = some handle := by
  cases howner : handleOf s (d.proto, d.id) with
  -- what is for nobody is dropped
  | none => exact ⟨s, none, tryHandleData_stale howner, .refl h, fun _ hne => (hne rfl).elim⟩
  | some k =>
      -- an update of one slot changes that slot only
      have hslot : ∀ (sockets : SocketSet σ υ) slot, sockets = Function.update s.sockets k slot →
          ∀ handle, sockets handle ≠ s.sockets handle → some k = some handle := by
        rintro sockets slot rfl handle hne
        by_contra hother
        exact hne (Function.update_of_ne (fun heq => hother (by rw [heq])) _ _)
      cases d with
      | tcp id data =>
          obtain ⟨st, hst, rfl⟩ := Option.map_eq_some_iff.mp howner
          exact ⟨_, _, tryHandleData_tcp hst, .setTcpConn h hst rfl, fun _ hne => (hne rfl).elim⟩
      | tcpClose id =>
          obtain ⟨st, hst, rfl⟩ := Option.map_eq_some_iff.mp howner
          exact ⟨_, _, tryHandleData_tcpClose hst, .setTcpConn h hst rfl,
            fun _ hne => (hne rfl).elim⟩
      | udp id dst data =>
          obtain ⟨st, hst, rfl⟩ := Option.map_eq_some_iff.mp howner
          obtain ⟨sock, -, hsock⟩ := h.getUdp hst
          have hgrows : Grows s (setSocket s st.handle (.udp (udp.sendSlice data dst sock))) :=
            .setSocket h howner trivial
          exact ⟨_, _, tryHandleData_udp hst hsock, hgrows, hslot _ _ rfl⟩
      | udpClose id =>
          obtain ⟨st, hst, rfl⟩ := Option.map_eq_some_iff.mp howner
          obtain ⟨sock, hsock, -⟩ := h.getUdp hst
          refine ⟨_, _, tryHandleData_udpClose hst hsock, ?_, hslot _ _ rfl⟩
          exact .remove h howner (handleOf_removeUdpConn s id) rfl rfl

theorem retryDeferred_grows (h : Consistent s) (deferred : List DataIn) :
    ∃ s' deferred', retryDeferred udp tuning s deferred = some (s', deferred') ∧ Grows s s' := by
  induction deferred generalizing s with
  | nil => exact ⟨s, [], rfl, .refl h⟩
  | cons d deferred ih =>
      obtain ⟨s₁, back, hd, hgrows, -⟩ := @tryHandleData_grows _ _ s udp tuning h d
      cases back with
      | some back => exact ⟨s₁, back :: deferred, by simp [retryDeferred, hd], hgrows⟩
      | none =>
          obtain ⟨s₂, deferred', hrest, hgrows'⟩ := ih hgrows.consistent
          exact ⟨s₂, deferred', by simp [retryDeferred, hd, hrest], hgrows.trans hgrows'⟩

/-- The service of a connection runs `serveConn` and puts back what it makes. -/
theorem serviceTcpConn_serves (laws : TcpLaws tcp) (h : Consistent s) {st : TcpState}
    (hst : s.tcpConns id = some st) (now : Nat) (moves : List Move) :
    ∃ sock r, getTcp s st.handle = some sock ∧
      serveConn tcp id now s.tcpLimits.orphanLinger moves ⟨st, sock⟩ = some r ∧
      serviceTcpConn tcp now moves id s =
        some (r.put id st.handle (r.queue id s).1, r.backpressured,
          r.before ++ (r.queue id s).2 ++ r.events) := by
  obtain ⟨sock, -, hsock⟩ := h.getTcp hst
  obtain ⟨r, hr⟩ := Option.isSome_iff_exists.mp
    (@serveConn_isSome _ tcp id ⟨st, sock⟩ laws now s.tcpLimits.orphanLinger moves)
  exact ⟨sock, r, hsock, hr, by rw [serviceTcpConn_eq now moves hst hsock, hr, Option.map_some]⟩

theorem handleOf_queue (r : Served σ) (id : Nat) (s : NetStack σ υ) :
    handleOf (r.queue id s).1 = handleOf s ∧ (r.queue id s).1.sockets = s.sockets ∧
      (r.queue id s).1.nextId = s.nextId ∧ (r.queue id s).1.tcpConns = s.tcpConns := by
  unfold Served.queue
  split
  · exact ⟨handleOf_congr rfl rfl, rfl, rfl, rfl⟩
  · exact ⟨rfl, rfl, rfl, rfl⟩

/-- Putting back what a round leaves keeps the tables consistent. -/
theorem Served.put_grows (h : Consistent s) {st : TcpState} (hst : s.tcpConns id = some st)
    {r : Served σ} (hkept : r.removed = false → r.conn.st.handle = st.handle) :
    Grows s (r.put id st.handle s) := by
  have howner := handleOf_tcp hst
  unfold Served.put
  split
  case isTrue => exact .remove h howner (handleOf_removeTcpConn s id) rfl rfl
  case isFalse hremoved =>
    have hput : Grows s (Net.setSocket s st.handle (.tcp r.conn.sock)) :=
      .setSocket h howner trivial
    exact hput.trans (.setTcpConn hput.consistent hst (hkept (by simpa using hremoved)))

theorem serviceTcpConn_grows (laws : TcpLaws tcp) (h : Consistent s) (now id : Nat)
    (moves : List Move) :
    ∃ s' backpressured events,
      serviceTcpConn tcp now moves id s = some (s', backpressured, events) ∧ Grows s s' := by
  cases hst : s.tcpConns id with
  | none => exact ⟨s, false, [], by simp [serviceTcpConn, hst], .refl h⟩
  | some st =>
      obtain ⟨sock, r, hsock, hr, heq⟩ := serviceTcpConn_serves laws h hst now moves
      obtain ⟨hown, hsockets, hnext, htcp⟩ := handleOf_queue r id s
      have hqueue : Grows s (r.queue id s).1 := .congr h hown hsockets hnext
      refine ⟨_, _, _, heq, hqueue.trans ?_⟩
      refine Served.put_grows hqueue.consistent (htcp ▸ hst) fun hkept => ?_
      exact (serveConn_kept laws hr hkept).1.handle

theorem receiveUdp_handle (n : Nat) (moves : List Move) (st : UdpState) (sock : υ) :
    (receiveUdp udp n moves (st, sock)).1.1.handle = st.handle ∧
      (receiveUdp udp n moves (st, sock)).1.1.localPort = st.localPort ∧
      (receiveUdp udp n moves (st, sock)).1.1.ticket = st.ticket := by
  induction n generalizing moves st sock with
  | zero => exact ⟨rfl, rfl, rfl⟩
  | succ n ih =>
      unfold receiveUdp
      dsimp only
      split
      · exact ⟨rfl, rfl, rfl⟩
      · exact ⟨rfl, rfl, rfl⟩
      · split
        · exact ⟨rfl, rfl, rfl⟩
        · split
          · obtain ⟨hhandle, hport, hticket⟩ := ih moves.tail _ _
            exact ⟨hhandle, hport, hticket⟩
          · exact ⟨rfl, rfl, rfl⟩

/-- The service of a UDP connection: it is put back, or removed when the application is gone. -/
theorem serviceUdpConn_cases {st : UdpState} (h : Consistent s) (hst : s.udpConns id = some st)
    (moves : List Move) :
    ∃ sock s' backpressured,
      serviceUdpConn udp moves id s = some (s', backpressured) ∧
      ((∃ st', st'.handle = st.handle ∧ st'.localPort = st.localPort ∧ st'.ticket = st.ticket ∧
          s' = Net.setUdpConn (Net.setSocket s st.handle (.udp sock)) id st') ∨
        s' = { removeUdpConn s id with
          sockets := Function.update s.sockets st.handle none }) := by
  obtain ⟨sock, -, hsock⟩ := h.getUdp hst
  generalize hrecv : receiveUdp udp MAX_RECV_CHUNKS moves (st, sock) = received
  have hst' := @receiveUdp_handle _ udp MAX_RECV_CHUNKS moves st sock
  rw [hrecv] at hst'
  obtain ⟨⟨st', sock'⟩, ended⟩ := received
  refine ⟨sock', ?_⟩
  cases hgone : ended.appGone with
  -- the receiver is there: the connection is put back with its socket
  | false =>
      refine ⟨_, ended.backpressured, ?_, .inl ⟨st', hst'.1, hst'.2.1, hst'.2.2, rfl⟩⟩
      simp [serviceUdpConn, hst, hsock, hrecv, hgone]
  | true =>
      refine ⟨_, ended.backpressured, ?_, .inr rfl⟩
      simp [serviceUdpConn, hst, hsock, hrecv, hgone, removeSocket, removeUdpConn, Net.setUdpConn,
        Net.setSocket]

theorem serviceUdpConn_grows (h : Consistent s) (id : Nat) (moves : List Move) :
    ∃ s' backpressured, serviceUdpConn udp moves id s = some (s', backpressured) ∧
      Grows s s' := by
  cases hst : s.udpConns id with
  | none => exact ⟨s, false, by simp [serviceUdpConn, hst], .refl h⟩
  | some st =>
      have howner := handleOf_udp hst
      obtain ⟨sock, s', backpressured, heq, hend⟩ := serviceUdpConn_cases h hst moves
      refine ⟨s', backpressured, heq, ?_⟩
      rcases hend with ⟨st', hhandle, -, -, rfl⟩ | rfl
      · have hput : Grows s (Net.setSocket s st.handle (.udp sock)) :=
          .setSocket h howner trivial
        exact hput.trans (.setUdpConn hput.consistent hst hhandle)
      · exact .remove h howner (handleOf_removeUdpConn s id) rfl rfl

/-! ## Commands -/

theorem openTcp_grows (h : Consistent s) (hids : s.nextId + 1 < 2 ^ 64)
    (hfree : s.sockets handle = none) (now : Nat) (dst : SocketAddr) (resp : OpenResp) :
    Grows s (openTcp tcp tuning now handle dst resp s).1 := by
  cases hconnect : tcp.connect s.iface dst s.nextPort (tcp.new s.tcpLimits.keepalive) with
  | error e =>
      rw [openTcp_error hconnect]
      exact .congr h (handleOf_congr rfl rfl) rfl rfl
  | ok socket =>
      rw [openTcp_ok hconnect]
      refine .insert h .tcp (.tcp socket) hfree trivial ?_ rfl hids rfl
      exact handleOf_setTcpConn _ s.nextId (.opening tuning now handle s.nextPort resp s)

theorem openUdp_grows (h : Consistent s) (hids : s.nextId + 1 < 2 ^ 64)
    (hfree : s.sockets handle = none) (resp : OpenResp) :
    Grows s (openUdp udp tuning handle resp s).1 := by
  cases hbind : udp.bind s.nextPort udp.new with
  | error e =>
      rw [openUdp_error hbind]
      exact .congr h (handleOf_congr rfl rfl) rfl rfl
  | ok socket =>
      obtain ⟨s', st, events, heq, hopened⟩ :=
        @openUdp_ok _ _ udp tuning handle resp s _ hbind
      rw [heq]
      refine .insert h .udp (.udp socket) hfree trivial ?_ hopened.sockets hids hopened.nextId
      calc handleOf s' = handleOf (Net.setUdpConn s s.nextId st) :=
            handleOf_congr hopened.tcpConns hopened.udpConns
        _ = Function.update (handleOf s) (.udp, s.nextId) (some st.handle) :=
            handleOf_setUdpConn s s.nextId st
        _ = Function.update (handleOf s) (.udp, s.nextId) (some handle) := by
            rw [hopened.handle_eq]

theorem handleCmd_grows (h : Consistent s) (hids : s.nextId + 1 < 2 ^ 64)
    (hfree : s.sockets handle = none) (now : Nat) (cmd : Cmd) :
    Grows s (handleCmd tcp udp tuning now handle cmd s).1 := by
  cases cmd with
  | openTcp dst resp => exact openTcp_grows h hids hfree now dst resp
  | openUdp resp => exact openUdp_grows h hids hfree resp
  | setAddrs v4 v6 => exact .congr h rfl rfl rfl

/-! ## The loop -/

theorem putData_stack (d : DataIn) (w : World σ υ) :
    handleOf (putData d w).stack = handleOf w.stack ∧
      (putData d w).stack.sockets = w.stack.sockets ∧
      (putData d w).stack.nextId = w.stack.nextId := by
  unfold putData
  split
  · exact ⟨handleOf_congr rfl rfl, rfl, rfl⟩
  · exact ⟨rfl, rfl, rfl⟩
  · exact ⟨rfl, rfl, rfl⟩

theorem updateTcp_grows {w : World σ υ} (h : Consistent w.stack) (id : Nat)
    (f : TcpState → TcpState) (hf : ∀ st, (f st).handle = st.handle) :
    Grows w.stack (updateTcp id f w).stack := by
  unfold updateTcp
  split
  case h_1 st hst => exact .setTcpConn h hst (hf st)
  case h_2 => exact .refl h

theorem updateUdp_grows {w : World σ υ} (h : Consistent w.stack) (id : Nat)
    (f : UdpState → UdpState) (hf : ∀ st, (f st).handle = st.handle) :
    Grows w.stack (updateUdp id f w).stack := by
  unfold updateUdp
  split
  case h_1 st hst => exact .setUdpConn h hst (hf st)
  case h_2 => exact .refl h

theorem takeData_grows {w : World σ υ} (h : Consistent w.stack) (d : DataIn) :
    ∃ w', takeData udp tuning d w = some w' ∧ Grows w.stack w'.stack := by
  have htake : Grows w.stack { w.stack with dataIn := w.stack.dataIn.take 1 } :=
    .congr h rfl rfl rfl
  obtain ⟨s', back, hd, hgrows, -⟩ := @tryHandleData_grows _ _ _ udp tuning htake.consistent d
  exact ⟨_, by simp only [takeData, hd]; rfl, htake.trans hgrows⟩

/-- What a poll makes of the sockets fits whoever owns them. -/
theorem polled_owned {sockets : SocketSet σ υ} (h : Consistent s)
    (hpolls : ∀ k, Socket.polls tcp udp (s.sockets k) (sockets k)) :
    Owned Fits (handleOf s) sockets := by
  refine h.owned.inPlace (fun k => ?_) (fun {owner k a b} _ ha hb hfits => ?_)
  · have := hpolls k
    revert this
    generalize s.sockets k = before
    generalize sockets k = after
    intro hpoll
    rcases before with _ | ⟨_ | _⟩ <;> rcases after with _ | ⟨_ | _⟩ <;>
      simp_all [Socket.polls]
  · have hpoll := hpolls k
    rw [ha, hb] at hpoll
    obtain ⟨proto, i⟩ := owner
    cases proto <;> cases a <;> cases b <;> simp_all [Socket.polls, Fits]

/-- **No step of the loop panics, and none puts the tables out of step with the sockets while there
are ids.** -/
theorem step_grows (laws : TcpLaws tcp) {w : World σ υ} (h : Consistent w.stack)
    (l : Label σ υ) (hl : enabled tcp udp l w) :
    ∃ w', step tcp udp tuning l w = some w' ∧ (w.IdsLeft → Grows w.stack w'.stack) := by
  cases l with
  | poll sockets device now ids =>
      exact ⟨_, rfl, fun _ => .keep h rfl (polled_owned h hl.2.1) rfl⟩
  | serviceTcp now id ids moves =>
      obtain ⟨s', backpressured, events, hs, hgrows⟩ := serviceTcpConn_grows laws h now id moves
      exact ⟨w.after s' (.tcp now ids) events, by simp only [step, hs]; rfl, fun _ => hgrows⟩
  | startUdp ids => exact ⟨_, rfl, fun _ => .refl h⟩
  | serviceUdp id ids moves =>
      obtain ⟨s', backpressured, hs, hgrows⟩ := @serviceUdpConn_grows _ _ _ udp h id moves
      exact ⟨{ w with stack := s', phase := .udp ids }, by simp only [step, hs]; rfl, fun _ => hgrows⟩
  | flush closedAt => exact ⟨_, rfl, fun _ => .congr h rfl rfl rfl⟩
  | retry =>
      -- what is given back stays in `deferred`, in its order
      obtain ⟨s', deferred, hs, hgrows⟩ :=
        @retryDeferred_grows _ _ _ udp tuning h w.deferred
      exact ⟨{ w with stack := s', deferred, phase := .select }, by simp only [step, hs]; rfl, fun _ => hgrows⟩
  | inbound pkts => exact ⟨_, rfl, fun _ => .congr h rfl rfl rfl⟩
  -- an open command takes an id, so this is where there has to be one left
  | cmd now handle cmd => exact ⟨_, rfl, fun hids => handleCmd_grows h hids hl.2 now cmd⟩
  | data d =>
      obtain ⟨w', hd, hgrows⟩ := @takeData_grows _ _ udp tuning w h d
      exact ⟨w', hd, fun _ => hgrows⟩
  | timer => exact ⟨_, rfl, fun _ => .refl h⟩
  | stop => exact ⟨_, rfl, fun _ => .refl h⟩
  | drain d =>
      obtain ⟨w', hd, hgrows⟩ := @takeData_grows _ _ udp tuning w h d
      exact ⟨w', hd, fun _ => hgrows⟩
  | drained => exact ⟨_, rfl, fun _ => .refl h⟩
  | send d =>
      obtain ⟨hown, hsockets, hnext⟩ := putData_stack d w
      exact ⟨_, rfl, fun _ => .congr h hown hsockets hnext⟩
  | dropSender proto id =>
      refine ⟨_, rfl, ?_⟩
      obtain ⟨hown, hsockets, hnext⟩ := putData_stack (.close proto id) { w with
        senders := Function.update w.senders proto (Function.update (w.senders proto) id false)
        trace := w.trace ++ [.senderDropped proto id] }
      exact fun _ => .congr h hown hsockets hnext
  | recvTcp id n => exact ⟨_, rfl, fun _ => updateTcp_grows h id _ fun _ => rfl⟩
  | recvUdp id n => exact ⟨_, rfl, fun _ => updateUdp_grows h id _ fun _ => rfl⟩
  | dropReceiverTcp id => exact ⟨_, rfl, fun _ => updateTcp_grows h id _ fun _ => rfl⟩
  | dropReceiverUdp id => exact ⟨_, rfl, fun _ => updateUdp_grows h id _ fun _ => rfl⟩
  | dropResp id => exact ⟨_, rfl, fun _ => updateTcp_grows h id _ fun _ => rfl⟩

theorem spawned_consistent {w : World σ υ} (h : spawned tuning w) : Consistent w.stack := by
  obtain ⟨iface, tcpLimits, rfl⟩ := h
  have hnone : ∀ owner, handleOf ({
      iface, device := ⟨[], []⟩, sockets := fun _ => none, tcpConns := fun _ => none
      udpConns := fun _ => none, nextId := 1, nextPort := 49152
      dataIn := .new tuning.appQueue, tcpLimits, allocs := 0 } : NetStack σ υ) owner = none := by
    rintro ⟨proto, i⟩
    cases proto <;> rfl
  refine ⟨?_, fun howner => ?_⟩
  · rw [funext hnone]
    exact Owned.empty
  · rw [hnone] at howner
    cases howner

/-- In every state that is reached while there are ids, the tables and the sockets agree. -/
theorem consistent_invariant (laws : TcpLaws tcp) :
    Runs.Invariant (idLoop tcp udp tuning) fun w => Consistent w.stack where
  init _ h := spawned_consistent h
  step w l w' h hl hstep := by
    obtain ⟨w'', hstep', hgrows⟩ := @step_grows _ _ tcp udp tuning laws _ h l hl.1
    obtain rfl := Option.some.inj (hstep.symm.trans hstep')
    exact (hgrows hl.2).consistent

end Operations

end Tables

end Net
end AuroraVpn
