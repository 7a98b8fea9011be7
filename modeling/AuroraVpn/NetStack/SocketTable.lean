import AuroraVpn.NetStack.Ownership
import AuroraVpn.NetStack.Single

/-!
# SocketTable — no lookup fails and no socket is lost

What follows for every run of the loop from the agreement of the tables with the sockets.
-/

namespace AuroraVpn
namespace Net

section Refused

variable {σ υ : Type} {tcp : TcpOps σ} {udp : UdpOps υ} {tuning : Tuning} {s : NetStack σ υ}

/-- An open command that is answered with an error at once leaves neither entry nor socket. -/
theorem handleCmd_refused {now handle : Nat} {cmd : Cmd} {message : String}
    (h : .refused message ∈ (handleCmd tcp udp tuning now handle cmd s).2) :
    (handleCmd tcp udp tuning now handle cmd s).1.sockets = s.sockets ∧
      handleOf (handleCmd tcp udp tuning now handle cmd s).1 = handleOf s := by
  cases cmd with
  -- a refusal comes from the socket alone, which is then not kept
  | openTcp dst resp =>
      cases hconnect : tcp.connect s.iface dst s.nextPort (tcp.new s.tcpLimits.keepalive) with
      | error e =>
          simp only [handleCmd, openTcp_error hconnect]
          exact ⟨rfl, handleOf_congr rfl rfl⟩
      | ok socket => simp [handleCmd, openTcp_ok hconnect] at h
  | openUdp resp =>
      cases hbind : udp.bind s.nextPort udp.new with
      | error e =>
          simp only [handleCmd, openUdp_error hbind]
          exact ⟨rfl, handleOf_congr rfl rfl⟩
      | ok socket =>
          obtain ⟨s', st, events, heq, hopened⟩ :=
            @openUdp_ok _ _ udp tuning handle resp s _ hbind
          simp only [handleCmd, heq] at h
          rcases hopened.events with ⟨-, rfl | rfl⟩ | ⟨-, rfl⟩ <;> simp at h
  | setAddrs v4 v6 => simp [handleCmd] at h

/-- An open command that is answered with an error later has its entry and its socket removed in
the same round. -/
theorem serviceTcpConn_refused (laws : TcpLaws tcp) (h : Consistent s) {now id : Nat}
    {moves : List Move} {s' : NetStack σ υ} {backpressured : Bool} {events : List (Event σ)}
    {message : String} (hs : serviceTcpConn tcp now moves id s = some (s', backpressured, events))
    (hrefused : .refused message ∈ events) :
    handleOf s' (.tcp, id) = none ∧
      ∀ handle, handleOf s (.tcp, id) = some handle → s'.sockets handle = none := by
  cases hst : s.tcpConns id with
  | none =>
      rw [serviceTcpConn, hst] at hs
      obtain ⟨-, -, rfl⟩ := by simpa using hs
      cases hrefused
  | some st =>
      obtain ⟨sock, r, -, hr, heq⟩ := serviceTcpConn_serves laws h hst now moves
      rw [heq] at hs
      simp only [Option.some.injEq, Prod.mk.injEq] at hs
      obtain ⟨rfl, -, rfl⟩ := hs
      -- a round that keeps the connection refuses nobody
      have hgone : r.removed = true := by
        by_contra hkept
        have hkeeps := (serveConn_kept laws hr (by simpa using hkept)).1
        apply hkeeps.unrefused message
        have hqueue : .refused message ∉ (r.queue id s).2 := by
          unfold Served.queue queueClose
          split
          · dsimp only
            split <;> simp
          · simp
        simp only [List.mem_append] at hrefused ⊢
        tauto
      obtain ⟨-, hsockets, -, -⟩ := handleOf_queue r id s
      refine ⟨by simp [Served.put, hgone, handleOf], fun handle howner => ?_⟩
      obtain rfl := Option.some.inj ((handleOf_tcp hst).symm.trans howner)
      simp [Served.put, hgone]

end Refused

section Runs

variable {σ υ : Type} {tcp : TcpOps σ} {udp : UdpOps υ} {tuning : Tuning} {w : World σ υ}

/-- **The socket table is sound in every state of every run in which `next_id` does not wrap**: the
sockets and the entries of the two tables belong to each other one to one and every id is below
`next_id`; so no step panics; a message touches the socket of its own connection only, and none at all
once that is gone, since no id comes back; and an open command that fails leaves neither an entry nor a
socket. -/
theorem socketTable_sound (laws : TcpLaws tcp) (h : Runs.Reachable (idLoop tcp udp tuning) w) :
    Consistent w.stack ∧
    (∀ l, enabled tcp udp l w → (step tcp udp tuning l w).isSome = true) ∧
    (∀ d s' back, tryHandleData udp tuning w.stack d = some (s', back) →
      ∀ handle, s'.sockets handle ≠ w.stack.sockets handle →
        handleOf w.stack (d.proto, d.id) = some handle) ∧
    (∀ owner, owner.2 < w.stack.nextId → handleOf w.stack owner = none →
      ∀ w', Runs.Later (idLoop tcp udp tuning) w w' → handleOf w'.stack owner = none ∧
        ∀ d : DataIn, (d.proto, d.id) = owner →
          tryHandleData udp tuning w'.stack d = some (w'.stack, none)) ∧
    (∀ now handle cmd message,
      .refused message ∈ (handleCmd tcp udp tuning now handle cmd w.stack).2 →
        (handleCmd tcp udp tuning now handle cmd w.stack).1.sockets = w.stack.sockets ∧
        handleOf (handleCmd tcp udp tuning now handle cmd w.stack).1 = handleOf w.stack) ∧
    (∀ now id moves s' backpressured events message,
      serviceTcpConn tcp now moves id w.stack = some (s', backpressured, events) →
        .refused message ∈ events → handleOf s' (.tcp, id) = none ∧
          ∀ handle, handleOf w.stack (.tcp, id) = some handle → s'.sockets handle = none) := by
  have hinv := @consistent_invariant _ _ tcp udp tuning laws
  have hc := hinv.reachable h
  refine ⟨hc, fun l hl => ?_, fun d s' back hd handle hne => ?_, fun owner hlt hnone w' hlater => ?_,
    fun now handle cmd message hm => handleCmd_refused hm,
    fun now id moves s' backpressured events message hs hm =>
      serviceTcpConn_refused laws hc hs hm⟩
  -- a step is a panic only where an entry has lost its socket
  · obtain ⟨w', hstep, -⟩ := @step_grows _ _ tcp udp tuning laws _ hc l hl
    rw [hstep]
    rfl
  -- a message touches the socket of the connection it names
  · obtain ⟨s'', back', hd', -, htouch⟩ := @tryHandleData_grows _ _ _ udp tuning hc d
    rw [hd] at hd'
    obtain ⟨rfl, -⟩ := Prod.mk.inj (Option.some.inj hd')
    exact htouch handle hne
  · -- what is dead and below `next_id` stays so, step by step
    have hdead := hlater.keeps (P := fun w => handleOf w.stack owner = none ∧
        owner.2 < w.stack.nextId) hinv h
      (fun s l s' hs hP hl hstep => by
        obtain ⟨s'', hstep', hgrows⟩ := @step_grows _ _ tcp udp tuning laws _ hs l hl.1
        obtain rfl := Option.some.inj (hstep.symm.trans hstep')
        exact ⟨(hgrows hl.2).dead hP.1 hP.2, hP.2.trans_le (hgrows hl.2).nextId⟩) ⟨hnone, hlt⟩
    exact ⟨hdead.1, fun d hd => tryHandleData_stale (by rw [hd]; exact hdead.1)⟩

/-- A connection that waits for its handshake. -/
theorem socketTable_sound_opened : ∃ w : World SimpleSocket Unit,
    handleOf w.stack (.tcp, 1) = some 0 ∧ Consistent w.stack ∧
      ∀ l, enabled SimpleSocket.ops SimpleSocket.udpOps l w →
        (step SimpleSocket.ops SimpleSocket.udpOps ⟨128, 524288⟩ l w).isSome = true := by
  have hopened := @single_opened ⟨128, 524288⟩ _ spares_true web (by decide) trivial
  have hsound := socketTable_sound SimpleSocket.laws hopened
  exact ⟨_, rfl, hsound.1, hsound.2.1⟩

end Runs

end Net
end AuroraVpn
