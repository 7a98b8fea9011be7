import AuroraVpn.NetStack.SocketTable
import AuroraVpn.NetStack.View

/-!
# Upload — what the applications send reaches the sockets in order

`Fresh` says that nothing in a view is about an id that has not been given out, and `Uploading` is
the account of each live connection: the bytes passed to its socket, those pending and those
deferred are, in this order, the bytes that were taken off the data channel for it.
-/

namespace AuroraVpn
namespace Net

section Handle

variable {σ : Type} {max : Nat} {conns : Nat → Option (Conn σ)} {d : DataIn} {id : Nat}

/-- What is appended and what is given back are the chunk. -/
theorem appendPending_append (max : Nat) (pending data : Bytes) :
    (appendPending max pending data).1 ++ (appendPending max pending data).2.getD [] =
      pending ++ data := by
  unfold appendPending
  split
  · rfl
  · dsimp only
    split
    · exact List.append_nil _
    · simp

/-- What a message may do to a connection: bytes are appended, or its half-close is marked; every
byte goes into `pending` or is given back. -/
theorem handleOn_spec (max : Nat) (conns : Nat → Option (Conn σ)) (d : DataIn) (id : Nat)
    {c' : Conn σ} (h : (handleOn max conns d).1 id = some c') :
    ∃ c, conns id = some c ∧
      c' = ⟨{ c.st with pending := c'.st.pending, halfClosed := c'.st.halfClosed }, c.sock⟩ ∧
      c'.st.pending ++ bytesFor id (handleOn max conns d).2.toList =
        c.st.pending ++ d.bytesFor id ∧
      c.st.pending <+: c'.st.pending ∧
      (c'.st.halfClosed = true ↔ c.st.halfClosed = true ∨ d = .tcpClose id) ∧
      (d = .tcpClose id → c'.st.pending = c.st.pending) := by
  cases d with
  | tcp i data =>
      cases hi : conns i with
      -- the connection the message is for is gone, so it is not this one
      | none =>
          simp only [handleOn, hi] at h ⊢
          have hne : i ≠ id := by
            rintro rfl
            rw [hi] at h
            cases h
          exact ⟨c', h, rfl, by simp [DataIn.bytesFor, hne], List.prefix_refl _, by simp, by simp⟩
      | some c =>
          simp only [handleOn, hi] at h ⊢
          -- only the connection with the id of the message changes
          by_cases hid : id = i
          · subst hid
            rw [Function.update_self] at h
            obtain rfl := Option.some.inj h
            refine ⟨c, hi, rfl, ?_, ?_, by simp, by simp⟩
            -- what did not fit into `pending` comes back as the rest of the message
            · have happend := appendPending_append max c.st.pending data
              cases hback : (appendPending max c.st.pending data).2 with
              | none => simpa [hback, DataIn.bytesFor] using happend
              | some rest => simpa [hback, DataIn.bytesFor] using happend
            · unfold appendPending
              split
              · exact List.prefix_refl _
              · dsimp only
                split <;> exact List.prefix_append _ _
          · rw [Function.update_of_ne hid] at h
            refine ⟨c', h, rfl, ?_, List.prefix_refl _, by simp, by simp⟩
            cases (appendPending max c.st.pending data).2 <;>
              simp [DataIn.bytesFor, Ne.symm hid]
  | tcpClose i =>
      cases hi : conns i with
      | none =>
          simp only [handleOn, hi] at h ⊢
          have hne : i ≠ id := by
            rintro rfl
            rw [hi] at h
            cases h
          exact ⟨c', h, rfl, by simp [DataIn.bytesFor], List.prefix_refl _, by simp [hne], by simp⟩
      | some c =>
          simp only [handleOn, hi] at h ⊢
          -- a half-close marks its own connection and gives nothing back
          by_cases hid : id = i
          · subst hid
            rw [Function.update_self] at h
            obtain rfl := Option.some.inj h
            exact ⟨c, hi, rfl, by simp [DataIn.bytesFor], List.prefix_refl _, by simp, by simp⟩
          · rw [Function.update_of_ne hid] at h
            exact ⟨c', h, rfl, by simp [DataIn.bytesFor], List.prefix_refl _,
              by simp [Ne.symm hid], by simp⟩
  | udp i dst data =>
      exact ⟨c', h, rfl, by simp [handleOn, DataIn.bytesFor], List.prefix_refl _, by simp, by simp⟩
  | udpClose i =>
      exact ⟨c', h, rfl, by simp [handleOn, DataIn.bytesFor], List.prefix_refl _, by simp, by simp⟩

/-- What is given back is a chunk for the same connection. -/
theorem handleOn_back {back : DataIn} (h : (handleOn max conns d).2 = some back) :
    ∃ data, back = .tcp d.id data := by
  cases d with
  | tcp i data =>
      cases hi : conns i with
      | none => simp [handleOn, hi] at h
      | some c =>
          simp only [handleOn, hi] at h
          obtain ⟨rest, -, rfl⟩ := Option.map_eq_some_iff.mp h
          exact ⟨rest, rfl⟩
  | tcpClose i =>
      cases hi : conns i <;> simp [handleOn, hi] at h
  | udp i dst data => cases h
  | udpClose i => cases h

/-- With one message to retry, a retry is one attempt. -/
theorem retryOn_singleton (max : Nat) (conns : Nat → Option (Conn σ)) (d : DataIn) :
    retryOn max conns [d] =
      ((handleOn max conns d).1, (handleOn max conns d).2.toList) := by
  unfold retryOn
  generalize handleOn max conns d = handled
  obtain ⟨conns', back⟩ := handled
  cases back <;> rfl

end Handle

/-! ## Ids -/

section Fresh

variable {σ υ : Type} {tcp : TcpOps σ} {max : Nat} {v v' : View σ} {l : Label σ υ}

/-- Every id in a view has been given out. -/
structure Fresh (v : View σ) : Prop where
  conns : ∀ {id c}, v.conns id = some c → id < v.nextId
  queue : ∀ d ∈ v.queue, d.id < v.nextId
  deferred : ∀ d ∈ v.deferred, d.id < v.nextId
  trace : ∀ e ∈ v.trace, ∀ i, e.id? = some i → i < v.nextId
  single : v.deferred.length ≤ 1

theorem Fresh.dequeued (h : Fresh v) : ∀ d ∈ dequeuedLog v.trace, d.id < v.nextId :=
  fun d hd => h.trace _ (mem_dequeuedLog.mp hd) d.id rfl

/-- What a step retries is one message. -/
theorem retry_single (max : Nat) (hsingle : v.deferred.length ≤ 1) :
    retryOn max v.conns v.deferred = (v.conns, []) ∧ v.deferred = [] ∨
    ∃ d, v.deferred = [d] ∧ retryOn max v.conns v.deferred =
      ((handleOn max v.conns d).1, (handleOn max v.conns d).2.toList) := by
  match hdeferred : v.deferred with
  | [] => exact .inl ⟨rfl, rfl⟩
  | [d] => exact .inr ⟨d, rfl, retryOn_singleton max v.conns d⟩
  | _ :: _ :: _ =>
      rw [hdeferred] at hsingle
      simp at hsingle

theorem fresh_step (laws : TcpLaws tcp) (h : Fresh v) (hstep : ViewStep tcp max v l v') :
    Fresh v' := by
  -- what is given back is of the same connection as what was handed over
  have hback : ∀ d : DataIn, d.id < v.nextId →
      ∀ b ∈ (handleOn max v.conns d).2.toList, b.id < v.nextId := by
    intro d hd b hb
    obtain ⟨data, rfl⟩ := handleOn_back (Option.mem_toList.mp hb)
    exact hd
  have hlength : ∀ o : Option DataIn, o.toList.length ≤ 1 := by
    intro o
    cases o <;> simp
  cases hstep with
  | quiet => exact h
  | poll conns hpoll =>
      refine ⟨fun hc => ?_, h.queue, h.deferred, h.trace, h.single⟩
      obtain ⟨c, hc', -⟩ := hpoll _ _ hc
      exact h.conns hc'
  -- a round queues at most the close of its own connection
  | @serve now id ids moves linger c r queued hc hr hqueued =>
      have hid := h.conns hc
      have hqueued' : ∀ d ∈ queued, d.id = id := by
        rcases hqueued with rfl | ⟨-, rfl⟩ <;> simp [DataIn.id]
      refine ⟨fun {i c'} hc' => ?_, fun d hd => ?_, h.deferred, fun e he i hi => ?_, h.single⟩
      · rcases update_eq_some hc' with ⟨rfl, -⟩ | ⟨-, hold⟩
        · exact hid
        · exact h.conns hold
      · rcases List.mem_append.mp hd with hd | hd
        · exact h.queue d hd
        · rw [hqueued' d hd]
          exact hid
      · rcases List.mem_append.mp he with he | he
        · exact h.trace e he i hi
        · -- the round is about its connection only
          have hevents := id?_ofService (serveConn_ofService laws hr)
          simp only [List.mem_append, List.mem_map] at he
          rcases he with (he | ⟨d, hd, rfl⟩) | he
          · rw [hevents e (List.mem_append_left _ he) i hi]
            exact hid
          · rw [← Option.some.inj hi, hqueued' d hd]
            exact hid
          · rw [hevents e (List.mem_append_right _ he) i hi]
            exact hid
  -- the new id is the old `next_id`, so everything else is still below
  | opened c iface dst port keepalive hsock hpending hhalf hest haborted =>
      have hlt := Nat.lt_succ_self v.nextId
      refine ⟨fun {i c'} hc' => ?_, fun d hd => (h.queue d hd).trans hlt,
        fun d hd => (h.deferred d hd).trans hlt, fun e he i hi => (h.trace e he i hi).trans hlt,
        h.single⟩
      rcases update_eq_some hc' with ⟨rfl, -⟩ | ⟨-, hold⟩
      · exact hlt
      · exact (h.conns hold).trans hlt
  | touch id c toApp connectResp hc =>
      refine ⟨fun {i c'} hc' => ?_, h.queue, h.deferred, h.trace, h.single⟩
      rcases update_eq_some hc' with ⟨rfl, -⟩ | ⟨-, hold⟩
      · exact h.conns hc
      · exact h.conns hold
  -- what an application does names an id that has been given out
  | outside nextId events hnext houtside hids =>
      refine ⟨fun hc => (h.conns hc).trans_le hnext, fun d hd => ?_,
        fun d hd => (h.deferred d hd).trans_le hnext, fun e he i hi => ?_, h.single⟩
      · rcases List.mem_append.mp hd with hd | hd
        · exact (h.queue d hd).trans_le hnext
        · exact hids _ (mem_queuedLog.mp hd) d.id rfl
      · rcases List.mem_append.mp he with he | he
        · exact (h.trace e he i hi).trans_le hnext
        · exact hids e he i hi
  | take d queue hdeferred hqueue =>
      have hd : d.id < v.nextId := h.queue d (by rw [hqueue]; exact List.mem_cons_self)
      refine ⟨fun {i c'} hc' => ?_, fun d' hd' => ?_, hback d hd, fun e he i hi => ?_, hlength _⟩
      · obtain ⟨c, hc, -⟩ := handleOn_spec max v.conns d i hc'
        exact h.conns hc
      · exact h.queue d' (by rw [hqueue]; exact List.mem_cons_of_mem _ hd')
      · rcases List.mem_append.mp he with he | he
        · exact h.trace e he i hi
        · obtain rfl := List.mem_singleton.mp he
          exact (Option.some.inj hi) ▸ hd
  -- `deferred` holds one message at most, which is what makes a retry a single handling
  | retry =>
      rcases retry_single max h.single with ⟨hretry, -⟩ | ⟨d, hdeferred, hretry⟩
      · rw [hretry]
        exact ⟨h.conns, h.queue, by simp, h.trace, by simp⟩
      · have hd : d.id < v.nextId := h.deferred d (by rw [hdeferred]; exact List.mem_cons_self)
        rw [hretry]
        refine ⟨fun {i c'} hc' => ?_, h.queue, hback d hd, h.trace, hlength _⟩
        obtain ⟨c, hc, -⟩ := handleOn_spec max v.conns d i hc'
        exact h.conns hc

/-- The account of the way up. -/
structure Uploading (v : View σ) : Prop where
  fifo : queuedLog v.trace = dequeuedLog v.trace ++ v.queue
  chunks : ∀ d ∈ v.deferred, ∃ id data, d = .tcp id data
  account : ∀ {id c}, v.conns id = some c →
    sentBytes id v.trace ++ (c.st.pending ++ bytesFor id v.deferred) =
      bytesFor id (dequeuedLog v.trace)
  marked : ∀ {id c}, v.conns id = some c → .tcpClose id ∈ dequeuedLog v.trace →
    c.st.halfClosed = true
  halfClosed : ∀ {id c}, v.conns id = some c → c.st.halfClosed = true →
    ∃ before after, dequeuedLog v.trace = before ++ .tcpClose id :: after ∧
      .tcpClose id ∉ before ∧ bytesFor id before <+: sentBytes id v.trace ++ c.st.pending

/-- The account looks at the entry of a connection, at its messages and at the history of both. -/
theorem Uploading.congr (h : Uploading v) (hqueue : v'.queue = v.queue)
    (hdeferred : v'.deferred = v.deferred) (htrace : v'.trace = v.trace)
    (hconns : ∀ {id c'}, v'.conns id = some c' → ∃ c, v.conns id = some c ∧
      c'.st.pending = c.st.pending ∧ c'.st.halfClosed = c.st.halfClosed) : Uploading v' where
  fifo := by rw [htrace, hqueue, h.fifo]
  chunks := by rw [hdeferred]; exact h.chunks
  account hc' := by
    obtain ⟨c, hc, hpending, -⟩ := hconns hc'
    rw [htrace, hdeferred, hpending]
    exact h.account hc
  marked hc' hmem := by
    obtain ⟨c, hc, -, hhalf⟩ := hconns hc'
    rw [hhalf]
    exact h.marked hc (htrace ▸ hmem)
  halfClosed hc' hset := by
    obtain ⟨c, hc, hpending, hhalf⟩ := hconns hc'
    rw [htrace, hpending]
    exact h.halfClosed hc (hhalf ▸ hset)

/-- A round on one connection: what leaves `pending` is what is passed to the socket. -/
theorem Uploading.serve (laws : TcpLaws tcp) (h : Uploading v) {now id linger : Nat}
    {moves : List Move} {c : Conn σ} {r : Served σ} {queued : List DataIn}
    (hc : v.conns id = some c) (hr : serveConn tcp id now linger moves c = some r) :
    Uploading (v.served id r queued) := by
  have hevents := serveConn_ofService laws hr
  have hbefore : ∀ e ∈ r.before, Event.OfService id e := fun e he =>
    hevents e (List.mem_append_left _ he)
  have hafter : ∀ e ∈ r.events, Event.OfService id e := fun e he =>
    hevents e (List.mem_append_right _ he)
  -- a round takes nothing off the channel: it only adds to it
  have hdequeued : dequeuedLog (v.trace ++ (r.before ++ queued.map .queued ++ r.events)) =
      dequeuedLog v.trace := by
    simp [dequeuedLog_ofService hbefore, dequeuedLog_ofService hafter, dequeuedLog_queued]
  have hsent : ∀ i, sentBytes i (v.trace ++ (r.before ++ queued.map .queued ++ r.events)) =
      sentBytes i v.trace ++ sentBytes i (r.before ++ r.events) := by
    intro i
    simp [sentBytes_queued]
  -- only the entry of the connection that was served may be another one
  have hother : ∀ {i c'}, (Function.update v.conns id
      (if r.removed = true then none else some r.conn)) i = some c' →
      (i = id ∧ r.removed = false ∧ c' = r.conn) ∨
        (v.conns i = some c' ∧ sentBytes i (r.before ++ r.events) = []) := by
    intro i c' hc'
    rcases update_eq_some hc' with ⟨rfl, hput⟩ | ⟨hi, hold⟩
    · cases hremoved : r.removed with
      | true => simp [hremoved] at hput
      | false =>
          simp only [hremoved, Bool.false_eq_true, if_false] at hput
          exact .inl ⟨rfl, rfl, (Option.some.inj hput).symm⟩
    · exact .inr ⟨hold, sentBytes_ofService hevents (Ne.symm hi)⟩
  unfold View.served
  refine ⟨?_, h.chunks, fun hc' => ?_, fun hc' hmem => ?_, fun hc' hset => ?_⟩
  · rw [hdequeued]
    simp [queuedLog_ofService hbefore, queuedLog_ofService hafter, queuedLog_queued, h.fifo]
  -- what the round sends has been in `pending`, so the two sides of the account move together
  · rw [hdequeued, hsent]
    rcases hother hc' with ⟨rfl, hkept, rfl⟩ | ⟨hc', hnil⟩
    · have hkeeps := (serveConn_kept laws hr hkept).1
      rw [← h.account hc, ← hkeeps.sent]
      simp
    · rw [hnil, List.append_nil]
      exact h.account hc'
  · rw [hdequeued] at hmem
    rcases hother hc' with ⟨rfl, hkept, rfl⟩ | ⟨hc', -⟩
    · rw [(serveConn_kept laws hr hkept).1.halfClosed]
      exact h.marked hc hmem
    · exact h.marked hc' hmem
  · rw [hdequeued, hsent]
    rcases hother hc' with ⟨rfl, hkept, rfl⟩ | ⟨hc', hnil⟩
    · have hkeeps := (serveConn_kept laws hr hkept).1
      obtain ⟨before, after, hsplit, hfirst, hbegins⟩ := h.halfClosed hc (hkeeps.halfClosed ▸ hset)
      refine ⟨before, after, hsplit, hfirst, ?_⟩
      rwa [List.append_assoc, hkeeps.sent]
    · rw [hnil, List.append_nil]
      exact h.halfClosed hc' hset

/-- A message that is handled, whether it comes off the channel or out of `deferred`: `taken` is
what has been taken off the channel when it has been handled. -/
theorem Uploading.handled (h : Uploading v) {d : DataIn} {taken : List DataIn}
    (hbytes : ∀ {id c}, v.conns id = some c →
      sentBytes id v.trace ++ (c.st.pending ++ d.bytesFor id) = bytesFor id taken)
    (hcases : (taken = dequeuedLog v.trace ∧ ∃ i data, d = .tcp i data) ∨
      (taken = dequeuedLog v.trace ++ [d] ∧ v.deferred = []))
    {id : Nat} {c' : Conn σ} (hc' : (handleOn max v.conns d).1 id = some c') :
    sentBytes id v.trace ++
        (c'.st.pending ++ bytesFor id (handleOn max v.conns d).2.toList) = bytesFor id taken ∧
      (.tcpClose id ∈ taken → c'.st.halfClosed = true) ∧
      (c'.st.halfClosed = true → ∃ before after, taken = before ++ .tcpClose id :: after ∧
        .tcpClose id ∉ before ∧ bytesFor id before <+: sentBytes id v.trace ++ c'.st.pending) := by
  obtain ⟨c, hc, -, hpending, hbegins, hhalf, hsame⟩ := handleOn_spec max v.conns d id hc'
  -- what is handled extends what had been taken, by nothing or by the message itself
  obtain ⟨rest, htaken⟩ : ∃ rest, taken = dequeuedLog v.trace ++ rest := by
    rcases hcases with ⟨rfl, -⟩ | ⟨rfl, -⟩
    · exact ⟨[], (List.append_nil _).symm⟩
    · exact ⟨[d], rfl⟩
  refine ⟨by rw [hpending]; exact hbytes hc, fun hmem => ?_, fun hset => ?_⟩
  · rw [hhalf]
    rcases hcases with ⟨rfl, -⟩ | ⟨rfl, -⟩
    · exact .inl (h.marked hc hmem)
    · rcases List.mem_append.mp hmem with hmem | hmem
      · exact .inl (h.marked hc hmem)
      · exact .inr (List.mem_singleton.mp hmem).symm
  · by_cases hset' : c.st.halfClosed = true
    · -- set before: `pending` only grows
      obtain ⟨before, after, hsplit, hfirst, hbefore⟩ := h.halfClosed hc hset'
      refine ⟨before, after ++ rest, by simp [htaken, hsplit], hfirst, hbefore.trans ?_⟩
      exact (List.prefix_append_right_inj _).mpr hbegins
    · -- set now: everything queued before this close has been taken and moved
      have hd : d = .tcpClose id := (hhalf.mp hset).resolve_left hset'
      rcases hcases with ⟨-, i, data, htcp⟩ | ⟨rfl, hdeferred⟩
      · rw [hd] at htcp
        cases htcp
      · refine ⟨dequeuedLog v.trace, [], by rw [hd], fun hmem => hset' (h.marked hc hmem), ?_⟩
        have haccount := h.account hc
        rw [hdeferred, bytesFor_nil, List.append_nil] at haccount
        have heq : bytesFor id (dequeuedLog v.trace) = sentBytes id v.trace ++ c'.st.pending := by
          rw [← haccount, hsame hd]
        exact ⟨[], (List.append_nil _).trans heq⟩

theorem Uploading.step (laws : TcpLaws tcp) (hfresh : Fresh v) (h : Uploading v)
    (hstep : ViewStep tcp max v l v') : Uploading v' := by
  have hchunks : ∀ d : DataIn, ∀ b ∈ (handleOn max v.conns d).2.toList, ∃ i data, b = .tcp i data := by
    intro d b hb
    obtain ⟨data, rfl⟩ := handleOn_back (Option.mem_toList.mp hb)
    exact ⟨_, data, rfl⟩
  cases hstep with
  | quiet => exact h
  | poll conns hpoll =>
      refine h.congr rfl rfl rfl fun {id c'} hc' => ?_
      obtain ⟨c, hc, hst, -⟩ := hpoll _ _ hc'
      exact ⟨c, hc, by rw [hst], by rw [hst]⟩
  | serve linger c r queued hc hr hqueued => exact h.serve laws hc hr
  | opened c iface dst port keepalive hsock hpending hhalf hest haborted =>
      -- nothing has happened yet under the new id
      have hsent : sentBytes v.nextId v.trace = [] :=
        sentBytes_eq_nil fun e he heq => lt_irrefl _ (hfresh.trace e he _ heq)
      have hnone : ∀ ds : List DataIn, (∀ d ∈ ds, d.id < v.nextId) → bytesFor v.nextId ds = [] :=
        fun ds hds => bytesFor_eq_nil fun d hd => (hds d hd).ne
      refine ⟨h.fifo, h.chunks, fun hc' => ?_, fun hc' hmem => ?_, fun hc' hset => ?_⟩
      · rcases update_eq_some hc' with ⟨rfl, hput⟩ | ⟨-, hold⟩
        · obtain rfl := Option.some.inj hput
          simp [hsent, hpending, hnone _ hfresh.deferred, hnone _ hfresh.dequeued]
        · exact h.account hold
      · rcases update_eq_some hc' with ⟨rfl, -⟩ | ⟨-, hold⟩
        · exact absurd (hfresh.dequeued _ hmem) (lt_irrefl _)
        · exact h.marked hold hmem
      · rcases update_eq_some hc' with ⟨rfl, hput⟩ | ⟨-, hold⟩
        · obtain rfl := Option.some.inj hput
          rw [hhalf] at hset
          cases hset
        · exact h.halfClosed hold hset
  | touch id c toApp connectResp hc =>
      refine h.congr rfl rfl rfl fun {i c'} hc' => ?_
      rcases update_eq_some hc' with ⟨rfl, hput⟩ | ⟨-, hold⟩
      · obtain rfl := Option.some.inj hput
        exact ⟨c, hc, rfl, rfl⟩
      · exact ⟨c', hold, rfl, rfl⟩
  | outside nextId events hnext houtside hids =>
      have hdequeued : dequeuedLog (v.trace ++ events) = dequeuedLog v.trace := by
        simp [dequeuedLog_ofOutside houtside]
      have hsent : ∀ i, sentBytes i (v.trace ++ events) = sentBytes i v.trace := by
        intro i
        simp [sentBytes_ofOutside houtside]
      refine ⟨?_, h.chunks, fun hc => ?_, fun hc hmem => ?_, fun hc hset => ?_⟩
      · simp [hdequeued, h.fifo]
      · rw [hsent, hdequeued]
        exact h.account hc
      · exact h.marked hc (hdequeued ▸ hmem)
      · rw [hsent, hdequeued]
        exact h.halfClosed hc hset
  | take d queue hdeferred hqueue =>
      have hdequeued : dequeuedLog (v.trace ++ [.dequeued d]) = dequeuedLog v.trace ++ [d] := by
        simp [dequeuedLog, Event.dequeued?]
      have hqueued : queuedLog (v.trace ++ [.dequeued d]) = queuedLog v.trace := by
        simp [queuedLog, Event.queued?]
      have hsent : ∀ i, sentBytes i (v.trace ++ [.dequeued d]) = sentBytes i v.trace := by
        intro i
        simp [sentBytes, Event.sentFor]
      have hbytes : ∀ {id c}, v.conns id = some c →
          sentBytes id v.trace ++ (c.st.pending ++ d.bytesFor id) =
            bytesFor id (dequeuedLog v.trace ++ [d]) := by
        intro id c hc
        have haccount := h.account hc
        rw [hdeferred, bytesFor_nil, List.append_nil] at haccount
        rw [← List.append_assoc, haccount]
        simp
      have hhandled := fun {id c'} => @Uploading.handled _ max v h d _ hbytes
        (.inr ⟨rfl, hdeferred⟩) id c'
      refine ⟨?_, hchunks d, fun hc' => ?_, fun hc' hmem => ?_, fun hc' hset => ?_⟩
      · rw [hdequeued, hqueued, h.fifo, hqueue]
        simp
      · rw [hsent, hdequeued]
        exact (hhandled hc').1
      · exact (hhandled hc').2.1 (hdequeued ▸ hmem)
      · rw [hsent, hdequeued]
        exact (hhandled hc').2.2 hset
  | retry =>
      rcases retry_single max hfresh.single with ⟨hretry, hnil⟩ | ⟨d, hdeferred, hretry⟩
      · rw [hretry]
        exact h.congr rfl hnil.symm rfl fun hc => ⟨_, hc, rfl, rfl⟩
      · rw [hretry]
        obtain ⟨i, data, htcp⟩ := h.chunks d (by rw [hdeferred]; exact List.mem_cons_self)
        have hbytes : ∀ {id c}, v.conns id = some c →
            sentBytes id v.trace ++ (c.st.pending ++ d.bytesFor id) =
              bytesFor id (dequeuedLog v.trace) := by
          intro id c hc
          have haccount := h.account hc
          rwa [hdeferred, bytesFor_cons, bytesFor_nil, List.append_nil] at haccount
        have hhandled := fun {id c'} => @Uploading.handled _ max v h d _ hbytes
          (.inl ⟨rfl, i, data, htcp⟩) id c'
        exact ⟨h.fifo, hchunks d, fun hc' => (hhandled hc').1, fun hc' => (hhandled hc').2.1,
          fun hc' => (hhandled hc').2.2⟩

end Fresh

/-! ## Runs -/

section Runs

variable {σ υ : Type} {tcp : TcpOps σ} {udp : UdpOps υ} {tuning : Tuning} {w : World σ υ}

/-- What carries the account of the way up through the steps of the loop. -/
structure Accounted (w : World σ υ) : Prop where
  consistent : Consistent w.stack
  senders : SendersBelow w
  fresh : Fresh (view w)
  uploading : Uploading (view w)

theorem accounted_invariant (laws : TcpLaws tcp) :
    Runs.Invariant (idLoop tcp udp tuning) (Accounted (σ := σ)) where
  init w h := by
    have hview := (@view_invariant _ _ _ udp tuning laws).init w h
    obtain ⟨iface, tcpLimits, rfl⟩ := h
    exact ⟨hview.1, hview.2, ⟨nofun, nofun, nofun, nofun, Nat.zero_le _⟩,
      ⟨rfl, nofun, nofun, nofun, nofun⟩⟩
  step w l w' h hl hstep := by
    have hview := (view_invariant laws).step w l w' ⟨h.consistent, h.senders⟩ hl hstep
    have hmove := (step_view laws h.consistent h.senders hl.2 hl.1 hstep).1
    exact ⟨hview.1, hview.2, fresh_step laws h.fresh hmove, h.uploading.step laws h.fresh hmove⟩

/-- **Uploads keep their order through backpressure**, in every state of every run in which `next_id`
does not wrap: at most one
message is deferred; nothing is lost or reordered on the data channel; for a live connection the
bytes passed to its socket, those pending and those deferred are together the bytes taken off the
channel for it, once each and in order; and a half-close is marked only when all that was queued
before it is behind `pending`. -/
theorem upload_inOrder (laws : TcpLaws tcp) (h : Runs.Reachable (idLoop tcp udp tuning) w) :
    w.deferred.length ≤ 1 ∧
    queuedLog w.trace = dequeuedLog w.trace ++ w.stack.dataIn.queue ∧
    (∀ id st, w.stack.tcpConns id = some st →
      sentBytes id w.trace ++ st.pending ++ bytesFor id w.deferred =
        bytesFor id (dequeuedLog w.trace)) ∧
    (∀ id st, w.stack.tcpConns id = some st → st.halfClosed = true →
      ∃ before after, queuedLog w.trace = before ++ .tcpClose id :: after ∧
        .tcpClose id ∉ before ∧ bytesFor id before <+: sentBytes id w.trace ++ st.pending) := by
  have hw := (accounted_invariant laws).reachable h
  refine ⟨hw.fresh.single, hw.uploading.fifo, fun id st hst => ?_, fun id st hst hset => ?_⟩
  -- the account of the view is the one of the table
  · obtain ⟨sock, hc, -⟩ := hw.consistent.connOf hst
    have haccount := @Uploading.account _ _ hw.uploading id _ hc
    simpa [view] using haccount
  · obtain ⟨sock, hc, -⟩ := hw.consistent.connOf hst
    obtain ⟨before, after, hsplit, hfirst, hbegins⟩ :=
      @Uploading.halfClosed _ _ hw.uploading id _ hc hset
    -- what still waits in the channel stands behind the half-close
    refine ⟨before, after ++ w.stack.dataIn.queue, ?_, hfirst, hbegins⟩
    have hfifo : queuedLog w.trace = dequeuedLog w.trace ++ w.stack.dataIn.queue :=
      hw.uploading.fifo
    have hsplit' : dequeuedLog w.trace = before ++ .tcpClose id :: after := hsplit
    rw [hfifo, hsplit', List.append_assoc, List.cons_append]

/-- The application sends a byte and closes its side, while the peer's window is full. -/
theorem upload_inOrder_given : ∃ w : World SimpleSocket Unit, ∃ st,
    w.stack.tcpConns 1 = some st ∧ st.pending = [7] ∧
      sentBytes 1 w.trace ++ st.pending ++ bytesFor 1 w.deferred =
        bytesFor 1 (dequeuedLog w.trace) ∧
      ∃ before after, queuedLog w.trace = before ++ .tcpClose 1 :: after ∧
        .tcpClose 1 ∉ before ∧ bytesFor 1 before <+: sentBytes 1 w.trace ++ st.pending := by
  have hstands := single_stands spares_true trivial trivial
  have hgiven := single_given (d := .tcp 1 [7]) spares_true hstands rfl (by decide) rfl
  have hquiet : SimpleSocket.ops.polls (quietSocket .established 0 []) (quietSocket .established 0 []) :=
    ⟨fun h => h, fun _ => ⟨rfl, [], rfl, rfl⟩⟩
  have hround := single_round spares_true hgiven hquiet rfl rfl rfl rfl trivial
  have hclosing := single_given (d := .tcpClose 1) spares_true hround rfl (by decide) rfl
  obtain ⟨-, -, haccount, hhalfClosed⟩ := upload_inOrder SimpleSocket.laws hclosing
  exact ⟨_, _, rfl, rfl, haccount 1 _ rfl, hhalfClosed 1 _ rfl rfl⟩

end Runs

end Net
end AuroraVpn
