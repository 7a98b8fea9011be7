import AuroraVpn.NetStack.Single
import AuroraVpn.NetStack.Upload

/-!
# Download — what the peer sends reaches the application

`Downloading` is the account of the way down: what a socket has accepted in order is what has been
delivered to its application, followed by what is still unread.  A round removes a finished
connection whether or not its socket has been read to the end, so that the account says what is
lost: `complete_iff` gives the condition on the channel under which nothing is.
-/

namespace AuroraVpn
namespace Net

/-- A removal after an orderly close, with a receiver that is still there, loses nothing. -/
def complete {σ : Type} (tcp : TcpOps σ) (before : List (Event σ)) : Event σ → Prop
  | .removed id st sock =>
      st.established = true → st.aborted = false → st.toApp.rxOpen = true → ¬tcp.broken sock →
        deliveredBytes id before = tcp.received sock
  | _ => True

/-- Each unread chunk finds a slot of the channel in its turn, up to `n` of them, unless the
application drops its receiver first. -/
def RoomFor : Nat → List Move → Channel Bytes → List Bytes → Prop
  | 0, _, toApp, chunks => toApp.rxOpen = false ∨ chunks = []
  | n + 1, moves, toApp, chunks =>
      let toApp := (moves.headD .idle).apply toApp
      toApp.rxOpen = false ∨
        match chunks with
        | [] => True
        | chunk :: chunks =>
            toApp.queue.length < toApp.capacity ∧ RoomFor n moves.tail (toApp.push chunk) chunks

section Rounds

variable {σ : Type} {tcp : TcpOps σ} {id now linger : Nat} {moves : List Move} {c c' : Conn σ}
  {r : Served σ} {t : List (Event σ)}

/-- Only removals can be incomplete. -/
theorem each_complete_of_unremoved {log : List (Event σ)}
    (h : ∀ i st sock, .removed i st sock ∉ log) (t : List (Event σ)) :
    Log.Each (fun before => complete tcp (t ++ before)) log := by
  refine Log.each_of_forall fun e he before => ?_
  cases e with
  | removed i st sock => exact absurd he (h i st sock)
  | _ => trivial

theorem establish_established (stage : TcpStage)
    (h : (establish id stage c).1.st.established = true) :
    c.st.established = true ∨ stage.connected = true := by
  unfold establish at h
  split at h
  case isTrue hconnected =>
    right
    simp only [Bool.and_eq_true] at hconnected
    exact hconnected.2
  case isFalse => exact .inl h

theorem establish_finished (stage : TcpStage) (h : stage.finished = true) :
    establish id stage c = (c, false, []) := by
  have hconnected : stage.connected = false := by
    revert h
    cases stage <;> decide
  simp [establish, hconnected]

/-- An established connection that a round leaves alive has had its handshake. -/
theorem serveConn_opened (laws : TcpLaws tcp)
    (hr : serveConn tcp id now linger moves c = some r) (hkept : r.removed = false)
    (hopened : c.st.established = true → (tcp.stage c.sock).opened = true)
    (hest : r.conn.st.established = true) (haborted : r.conn.st.aborted = false) :
    (tcp.stage r.conn.sock).opened = true := by
  have hreads := (serveConn_kept laws hr hkept).2 haborted
  refine (hreads.opened ?_).1
  -- established before, or in this round, in which it was seen connected
  rcases serveConn_cases tcp hr with ⟨-, rfl⟩ | ⟨-, c₁, hestablish, hexit⟩
  · cases hkept
  · have hstood : c₁.st.established = true → (tcp.stage c.sock).opened = true := by
      intro hc₁
      have hhow := @establish_established _ id c (tcp.stage c.sock)
      rw [hestablish] at hhow
      rcases hhow hc₁ with hbefore | hnow
      · exact hopened hbefore
      · exact TcpStage.opened_of_connected hnow
    rcases hexit with ⟨-, hgone, -, -⟩ | ⟨hnot, -, hconn, -⟩ | ⟨hc₁, -⟩
    · rw [hgone] at hkept
      cases hkept
    · rw [hconn, hnot] at hest
      cases hest
    · exact hstood hc₁

variable (laws : TcpLaws tcp)
include laws

/-- The receive loop ends with nothing unread, or with nobody to read it, just when there is room. -/
theorem receiveLoop_roomFor (n : Nat) (moves : List Move) (c : Conn σ) :
    RoomFor n moves c.st.toApp (tcp.readable c.sock) ↔
      (receiveLoop tcp id n moves c).1.st.toApp.rxOpen = false ∨
        tcp.readable (receiveLoop tcp id n moves c).1.sock = [] := by
  induction n generalizing moves c with
  | zero => exact Iff.rfl
  | succ n ih =>
      unfold RoomFor
      generalize happ : (moves.headD .idle).apply c.st.toApp = toApp
      rcases @receiveLoop_succ _ tcp id laws n moves c toApp happ.symm with
        -- the receiver is gone, the channel is full, nothing is unread, or a chunk is taken
        ⟨hrx, h⟩ | ⟨hrx, hfull, h⟩ | ⟨hrx, -, hread, h⟩ | ⟨hrx, hroom, chunk, y, hread, -, -, -, h⟩
      · rw [h]
        simp [Conn.withApp, hrx]
      · rw [h]
        cases hread : tcp.readable c.sock with
        | nil => simp [Conn.withApp, hrx, hread]
        | cons chunk chunks => simp [Conn.withApp, hrx, hread, Nat.not_lt.mpr hfull]
      · rw [h, hread]
        simp [Conn.withApp, hrx, hread]
      · rw [h, hread]
        simp only [hrx, hroom, Bool.true_eq_false, false_or, true_and]
        exact ih moves.tail ⟨{ c.st with toApp := _ }, y⟩

/-- Chunks are not empty, so that nothing is unread only when no byte is. -/
theorem flatten_readable_eq_nil (x : σ) : (tcp.readable x).flatten = [] ↔ tcp.readable x = [] := by
  cases hread : tcp.readable x with
  | nil => simp
  | cons chunk chunks => simp [(laws.recv_readable hread).1]

/-- An orphan that is not aborted has its socket closed at most. -/
theorem orphan_same (appGone : Bool)
    (h : (orphan tcp id now linger appGone c).2.1 = false) :
    SameBuffer tcp c.sock (orphan tcp id now linger appGone c).1.sock := by
  cases appGone with
  | false => exact SameBuffer.refl tcp c.sock
  | true =>
      by_cases habort : tcp.canRecv c.sock = true ∨ linger ≤ now - c.st.orphanedAt.getD now
      · simp [orphan, habort] at h
      · simpa [orphan, habort, closeSocket] using laws.close_same c.sock

/-- Behind the receiving, with no abort, nothing is unread or nobody is there just when there was
room. -/
theorem receiving_roomFor
    (h : (receiving tcp id now linger moves c).2.1.2 = false) :
    RoomFor MAX_RECV_CHUNKS moves c.st.toApp (tcp.readable c.sock) ↔
      (receiving tcp id now linger moves c).1.st.toApp.rxOpen = false ∨
        tcp.readable (receiving tcp id now linger moves c).1.sock = [] := by
  rw [@receiveLoop_roomFor _ _ id laws]
  unfold receiving at h ⊢
  dsimp only at h ⊢
  rw [orphan_toApp, (orphan_same laws _ h).readable]

/-- **What an established round loses**: it is complete just when a connection that is over has room
for what is unread. -/
theorem serveEstablished_complete (hr : serveEstablished tcp id now linger moves c = some r)
    (hest : c.st.established = true) (haborted : c.st.aborted = false)
    (hopened : (tcp.stage c.sock).opened = true)
    (haccount : ¬tcp.broken c.sock →
      tcp.received c.sock = deliveredBytes id t ++ (tcp.readable c.sock).flatten) :
    Log.Each (fun before => complete tcp (t ++ before)) r.events ↔
      ((tcp.stage c.sock).finished = true → ¬tcp.broken c.sock →
        RoomFor MAX_RECV_CHUNKS moves c.st.toApp (tcp.readable c.sock)) := by
  obtain ⟨c₁, ev₁, hsend, c₂, backpressured, aborted, ev₂, hrecv, hend⟩ := serveEstablished_cases hr
  obtain ⟨hkeeps₁, hreads₁, happ₁, hread₁⟩ := sending_spec laws hsend
  have hkeeps₂ := @receiving_keeps _ tcp id laws now linger moves c₁
  have hreads₂ := @receiving_reads _ tcp id laws now linger moves c₁
  have hroom := @receiving_roomFor _ tcp id now linger moves c₁ laws
  have hgone := @receiving_aborted _ tcp id laws now linger moves c₁
  rw [hrecv] at hkeeps₂ hreads₂ hroom hgone
  rw [happ₁, hread₁] at hroom
  have hkeeps := hkeeps₁.trans hkeeps₂
  rcases hend with ⟨rfl, -, -, hev⟩ | ⟨rfl, -, -, hev⟩
  · -- aborted: the application is gone, and nothing is removed in this round
    have hloop := @receiveLoop_roomFor _ tcp id laws MAX_RECV_CHUNKS moves c₁
    have hrx : (receiveLoop tcp id MAX_RECV_CHUNKS moves c₁).1.st.toApp.rxOpen = false := by
      have := (hgone rfl).2
      have happ := @orphan_toApp _ tcp id (receiveLoop tcp id MAX_RECV_CHUNKS moves c₁).1 now linger
        (receiveLoop tcp id MAX_RECV_CHUNKS moves c₁).2.1.appGone
      unfold receiving at hrecv
      dsimp only at hrecv
      rw [← happ, (Prod.mk.inj hrecv).1]
      exact this
    rw [happ₁, hread₁] at hloop
    rw [hev]
    exact iff_of_true (each_complete_of_unremoved hkeeps.unremoved t) fun _ _ =>
      hloop.mpr (.inl hrx)
  -- not aborted: the round reads on, and then looks whether the connection is over
  · have hreads := hreads₁.trans (hreads₂ rfl)
    rcases @finish_cases _ tcp id _ (hkeeps.established hest) with
      ⟨hfin, -, -, hlast⟩ | ⟨hfin, -, -, hlast⟩
    · -- over: the entry goes, with whatever is unread
      have hfin₀ : (tcp.stage c.sock).finished = true := (hreads.opened hopened).2 hfin
      have hst : ∀ stage, (clearPending stage c₂).st.established = c₂.st.established ∧
          (clearPending stage c₂).st.aborted = c₂.st.aborted ∧
          (clearPending stage c₂).st.toApp = c₂.st.toApp := by
        intro stage
        unfold clearPending
        split <;> exact ⟨rfl, rfl, rfl⟩
      obtain ⟨hest₂, haborted₂, happ₂⟩ := hst (tcp.stage c₂.sock)
      -- complete means here that nothing is unread any more
      have hlost : ¬tcp.broken c.sock →
          (deliveredBytes id (t ++ (ev₁ ++ ev₂)) = tcp.received c₂.sock ↔
            tcp.readable c₂.sock = []) := by
        intro hunbroken
        rw [hreads.received, haccount hunbroken, ← hreads.unread, ← flatten_readable_eq_nil laws]
        simp [← List.append_assoc]
      rw [hev, hlast, Log.each_append]
      simp only [Log.each_cons, Log.each_nil, and_true, complete, List.append_nil]
      rw [hest₂, haborted₂, happ₂, hreads.aborted, haborted, hkeeps.established hest, hreads.broken]
      constructor
      -- either the application has hung up, or everything fitted into its channel
      · rintro ⟨-, hcomplete⟩ - hunbroken
        rw [hroom rfl]
        by_cases hrx : c₂.st.toApp.rxOpen = true
        · exact .inr ((hlost hunbroken).mp (hcomplete rfl rfl hrx hunbroken))
        · exact .inl (by simpa using hrx)
      · intro hroomFor
        refine ⟨each_complete_of_unremoved hkeeps.unremoved t, fun _ _ hrx hunbroken => ?_⟩
        refine (hlost hunbroken).mpr ?_
        rcases (hroom rfl).mp (hroomFor hfin₀ hunbroken) with hgone | hnil
        · rw [hrx] at hgone
          cases hgone
        · exact hnil
    · -- not over yet
      rw [hev, hlast]
      refine iff_of_true (each_complete_of_unremoved (hkeeps.trans closeWait_keeps).unremoved t) ?_
      intro hfin₀
      rw [hreads.finished hfin₀] at hfin
      cases hfin

/-- **What a round loses.** -/
theorem serveConn_complete (hr : serveConn tcp id now linger moves c = some r)
    {queued : List DataIn}
    (hopened : c.st.established = true → c.st.aborted = false → (tcp.stage c.sock).opened = true)
    (haccount : c.st.aborted = false → ¬tcp.broken c.sock →
      tcp.received c.sock = deliveredBytes id t ++ (tcp.readable c.sock).flatten) :
    Log.Each (fun before => complete tcp (t ++ before))
        (r.before ++ queued.map .queued ++ r.events) ↔
      (c.st.established = true → c.st.aborted = false → (tcp.stage c.sock).finished = true →
        ¬tcp.broken c.sock →
        RoomFor MAX_RECV_CHUNKS moves c.st.toApp (tcp.readable c.sock)) := by
  have hqueued : ∀ i st sock, Event.removed i st sock ∉ queued.map (Event.queued (σ := σ)) := by
    simp
  -- aborted before: the entry is dropped in the establishing half, and counts as nothing lost
  rcases serveConn_cases tcp hr with ⟨haborted, rfl⟩ | ⟨haborted, c₁, hestablish, hexit⟩
  · refine iff_of_true ?_ fun _ hnot => ?_
    · rw [Log.each_append]
      refine ⟨each_complete_of_unremoved ?_ t, ?_⟩
      · simp [drop]
      · simp [drop, complete, haborted]
    · rw [haborted] at hnot
      cases hnot
  · have hkeeps := @establish_keeps _ id c (tcp.stage c.sock)
    have hreads := @establish_reads _ tcp id c (tcp.stage c.sock)
    have hhow := @establish_established _ id c (tcp.stage c.sock)
    have hnothing := @establish_delivered _ id c (tcp.stage c.sock)
    have hsame := @establish_finished _ id c (tcp.stage c.sock)
    have hsock := @establish_sock _ id c (tcp.stage c.sock)
    rw [hestablish] at hkeeps hreads hhow hnothing hsame hsock
    have hbefore : ∀ i st sock, .removed i st sock ∉ r.before ++ queued.map .queued := by
      intro i st sock he
      rcases List.mem_append.mp he with he | he
      · exact hkeeps.unremoved i st sock he
      · exact hqueued i st sock he
    have hvacuous : c₁.st.established = false → ¬(c.st.established = true) := by
      intro hnot hest
      rw [hkeeps.established hest] at hnot
      cases hnot
    rw [Log.each_append, and_iff_right (each_complete_of_unremoved hbefore t)]
    -- refused, still waiting, or established
    rcases hexit with ⟨hnot, -, -, message, hev⟩ | ⟨hnot, -, -, hev⟩ | ⟨hest, r', hr', -, -, hev⟩
    · refine iff_of_true ?_ fun hest => absurd hest (hvacuous hnot)
      rw [hev]
      unfold refusal
      split <;> simp [complete, hnot]
    · refine iff_of_true ?_ fun hest => absurd hest (hvacuous hnot)
      rw [hev]
      exact Log.each_nil
    · have hopened₁ : (tcp.stage c₁.sock).opened = true := by
        rw [hsock]
        rcases hhow hest with hbefore | hnow
        · exact hopened hbefore haborted
        · exact TcpStage.opened_of_connected hnow
      -- no byte was delivered while establishing, so the account is the same
      have haccount₁ : ¬tcp.broken c₁.sock → tcp.received c₁.sock =
          deliveredBytes id (t ++ (r.before ++ queued.map .queued)) ++
            (tcp.readable c₁.sock).flatten := by
        rw [hsock]
        intro hunbroken
        simp [hnothing, deliveredBytes_queued, haccount haborted hunbroken]
      have hround := serveEstablished_complete laws hr' hest (hreads.aborted.trans haborted) hopened₁
        haccount₁
      simp only [← List.append_assoc] at hround ⊢
      rw [hev, hround, hsock]
      constructor
      -- only an established connection can be over in its own round
      · intro h hest₀ _ hfin
        have heq : c₁ = c := (Prod.mk.inj (hsame hfin)).1
        exact heq ▸ h hfin
      · intro h hfin
        have heq : c₁ = c := (Prod.mk.inj (hsame hfin)).1
        subst heq
        exact h hest haborted hfin

end Rounds

/-! ## The account -/

section Account

variable {σ υ : Type} {tcp : TcpOps σ} {max : Nat} {v v' : View σ} {l : Label σ υ}

/-- The account of the way down, for every connection that is not aborted. -/
structure Downloading (tcp : TcpOps σ) (v : View σ) : Prop where
  account : ∀ {id c}, v.conns id = some c → c.st.aborted = false → ¬tcp.broken c.sock →
    tcp.received c.sock = deliveredBytes id v.trace ++ (tcp.readable c.sock).flatten
  opened : ∀ {id c}, v.conns id = some c → c.st.established = true → c.st.aborted = false →
    (tcp.stage c.sock).opened = true

/-- The account looks at the socket of a connection, at two marks and at what was delivered. -/
theorem Downloading.congr (h : Downloading tcp v)
    (hdelivered : ∀ id, deliveredBytes id v'.trace = deliveredBytes id v.trace)
    (hconns : ∀ {id c'}, v'.conns id = some c' → ∃ c, v.conns id = some c ∧ c'.sock = c.sock ∧
      c'.st.established = c.st.established ∧ c'.st.aborted = c.st.aborted) : Downloading tcp v' where
  account hc' haborted hunbroken := by
    obtain ⟨c, hc, hsock, -, hsame⟩ := hconns hc'
    rw [hsock, hdelivered]
    exact h.account hc (hsame ▸ haborted) (hsock ▸ hunbroken)
  opened hc' hest haborted := by
    obtain ⟨c, hc, hsock, hest', hsame⟩ := hconns hc'
    rw [hsock]
    exact h.opened hc (hest' ▸ hest) (hsame ▸ haborted)

/-- What a message does to a connection is nothing to its way down. -/
theorem handleOn_marks (d : DataIn) {id : Nat} {c' : Conn σ}
    (h : (handleOn max v.conns d).1 id = some c') :
    ∃ c, v.conns id = some c ∧ c'.sock = c.sock ∧ c'.st.established = c.st.established ∧
      c'.st.aborted = c.st.aborted := by
  obtain ⟨c, hc, heq, -⟩ := handleOn_spec max v.conns d id h
  exact ⟨c, hc, by rw [heq], by rw [heq], by rw [heq]⟩

theorem Downloading.serve (laws : TcpLaws tcp) (h : Downloading tcp v) {now id linger : Nat}
    {moves : List Move} {c : Conn σ} {r : Served σ} {queued : List DataIn}
    (hc : v.conns id = some c) (hr : serveConn tcp id now linger moves c = some r) :
    Downloading tcp (v.served id r queued) := by
  have hevents := serveConn_ofService laws hr
  have hdelivered : ∀ i, deliveredBytes i (v.served id r queued).trace =
      deliveredBytes i v.trace ++ deliveredBytes i (r.before ++ r.events) := by
    intro i
    simp [View.served, deliveredBytes_queued]
  -- the served connection is the only one whose entry may have changed
  have hwhich : ∀ {i c'}, (v.served id r queued).conns i = some c' →
      (i = id ∧ r.removed = false ∧ c' = r.conn) ∨
        (v.conns i = some c' ∧ deliveredBytes i (r.before ++ r.events) = []) := by
    intro i c' hc'
    rcases update_eq_some hc' with ⟨rfl, hput⟩ | ⟨hi, hold⟩
    · cases hremoved : r.removed with
      | true => simp [hremoved] at hput
      | false =>
          simp only [hremoved, Bool.false_eq_true, if_false] at hput
          exact .inl ⟨rfl, rfl, (Option.some.inj hput).symm⟩
    · exact .inr ⟨hold, deliveredBytes_ofService hevents (Ne.symm hi)⟩
  refine ⟨fun hc' haborted hunbroken => ?_, fun hc' hest haborted => ?_⟩
  · rw [hdelivered]
    rcases hwhich hc' with ⟨rfl, hkept, rfl⟩ | ⟨hold, hnil⟩
    · have hreads := (serveConn_kept laws hr hkept).2 haborted
      rw [hreads.received, List.append_assoc, hreads.unread]
      exact h.account hc (hreads.aborted ▸ haborted) fun hbroken =>
        hunbroken (hreads.broken.mpr hbroken)
    · rw [hnil, List.append_nil]
      exact h.account hold haborted hunbroken
  · rcases hwhich hc' with ⟨rfl, hkept, rfl⟩ | ⟨hold, -⟩
    · have hreads := (serveConn_kept laws hr hkept).2 haborted
      exact serveConn_opened laws hr hkept
        (fun hest₀ => h.opened hc hest₀ (hreads.aborted ▸ haborted)) hest haborted
    · exact h.opened hold hest haborted

theorem Downloading.step (laws : TcpLaws tcp) (hfresh : Fresh v) (h : Downloading tcp v)
    (hstep : ViewStep tcp max v l v') : Downloading tcp v' := by
  cases hstep with
  | quiet => exact h
  | poll conns hpoll =>
      refine ⟨fun {id c'} hc' haborted hunbroken => ?_, fun {id c'} hc' hest haborted => ?_⟩
      · obtain ⟨c, hc, hst, hpolls⟩ := hpoll id c' hc'
        obtain ⟨hunbroken', fresh, hreceived, hreadable⟩ := laws.polls_keep hpolls hunbroken
        rw [hreceived, hreadable, ← List.append_assoc]
        exact congrArg (· ++ fresh) (h.account hc (hst ▸ haborted) hunbroken')
      · obtain ⟨c, hc, hst, hpolls⟩ := hpoll id c' hc'
        exact laws.polls_opened hpolls (h.opened hc (hst ▸ hest) (hst ▸ haborted))
  | serve linger c r queued hc hr hqueued => exact h.serve laws hc hr
  | opened c iface dst port keepalive hsock hpending hhalf hest haborted =>
      -- nothing has been received or delivered yet under the new id
      refine ⟨fun hc' haborted' hunbroken => ?_, fun hc' hest' haborted' => ?_⟩
      · rcases update_eq_some hc' with ⟨rfl, hput⟩ | ⟨-, hold⟩
        · obtain rfl := Option.some.inj hput
          obtain ⟨hreceived, hreadable⟩ := laws.connect_fresh hsock
          have hnone : deliveredBytes v.nextId v.trace = [] :=
            deliveredBytes_eq_nil fun e he heq => lt_irrefl _ (hfresh.trace e he _ heq)
          simp [hreceived, hreadable, hnone]
        · exact h.account hold haborted' hunbroken
      · rcases update_eq_some hc' with ⟨rfl, hput⟩ | ⟨-, hold⟩
        · obtain rfl := Option.some.inj hput
          rw [hest] at hest'
          cases hest'
        · exact h.opened hold hest' haborted'
  | touch id c toApp connectResp hc =>
      refine h.congr (fun _ => rfl) fun {i c'} hc' => ?_
      rcases update_eq_some hc' with ⟨rfl, hput⟩ | ⟨-, hold⟩
      · obtain rfl := Option.some.inj hput
        exact ⟨c, hc, rfl, rfl, rfl⟩
      · exact ⟨c', hold, rfl, rfl, rfl⟩
  | outside nextId events hnext houtside hids =>
      refine h.congr (fun i => ?_) fun {i c'} hc' => ⟨c', hc', rfl, rfl, rfl⟩
      simp [deliveredBytes_ofOutside houtside]
  | take d queue hdeferred hqueue =>
      refine h.congr (fun i => ?_) fun hc' => handleOn_marks d hc'
      simp [deliveredBytes, Event.deliveredFor]
  | retry =>
      refine h.congr (fun _ => rfl) fun {i c'} hc' => ?_
      rcases retry_single max hfresh.single with ⟨hretry, -⟩ | ⟨d, -, hretry⟩
      · rw [hretry] at hc'
        exact ⟨c', hc', rfl, rfl, rfl⟩
      · rw [hretry] at hc'
        exact handleOn_marks d hc'

/-- Only rounds on a connection close sockets or remove entries. -/
theorem ViewStep.fresh_log (hstep : ViewStep tcp max v l v')
    (hl : ∀ now id ids moves, l ≠ .serviceTcp now id ids moves) :
    ∃ fresh, v'.trace = v.trace ++ fresh ∧
      ∀ e ∈ fresh, Event.OfOutside e ∨ ∃ d, e = .dequeued d := by
  cases hstep with
  | quiet => exact ⟨[], (List.append_nil _).symm, by simp⟩
  | poll => exact ⟨[], (List.append_nil _).symm, by simp⟩
  | serve => exact absurd rfl (hl _ _ _ _)
  | opened => exact ⟨[], (List.append_nil _).symm, by simp⟩
  | touch => exact ⟨[], (List.append_nil _).symm, by simp⟩
  | outside nextId events hnext houtside hids => exact ⟨events, rfl, fun e he => .inl (houtside e he)⟩
  | take d => exact ⟨[.dequeued d], rfl, by simp⟩
  | retry => exact ⟨[], (List.append_nil _).symm, by simp⟩

end Account

/-! ## Runs -/

section Runs

variable {σ υ : Type} {tcp : TcpOps σ} {udp : UdpOps υ} {tuning : Tuning} {w : World σ υ}

/-- A connection whose socket is over, and not broken off, has room in its channel for all that is
unread when its round comes. -/
def DrainsInTime (tcp : TcpOps σ) (w : World σ υ) : Label σ υ → Prop
  | .serviceTcp _ id _ moves =>
      ∀ c, connOf w.stack id = some c → c.st.established = true → c.st.aborted = false →
        (tcp.stage c.sock).finished = true → ¬tcp.broken c.sock →
          RoomFor MAX_RECV_CHUNKS moves c.st.toApp (tcp.readable c.sock)
  | _ => True

theorem downloading_invariant (laws : TcpLaws tcp) :
    Runs.Invariant (idLoop tcp udp tuning) fun w : World σ υ =>
      Accounted w ∧ Downloading tcp (view w) :=
  (accounted_invariant laws).and
    (fun w h => by
      obtain ⟨iface, tcpLimits, rfl⟩ := h
      exact ⟨nofun, nofun⟩)
    fun w l w' h hdown hl hstep =>
      hdown.step laws h.fresh (step_view laws h.consistent h.senders hl.2 hl.1 hstep).1

/-- One step keeps the removals complete just when it meets the condition. -/
theorem complete_step (laws : TcpLaws tcp) {w' : World σ υ} {l : Label σ υ}
    (h : Accounted w) (hdown : Downloading tcp (view w))
    (hids : w.IdsLeft) (hl : enabled tcp udp l w) (hstep : step tcp udp tuning l w = some w')
    (hcomplete : Log.Each (complete tcp) w.trace) :
    Log.Each (complete tcp) w'.trace ↔ DrainsInTime tcp w l := by
  -- only the service of a connection removes one that was open
  by_cases hservice : ∃ now id ids moves, l = .serviceTcp now id ids moves
  · obtain ⟨now, id, ids, moves, rfl⟩ := hservice
    rcases (serviceTcp_served laws h.consistent h.senders hstep).1 with
      ⟨hnone, hview⟩ | ⟨c, r, queued, hc, hr, -, hview⟩
    · -- nothing to serve
      have htrace : w'.trace = w.trace := congrArg View.trace hview
      rw [htrace]
      refine iff_of_true hcomplete fun c hc => ?_
      rw [hnone] at hc
      cases hc
    · have htrace : w'.trace =
          w.trace ++ (r.before ++ queued.map .queued ++ r.events) := congrArg View.trace hview
      have hround := @serveConn_complete _ tcp id now w.stack.tcpLimits.orphanLinger moves c r
        w.trace laws hr queued
        (fun hest haborted => @Downloading.opened _ _ _ hdown id c hc hest haborted)
        (fun haborted hunbroken => @Downloading.account _ _ _ hdown id c hc haborted hunbroken)
      rw [htrace, Log.each_append, and_iff_right hcomplete, hround]
      constructor
      -- the connection of the step is the one that the condition speaks of
      · intro hroom c' hc'
        obtain rfl := Option.some.inj (hc.symm.trans hc')
        exact hroom
      · intro hdrains
        exact hdrains c hc
  · push Not at hservice
    obtain ⟨fresh, htrace, hfresh⟩ :=
      (step_view laws h.consistent h.senders hids hl hstep).1.fresh_log hservice
    have htrace' : w'.trace = w.trace ++ fresh := htrace
    have hunremoved : ∀ i st sock, .removed i st sock ∉ fresh := by
      intro i st sock he
      -- an event of a step that is no service is no removal
      rcases hfresh _ he with hout | ⟨d, hd⟩
      · exact hout
      · cases hd
    rw [htrace', Log.each_append, and_iff_right hcomplete]
    refine iff_of_true (each_complete_of_unremoved hunremoved w.trace) ?_
    cases l with
    | serviceTcp => exact absurd rfl (hservice _ _ _ _)
    | _ => trivial

/-- **Downloads are complete just as long as every finished connection has room**: in a run in which
the rounds meet `DrainsInTime`, and in which `next_id` does not wrap, no removal has lost a byte, and
the next step keeps it so just when it meets `DrainsInTime` too. -/
theorem download_complete_iff (laws : TcpLaws tcp)
    (h : Runs.Reach (idLoop tcp udp tuning) (DrainsInTime tcp) w) :
    Log.Each (complete tcp) w.trace ∧
      ∀ l w', (idLoop tcp udp tuning).enabled l w → step tcp udp tuning l w = some w' →
        (Log.Each (complete tcp) w'.trace ↔ DrainsInTime tcp w l) := by
  have hinvariant := (@downloading_invariant _ _ tcp udp tuning laws).reachable h.reachable
  have hcomplete : Log.Each (complete tcp) w.trace := by
    refine Runs.Reach.invariant (P := fun w => Log.Each (complete tcp) w.trace)
      (downloading_invariant laws) ?_ ?_ h
    · rintro w₀ ⟨iface, tcpLimits, rfl⟩
      exact Log.each_nil
    · intro w₀ l w' hQ hP hl hok hstep
      exact (complete_step laws hQ.1 hQ.2 hl.2 hl.1 hstep hP).mpr hok
  exact ⟨hcomplete, fun l w' hl hstep =>
    complete_step laws hinvariant.1 hinvariant.2 hl.2 hl.1 hstep hcomplete⟩

theorem spares_drainsInTime : Spares (DrainsInTime SimpleSocket.ops) := by
  intro w l h
  cases l with
  | serviceTcp => cases h
  | _ => trivial

/-- The peer sends a byte with its FIN to an application that has room for it, and acknowledges ours. -/
theorem download_complete_iff_read : ∃ w : World SimpleSocket Unit,
    (∃ st sock, w.trace = [.handed .tcp 1, .delivered 1 [0], .closed 1 [] false true] ++
      [.removed 1 st sock] ∧ st.toApp.queue = [[0]]) ∧ Log.Each (complete SimpleSocket.ops) w.trace := by
  have hstands := single_timer spares_drainsInTime
    (single_stands spares_drainsInTime trivial fun c hc hest => by
      obtain rfl := Option.some.inj hc
      cases hest)
  have hfin : SimpleSocket.ops.polls (quietSocket .established 0 [])
      (quietSocket .closeWait 1 [(0, [])]) :=
    ⟨fun h => h, fun _ => ⟨rfl, [(0, [])], rfl, rfl⟩⟩
  have hack : SimpleSocket.ops.polls (quietSocket .lastAck 1 []) (quietSocket .closed 1 []) :=
    ⟨fun h => h, fun _ => ⟨rfl, [], rfl, rfl⟩⟩
  have hclosing := single_timer spares_drainsInTime
    (single_round spares_drainsInTime hstands hfin rfl rfl rfl rfl fun c hc _ _ hfinished => by
      obtain rfl := Option.some.inj hc
      cases hfinished)
  have hremoved := single_served spares_drainsInTime hclosing hack rfl rfl rfl fun c hc _ _ _ _ => by
    obtain rfl := Option.some.inj hc
    exact .inr trivial
  exact ⟨_, ⟨_, _, rfl, rfl⟩, (download_complete_iff SimpleSocket.laws hremoved).1⟩

end Runs

/-! ## A run that loses a byte -/

section Idle

variable {σ : Type} {tcp : TcpOps σ} {id n : Nat} {c : Conn σ}

/-- With an idle application and a full channel, the loop stops. -/
theorem receiveLoop_full (h : c.st.toApp.tryReserve = .full) :
    receiveLoop tcp id (n + 1) [] c = (c, ⟨true, false⟩, []) := by
  have happ : (([] : List Move).headD .idle).apply c.st.toApp = c.st.toApp := rfl
  rw [receiveLoop, happ, h]

theorem receiveLoop_dry (h : c.st.toApp.tryReserve = .permit) (hdry : tcp.canRecv c.sock = false) :
    receiveLoop tcp id (n + 1) [] c = (c, ⟨false, false⟩, []) := by
  have happ : (([] : List Move).headD .idle).apply c.st.toApp = c.st.toApp := rfl
  rw [receiveLoop, happ, h]
  simp [hdry]

theorem receiveLoop_chunk {b : UInt8} {chunk : Bytes} {y : σ} (h : c.st.toApp.tryReserve = .permit)
    (hcan : tcp.canRecv c.sock = true) (hrecv : tcp.recv c.sock = (some (b :: chunk), y)) :
    receiveLoop tcp id (n + 1) [] c =
      (let next := receiveLoop tcp id n []
        ⟨{ c.st with toApp := c.st.toApp.push (b :: chunk) }, y⟩
      (next.1, next.2.1, .delivered id (b :: chunk) :: next.2.2)) := by
  have happ : (([] : List Move).headD .idle).apply c.st.toApp = c.st.toApp := rfl
  rw [receiveLoop, happ, h]
  simp [hcan, hrecv]

end Idle

/-- A connection that has received `k` bytes, one at a time, and whose application has taken none. -/
def untouchedConn (k : Nat) (sock : SimpleSocket) : Conn SimpleSocket :=
  standing ⟨List.replicate k [0], 128, true⟩ sock

theorem untouched_tryReserve (k : Nat) (sock : SimpleSocket) :
    (untouchedConn k sock).st.toApp.tryReserve = if k < 128 then .permit else .full := by
  split_ifs with hk
  · exact Channel.tryReserve_eq_permit.mpr ⟨rfl, by simpa [untouchedConn, standing] using hk⟩
  · exact Channel.tryReserve_eq_full.mpr ⟨rfl, by simpa [untouchedConn, standing] using hk⟩

/-- One more byte goes into the channel while there is room. -/
theorem untouched_receives {k : Nat} (hk : k < 128) :
    ∃ backpressured, receiveLoop SimpleSocket.ops 1 MAX_RECV_CHUNKS []
      (untouchedConn k (quietSocket .established (k + 1) [(0, [])])) =
      (untouchedConn (k + 1) (quietSocket .established (k + 1) []), ⟨backpressured, false⟩,
        [.delivered 1 [0]]) := by
  -- behind the byte the loop finds nothing more, or no room for more
  have hnext : ∃ backpressured, receiveLoop SimpleSocket.ops 1 127 []
      (untouchedConn (k + 1) (quietSocket .established (k + 1) [])) =
      (untouchedConn (k + 1) (quietSocket .established (k + 1) []), ⟨backpressured, false⟩, []) := by
    have hreserve := untouched_tryReserve (k + 1) (quietSocket .established (k + 1) [])
    split_ifs at hreserve
    · exact ⟨false, receiveLoop_dry hreserve rfl⟩
    · exact ⟨true, receiveLoop_full hreserve⟩
  obtain ⟨backpressured, hnext⟩ := hnext
  refine ⟨backpressured, ?_⟩
  have hreserve := untouched_tryReserve k (quietSocket .established (k + 1) [(0, [])])
  rw [if_pos hk] at hreserve
  have hpush : (untouchedConn k (quietSocket .established (k + 1) [(0, [])])).st.toApp.push [0] =
      ⟨List.replicate (k + 1) [0], 128, true⟩ := by
    simp [untouchedConn, standing, Channel.push, List.replicate_succ']
  have hchunks : MAX_RECV_CHUNKS = 127 + 1 := rfl
  rw [hchunks, receiveLoop_chunk hreserve rfl rfl, hpush]
  exact congrArg (fun next : Conn SimpleSocket × LoopEnd × List (Event SimpleSocket) =>
    (next.1, next.2.1, Event.delivered 1 [0] :: next.2.2)) hnext

theorem untouched_serves {k : Nat} (hk : k < 128) :
    ∃ r, serveConn SimpleSocket.ops 1 0 10000 []
        (untouchedConn k (quietSocket .established (k + 1) [(0, [])])) = some r ∧
      r.untaken = false ∧ r.removed = false ∧
      r.conn = untouchedConn (k + 1) (quietSocket .established (k + 1) []) ∧
      r.before ++ r.events = [.delivered 1 [0]] := by
  obtain ⟨backpressured, hloop⟩ := @untouched_receives k hk
  have hrecv : receiving SimpleSocket.ops 1 0 10000 []
      (untouchedConn k (quietSocket .established (k + 1) [(0, [])])) =
      (untouchedConn (k + 1) (quietSocket .established (k + 1) []), (backpressured, false),
        [.delivered 1 [0]]) := by
    unfold receiving
    rw [hloop]
    rfl
  have hserve : serveConn SimpleSocket.ops 1 0 10000 []
      (untouchedConn k (quietSocket .established (k + 1) [(0, [])])) =
      some { rest SimpleSocket.ops 1 0 10000 []
          (untouchedConn k (quietSocket .established (k + 1) [(0, [])]), []) with
        untaken := false
        before := [] } := rfl
  refine ⟨_, hserve, ?_⟩
  unfold rest
  rw [hrecv]
  exact ⟨rfl, rfl, rfl, rfl⟩

/-- A run in which the application takes nothing and its channel gets full. -/
theorem untouched_reachable (k : Nat) (hk : k ≤ 128) :
    ∃ senders trace, Runs.Reachable (simpleLoop ⟨128, 524288⟩)
        (single ⟨128, 524288⟩ (untouchedConn k (quietSocket .established k [])) 1 senders trace) ∧
      deliveredBytes 1 trace = List.replicate k 0 := by
  induction k with
  | zero =>
      have hstands := single_stands spares_true trivial trivial
      exact ⟨_, _, single_timer spares_true hstands, rfl⟩
  | succ k ih =>
      obtain ⟨senders, trace, hreach, hdelivered⟩ := ih (by omega)
      obtain ⟨r, hr, huntaken, hkept, hconn, hevents⟩ := @untouched_serves k (by omega)
      have hpolls : SimpleSocket.ops.polls (quietSocket .established k [])
          (quietSocket .established (k + 1) [(0, [])]) := by
        refine ⟨fun h => h, fun _ => ⟨rfl, [(0, [])], ?_, rfl⟩⟩
        exact List.replicate_succ'
      have hround := single_round spares_true hreach hpolls rfl hr huntaken hkept trivial
      rw [hconn, hevents] at hround
      refine ⟨_, trace ++ [.delivered 1 [0]], single_timer spares_true hround, ?_⟩
      rw [deliveredBytes_append, hdelivered, List.replicate_succ']
      rfl

/-- The socket with one more byte from the peer, which nobody reads. -/
def unreadSocket (stage : TcpStage) : SimpleSocket :=
  ⟨stage, 0, [(1, [])], List.replicate 128 0 ++ [1], false⟩

/-- With the channel full, a round reads nothing. -/
theorem untouched_full (sock : SimpleSocket) :
    receiving SimpleSocket.ops 1 0 10000 [] (untouchedConn 128 sock) =
      (untouchedConn 128 sock, (true, false), []) := by
  have hloop : receiveLoop SimpleSocket.ops 1 MAX_RECV_CHUNKS [] (untouchedConn 128 sock) =
      (untouchedConn 128 sock, ⟨true, false⟩, []) :=
    receiveLoop_full (untouched_tryReserve 128 sock)
  unfold receiving
  rw [hloop]
  rfl

/-- **A full channel loses a byte**: the peer's last byte and its FIN come while the channel is full,
and the connection is removed once its close is acknowledged, before the application has read. -/
theorem download_incomplete :
    ∃ w, Runs.Reachable (simpleLoop ⟨128, 524288⟩) w ∧
      ¬Log.Each (complete SimpleSocket.ops) w.trace := by
  obtain ⟨senders, trace, hreach, hdelivered⟩ := untouched_reachable 128 le_rfl
  -- the FIN, with a byte that stays in the socket: the loop closes its side at once
  have hfin : SimpleSocket.ops.polls (quietSocket .established 128 []) (unreadSocket .closeWait) :=
    ⟨fun h => h, fun _ => ⟨rfl, [(1, [])], rfl, rfl⟩⟩
  have hclosing : serveConn SimpleSocket.ops 1 0 10000 []
      (untouchedConn 128 (unreadSocket .closeWait)) = some
        ⟨untouchedConn 128 (unreadSocket .lastAck), false, false, true, [],
          [.closed 1 [] false true]⟩ := by
    have hserve : serveConn SimpleSocket.ops 1 0 10000 []
        (untouchedConn 128 (unreadSocket .closeWait)) =
        some { rest SimpleSocket.ops 1 0 10000 []
            (untouchedConn 128 (unreadSocket .closeWait), []) with
          untaken := false
          before := [] } := rfl
    rw [hserve]
    unfold rest
    rw [untouched_full]
    rfl
  have hwaiting := single_timer spares_true
    (single_round spares_true hreach hfin rfl hclosing rfl rfl trivial)
  -- the last acknowledgement: the socket is over, and the entry goes with it
  have hack : SimpleSocket.ops.polls (unreadSocket .lastAck) (unreadSocket .closed) :=
    ⟨fun h => h, fun _ => ⟨rfl, [], by simp [unreadSocket], rfl⟩⟩
  have hremoving : serveConn SimpleSocket.ops 1 0 10000 []
      (untouchedConn 128 (unreadSocket .closed)) = some
        ⟨untouchedConn 128 (unreadSocket .closed), false, true, true, [],
          [.removed 1 (untouchedConn 128 (unreadSocket .closed)).st (unreadSocket .closed)]⟩ := by
    have hserve : serveConn SimpleSocket.ops 1 0 10000 []
        (untouchedConn 128 (unreadSocket .closed)) =
        some { rest SimpleSocket.ops 1 0 10000 []
            (untouchedConn 128 (unreadSocket .closed), []) with
          untaken := false
          before := [] } := rfl
    rw [hserve]
    unfold rest
    rw [untouched_full]
    rfl
  obtain ⟨w, hw, htrace⟩ : ∃ w, Runs.Reachable (simpleLoop ⟨128, 524288⟩) w ∧
      w.trace = trace ++ [.closed 1 [] false true] ++
        [.removed 1 (untouchedConn 128 (unreadSocket .closed)).st (unreadSocket .closed)] :=
    ⟨_, single_served spares_true hwaiting hack rfl hremoving rfl trivial, rfl⟩
  refine ⟨w, hw, fun hcomplete => ?_⟩
  have hlast : deliveredBytes 1 (trace ++ [.closed 1 [] false true]) =
      (unreadSocket .closed).seen := hcomplete _ _ [] htrace rfl rfl rfl nofun
  have hlength := congrArg List.length hlast
  rw [deliveredBytes_append, hdelivered] at hlength
  simp [deliveredBytes, Event.deliveredFor, unreadSocket] at hlength

end Net
end AuroraVpn
