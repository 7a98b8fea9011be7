import AuroraVpn.NetStack.Download

/-!
# Close — when a socket is closed

Three blocks of a round close the socket: the half-close behind the last pending byte, the orphan,
and the answer to a peer that has closed its side.  `Due` says when a close cuts nothing off; the
first two blocks always keep to it, the third looks neither at `pending` nor at the application, and
`close_due_iff` says when it keeps to it all the same.
-/

namespace AuroraVpn
namespace Net

/-- A socket whose application still receives is closed when the application has asked for it and
nothing is pending, or when it has gone and all that it sent has been passed on. -/
def Due {σ : Type} (before : List (Event σ)) : Event σ → Prop
  | .closed id pending halfClosed rxOpen =>
      rxOpen = true → (halfClosed = true ∧ pending = []) ∨
        (.senderDropped .tcp id ∈ before ∧ sentBytes id before = bytesFor id (queuedLog before))
  | _ => True

/-- The application has dropped its receiver by the time that the channel is full, or that up to `n`
chunks have gone into it. -/
def Leaves : Nat → List Move → Channel Bytes → List Bytes → Prop
  | 0, _, toApp, _ => toApp.rxOpen = false
  | n + 1, moves, toApp, chunks =>
      let toApp := (moves.headD .idle).apply toApp
      toApp.rxOpen = false ∨
        match chunks with
        | [] => False
        | chunk :: chunks =>
            toApp.queue.length < toApp.capacity ∧ Leaves n moves.tail (toApp.push chunk) chunks

/-- The socket takes all of `pending`. -/
def TakesAll {σ : Type} (tcp : TcpOps σ) (pending : Bytes) (sock : σ) : Prop :=
  pending = [] ∨ (tcp.canSend sock = true ∧ (tcp.sendSlice pending sock).1 = some pending.length)

/-- A connection that stands while nobody waits for it any more. -/
def Untaken (st : TcpState) : Prop :=
  st.established = false ∧ st.fromStackRx = true ∧ ∀ resp, st.connectResp = some resp →
    resp.closed = true

section Rounds

variable {σ : Type} {tcp : TcpOps σ} {id now linger : Nat} {moves : List Move} {c c' : Conn σ}
  {r : Served σ} {t : List (Event σ)}

theorem each_due_of_unclosed {log : List (Event σ)}
    (h : ∀ i pending half rx, .closed i pending half rx ∉ log) (t : List (Event σ)) :
    Log.Each (fun before => Due (t ++ before)) log := by
  refine Log.each_of_forall fun e he before => ?_
  cases e with
  | closed i pending half rx => exact absurd he (h i pending half rx)
  | _ => trivial

/-! ## The blocks -/

theorem establish_unclosed (stage : TcpStage) :
    ∀ i pending half rx, .closed i pending half rx ∉ (establish id stage c).2.2 := by
  unfold establish
  split
  · split
    · split <;> simp
    · simp
    · simp
  · simp

/-- A connected socket leaves its connection established, and the receiver goes just when it was gone
or nobody waits for the connection. -/
theorem establish_connected (stage : TcpStage) (h : stage.connected = true) :
    (establish id stage c).1.st.established = true ∧
      ((establish id stage c).1.st.toApp = c.st.toApp ∧ ¬Untaken c.st ∨
        (establish id stage c).1.st.toApp = c.st.toApp.dropReceiver ∧ Untaken c.st) := by
  unfold establish Untaken
  cases hest : c.st.established with
  | true => simp [hest]
  | false =>
      simp only [h, Bool.not_false, Bool.and_self, if_true]
      cases hresp : c.st.connectResp with
      | none => cases hrx : c.st.fromStackRx <;> simp
      | some resp =>
          cases hrx : c.st.fromStackRx with
          | false => simp
          | true => cases hclosed : resp.closed <;> simp [hclosed]

/-- The half-close is due. -/
theorem halfClose_due :
    Log.Each (fun before => Due (t ++ before)) (halfClose tcp id c).2 := by
  unfold halfClose
  split
  case isTrue h =>
    simp only [Bool.and_eq_true, List.isEmpty_iff] at h
    simp [closeSocket, Due, h]
  case isFalse => exact Log.each_nil

theorem orphan_due (appGone : Bool) (hgone : appGone = true → c.st.toApp.rxOpen = false) :
    Log.Each (fun before => Due (t ++ before)) (orphan tcp id now linger appGone c).2.2 := by
  cases appGone with
  | false => exact Log.each_nil
  | true =>
      by_cases habort : tcp.canRecv c.sock = true ∨ linger ≤ now - c.st.orphanedAt.getD now
      · simp [orphan, habort]
      · simp [orphan, habort, closeSocket, Due, hgone rfl]

theorem establish_sent (stage : TcpStage) : sentBytes id (establish id stage c).2.2 = [] := by
  unfold establish
  split
  · split
    · split <;> rfl
    · rfl
    · rfl
  · rfl

/-- A receiver that is gone has left in time. -/
theorem leaves_of_gone {n : Nat} {toApp : Channel Bytes} {chunks : List Bytes}
    (h : toApp.rxOpen = false) : Leaves n moves toApp chunks := by
  cases n with
  | zero => exact h
  | succ n =>
      left
      unfold Move.apply
      split
      · rfl
      · exact h

variable (laws : TcpLaws tcp)
include laws

theorem receiveLoop_unclosed (n : Nat) (moves : List Move) (c : Conn σ) :
    ∀ i pending half rx, .closed i pending half rx ∉ (receiveLoop tcp id n moves c).2.2 := by
  induction n generalizing moves c with
  | zero => simp [receiveLoop]
  | succ n ih =>
      rcases receiveLoop_succ laws n moves c _ rfl with
        ⟨-, h⟩ | ⟨-, -, h⟩ | ⟨-, -, -, h⟩ | ⟨-, -, chunk, y, -, -, -, -, h⟩
      · rw [h]; simp
      · rw [h]; simp
      · rw [h]; simp
      · rw [h]
        intro i pending half rx he
        rcases List.mem_cons.mp he with he | he
        · cases he
        · exact ih _ _ _ _ _ _ he

theorem receiveLoop_leaves (n : Nat) (moves : List Move) (c : Conn σ) :
    Leaves n moves c.st.toApp (tcp.readable c.sock) ↔
      (receiveLoop tcp id n moves c).1.st.toApp.rxOpen = false := by
  induction n generalizing moves c with
  | zero => exact Iff.rfl
  | succ n ih =>
      unfold Leaves
      generalize happ : (moves.headD .idle).apply c.st.toApp = toApp
      rcases @receiveLoop_succ _ tcp id laws n moves c toApp happ.symm with
        ⟨hrx, h⟩ | ⟨hrx, hfull, h⟩ | ⟨hrx, -, hread, h⟩ | ⟨hrx, hroom, chunk, y, hread, -, -, -, h⟩
      · rw [h]
        simp [Conn.withApp, hrx]
      · rw [h]
        cases hread : tcp.readable c.sock with
        | nil => simp [Conn.withApp, hrx]
        | cons chunk chunks => simp [Conn.withApp, hrx, Nat.not_lt.mpr hfull]
      · rw [h, hread]
        simp [Conn.withApp, hrx]
      · rw [h, hread]
        simp only [hrx, hroom, Bool.true_eq_false, false_or, true_and]
        exact ih moves.tail ⟨{ c.st with toApp := _ }, y⟩

/-- What the loop leaves alone. -/
theorem receiveLoop_same (n : Nat) (moves : List Move) (c : Conn σ) :
    (receiveLoop tcp id n moves c).1.st.pending = c.st.pending ∧
      (receiveLoop tcp id n moves c).1.st.halfClosed = c.st.halfClosed ∧
      sentBytes id (receiveLoop tcp id n moves c).2.2 = [] := by
  induction n generalizing moves c with
  | zero => exact ⟨rfl, rfl, rfl⟩
  | succ n ih =>
      rcases receiveLoop_succ laws n moves c _ rfl with
        ⟨-, h⟩ | ⟨-, -, h⟩ | ⟨-, -, -, h⟩ | ⟨-, -, chunk, y, -, -, -, -, h⟩
      · rw [h]; exact ⟨rfl, rfl, rfl⟩
      · rw [h]; exact ⟨rfl, rfl, rfl⟩
      · rw [h]; exact ⟨rfl, rfl, rfl⟩
      · rw [h]
        exact ih moves.tail _

/-- The flush leaves nothing just when the socket takes all. -/
theorem flushPending_takesAll {ev : List (Event σ)} (h : flushPending tcp id c = some (c', ev)) :
    (c'.st.pending = [] ↔ TakesAll tcp c.st.pending c.sock) ∧
      ∀ i pending half rx, .closed i pending half rx ∉ ev := by
  unfold flushPending at h
  unfold TakesAll
  split at h
  -- nothing is to be sent, or the socket does not take anything now
  case isTrue hidle =>
    obtain ⟨rfl, rfl⟩ := Prod.mk.inj (Option.some.inj h)
    simp only [Bool.or_eq_true, Bool.not_eq_true', List.isEmpty_iff] at hidle
    refine ⟨?_, by simp⟩
    rcases hidle with hidle | hidle
    · simp [hidle]
    · simp [hidle]
  case isFalse hbusy =>
    simp only [Bool.or_eq_true, Bool.not_eq_true', List.isEmpty_iff, not_or, Bool.not_eq_false]
      at hbusy
    obtain ⟨hcan, hpending⟩ := hbusy
    dsimp only at h
    split at h
    -- `drain(..n)` past the end would panic
    case isTrue => cases h
    case isFalse hle =>
      obtain ⟨rfl, rfl⟩ := Prod.mk.inj (Option.some.inj h)
      refine ⟨?_, by simp⟩
      have hpos : 0 < c.st.pending.length := List.length_pos_iff.mpr hpending
      cases hsent : (tcp.sendSlice c.st.pending c.sock).1 with
      | none => simp [hpending]
      | some n =>
          have hn : n ≤ c.st.pending.length := laws.sendSlice_le hsent
          simp only [Option.getD_some, List.drop_eq_nil_iff, hpending, hcan, Option.some.injEq,
            false_or, true_and]
          exact ⟨fun hge => le_antisymm hn hge, fun heq => heq.ge⟩

omit laws in
/-- The end of a round keeps to it just when the answer to the peer's close does. -/
theorem finish_due (hest : c.st.established = true) :
    Log.Each (fun before => Due (t ++ before)) (finish tcp id c).events ↔
      (tcp.stage c.sock = .closeWait →
        Due t (.closed id c.st.pending c.st.halfClosed c.st.toApp.rxOpen : Event σ)) := by
  rcases @finish_cases _ tcp id c hest with ⟨hfin, -, -, hev⟩ | ⟨-, -, -, hev⟩
  · rw [hev]
    refine iff_of_true (each_due_of_unclosed (by simp) t) fun hstage => ?_
    rw [hstage] at hfin
    cases hfin
  · rw [hev]
    unfold closeWait
    split
    case isTrue hstage => simp [closeSocket, hstage]
    case isFalse hstage => exact iff_of_true Log.each_nil fun h => absurd h hstage

/-! ## A whole round -/

/-- Sending leaves what the socket does not take, and closes only when it is due. -/
theorem sending_due {ev : List (Event σ)} (h : sending tcp id c = some (c', ev)) :
    (c'.st.pending = [] ↔ TakesAll tcp c.st.pending c.sock) ∧
      Log.Each (fun before => Due (t ++ before)) ev ∧
      (tcp.stage c'.sock = tcp.stage c.sock ∨ (c.st.halfClosed = true ∧ c'.st.pending = [])) := by
  obtain ⟨f, evf, hflush, rfl, rfl⟩ := sending_cases h
  obtain ⟨hkeeps, -, -, hstage, -⟩ := flushPending_spec laws hflush
  obtain ⟨htakes, hunclosed⟩ := flushPending_takesAll laws hflush
  have hst : (halfClose tcp id f).1.st = f.st := by
    unfold halfClose
    split <;> rfl
  refine ⟨by rw [hst]; exact htakes, ?_, ?_⟩
  · rw [Log.each_append]
    simp only [← List.append_assoc]
    exact ⟨each_due_of_unclosed hunclosed t, halfClose_due⟩
  · rw [hst]
    unfold halfClose
    split
    case isTrue hhalf =>
      simp only [Bool.and_eq_true, List.isEmpty_iff] at hhalf
      exact .inr ⟨hkeeps.halfClosed ▸ hhalf.1, hhalf.2⟩
    case isFalse => exact .inl hstage

theorem receiving_due :
    Log.Each (fun before => Due (t ++ before)) (receiving tcp id now linger moves c).2.2 := by
  unfold receiving
  dsimp only
  rw [Log.each_append]
  simp only [← List.append_assoc]
  exact ⟨each_due_of_unclosed (receiveLoop_unclosed laws _ _ _) t,
    orphan_due _ (receiveLoop_appGone laws _ _ _)⟩

/-- Receiving leaves `pending` alone, and the stage too unless the receiver is gone. -/
theorem receiving_same :
    (receiving tcp id now linger moves c).1.st.pending = c.st.pending ∧
      (Leaves MAX_RECV_CHUNKS moves c.st.toApp (tcp.readable c.sock) ↔
        (receiving tcp id now linger moves c).1.st.toApp.rxOpen = false) ∧
      (tcp.stage (receiving tcp id now linger moves c).1.sock = tcp.stage c.sock ∨
        Leaves MAX_RECV_CHUNKS moves c.st.toApp (tcp.readable c.sock)) ∧
      ((receiving tcp id now linger moves c).2.1.2 = true →
        Leaves MAX_RECV_CHUNKS moves c.st.toApp (tcp.readable c.sock)) := by
  have hleaves := @receiveLoop_leaves _ tcp id laws MAX_RECV_CHUNKS moves c
  have hgone := @receiveLoop_appGone _ tcp id laws MAX_RECV_CHUNKS moves c
  have hstage := @receiveLoop_stage _ tcp id laws MAX_RECV_CHUNKS moves c
  have hloop := @receiveLoop_same _ tcp id laws MAX_RECV_CHUNKS moves c
  unfold receiving
  -- the four facts are read off the one loop, so the loop is generalized once
  generalize receiveLoop tcp id MAX_RECV_CHUNKS moves c = loop at hleaves hgone hstage hloop ⊢
  obtain ⟨l, ended, ev⟩ := loop
  dsimp only at hleaves hgone hstage hloop ⊢
  have hpending : (orphan tcp id now linger ended.appGone l).1.st.pending = l.st.pending := by
    unfold orphan
    split
    · rfl
    · dsimp only
      split <;> rfl
  refine ⟨hpending.trans hloop.1, by rw [orphan_toApp]; exact hleaves, ?_, fun haborted => ?_⟩
  · cases happ : ended.appGone with
    | false => exact .inl hstage
    | true => exact .inr (hleaves.mpr (hgone happ))
  · exact hleaves.mpr (hgone (orphan_aborted now linger _ haborted).1)

omit laws in
/-- Both ways of asking for a close want nothing pending. -/
theorem and_or_and {H P D O : Prop} : (H ∧ P ∨ D ∧ P ∧ O) ↔ P ∧ (H ∨ D ∧ O) := by
  tauto

/-- **Which closes of an established round are due**: the answer to the peer's close is, just when the
receiver leaves in time, or the socket takes all of `pending` and the application has closed its side
or is gone with nothing left to come. -/
theorem serveEstablished_due (hr : serveEstablished tcp id now linger moves c = some r)
    (hest : c.st.established = true) {outstanding : Bytes}
    (haccount : bytesFor id (queuedLog t) = sentBytes id t ++ (c.st.pending ++ outstanding)) :
    Log.Each (fun before => Due (t ++ before)) r.events ↔
      (tcp.stage c.sock = .closeWait →
        Leaves MAX_RECV_CHUNKS moves c.st.toApp (tcp.readable c.sock) ∨
        (TakesAll tcp c.st.pending c.sock ∧ (c.st.halfClosed = true ∨
          (.senderDropped .tcp id ∈ t ∧ outstanding = [])))) := by
  obtain ⟨c₁, ev₁, hsend, c₂, backpressured, aborted, ev₂, hrecv, hend⟩ := serveEstablished_cases hr
  obtain ⟨hkeeps₁, -, happ₁, hread₁⟩ := sending_spec laws hsend
  obtain ⟨htakes, hdue₁, hstage₁⟩ := @sending_due _ tcp id c c₁ t laws ev₁ hsend
  have hkeeps₂ := @receiving_keeps _ tcp id laws now linger moves c₁
  have hdue₂ := @receiving_due _ tcp id now linger moves c₁ (t ++ ev₁) laws
  obtain ⟨hpending₂, hleaves, hstage₂, hgone⟩ :=
    @receiving_same _ tcp id now linger moves c₁ laws
  rw [hrecv] at hkeeps₂ hdue₂ hpending₂ hleaves hstage₂ hgone
  dsimp only at hkeeps₂ hdue₂ hpending₂ hleaves hstage₂ hgone
  rw [happ₁, hread₁] at hleaves hstage₂ hgone
  have hkeeps := hkeeps₁.trans hkeeps₂
  have hdue : Log.Each (fun before => Due (t ++ before)) (ev₁ ++ ev₂) := by
    rw [Log.each_append]
    simp only [← List.append_assoc]
    exact ⟨hdue₁, hdue₂⟩
  rcases hend with ⟨rfl, -, -, hev⟩ | ⟨rfl, -, -, hev⟩
  · rw [hev]
    exact iff_of_true hdue fun _ => .inl (hgone rfl)
  · -- nothing but the last close can be out of order
    have hlast : Due (t ++ (ev₁ ++ ev₂))
        (.closed id c₂.st.pending c₂.st.halfClosed c₂.st.toApp.rxOpen : Event σ) ↔
        Leaves MAX_RECV_CHUNKS moves c.st.toApp (tcp.readable c.sock) ∨
        (TakesAll tcp c.st.pending c.sock ∧ (c.st.halfClosed = true ∨
          (.senderDropped .tcp id ∈ t ∧ outstanding = []))) := by
      have hdropped : (.senderDropped .tcp id ∈ t ++ (ev₁ ++ ev₂)) ↔
          (.senderDropped .tcp id ∈ t) := by
        rw [List.mem_append, or_iff_left]
        exact fun he => hkeeps.events _ he
      have hall : sentBytes id (t ++ (ev₁ ++ ev₂)) = bytesFor id (queuedLog (t ++ (ev₁ ++ ev₂))) ↔
          c₂.st.pending = [] ∧ outstanding = [] := by
        rw [sentBytes_append, queuedLog_append, queuedLog_ofService hkeeps.events, List.append_nil,
          haccount, ← hkeeps.sent, List.append_right_inj, List.append_assoc,
          List.self_eq_append_right, List.append_eq_nil_iff]
      simp only [Due, hdropped, hall]
      rw [hkeeps.halfClosed, ← htakes, ← hpending₂, hleaves, and_or_and]
      cases c₂.st.toApp.rxOpen <;> simp
    rw [hev, Log.each_append, and_iff_right hdue]
    simp only [← List.append_assoc]
    rw [List.append_assoc, finish_due (hkeeps.established hest), hlast]
    -- the stage is the one before the round, unless the close is due anyway
    constructor
    · intro h hwait
      rcases hstage₂ with hsame₂ | hleave
      · rcases hstage₁ with hsame₁ | ⟨hhalf, hnil⟩
        · exact h ((hsame₂.trans hsame₁).trans hwait)
        · exact .inr ⟨htakes.mp hnil, .inl hhalf⟩
      · exact .inl hleave
    · intro h hwait
      rcases hstage₂ with hsame₂ | hleave
      · rcases hstage₁ with hsame₁ | ⟨hhalf, hnil⟩
        · exact h ((hsame₂.trans hsame₁).symm.trans hwait)
        · exact .inr ⟨htakes.mp hnil, .inl hhalf⟩
      · exact .inl hleave

/-- **Which closes of a round are due.** -/
theorem serveConn_due (hr : serveConn tcp id now linger moves c = some r)
    {queued : List DataIn} (hqueued : bytesFor id queued = []) {outstanding : Bytes}
    (haccount : bytesFor id (queuedLog t) = sentBytes id t ++ (c.st.pending ++ outstanding)) :
    Log.Each (fun before => Due (t ++ before)) (r.before ++ queued.map .queued ++ r.events) ↔
      (c.st.aborted = false → tcp.stage c.sock = .closeWait →
        Untaken c.st ∨ Leaves MAX_RECV_CHUNKS moves c.st.toApp (tcp.readable c.sock) ∨
        (TakesAll tcp c.st.pending c.sock ∧ (c.st.halfClosed = true ∨
          (.senderDropped .tcp id ∈ t ∧ outstanding = [])))) := by
  rcases serveConn_cases tcp hr with ⟨haborted, rfl⟩ | ⟨haborted, c₁, hestablish, hexit⟩
  · refine iff_of_true (each_due_of_unclosed ?_ t) fun hnot => ?_
    · simp [drop]
    · rw [haborted] at hnot
      cases hnot
  · have hkeeps := @establish_keeps _ id c (tcp.stage c.sock)
    have hunclosed := @establish_unclosed _ id c (tcp.stage c.sock)
    have hconnected := @establish_connected _ id c (tcp.stage c.sock)
    have hsent := @establish_sent _ id c (tcp.stage c.sock)
    have hsock := @establish_sock _ id c (tcp.stage c.sock)
    rw [hestablish] at hkeeps hunclosed hconnected hsent hsock
    dsimp only at hkeeps hunclosed hconnected hsent hsock
    -- the establishing half of the round closes nothing
    have hbefore : ∀ i pending half rx,
        .closed i pending half rx ∉ r.before ++ queued.map .queued := by
      intro i pending half rx he
      rcases List.mem_append.mp he with he | he
      · exact hunclosed i pending half rx he
      · simp at he
    have hstands : tcp.stage c.sock = .closeWait → (tcp.stage c.sock).connected = true := by
      intro hwait
      rw [hwait]
      rfl
    -- a socket that waits for our close is connected, so it has been seen established by now
    have hvacuous : c₁.st.established = false → tcp.stage c.sock ≠ .closeWait := by
      intro hnot hwait
      rw [(hconnected (hstands hwait)).1] at hnot
      cases hnot
    rw [Log.each_append, and_iff_right (each_due_of_unclosed hbefore t)]
    -- refused, or still waiting: both end the round without a close
    rcases hexit with ⟨hnot, -, -, message, hev⟩ | ⟨hnot, -, -, hev⟩ | ⟨hest, r', hr', -, -, hev⟩
    · refine iff_of_true ?_ fun _ hwait => absurd hwait (hvacuous hnot)
      rw [hev]
      unfold refusal
      split <;> simp [Due]
    · refine iff_of_true ?_ fun _ hwait => absurd hwait (hvacuous hnot)
      rw [hev]
      exact Log.each_nil
    · have hpending : c₁.st.pending = c.st.pending := by
        have := hkeeps.sent
        rwa [hsent, List.nil_append] at this
      have hdropped : (.senderDropped .tcp id ∈ t ++ (r.before ++ queued.map .queued)) ↔
          (.senderDropped .tcp id ∈ t) := by
        rw [List.mem_append, or_iff_left]
        intro he
        rcases List.mem_append.mp he with he | he
        · exact hkeeps.events _ he
        · simp at he
      -- the account holds in the middle of the round as well: what was sent is what left `pending`
      have haccount₁ : bytesFor id (queuedLog (t ++ (r.before ++ queued.map .queued))) =
          sentBytes id (t ++ (r.before ++ queued.map .queued)) ++ (c₁.st.pending ++ outstanding) := by
        simp only [queuedLog_append, bytesFor_append, sentBytes_append, queuedLog_queued,
          queuedLog_ofService hkeeps.events, hsent, sentBytes_queued, hqueued, hpending, haccount,
          bytesFor_nil, List.append_nil]
      have hround := serveEstablished_due laws hr' hest haccount₁
      simp only [← List.append_assoc] at hround hdropped ⊢
      rw [hev, hround, hdropped, hsock, hpending, hkeeps.halfClosed]
      constructor
      · intro h _ hwait
        rcases (hconnected (hstands hwait)).2 with ⟨hsame, -⟩ | ⟨-, huntaken⟩
        · exact .inr (hsame ▸ h hwait)
        -- the establishing half found that nobody takes the answer
        · exact .inl huntaken
      · intro h hwait
        rcases (hconnected (hstands hwait)).2 with ⟨hsame, htaken⟩ | ⟨hgone, -⟩
        · exact hsame ▸ (h haborted hwait).resolve_left htaken
        · exact .inl (leaves_of_gone (by rw [hgone]; rfl))

end Rounds

/-! ## Runs -/

section Runs

variable {σ υ : Type} {tcp : TcpOps σ} {udp : UdpOps υ} {tuning : Tuning} {w : World σ υ}

/-- When the peer of a connection has closed its side by the time of its round: nobody waits for the
connection, or its receiver leaves in time, or its socket takes all of `pending` and the application
has closed its side, or is gone with nothing left to come. -/
def DueInTime (tcp : TcpOps σ) (w : World σ υ) : Label σ υ → Prop
  | .serviceTcp _ id _ moves =>
      ∀ c, connOf w.stack id = some c → c.st.aborted = false → tcp.stage c.sock = .closeWait →
        Untaken c.st ∨ Leaves MAX_RECV_CHUNKS moves c.st.toApp (tcp.readable c.sock) ∨
        (TakesAll tcp c.st.pending c.sock ∧ (c.st.halfClosed = true ∨
          (.senderDropped .tcp id ∈ w.trace ∧
            bytesFor id w.deferred ++ bytesFor id w.stack.dataIn.queue = [])))
  | _ => True

/-- One step keeps the closes due just when it meets the condition. -/
theorem due_step (laws : TcpLaws tcp) {w' : World σ υ} {l : Label σ υ} (h : Accounted w)
    (hids : w.IdsLeft) (hl : enabled tcp udp l w) (hstep : step tcp udp tuning l w = some w')
    (hdue : Log.Each Due w.trace) : Log.Each Due w'.trace ↔ DueInTime tcp w l := by
  by_cases hservice : ∃ now id ids moves, l = .serviceTcp now id ids moves
  · obtain ⟨now, id, ids, moves, rfl⟩ := hservice
    rcases (serviceTcp_served laws h.consistent h.senders hstep).1 with
      ⟨hnone, hview⟩ | ⟨c, r, queued, hc, hr, hqueued, hview⟩
    · -- nothing to serve
      have htrace : w'.trace = w.trace := congrArg View.trace hview
      rw [htrace]
      refine iff_of_true hdue fun c hc => ?_
      rw [hnone] at hc
      cases hc
    · have htrace : w'.trace =
          w.trace ++ (r.before ++ queued.map .queued ++ r.events) := congrArg View.trace hview
      have hnil : bytesFor id queued = [] := by
        rcases hqueued with rfl | ⟨-, rfl⟩
        · rfl
        · rfl
      -- what is queued and not yet taken counts as outstanding
      have haccount : bytesFor id (queuedLog w.trace) = sentBytes id w.trace ++
          (c.st.pending ++ (bytesFor id w.deferred ++ bytesFor id w.stack.dataIn.queue)) := by
        have hfifo : queuedLog w.trace = dequeuedLog w.trace ++ w.stack.dataIn.queue :=
          h.uploading.fifo
        have hmoved : sentBytes id w.trace ++ (c.st.pending ++ bytesFor id w.deferred) =
            bytesFor id (dequeuedLog w.trace) := @Uploading.account _ _ h.uploading id c hc
        rw [hfifo, bytesFor_append, ← hmoved]
        simp only [List.append_assoc]
      have hround := @serveConn_due _ tcp id now w.stack.tcpLimits.orphanLinger moves c r w.trace
        laws hr queued hnil _ haccount
      rw [htrace, Log.each_append, and_iff_right hdue, hround]
      constructor
      · intro h c' hc'
        obtain rfl := Option.some.inj (hc.symm.trans hc')
        exact h
      · intro h
        exact h c hc
  -- every other step leaves the sockets alone, and closes none of them
  · push Not at hservice
    obtain ⟨fresh, htrace, hfresh⟩ :=
      (step_view laws h.consistent h.senders hids hl hstep).1.fresh_log hservice
    have htrace' : w'.trace = w.trace ++ fresh := htrace
    have hunclosed : ∀ i pending half rx, .closed i pending half rx ∉ fresh := by
      intro i pending half rx he
      rcases hfresh _ he with hout | ⟨d, hd⟩
      · exact hout
      · cases hd
    rw [htrace', Log.each_append, and_iff_right hdue]
    refine iff_of_true (each_due_of_unclosed hunclosed w.trace) ?_
    cases l with
    | serviceTcp => exact absurd rfl (hservice _ _ _ _)
    | _ => trivial

/-- **Sockets are closed when it is due just as long as the peers that close first find nothing left
to send**: in a run in which the rounds meet `DueInTime`, and in which `next_id` does not wrap, every
close is due, and the next step keeps it so just when it meets `DueInTime` too. -/
theorem close_due_iff (laws : TcpLaws tcp)
    (h : Runs.Reach (idLoop tcp udp tuning) (DueInTime tcp) w) :
    Log.Each Due w.trace ∧
      ∀ l w', (idLoop tcp udp tuning).enabled l w → step tcp udp tuning l w = some w' →
        (Log.Each Due w'.trace ↔ DueInTime tcp w l) := by
  have hinvariant := (@accounted_invariant _ _ tcp udp tuning laws).reachable h.reachable
  have hdue : Log.Each Due w.trace := by
    refine Runs.Reach.invariant (P := fun w => Log.Each Due w.trace)
      (accounted_invariant laws) ?_ ?_ h
    · rintro w₀ ⟨iface, tcpLimits, rfl⟩
      exact Log.each_nil
    · intro w₀ l w' hQ hP hl hok hstep
      exact (due_step laws hQ hl.2 hl.1 hstep hP).mpr hok
  exact ⟨hdue, fun l w' hl hstep => due_step laws hinvariant hl.2 hl.1 hstep hdue⟩

theorem spares_dueInTime : Spares (DueInTime SimpleSocket.ops) := by
  intro w l h
  cases l with
  | serviceTcp => cases h
  | _ => trivial

/-- The peer closes its side first, to an application that has sent a byte and closed its own, and the
socket takes the byte. -/
theorem close_due_iff_sent : ∃ w : World SimpleSocket Unit,
    w.trace = [.handed .tcp 1, .queued (.tcp 1 [7]), .dequeued (.tcp 1 [7]), .queued (.tcpClose 1),
      .dequeued (.tcpClose 1)] ++ [.sent 1 [7], .closed 1 [] true true] ∧ Log.Each Due w.trace := by
  have hstands := single_stands spares_dueInTime trivial fun c hc _ hwait => by
    obtain rfl := Option.some.inj hc
    cases hwait
  have hgiven := single_given (d := .tcp 1 [7]) spares_dueInTime hstands rfl (by decide) rfl
  have hquiet : SimpleSocket.ops.polls (quietSocket .established 0 []) (quietSocket .established 0 []) :=
    ⟨fun h => h, fun _ => ⟨rfl, [], rfl, rfl⟩⟩
  have hround := single_round spares_dueInTime hgiven hquiet rfl rfl rfl rfl fun c hc _ hwait => by
    obtain rfl := Option.some.inj hc
    cases hwait
  have hclosing := single_given (d := .tcpClose 1) spares_dueInTime hround rfl (by decide) rfl
  have hfin : SimpleSocket.ops.polls (quietSocket .established 0 [])
      ⟨.closeWait, 1, [], [], false⟩ :=
    ⟨fun h => h, fun _ => ⟨rfl, [], rfl, rfl⟩⟩
  have hserved := single_served spares_dueInTime hclosing hfin rfl rfl rfl fun c hc _ _ => by
    obtain rfl := Option.some.inj hc
    exact .inr (.inr ⟨.inr ⟨rfl, rfl⟩, .inl rfl⟩)
  exact ⟨_, rfl, (close_due_iff SimpleSocket.laws hserved).1⟩

end Runs

/-! ## A run that closes too early -/

/-- **Pending bytes are cut off**: the transmit window is full, a byte waits in `pending`, the
application has closed nothing, and the peer's FIN makes the loop close the socket. -/
theorem close_undue :
    ∃ w, Runs.Reachable (simpleLoop ⟨128, 524288⟩) w ∧ ¬Log.Each Due w.trace := by
  have hstands := single_stands spares_true trivial trivial
  have hgiven := single_given (d := .tcp 1 [7]) spares_true hstands rfl (by decide) rfl
  -- the FIN, with no room to send
  have hfin : SimpleSocket.ops.polls (quietSocket .established 0 []) (quietSocket .closeWait 0 []) :=
    ⟨fun h => h, fun _ => ⟨rfl, [], rfl, rfl⟩⟩
  obtain ⟨w, hw, htrace⟩ : ∃ w, Runs.Reachable (simpleLoop ⟨128, 524288⟩) w ∧
      w.trace = [.handed .tcp 1, .queued (.tcp 1 [7]), .dequeued (.tcp 1 [7])] ++
        [.closed 1 [7] false true] :=
    ⟨_, single_served spares_true hgiven hfin rfl rfl rfl trivial, rfl⟩
  refine ⟨w, hw, fun hdue => ?_⟩
  have hlast := hdue _ _ [] htrace rfl
  simp at hlast

end Net
end AuroraVpn
