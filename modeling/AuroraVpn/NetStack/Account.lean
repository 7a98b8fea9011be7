import AuroraVpn.NetStack.Round
import AuroraVpn.NetStack.Trace

/-!
# Account — what a round does with the bytes of a connection

`Keeps` is the account of the way up: what has been passed to the socket and what is still pending
make up what was pending before.  `Reads` is the account of the way down: what has been delivered
and what is still unread make up what was unread before.  Each block of a round keeps both, up to
the one that aborts the connection (no account of the way down) and the one that clears `pending`
(no account of the way up, but then the entry is removed).
-/

namespace AuroraVpn
namespace Net

section Accounts

variable {σ : Type} (tcp : TcpOps σ) (id : Nat)

structure Keeps (c c' : Conn σ) (ev : List (Event σ)) : Prop where
  handle : c'.st.handle = c.st.handle
  localPort : c'.st.localPort = c.st.localPort
  ticket : c'.st.ticket = c.st.ticket
  halfClosed : c'.st.halfClosed = c.st.halfClosed
  established : c.st.established = true → c'.st.established = true
  sent : sentBytes id ev ++ c'.st.pending = c.st.pending
  events : ∀ e ∈ ev, Event.OfService id e
  unrefused : ∀ message, .refused message ∉ ev
  unremoved : ∀ i st sock, .removed i st sock ∉ ev

structure Reads (c c' : Conn σ) (ev : List (Event σ)) : Prop where
  received : tcp.received c'.sock = tcp.received c.sock
  broken : tcp.broken c'.sock ↔ tcp.broken c.sock
  unread : deliveredBytes id ev ++ (tcp.readable c'.sock).flatten =
    (tcp.readable c.sock).flatten
  opened : (tcp.stage c.sock).opened = true → (tcp.stage c'.sock).opened = true ∧
    ((tcp.stage c'.sock).finished = true → (tcp.stage c.sock).finished = true)
  finished : (tcp.stage c.sock).finished = true → (tcp.stage c'.sock).finished = true
  aborted : c'.st.aborted = c.st.aborted

variable {tcp id} {c c' c'' : Conn σ} {ev ev' : List (Event σ)}

theorem Keeps.trans (h : Keeps id c c' ev) (h' : Keeps id c' c'' ev') :
    Keeps id c c'' (ev ++ ev') where
  handle := h'.handle.trans h.handle
  localPort := h'.localPort.trans h.localPort
  ticket := h'.ticket.trans h.ticket
  halfClosed := h'.halfClosed.trans h.halfClosed
  established hc := h'.established (h.established hc)
  sent := by
    calc sentBytes id (ev ++ ev') ++ c''.st.pending
        -- the bytes of both parts go out one behind the other, and what is pending goes between
        = sentBytes id ev ++ (sentBytes id ev' ++ c''.st.pending) := by simp
      _ = sentBytes id ev ++ c'.st.pending := by rw [h'.sent]
      _ = c.st.pending := h.sent
  events e he := by
    rcases List.mem_append.mp he with he | he
    · exact h.events e he
    · exact h'.events e he
  unrefused message he := by
    rcases List.mem_append.mp he with he | he
    · exact h.unrefused message he
    · exact h'.unrefused message he
  unremoved i st sock he := by
    rcases List.mem_append.mp he with he | he
    · exact h.unremoved i st sock he
    · exact h'.unremoved i st sock he

theorem Reads.trans (h : Reads tcp id c c' ev) (h' : Reads tcp id c' c'' ev') :
    Reads tcp id c c'' (ev ++ ev') where
  received := h'.received.trans h.received
  broken := h'.broken.trans h.broken
  unread := by
    calc deliveredBytes id (ev ++ ev') ++ (tcp.readable c''.sock).flatten
        = deliveredBytes id ev ++ (deliveredBytes id ev' ++ (tcp.readable c''.sock).flatten) := by
          simp
      _ = deliveredBytes id ev ++ (tcp.readable c'.sock).flatten := by rw [h'.unread]
      _ = (tcp.readable c.sock).flatten := h.unread
  opened hc := by
    obtain ⟨hopen', hfin'⟩ := h'.opened (h.opened hc).1
    exact ⟨hopen', fun hfin => (h.opened hc).2 (hfin' hfin)⟩
  finished hfin := h'.finished (h.finished hfin)
  aborted := h'.aborted.trans h.aborted

theorem Keeps.refl (c : Conn σ) : Keeps id c c [] where
  handle := rfl
  localPort := rfl
  ticket := rfl
  halfClosed := rfl
  established := fun h => h
  sent := rfl
  events := by simp
  unrefused := by simp
  unremoved := by simp

/-- A block that leaves the socket alone and delivers nothing. -/
theorem Reads.of_sock (hsock : c'.sock = c.sock) (haborted : c'.st.aborted = c.st.aborted)
    (hev : deliveredBytes id ev = []) : Reads tcp id c c' ev where
  received := by rw [hsock]
  broken := by rw [hsock]
  unread := by rw [hsock, hev, List.nil_append]
  opened h := by
    rw [hsock]
    exact ⟨h, fun hfin => hfin⟩
  finished h := by
    rw [hsock]
    exact h
  aborted := haborted

/-- A block that leaves the buffer of the socket alone and delivers nothing. -/
theorem Reads.of_same (hsame : SameBuffer tcp c.sock c'.sock)
    (hopened : (tcp.stage c.sock).opened = true → (tcp.stage c'.sock).opened = true ∧
      ((tcp.stage c'.sock).finished = true → (tcp.stage c.sock).finished = true))
    (hfinished : (tcp.stage c.sock).finished = true → (tcp.stage c'.sock).finished = true)
    (haborted : c'.st.aborted = c.st.aborted) (hev : deliveredBytes id ev = []) :
    Reads tcp id c c' ev where
  received := hsame.received
  broken := hsame.broken
  unread := by rw [hsame.readable, hev, List.nil_append]
  opened := hopened
  finished := hfinished
  aborted := haborted

/-! ## The blocks -/

theorem establish_keeps (stage : TcpStage) :
    Keeps id c (establish id stage c).1 (establish id stage c).2.2 := by
  unfold establish
  split
  case isFalse => exact Keeps.refl c
  case isTrue =>
    -- all that differs is the answer to whoever asked
    split
    · split <;> constructor <;> simp [sentBytes, Event.sentFor, Event.OfService]
    · constructor <;> simp [sentBytes]
    · constructor <;> simp [sentBytes]

theorem establish_sock (stage : TcpStage) : (establish id stage c).1.sock = c.sock := by
  unfold establish
  split
  · split
    · split <;> rfl
    · rfl
    · rfl
  · rfl

theorem establish_aborted (stage : TcpStage) :
    (establish id stage c).1.st.aborted = c.st.aborted := by
  unfold establish
  split
  · split
    · split <;> rfl
    · rfl
    · rfl
  · rfl

theorem establish_delivered (stage : TcpStage) :
    deliveredBytes id (establish id stage c).2.2 = [] := by
  unfold establish
  split
  · split
    · split <;> simp [deliveredBytes, Event.deliveredFor]
    · rfl
    · rfl
  · rfl

theorem establish_reads (stage : TcpStage) :
    Reads tcp id c (establish id stage c).1 (establish id stage c).2.2 :=
  .of_sock (establish_sock stage) (establish_aborted stage) (establish_delivered stage)

section Laws

variable (laws : TcpLaws tcp)
include laws

/-- `pending.drain(0..sent)` does not panic. -/
theorem flushPending_isSome : (flushPending tcp id c).isSome = true := by
  unfold flushPending
  split
  case isTrue => rfl
  case isFalse =>
    have hle : ((tcp.sendSlice c.st.pending c.sock).1).getD 0 ≤ c.st.pending.length := by
      cases hsent : (tcp.sendSlice c.st.pending c.sock).1 with
      | none => exact Nat.zero_le _
      | some n => exact laws.sendSlice_le hsent
    simp [Nat.not_lt.mpr hle]

theorem flushPending_spec (h : flushPending tcp id c = some (c', ev)) :
    Keeps id c c' ev ∧ Reads tcp id c c' ev ∧ c'.st.toApp = c.st.toApp ∧
      tcp.stage c'.sock = tcp.stage c.sock ∧ tcp.readable c'.sock = tcp.readable c.sock := by
  unfold flushPending at h
  split at h
  case isTrue =>
    obtain ⟨rfl, rfl⟩ := Prod.mk.inj (Option.some.inj h)
    exact ⟨Keeps.refl c, .of_sock rfl rfl rfl, rfl, rfl, rfl⟩
  case isFalse =>
    dsimp only at h
    split at h
    case isTrue => cases h
    case isFalse =>
      obtain ⟨rfl, rfl⟩ := Prod.mk.inj (Option.some.inj h)
      have hsame := laws.sendSlice_same c.st.pending c.sock
      have hstage := laws.sendSlice_stage c.st.pending c.sock
      refine ⟨?_, ?_, rfl, hstage, hsame.readable⟩
      · constructor <;> simp [sentBytes, Event.sentFor, Event.OfService]
      · refine .of_same hsame (fun hopen => ?_) (fun hfin => hstage ▸ hfin) rfl
          (by simp [deliveredBytes, Event.deliveredFor])
        exact ⟨hstage ▸ hopen, fun hfin => hstage ▸ hfin⟩

theorem closeSocket_reads : Reads tcp id c (closeSocket tcp id c).1 (closeSocket tcp id c).2 :=
  .of_same (laws.close_same c.sock) laws.close_opened
    (fun hfin => by simpa [closeSocket, laws.close_finished hfin] using hfin) rfl
    (by simp [closeSocket, deliveredBytes, Event.deliveredFor])

omit laws in
theorem closeSocket_keeps : Keeps id c (closeSocket tcp id c).1 (closeSocket tcp id c).2 := by
  constructor <;> simp [closeSocket, sentBytes, Event.sentFor, Event.OfService]

theorem halfClose_reads : Reads tcp id c (halfClose tcp id c).1 (halfClose tcp id c).2 := by
  unfold halfClose
  split
  · exact closeSocket_reads laws
  · exact .of_sock rfl rfl rfl

omit laws in
theorem halfClose_keeps : Keeps id c (halfClose tcp id c).1 (halfClose tcp id c).2 := by
  unfold halfClose
  split
  · exact closeSocket_keeps
  · exact Keeps.refl c

theorem closeWait_reads : Reads tcp id c (closeWait tcp id c).1 (closeWait tcp id c).2 := by
  unfold closeWait
  split
  · exact closeSocket_reads laws
  · exact .of_sock rfl rfl rfl

omit laws in
theorem closeWait_keeps : Keeps id c (closeWait tcp id c).1 (closeWait tcp id c).2 := by
  unfold closeWait
  split
  · exact closeSocket_keeps
  · exact Keeps.refl c

omit laws in
theorem orphan_keeps (now linger : Nat) (appGone : Bool) :
    Keeps id c (orphan tcp id now linger appGone c).1 (orphan tcp id now linger appGone c).2.2 := by
  unfold orphan
  split
  · exact Keeps.refl c
  · dsimp only
    split
    · constructor <;> simp
    · constructor <;> simp [closeSocket, sentBytes, Event.sentFor, Event.OfService]

omit laws in
theorem orphan_toApp (now linger : Nat) (appGone : Bool) :
    (orphan tcp id now linger appGone c).1.st.toApp = c.st.toApp := by
  unfold orphan
  split
  · rfl
  · dsimp only
    split <;> rfl

omit laws in
/-- The flag says that the entry is marked as aborted, and only an application that is gone leads to
it. -/
theorem orphan_aborted (now linger : Nat) (appGone : Bool)
    (h : (orphan tcp id now linger appGone c).2.1 = true) :
    appGone = true ∧ (orphan tcp id now linger appGone c).1.st.aborted = true := by
  unfold orphan at h ⊢
  cases appGone with
  | false => cases h
  | true =>
      by_cases habort : tcp.canRecv c.sock = true ∨ linger ≤ now - c.st.orphanedAt.getD now
      · simp [habort]
      · simp [habort] at h

theorem orphan_reads (now linger : Nat) (appGone : Bool)
    (h : (orphan tcp id now linger appGone c).2.1 = false) :
    Reads tcp id c (orphan tcp id now linger appGone c).1
      (orphan tcp id now linger appGone c).2.2 := by
  cases appGone with
  | false => exact .of_sock rfl rfl rfl
  | true =>
      let st := { c.st with orphanedAt := some (c.st.orphanedAt.getD now) }
      have hmark : Reads tcp id c ⟨st, c.sock⟩ [] := .of_sock rfl rfl rfl
      by_cases habort : tcp.canRecv c.sock = true ∨ linger ≤ now - c.st.orphanedAt.getD now
      · simp [orphan, habort] at h
      · simpa [orphan, habort] using hmark.trans (closeSocket_reads laws)

/-! ## The receive loop -/

/-- The connection with another channel to its application. -/
def Conn.withApp (c : Conn σ) (toApp : Channel Bytes) : Conn σ :=
  ⟨{ c.st with toApp }, c.sock⟩

/-- One turn of the receive loop: the receiver is gone, the channel is full, there is nothing to
read, or the first chunk goes into the channel. -/
theorem receiveLoop_succ (n : Nat) (moves : List Move) (c : Conn σ) (toApp : Channel Bytes)
    (happ : toApp = (moves.headD .idle).apply c.st.toApp) :
    (toApp.rxOpen = false ∧
      receiveLoop tcp id (n + 1) moves c = (c.withApp toApp, ⟨false, true⟩, [])) ∨
    (toApp.rxOpen = true ∧ toApp.capacity ≤ toApp.queue.length ∧
      receiveLoop tcp id (n + 1) moves c = (c.withApp toApp, ⟨true, false⟩, [])) ∨
    (toApp.rxOpen = true ∧ toApp.queue.length < toApp.capacity ∧ tcp.readable c.sock = [] ∧
      receiveLoop tcp id (n + 1) moves c = (c.withApp toApp, ⟨false, false⟩, [])) ∨
    (toApp.rxOpen = true ∧ toApp.queue.length < toApp.capacity ∧
      ∃ chunk y, tcp.readable c.sock = chunk :: tcp.readable y ∧
        tcp.received y = tcp.received c.sock ∧ (tcp.broken y ↔ tcp.broken c.sock) ∧
        tcp.stage y = tcp.stage c.sock ∧
        receiveLoop tcp id (n + 1) moves c =
          (let next := receiveLoop tcp id n moves.tail
            ⟨{ c.st with toApp := toApp.push chunk }, y⟩
          (next.1, next.2.1, .delivered id chunk :: next.2.2))) := by
  rw [receiveLoop, ← happ]
  -- `try_reserve` comes first, so nothing is read off the socket without a place for it
  cases hreserve : toApp.tryReserve with
  | closed =>
      left
      exact ⟨Channel.tryReserve_eq_closed.mp hreserve, rfl⟩
  | full =>
      right; left
      obtain ⟨hopen, hfull⟩ := Channel.tryReserve_eq_full.mp hreserve
      exact ⟨hopen, hfull, rfl⟩
  | permit =>
      obtain ⟨hopen, hroom⟩ := Channel.tryReserve_eq_permit.mp hreserve
      right; right
      cases hread : tcp.readable c.sock with
      | nil =>
          left
          have hcan : tcp.canRecv c.sock = false := by
            rw [← Bool.not_eq_true, laws.canRecv_iff, hread]
            simp
          exact ⟨hopen, hroom, rfl, by simp [hcan, Conn.withApp]⟩
      -- one chunk is handed over, and the loop goes on with the next slot
      | cons chunk rest =>
          right
          have hcan : tcp.canRecv c.sock = true := by
            rw [laws.canRecv_iff, hread]
            simp
          obtain ⟨hne, y, hrecv, rfl, hreceived, hbroken, hstage⟩ := laws.recv_readable hread
          obtain ⟨b, chunk, rfl⟩ := List.exists_cons_of_ne_nil hne
          exact ⟨hopen, hroom, _, y, rfl, hreceived, hbroken, hstage, by simp [hcan, hrecv]⟩

theorem receiveLoop_keeps (n : Nat) (moves : List Move) (c : Conn σ) :
    Keeps id c (receiveLoop tcp id n moves c).1 (receiveLoop tcp id n moves c).2.2 := by
  induction n generalizing moves c with
  | zero => exact Keeps.refl c
  | succ n ih =>
      have hstop : ∀ toApp, Keeps id c (c.withApp toApp) [] := by
        intro toApp
        constructor <;> simp [Conn.withApp]
      rcases receiveLoop_succ laws n moves c _ rfl with
        ⟨-, h⟩ | ⟨-, -, h⟩ | ⟨-, -, -, h⟩ | ⟨-, -, chunk, y, -, -, -, -, h⟩
      · rw [h]; exact hstop _
      · rw [h]; exact hstop _
      · rw [h]; exact hstop _
      · rw [h]
        have hturn : ∀ toApp, Keeps id c ⟨{ c.st with toApp }, y⟩ [.delivered id chunk] := by
          intro toApp
          constructor <;> simp [sentBytes, Event.sentFor, Event.OfService]
        exact (hturn _).trans (ih moves.tail _)

theorem receiveLoop_reads (n : Nat) (moves : List Move) (c : Conn σ) :
    Reads tcp id c (receiveLoop tcp id n moves c).1 (receiveLoop tcp id n moves c).2.2 := by
  induction n generalizing moves c with
  | zero => exact .of_sock rfl rfl rfl
  | succ n ih =>
      rcases receiveLoop_succ laws n moves c _ rfl with
        ⟨-, h⟩ | ⟨-, -, h⟩ | ⟨-, -, -, h⟩ | ⟨-, -, chunk, y, hread, hreceived, hbroken, hstage, h⟩
      · rw [h]; exact .of_sock rfl rfl rfl
      · rw [h]; exact .of_sock rfl rfl rfl
      · rw [h]; exact .of_sock rfl rfl rfl
      · rw [h]
        have hturn : ∀ toApp, Reads tcp id c ⟨{ c.st with toApp }, y⟩ [.delivered id chunk] :=
          fun toApp =>
            { received := hreceived
              broken := hbroken
              unread := by simp [hread, deliveredBytes, Event.deliveredFor]
              opened := fun hopen => ⟨hstage ▸ hopen, fun hfin => hstage ▸ hfin⟩
              finished := fun hfin => hstage ▸ hfin
              aborted := rfl }
        exact (hturn _).trans (ih moves.tail _)

theorem receiveLoop_stage (n : Nat) (moves : List Move) (c : Conn σ) :
    tcp.stage (receiveLoop tcp id n moves c).1.sock = tcp.stage c.sock := by
  induction n generalizing moves c with
  | zero => rfl
  | succ n ih =>
      rcases receiveLoop_succ laws n moves c _ rfl with
        ⟨-, h⟩ | ⟨-, -, h⟩ | ⟨-, -, -, h⟩ | ⟨-, -, chunk, y, -, -, -, hstage, h⟩
      · rw [h]; rfl
      · rw [h]; rfl
      · rw [h]; rfl
      · rw [h]
        exact (ih moves.tail _).trans hstage

/-- The application is found to be gone only when its receiver is. -/
theorem receiveLoop_appGone (n : Nat) (moves : List Move) (c : Conn σ)
    (hgone : (receiveLoop tcp id n moves c).2.1.appGone = true) :
    (receiveLoop tcp id n moves c).1.st.toApp.rxOpen = false := by
  induction n generalizing moves c with
  | zero => cases hgone
  | succ n ih =>
      rcases receiveLoop_succ laws n moves c _ rfl with
        ⟨hrx, h⟩ | ⟨-, -, h⟩ | ⟨-, -, -, h⟩ | ⟨-, -, chunk, y, -, -, -, -, h⟩
      · rw [h]; exact hrx
      · rw [h] at hgone; cases hgone
      · rw [h] at hgone; cases hgone
      · rw [h] at hgone ⊢
        exact ih moves.tail _ hgone

/-! ## A whole round -/

theorem sending_isSome : (sending tcp id c).isSome = true := by
  obtain ⟨⟨c₁, ev₁⟩, h⟩ := Option.isSome_iff_exists.mp (@flushPending_isSome _ tcp id c laws)
  simp [sending, h]

omit laws in
theorem sending_cases (h : sending tcp id c = some (c', ev)) :
    ∃ c₁ ev₁, flushPending tcp id c = some (c₁, ev₁) ∧ c' = (halfClose tcp id c₁).1 ∧
      ev = ev₁ ++ (halfClose tcp id c₁).2 := by
  obtain ⟨⟨c₁, ev₁⟩, hflush, h⟩ := Option.bind_eq_some_iff.mp h
  simp only [Option.some.injEq, Prod.mk.injEq] at h
  exact ⟨c₁, ev₁, hflush, h.1.symm, h.2.symm⟩

theorem sending_spec (h : sending tcp id c = some (c', ev)) :
    Keeps id c c' ev ∧ Reads tcp id c c' ev ∧ c'.st.toApp = c.st.toApp ∧
      tcp.readable c'.sock = tcp.readable c.sock := by
  obtain ⟨c₁, ev₁, hflush, rfl, rfl⟩ := sending_cases h
  obtain ⟨hkeeps, hreads, happ, -, hread⟩ := flushPending_spec laws hflush
  refine ⟨hkeeps.trans halfClose_keeps, hreads.trans (halfClose_reads laws), ?_, ?_⟩
  · unfold halfClose
    split <;> exact happ
  · unfold halfClose
    split
    · exact (laws.close_same c₁.sock).readable.trans hread
    · exact hread

theorem receiving_keeps (now linger : Nat) (moves : List Move) (c : Conn σ) :
    Keeps id c (receiving tcp id now linger moves c).1
      (receiving tcp id now linger moves c).2.2 := by
  unfold receiving
  exact (receiveLoop_keeps laws _ _ _).trans (orphan_keeps now linger _)

theorem receiving_reads (now linger : Nat) (moves : List Move) (c : Conn σ)
    (h : (receiving tcp id now linger moves c).2.1.2 = false) :
    Reads tcp id c (receiving tcp id now linger moves c).1
      (receiving tcp id now linger moves c).2.2 := by
  unfold receiving at h ⊢
  exact (receiveLoop_reads laws _ _ _).trans (orphan_reads laws now linger _ h)

theorem receiving_aborted (now linger : Nat) (moves : List Move) (c : Conn σ)
    (h : (receiving tcp id now linger moves c).2.1.2 = true) :
    (receiving tcp id now linger moves c).1.st.aborted = true ∧
      (receiving tcp id now linger moves c).1.st.toApp.rxOpen = false := by
  unfold receiving at h ⊢
  obtain ⟨hgone, haborted⟩ := orphan_aborted now linger _ h
  refine ⟨haborted, ?_⟩
  rw [orphan_toApp]
  exact receiveLoop_appGone laws _ _ _ hgone

omit laws in
/-- The two ends of a round: over and removed, or kept, behind a peer that has closed. -/
theorem finish_cases (hest : c.st.established = true) :
    ((tcp.stage c.sock).finished = true ∧ (finish tcp id c).removed = true ∧
      (finish tcp id c).conn = clearPending (tcp.stage c.sock) c ∧
      (finish tcp id c).events =
        [.removed id (clearPending (tcp.stage c.sock) c).st c.sock]) ∨
    ((tcp.stage c.sock).finished = false ∧ (finish tcp id c).removed = false ∧
      (finish tcp id c).conn = (closeWait tcp id c).1 ∧
      (finish tcp id c).events = (closeWait tcp id c).2) := by
  have hclear : ∀ stage, (clearPending stage (closeWait tcp id c).1).st.established = true := by
    intro stage
    have := (@closeWait_keeps _ tcp id c).established hest
    unfold clearPending
    split <;> exact this
  cases hfin : (tcp.stage c.sock).finished with
  | true =>
      left
      -- a finished socket is not in CloseWait
      have hwait : closeWait tcp id c = (c, []) := by
        unfold closeWait
        rw [if_neg]
        intro hstage
        rw [hstage] at hfin
        cases hfin
      have hsock : ∀ stage, (clearPending stage c).sock = c.sock := by
        intro stage
        unfold clearPending
        split <;> rfl
      have hst := hclear (tcp.stage c.sock)
      rw [hwait] at hst
      simp [finish, hfin, hwait, hst, drop, hsock]
  | false =>
      right
      have hpending : ∀ c' : Conn σ, clearPending (tcp.stage c.sock) c' = c' := by
        intro c'
        unfold clearPending
        rw [if_neg]
        intro hstage
        rw [hstage] at hfin
        cases hfin
      simp [finish, hfin, keep, hpending]

omit laws in
theorem serveEstablished_cases {now linger : Nat} {moves : List Move} {r : Served σ}
    (h : serveEstablished tcp id now linger moves c = some r) :
    ∃ c₁ ev₁, sending tcp id c = some (c₁, ev₁) ∧ ∃ c₂ backpressured aborted ev₂,
      receiving tcp id now linger moves c₁ = (c₂, (backpressured, aborted), ev₂) ∧
      ((aborted = true ∧ r.removed = false ∧ r.conn = c₂ ∧ r.events = ev₁ ++ ev₂) ∨
        (aborted = false ∧ r.removed = (finish tcp id c₂).removed ∧
          r.conn = (finish tcp id c₂).conn ∧
          r.events = ev₁ ++ ev₂ ++ (finish tcp id c₂).events)) := by
  obtain ⟨⟨c₁, ev₁⟩, hsend, rfl⟩ := Option.map_eq_some_iff.mp h
  refine ⟨c₁, ev₁, hsend, ?_⟩
  unfold rest
  generalize receiving tcp id now linger moves (c₁, ev₁).1 = received
  obtain ⟨c₂, ⟨backpressured, aborted⟩, ev₂⟩ := received
  refine ⟨c₂, backpressured, aborted, ev₂, rfl, ?_⟩
  cases aborted with
  | true => exact .inl ⟨rfl, rfl, rfl, by simp [keep]⟩
  | false => exact .inr ⟨rfl, rfl, rfl, rfl⟩

section ServeConn

variable {now linger : Nat} {moves : List Move} {r : Served σ}

theorem serveEstablished_isSome :
    (serveEstablished tcp id now linger moves c).isSome = true := by
  rw [serveEstablished, Option.isSome_map]
  exact sending_isSome laws

/-- No round panics. -/
theorem serveConn_isSome : (serveConn tcp id now linger moves c).isSome = true := by
  unfold serveConn
  split
  · rfl
  · dsimp only
    split
    · rfl
    · split
      · split <;> rfl
      · rw [Option.bind_eq_bind, Option.isSome_bind]
        simp [serveEstablished_isSome laws]

/-- What an established round keeps, it keeps with both accounts, the one of the way down as long as
the connection is not aborted. -/
theorem serveEstablished_kept (h : serveEstablished tcp id now linger moves c = some r)
    (hest : c.st.established = true) (hkept : r.removed = false) :
    Keeps id c r.conn r.events ∧ (r.conn.st.aborted = false → Reads tcp id c r.conn r.events) := by
  obtain ⟨c₁, ev₁, hsend, c₂, backpressured, aborted, ev₂, hrecv, hend⟩ := serveEstablished_cases h
  obtain ⟨hkeeps₁, hreads₁, -, -⟩ := sending_spec laws hsend
  have hkeeps₂ := @receiving_keeps _ tcp id laws now linger moves c₁
  have hreads₂ := @receiving_reads _ tcp id laws now linger moves c₁
  rw [hrecv] at hkeeps₂ hreads₂
  have hest₂ := hkeeps₂.established (hkeeps₁.established hest)
  rcases hend with ⟨rfl, -, hconn, hev⟩ | ⟨rfl, hremoved, hconn, hev⟩
  · -- aborted: kept for one more round, without the account of the way down
    rw [hconn, hev]
    refine ⟨hkeeps₁.trans hkeeps₂, fun haborted => ?_⟩
    have hmarked := @receiving_aborted _ tcp id laws now linger moves c₁
    rw [hrecv] at hmarked
    rw [(hmarked rfl).1] at haborted
    cases haborted
  -- the round finished: the connection was removed, or it is kept with both accounts
  · rcases @finish_cases _ tcp id _ hest₂ with ⟨-, hgone, -, -⟩ | ⟨-, -, hc, he⟩
    · rw [hremoved, hgone] at hkept
      cases hkept
    · rw [hconn, hev, hc, he]
      exact ⟨(hkeeps₁.trans hkeeps₂).trans closeWait_keeps,
        fun _ => (hreads₁.trans (hreads₂ rfl)).trans (closeWait_reads laws)⟩

theorem serveEstablished_ofService (h : serveEstablished tcp id now linger moves c = some r)
    (hest : c.st.established = true) : ∀ e ∈ r.events, Event.OfService id e := by
  obtain ⟨c₁, ev₁, hsend, c₂, backpressured, aborted, ev₂, hrecv, hend⟩ := serveEstablished_cases h
  obtain ⟨hkeeps₁, -, -, -⟩ := sending_spec laws hsend
  have hkeeps₂ := @receiving_keeps _ tcp id laws now linger moves c₁
  rw [hrecv] at hkeeps₂
  have hkeeps := hkeeps₁.trans hkeeps₂
  have hlast : ∀ e ∈ (finish tcp id c₂).events, Event.OfService id e := by
    -- the end of a round says nothing but what belongs to its service
    rcases @finish_cases _ tcp id _ (hkeeps.established hest) with
      ⟨-, -, -, he⟩ | ⟨-, -, -, he⟩
    · rw [he]
      simp [Event.OfService]
    · rw [he]
      exact closeWait_keeps.events
  rcases hend with ⟨-, -, -, hev⟩ | ⟨-, -, -, hev⟩
  · rw [hev]
    exact hkeeps.events
  · rw [hev]
    intro e he
    rcases List.mem_append.mp he with he | he
    · exact hkeeps.events e he
    · exact hlast e he

/-- Whatever becomes of a connection, its round is about nothing else. -/
theorem serveConn_ofService (h : serveConn tcp id now linger moves c = some r) :
    ∀ e ∈ r.before ++ r.events, Event.OfService id e := by
  rcases serveConn_cases tcp h with ⟨-, rfl⟩ | ⟨-, c₁, hestablish, hexit⟩
  · simp [drop, Event.OfService]
  · have hbefore := (@establish_keeps _ id c (tcp.stage c.sock)).events
    rw [hestablish] at hbefore
    have hrefusal : ∀ message, ∀ e ∈ refusal c₁.st message ++ [.removed id c₁.st c₁.sock],
        Event.OfService id e := by
      intro message
      unfold refusal
      split <;> simp [Event.OfService]
    intro e he
    rcases List.mem_append.mp he with he | he
    · exact hbefore e he
    · rcases hexit with ⟨-, -, -, message, hev⟩ | ⟨-, -, -, hev⟩ | ⟨hest, r', hr', -, -, hev⟩
      · exact hrefusal message e (hev ▸ he)
      · rw [hev] at he
        cases he
      · exact serveEstablished_ofService laws hr' hest e (hev ▸ he)

/-- **A round that keeps a connection keeps both accounts**, the one of the way down as long as the
connection is not aborted. -/
theorem serveConn_kept (h : serveConn tcp id now linger moves c = some r)
    (hkept : r.removed = false) :
    Keeps id c r.conn (r.before ++ r.events) ∧
      (r.conn.st.aborted = false → Reads tcp id c r.conn (r.before ++ r.events)) := by
  rcases serveConn_cases tcp h with ⟨-, rfl⟩ | ⟨-, c₁, hestablish, hexit⟩
  · cases hkept
  · have hkeeps := @establish_keeps _ id c (tcp.stage c.sock)
    have hreads := @establish_reads _ tcp id c (tcp.stage c.sock)
    rw [hestablish] at hkeeps hreads
    rcases hexit with ⟨-, hgone, -, -⟩ | ⟨-, -, hconn, hev⟩ | ⟨hest, r', hr', hconn, hrem, hev⟩
    · rw [hgone] at hkept
      cases hkept
    · rw [hconn, hev, List.append_nil]
      exact ⟨hkeeps, fun _ => hreads⟩
    · obtain ⟨hkeeps', hreads'⟩ := serveEstablished_kept laws hr' hest (hrem ▸ hkept)
      rw [hconn, hev]
      exact ⟨hkeeps.trans hkeeps', fun haborted => hreads.trans (hreads' haborted)⟩

end ServeConn

end Laws

end Accounts

end Net
end AuroraVpn
