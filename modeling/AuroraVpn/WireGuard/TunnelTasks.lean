import AuroraVpn.WireGuard.Tunnel

/-!
# TunnelTasks — what each task of a tunnel keeps

Each task keeps a log of what it did; nothing here depends on what the other tasks do meanwhile.

* `RecvTask.Kept.moves`, `SendTask.Kept.moves`: no packet is lost, doubled or overtaken in either direction.
* `RecvTask.Failing.moves`: when the socket is given up.
* `SendTask.Staged.moves`: where the noise stands between the messages.
-/

namespace AuroraVpn
namespace WireGuard
namespace Tunnel

open Draws Noise

variable {clientId : List.Vector UInt8 3} {env : Env} {now : Nat} {held inboundOpen : Bool}

/-! ## The reserved bytes -/

/-- A message of the protocol has these bytes behind its type. -/
def Reserved (reserved : List.Vector UInt8 3) (pkt : Bytes) : Prop :=
  ∀ first, pkt.head? = some first → 4 ≤ pkt.length → WG_MSG_TYPE_MIN ≤ first → first ≤ WG_MSG_TYPE_MAX →
    (pkt.drop 1).take 3 = reserved.toList

theorem reserved_setReserved (reserved : List.Vector UInt8 3) (pkt : Bytes) :
    Reserved reserved (setReserved reserved pkt) := by
  intro first hfirst hlength hmin hmax
  unfold setReserved at hfirst hlength ⊢
  split at hfirst
  next b _ _ _ rest =>
    split_ifs at hfirst hlength ⊢ with hother
    · cases hfirst
      rcases hother with hother | hother
      · exact absurd hmin (UInt8.not_le.2 hother)
      · exact absurd hmax (UInt8.not_le.2 hother)
    · rw [List.cons_append, List.drop_succ_cons, List.drop_zero]
      exact List.take_left' reserved.toList_length
  next hshort =>
    -- a packet of four bytes or more begins with four
    obtain ⟨a, b, c, d, rest, rfl⟩ : ∃ a b c d rest, pkt = a :: b :: c :: d :: rest := by
      match pkt, hlength with
      | a :: b :: c :: d :: rest, _ => exact ⟨a, b, c, d, rest, rfl⟩
    exact absurd rfl (hshort a b c d rest)

/-! ## What comes in -/

namespace RecvTask

variable {t t' : RecvTask}

/-- The datagrams of the socket. -/
def datagrams (log : List RecvEvent) : List Bytes :=
  log.flatMap fun
    | .received (.datagram bytes) => if bytes = [] then [] else [bytes]
    | _ => []

/-- What boringtun was given. -/
def inputs (log : List RecvEvent) : List Bytes :=
  log.flatMap fun
    | .decapsulated _ datagram _ => [datagram]
    | _ => []

/-- What boringtun wants to be sent. -/
def answers (log : List RecvEvent) : List Bytes :=
  log.flatMap fun
    | .decapsulated _ _ (.writeToNetwork pkt) => [pkt]
    | _ => []

/-- The packets for the application. -/
def packets (log : List RecvEvent) : List Bytes :=
  log.flatMap fun
    | .decapsulated _ _ (.writeToTunnel pkt) => [pkt]
    | _ => []

def sent (log : List RecvEvent) : List Bytes :=
  log.flatMap fun
    | .sent pkt => [pkt]
    | _ => []

/-- The datagram that waits for the session. -/
def waiting : RecvPc → List Bytes
  | .locking datagram => [datagram]
  | _ => []

def answering : RecvPc → List Bytes
  | .answering pkt => [pkt]
  | _ => []

def handing : RecvPc → List Bytes
  | .handing pkt => [pkt]
  | _ => []

/-- Everything goes where it belongs, in its order. -/
structure Kept (clientId : List.Vector UInt8 3) (inboundOpen : Bool) (t : RecvTask) : Prop where
  inputs : (datagrams t.log).map stripClientId = inputs t.log ++ waiting t.pc
  answers : (answers t.log).map (injectClientId · clientId) = sent t.log ++ answering t.pc
  handed : inboundOpen = true → packets t.log = t.inbound ++ handing t.pc
  in_order : t.inbound <+: packets t.log

/-- How many errors have come since the last datagram, as far as they pass. -/
def countFailure (n : Nat) : RecvEvent → Nat
  | .received (.datagram bytes) => if bytes = [] then n else 0
  | .received (.failed error) => if isTransientSocketError error then n + 1 else n
  | _ => n

def failures (log : List RecvEvent) : Nat :=
  log.foldl countFailure 0

/-- An error that does not pass. -/
def isFatal : RecvEvent → Bool
  | .received (.failed error) => !isTransientSocketError error
  | _ => false

/-- The task ends over the errors of the socket, and over nothing else. -/
structure Failing (t : RecvTask) : Prop where
  counted : t.transientErrors = failures t.log
  ended_iff : t.pc = .ended ↔ t.log.any isFatal = true ∨ MAX_TRANSIENT_RECV_ERRORS < failures t.log

/-- When boringtun last took a datagram for one of the peer's. -/
def heard (time : Nat) : RecvEvent → Nat
  | .decapsulated _ _ .err => time
  | .decapsulated now _ _ => now
  | _ => time

def lastHeard (log : List RecvEvent) : Nat :=
  log.foldl heard 0

/-- What a turn of the task does. -/
inductive Moves (clientId : List.Vector UInt8 3) (now : Nat) (inboundOpen : Bool) (t : RecvTask) : RecvTask → Prop
  | empty (hpc : t.pc = .receiving) : Moves clientId now inboundOpen t (t.note (.received (.datagram [])))
  | datagram (bytes : Bytes) (hpc : t.pc = .receiving) (hsome : bytes ≠ []) :
      Moves clientId now inboundOpen t
        { t.note (.received (.datagram bytes)) with transientErrors := 0, pc := .locking (stripClientId bytes) }
  | transient (error : SocketError) (hpc : t.pc = .receiving) (herror : isTransientSocketError error = true)
      (hfew : t.transientErrors < MAX_TRANSIENT_RECV_ERRORS) :
      Moves clientId now inboundOpen t
        { t.note (.received (.failed error)) with
            transientErrors := t.transientErrors + 1
            pc := .resting (now + TRANSIENT_RECV_BACKOFF) }
  | tooMany (error : SocketError) (hpc : t.pc = .receiving) (herror : isTransientSocketError error = true)
      (hmany : MAX_TRANSIENT_RECV_ERRORS ≤ t.transientErrors) :
      Moves clientId now inboundOpen t
        { t.note (.received (.failed error)) with transientErrors := t.transientErrors + 1, pc := .ended }
  | fatal (error : SocketError) (hpc : t.pc = .receiving) (herror : isTransientSocketError error = false) :
      Moves clientId now inboundOpen t { t.note (.received (.failed error)) with pc := .ended }
  | done (datagram : Bytes) (hpc : t.pc = .locking datagram) :
      Moves clientId now inboundOpen t
        { t.note (.decapsulated now datagram .done) with lastValidRx := now, pc := .receiving }
  | refused (datagram : Bytes) (hpc : t.pc = .locking datagram) :
      Moves clientId now inboundOpen t { t.note (.decapsulated now datagram .err) with pc := .receiving }
  | network (datagram pkt : Bytes) (hpc : t.pc = .locking datagram) :
      Moves clientId now inboundOpen t
        { t.note (.decapsulated now datagram (.writeToNetwork pkt)) with
            lastValidRx := now
            pc := .answering (injectClientId pkt clientId) }
  | tunnel (datagram pkt : Bytes) (hpc : t.pc = .locking datagram) :
      Moves clientId now inboundOpen t
        { t.note (.decapsulated now datagram (.writeToTunnel pkt)) with lastValidRx := now, pc := .handing pkt }
  | answer (pkt : Bytes) (hpc : t.pc = .answering pkt) :
      Moves clientId now inboundOpen t { t.note (.sent pkt) with pc := .receiving }
  | hand (pkt : Bytes) (hpc : t.pc = .handing pkt) : Moves clientId now inboundOpen t (t.hand pkt inboundOpen)
  | rested (until_ : Nat) (hpc : t.pc = .resting until_) :
      Moves clientId now inboundOpen t { t with pc := .receiving }

@[simp] theorem note_transientErrors (event : RecvEvent) : (t.note event).transientErrors = t.transientErrors := rfl

theorem turn_moves (h : t.turn clientId env now held inboundOpen = some t') :
    Moves clientId now inboundOpen t t' := by
  unfold turn at h
  -- by the place in the code, and by what the call there answered
  split at h
  next hpc =>
    cases h
    unfold RecvTask.received
    rcases hanswer : env.received with ⟨_ | ⟨b, bytes⟩⟩ | error
    · exact .empty hpc
    · exact .datagram _ hpc (List.cons_ne_nil _ _)
    · dsimp only
      -- an error of the socket passes, comes too often, or is for good
      split_ifs with htransient hmany
      · exact .tooMany error hpc htransient (Nat.le_of_lt_succ hmany)
      · exact .transient error hpc htransient (Nat.lt_of_succ_le (Nat.not_lt.1 hmany))
      · exact .fatal error hpc (Bool.eq_false_iff.2 htransient)
  next datagram hpc =>
    split_ifs at h
    cases h
    unfold RecvTask.decapsulated
    cases env.answer with
    | done => exact .done datagram hpc
    | err => exact .refused datagram hpc
    | writeToNetwork pkt => exact .network datagram pkt hpc
    | writeToTunnel pkt => exact .tunnel datagram pkt hpc
  next pkt hpc =>
    cases h
    exact .answer pkt hpc
  next pkt hpc =>
    cases h
    exact .hand pkt hpc
  next until_ hpc =>
    split_ifs at h
    cases h
    exact .rested until_ hpc
  next => cases h

theorem Kept.close (h : Kept clientId inboundOpen t) : Kept clientId false t where
  inputs := h.inputs
  answers := h.answers
  handed hopen := by cases hopen
  in_order := h.in_order

/-- What is noted accounts for what the task holds at one await and at the next. -/
structure Passes (clientId : List.Vector UInt8 3) (pc : RecvPc) (event : RecvEvent) (pc' : RecvPc) : Prop where
  inputs : waiting pc ++ (datagrams [event]).map stripClientId = RecvTask.inputs [event] ++ waiting pc'
  answers : answering pc ++ (RecvTask.answers [event]).map (injectClientId · clientId) = sent [event] ++ answering pc'
  packets : handing pc ++ RecvTask.packets [event] = handing pc'

theorem Kept.note {pc pc' : RecvPc} {event : RecvEvent} {errors time : Nat} (h : Kept clientId inboundOpen t)
    (hpc : t.pc = pc) (hpasses : Passes clientId pc event pc') :
    Kept clientId inboundOpen { t.note event with pc := pc', transientErrors := errors, lastValidRx := time } where
  inputs := by
    -- what came in is what was read, and the datagram that is being read
    calc (datagrams (t.log ++ [event])).map stripClientId
        = (datagrams t.log).map stripClientId ++ (datagrams [event]).map stripClientId := by
          rw [datagrams, List.flatMap_append, List.map_append]
          rfl
      _ = RecvTask.inputs t.log ++ (waiting pc ++ (datagrams [event]).map stripClientId) := by
          rw [h.inputs, hpc, List.append_assoc]
      _ = RecvTask.inputs (t.log ++ [event]) ++ waiting pc' := by
          rw [hpasses.inputs, ← List.append_assoc, RecvTask.inputs, RecvTask.inputs, ← List.flatMap_append]
          rfl
  answers := by
    calc (RecvTask.answers (t.log ++ [event])).map (injectClientId · clientId)
        = (RecvTask.answers t.log).map (injectClientId · clientId) ++
            (RecvTask.answers [event]).map (injectClientId · clientId) := by
          rw [RecvTask.answers, List.flatMap_append, List.map_append]
          rfl
      _ = sent t.log ++ (answering pc ++ (RecvTask.answers [event]).map (injectClientId · clientId)) := by
          rw [h.answers, hpc, List.append_assoc]
      _ = sent (t.log ++ [event]) ++ answering pc' := by
          rw [hpasses.answers, ← List.append_assoc, sent, sent, ← List.flatMap_append]
          rfl
  handed hopen := by
    -- what came out is what was handed on, and the packet at hand
    calc packets (t.log ++ [event]) = packets t.log ++ packets [event] := by
          rw [packets, List.flatMap_append]
          rfl
      _ = t.inbound ++ handing pc' := by rw [h.handed hopen, hpc, List.append_assoc, hpasses.packets]
  in_order := by
    have hmore : packets (t.log ++ [event]) = packets t.log ++ packets [event] := by
      rw [packets, List.flatMap_append]
      rfl
    exact h.in_order.trans (hmore ▸ List.prefix_append _ _)

theorem Kept.hand {pkt : Bytes} (h : Kept clientId inboundOpen t) (hpc : t.pc = .handing pkt) :
    Kept clientId inboundOpen (t.hand pkt inboundOpen) := by
  obtain ⟨hinputs, hanswers, hhanded, horder⟩ := h
  rw [hpc] at hinputs hanswers hhanded
  cases inboundOpen with
  | false => exact ⟨hinputs, hanswers, fun hopen => absurd hopen (by decide), horder⟩
  | true =>
      refine ⟨hinputs, hanswers, fun _ => ?_, ?_⟩
      · exact (hhanded rfl).trans (List.append_nil _).symm
      · exact (hhanded rfl) ▸ List.prefix_rfl

theorem Kept.moves (h : Kept clientId inboundOpen t) (hmoves : Moves clientId now inboundOpen t t') :
    Kept clientId inboundOpen t' := by
  cases hmoves with
  | empty hpc => exact h.note rfl ⟨List.append_nil _, List.append_nil _, List.append_nil _⟩
  | datagram bytes hpc hsome =>
      refine h.note hpc ⟨?_, rfl, rfl⟩
      simp [datagrams, hsome, RecvTask.inputs, waiting]
  | transient error hpc herror hfew => exact h.note hpc ⟨rfl, rfl, rfl⟩
  | tooMany error hpc herror hmany => exact h.note hpc ⟨rfl, rfl, rfl⟩
  | fatal error hpc herror => exact h.note hpc ⟨rfl, rfl, rfl⟩
  | done datagram hpc => exact h.note hpc ⟨rfl, rfl, rfl⟩
  | refused datagram hpc => exact h.note hpc ⟨rfl, rfl, rfl⟩
  | network datagram pkt hpc => exact h.note hpc ⟨rfl, rfl, rfl⟩
  | tunnel datagram pkt hpc => exact h.note hpc ⟨rfl, rfl, rfl⟩
  | answer pkt hpc => exact h.note hpc ⟨rfl, rfl, rfl⟩
  | hand pkt hpc => exact h.hand hpc
  | rested until_ hpc =>
      obtain ⟨hinputs, hanswers, hhanded, horder⟩ := h
      rw [hpc] at hinputs hanswers hhanded
      exact ⟨hinputs, hanswers, hhanded, horder⟩

theorem Failing.note {pc' : RecvPc} {event : RecvEvent} {errors time : Nat} (h : Failing t) (hpc : t.pc ≠ .ended)
    (hcounted : errors = countFailure t.transientErrors event)
    (hended : pc' = .ended ↔ isFatal event = true ∨ MAX_TRANSIENT_RECV_ERRORS < errors) :
    Failing { t.note event with pc := pc', transientErrors := errors, lastValidRx := time } := by
  have hfailures : failures (t.log ++ [event]) = errors := by
    rw [failures, List.foldl_concat, hcounted, h.counted]
    rfl
  have hwhole : t.log.any isFatal = false := by
    apply Bool.eq_false_iff.2
    intro hbroken
    exact hpc (h.ended_iff.2 (.inl hbroken))
  refine ⟨hfailures.symm, ?_⟩
  dsimp only [RecvTask.note]
  rw [hfailures, List.any_append, hwhole, Bool.false_or, List.any_cons, List.any_nil, Bool.or_false]
  exact hended

theorem Failing.goOn {pc' : RecvPc} {inbound : List Bytes} (h : Failing t) (hpc : t.pc ≠ .ended) (hpc' : pc' ≠ .ended) :
    Failing { t with pc := pc', inbound := inbound } where
  counted := h.counted
  ended_iff := by
    have hover := fun hover => hpc (h.ended_iff.2 hover)
    exact iff_of_false hpc' hover

theorem Failing.few (h : Failing t) (hpc : t.pc ≠ .ended) : ¬ MAX_TRANSIENT_RECV_ERRORS < t.transientErrors := by
  rw [h.counted]
  exact fun hmany => hpc (h.ended_iff.2 (.inr hmany))

theorem Failing.moves (h : Failing t) (hmoves : Moves clientId now inboundOpen t t') : Failing t' := by
  have hrunning : t.pc ≠ .ended := by
    intro hpc
    cases hmoves <;> simp_all
  have hfew := h.few hrunning
  cases hmoves with
  | empty hpc => exact h.note hrunning rfl (by simp [hpc, isFatal, hfew])
  | datagram bytes hpc hsome => exact h.note hrunning (by simp [countFailure, hsome]) (by simp [isFatal])
  | transient error hpc herror hless =>
      exact h.note hrunning (by simp [countFailure, herror]) (by simp [isFatal, herror]; omega)
  | tooMany error hpc herror hmany =>
      exact h.note hrunning (by simp [countFailure, herror]) (by simp [isFatal, herror]; omega)
  | fatal error hpc herror =>
      exact h.note hrunning (by simp [countFailure, herror]) (by simp [isFatal, herror])
  | done datagram hpc => exact h.note hrunning rfl (by simp [isFatal, hfew])
  | refused datagram hpc => exact h.note hrunning rfl (by simp [isFatal, hfew])
  | network datagram pkt hpc => exact h.note hrunning rfl (by simp [isFatal, hfew])
  | tunnel datagram pkt hpc => exact h.note hrunning rfl (by simp [isFatal, hfew])
  | answer pkt hpc => exact h.note hrunning rfl (by simp [isFatal, hfew])
  | hand pkt hpc => exact h.goOn hrunning (by simp)
  | rested until_ hpc => exact h.goOn hrunning (by simp)

theorem lastHeard_moves (h : t.lastValidRx = lastHeard t.log) (hmoves : Moves clientId now inboundOpen t t') :
    t'.lastValidRx = lastHeard t'.log := by
  cases hmoves with
  | hand pkt hpc => exact h
  | rested until_ hpc => exact h
  | _ =>
      dsimp only [note, lastHeard]
      rw [List.foldl_concat]
      first | rfl | exact h

end RecvTask

/-! ## What goes out -/

namespace SendTask

variable {cfg : AetherNoizeConfig} {established : Bool} {t t' : SendTask}

def offered (log : List SendEvent) : List Bytes :=
  log.flatMap fun
    | .offered packet => [packet]
    | _ => []

def taken (log : List SendEvent) : List Bytes :=
  log.flatMap fun
    | .took packet => [packet]
    | _ => []

/-- What boringtun was given. -/
def inputs (log : List SendEvent) : List Bytes :=
  log.flatMap fun
    | .encapsulated packet _ => [packet]
    | _ => []

/-- What boringtun made of it. -/
def outputs (log : List SendEvent) : List Bytes :=
  log.flatMap fun
    | .encapsulated _ (.writeToNetwork pkt) => [pkt]
    | _ => []

def messages (log : List SendEvent) : List Bytes :=
  log.flatMap fun
    | .message msg => [msg]
    | _ => []

def waiting : SendPc → List Bytes
  | .locking packet => [packet]
  | _ => []

/-- The message that is yet to be sent. -/
def sending : SendPc → List Bytes
  | .noise _ _ msg => [msg]
  | .sending msg => [msg]
  | _ => []

/-- Everything goes where it belongs, in its order. -/
structure Kept (clientId : List.Vector UInt8 3) (t : SendTask) : Prop where
  offered : offered t.log = taken t.log ++ t.queue
  taken : taken t.log = inputs t.log ++ waiting t.pc
  outputs : (outputs t.log).map (injectClientId · clientId) = messages t.log ++ sending t.pc
  ended : t.pc = .ended → t.queue = [] ∧ t.queueOpen = false

/-- What a turn of the task does. -/
inductive Moves (cfg : AetherNoizeConfig) (clientId : List.Vector UInt8 3) (t : SendTask) : SendTask → Prop
  | took (packet : Bytes) (rest : List Bytes) (hpc : t.pc = .taking) (hqueue : t.queue = packet :: rest) :
      Moves cfg clientId t { t.note (.took packet) with queue := rest, pc := .locking packet }
  | closed (hpc : t.pc = .taking) (hqueue : t.queue = []) (hclosed : t.queueOpen = false) :
      Moves cfg clientId t { t with pc := .ended }
  | noisy (packet pkt : Bytes) (yields : Yield) (due : Nat) (hpc : t.pc = .locking packet)
      (hobf : t.obfSent = false) (henabled : cfg.isEnabled = true) :
      Moves cfg clientId t
        { t.note (.encapsulated packet (.writeToNetwork pkt)) with
            obfSent := true
            pc := .noise ((applyObfuscation cfg).run yields).1 due (injectClientId pkt clientId) }
  | ready (packet pkt : Bytes) (hpc : t.pc = .locking packet)
      (hquiet : ¬ (t.obfSent = false ∧ cfg.isEnabled = true)) :
      Moves cfg clientId t
        { t.note (.encapsulated packet (.writeToNetwork pkt)) with pc := .sending (injectClientId pkt clientId) }
  | dropped (packet : Bytes) (answer : TunnResult) (hpc : t.pc = .locking packet)
      (hanswer : ∀ pkt, answer ≠ .writeToNetwork pkt) :
      Moves cfg clientId t { t.note (.encapsulated packet answer) with pc := .taking }
  | noiseSent (datagram : Bytes) (rest : List Act) (due : Nat) (msg : Bytes)
      (hpc : t.pc = .noise (.sent datagram :: rest) due msg) :
      Moves cfg clientId t { t.note (.decoy datagram) with pc := .noise rest due msg }
  | noiseSlept (millis : Nat) (rest : List Act) (due due' : Nat) (msg : Bytes)
      (hpc : t.pc = .noise (.slept millis :: rest) due msg) :
      Moves cfg clientId t { t with pc := .noise rest due' msg }
  | noiseOver (due : Nat) (msg : Bytes) (hpc : t.pc = .noise [] due msg) :
      Moves cfg clientId t { t with pc := .sending msg }
  | sentFirst (msg : Bytes) (yields : Yield) (due : Nat) (hpc : t.pc = .sending msg) (hsome : 0 < cfg.jcAfterHs)
      (hfirst : t.postHsJunkSent = false) :
      Moves cfg clientId t
        { t.note (.message msg) with
            postHsJunkSent := true
            pc := .junk ((sendPostHandshakeJunk cfg).run yields).1 due }
  | sent (msg : Bytes) (hpc : t.pc = .sending msg) (hno : ¬ (0 < cfg.jcAfterHs ∧ t.postHsJunkSent = false)) :
      Moves cfg clientId t { t.note (.message msg) with pc := .taking }
  | junkSent (datagram : Bytes) (rest : List Act) (due : Nat) (hpc : t.pc = .junk (.sent datagram :: rest) due) :
      Moves cfg clientId t { t.note (.decoy datagram) with pc := .junk rest due }
  | junkSlept (millis : Nat) (rest : List Act) (due due' : Nat) (hpc : t.pc = .junk (.slept millis :: rest) due) :
      Moves cfg clientId t { t with pc := .junk rest due' }
  | junkOver (due : Nat) (hpc : t.pc = .junk [] due) : Moves cfg clientId t { t with pc := .taking }

theorem turn_moves (h : t.turn cfg clientId env now held = some t') : Moves cfg clientId t t' := by
  unfold turn at h
  split at h
  next hpc =>
    -- a packet is there, or the application has hung up
    unfold took at h
    split at h
    next packet rest hqueue =>
      cases h
      exact .took packet rest hpc hqueue
    next hqueue =>
      split_ifs at h with hopen
      cases h
      exact .closed hpc hqueue (Bool.eq_false_iff.2 hopen)
  next packet hpc =>
    split_ifs at h
    cases h
    unfold encapsulated
    cases hanswer : env.answer with
    | writeToNetwork pkt =>
        dsimp only
        -- the noise comes before the first message, and only where it is enabled
        split_ifs with hquiet
        · exact .noisy packet pkt env.yields now hpc hquiet.1 hquiet.2
        · exact .ready packet pkt hpc hquiet
    | done => exact .dropped packet .done hpc (by simp)
    | err => exact .dropped packet .err hpc (by simp)
    | writeToTunnel pkt => exact .dropped packet (.writeToTunnel pkt) hpc (by simp)
  next acts due msg hpc =>
    split_ifs at h
    split at h
    next datagram rest =>
      cases h
      exact .noiseSent datagram rest due msg hpc
    next millis rest =>
      cases h
      exact .noiseSlept millis rest due (now + millis) msg hpc
    next =>
      cases h
      exact .noiseOver due msg hpc
  next msg hpc =>
    cases h
    unfold sent
    dsimp only
    -- the junk comes behind the first message
    split_ifs with hfirst
    · exact .sentFirst msg env.yields now hpc hfirst.1 hfirst.2
    · exact .sent msg hpc hfirst
  next acts due hpc =>
    split_ifs at h
    split at h
    next datagram rest =>
      cases h
      exact .junkSent datagram rest due hpc
    next millis rest =>
      cases h
      exact .junkSlept millis rest due (now + millis) hpc
    next =>
      cases h
      exact .junkOver due hpc
  next => cases h

theorem Kept.offer {packet : Bytes} (h : Kept clientId t) (hoffer : t.offer packet = some t') :
    Kept clientId t' := by
  unfold SendTask.offer at hoffer
  split_ifs at hoffer with hopen
  cases hoffer
  refine ⟨?_, ?_, ?_, ?_⟩
  -- one packet more was offered and waits in the queue; nothing else has moved
  · calc SendTask.offered (t.log ++ [.offered packet]) = SendTask.offered t.log ++ [packet] := by
          simp [SendTask.offered, List.flatMap_append]
      _ = SendTask.taken t.log ++ (t.queue ++ [packet]) := by rw [h.offered, List.append_assoc]
      _ = SendTask.taken (t.log ++ [.offered packet]) ++ (t.queue ++ [packet]) := by
          simp [SendTask.taken, List.flatMap_append]
  · calc SendTask.taken (t.log ++ [.offered packet]) = SendTask.taken t.log := by
          simp [SendTask.taken, List.flatMap_append]
      _ = SendTask.inputs (t.log ++ [.offered packet]) ++ waiting t.pc := by
          rw [h.taken]
          simp [SendTask.inputs, List.flatMap_append]
  · calc (SendTask.outputs (t.log ++ [.offered packet])).map (injectClientId · clientId)
        = (SendTask.outputs t.log).map (injectClientId · clientId) := by simp [SendTask.outputs, List.flatMap_append]
      _ = messages (t.log ++ [.offered packet]) ++ sending t.pc := by
          rw [h.outputs]
          simp [messages, List.flatMap_append]
  -- behind the end the queue is closed
  · intro hpc
    rw [(h.ended hpc).2] at hopen
    cases hopen

theorem Kept.close (h : Kept clientId t) : Kept clientId { t with queueOpen := false } where
  offered := h.offered
  taken := h.taken
  outputs := h.outputs
  ended hpc := ⟨(h.ended hpc).1, rfl⟩

/-- What is noted accounts for what the task holds at one await and at the next. -/
structure Passes (clientId : List.Vector UInt8 3) (pc : SendPc) (event : SendEvent) (pc' : SendPc) : Prop where
  offered : SendTask.offered [event] = []
  taken : SendTask.taken [event] = []
  inputs : waiting pc = SendTask.inputs [event] ++ waiting pc'
  outputs : sending pc ++ (SendTask.outputs [event]).map (injectClientId · clientId) = messages [event] ++ sending pc'
  running : pc' ≠ .ended

theorem Kept.note {pc pc' : SendPc} {event : SendEvent} {obf post : Bool} (h : Kept clientId t) (hpc : t.pc = pc)
    (hpasses : Passes clientId pc event pc') :
    Kept clientId { t.note event with pc := pc', obfSent := obf, postHsJunkSent := post } where
  offered := by
    -- the event neither offers nor takes, and moves what is in hand along
    calc SendTask.offered (t.log ++ [event]) = SendTask.offered t.log ++ SendTask.offered [event] :=
          List.flatMap_append
      _ = SendTask.taken t.log ++ SendTask.taken [event] ++ t.queue := by
          rw [hpasses.offered, hpasses.taken, List.append_nil, List.append_nil, h.offered]
      _ = SendTask.taken (t.log ++ [event]) ++ t.queue := congrArg (· ++ t.queue) List.flatMap_append.symm
  taken := by
    calc SendTask.taken (t.log ++ [event]) = SendTask.taken t.log ++ SendTask.taken [event] := List.flatMap_append
      _ = SendTask.inputs t.log ++ (SendTask.inputs [event] ++ waiting pc') := by
          rw [hpasses.taken, List.append_nil, h.taken, hpc, hpasses.inputs]
      _ = SendTask.inputs (t.log ++ [event]) ++ waiting pc' := by
          rw [← List.append_assoc]
          exact congrArg (· ++ waiting pc') List.flatMap_append.symm
  outputs := by
    calc (SendTask.outputs (t.log ++ [event])).map (injectClientId · clientId)
        = (SendTask.outputs t.log ++ SendTask.outputs [event]).map (injectClientId · clientId) :=
          congrArg _ List.flatMap_append
      _ = messages t.log ++ (sending pc ++ (SendTask.outputs [event]).map (injectClientId · clientId)) := by
          rw [List.map_append, h.outputs, hpc, List.append_assoc]
      _ = messages (t.log ++ [event]) ++ sending pc' := by
          rw [hpasses.outputs, ← List.append_assoc]
          exact congrArg (· ++ sending pc') List.flatMap_append.symm
  ended hended := absurd hended hpasses.running

theorem Kept.took {packet : Bytes} {rest : List Bytes} (h : Kept clientId t) (hpc : t.pc = .taking)
    (hqueue : t.queue = packet :: rest) :
    Kept clientId { t.note (.took packet) with queue := rest, pc := .locking packet } where
  offered := by
    -- the packet goes from the queue into the hand
    calc SendTask.offered (t.log ++ [.took packet]) = SendTask.offered t.log := by
          simp [SendTask.offered, List.flatMap_append]
      _ = SendTask.taken t.log ++ ([packet] ++ rest) := by rw [h.offered, hqueue, List.singleton_append]
      _ = SendTask.taken (t.log ++ [.took packet]) ++ rest := by
          simp [SendTask.taken, List.flatMap_append]
  taken := by
    calc SendTask.taken (t.log ++ [.took packet]) = SendTask.taken t.log ++ [packet] := by
          simp [SendTask.taken, List.flatMap_append]
      _ = SendTask.inputs t.log ++ [packet] := by
          rw [h.taken, hpc]
          simp [waiting]
      _ = SendTask.inputs (t.log ++ [.took packet]) ++ [packet] := by simp [SendTask.inputs, List.flatMap_append]
  outputs := by
    have houtputs := h.outputs
    rw [hpc] at houtputs
    calc (SendTask.outputs (t.log ++ [.took packet])).map (injectClientId · clientId)
        = (SendTask.outputs t.log).map (injectClientId · clientId) := by simp [SendTask.outputs, List.flatMap_append]
      _ = messages (t.log ++ [.took packet]) ++ [] := by
          rw [houtputs]
          simp [messages, sending, List.flatMap_append]
  ended hended := by cases hended

/-- The task comes to another await, and has nothing to note. -/
theorem Kept.goOn {pc pc' : SendPc} (h : Kept clientId t) (hpc : t.pc = pc) (hwaiting : waiting pc = waiting pc')
    (hsending : sending pc = sending pc') (hended : pc' = .ended → t.queue = [] ∧ t.queueOpen = false) :
    Kept clientId { t with pc := pc' } where
  offered := h.offered
  taken := by rw [← hwaiting, ← hpc, ← h.taken]
  outputs := by rw [← hsending, ← hpc, ← h.outputs]
  ended := hended

theorem Kept.moves (h : Kept clientId t) (hmoves : Moves cfg clientId t t') : Kept clientId t' := by
  cases hmoves with
  | took packet rest hpc hqueue => exact h.took hpc hqueue
  | closed hpc hqueue hclosed => exact h.goOn hpc rfl rfl fun _ => ⟨hqueue, hclosed⟩
  | noisy packet pkt yields due hpc hobf henabled => exact h.note hpc ⟨rfl, rfl, rfl, rfl, by simp⟩
  | ready packet pkt hpc hquiet => exact h.note hpc ⟨rfl, rfl, rfl, rfl, by simp⟩
  | dropped packet answer hpc hanswer =>
      cases answer with
      | writeToNetwork pkt => exact absurd rfl (hanswer pkt)
      | done => exact h.note hpc ⟨rfl, rfl, rfl, rfl, by simp⟩
      | err => exact h.note hpc ⟨rfl, rfl, rfl, rfl, by simp⟩
      | writeToTunnel pkt => exact h.note hpc ⟨rfl, rfl, rfl, rfl, by simp⟩
  | noiseSent datagram rest due msg hpc => exact h.note hpc ⟨rfl, rfl, rfl, rfl, by simp⟩
  | noiseSlept millis rest due due' msg hpc => exact h.goOn hpc rfl rfl (by simp)
  | noiseOver due msg hpc => exact h.goOn hpc rfl rfl (by simp)
  | sentFirst msg yields due hpc hsome hfirst => exact h.note hpc ⟨rfl, rfl, rfl, rfl, by simp⟩
  | sent msg hpc hno => exact h.note hpc ⟨rfl, rfl, rfl, rfl, by simp⟩
  | junkSent datagram rest due hpc => exact h.note hpc ⟨rfl, rfl, rfl, rfl, by simp⟩
  | junkSlept millis rest due due' hpc => exact h.goOn hpc rfl rfl (by simp)
  | junkOver due hpc => exact h.goOn hpc rfl rfl (by simp)

/-! ## Where the noise stands -/

/-- What the wire sees of the log. -/
def emitted (log : List SendEvent) : List SendEvent :=
  log.filter fun
    | .message _ => true
    | .decoy _ => true
    | _ => false

/-- The noise in front of the first message, all of it. -/
def IsNoise (cfg : AetherNoizeConfig) (established : Bool) (decoys : List Bytes) : Prop :=
  if established = false ∧ cfg.isEnabled = true then
    ∃ yields, decoys = Noise.datagrams ((applyObfuscation cfg).run yields).1
  else decoys = []

/-- The junk behind it, all of it. -/
def IsJunk (cfg : AetherNoizeConfig) (decoys : List Bytes) : Prop :=
  ∃ yields, decoys = Noise.datagrams ((sendPostHandshakeJunk cfg).run yields).1

/-- What decides about the noise that is yet to come, and what has been sent. -/
structure Wire where
  obf : Bool
  post : Bool
  emitted : List SendEvent

def wire (t : SendTask) : Wire where
  obf := t.obfSent
  post := t.postHsJunkSent
  emitted := emitted t.log

/-- Nothing has been sent. -/
structure Silent (established : Bool) (w : Wire) : Prop where
  obf : w.obf = established
  post : w.post = false
  emitted : w.emitted = []

/-- There will be no noise but what is left of it. -/
def Settled (cfg : AetherNoizeConfig) (w : Wire) : Prop :=
  w.obf = true ∨ cfg.isEnabled = false

/-- Noise has been sent, but for the rest of it. -/
structure Noisy (cfg : AetherNoizeConfig) (established : Bool) (rest : List Bytes) (w : Wire) : Prop where
  settled : Settled cfg w
  post : w.post = false
  emitted : ∃ noise : List Bytes, IsNoise cfg established (noise ++ rest) ∧ w.emitted = noise.map .decoy

/-- The first message has been sent, and junk, but for the rest of it. -/
structure Junked (cfg : AetherNoizeConfig) (established : Bool) (rest : List Bytes) (w : Wire) : Prop where
  settled : Settled cfg w
  post : w.post = true
  emitted : ∃ (noise : List Bytes) (msg : Bytes) (junk : List Bytes), IsNoise cfg established noise ∧
    IsJunk cfg (junk ++ rest) ∧
    w.emitted = noise.map .decoy ++ .message msg :: junk.map .decoy

/-- The messages follow one another. -/
structure On (cfg : AetherNoizeConfig) (established : Bool) (w : Wire) : Prop where
  settled : Settled cfg w
  post : ¬ (0 < cfg.jcAfterHs ∧ w.post = false)
  emitted : ∃ (noise : List Bytes) (msg : Bytes) (junk msgs : List Bytes), IsNoise cfg established noise ∧
    IsJunk cfg junk ∧
    w.emitted = noise.map .decoy ++ .message msg :: junk.map .decoy ++ msgs.map .message

/-- What has been sent, by where the task stands. -/
def Staged (cfg : AetherNoizeConfig) (established : Bool) (t : SendTask) : Prop :=
  match t.pc with
  | .noise acts _ _ => Noisy cfg established (Noise.datagrams acts) t.wire
  | .junk acts _ => Junked cfg established (Noise.datagrams acts) t.wire
  | .sending _ => Noisy cfg established [] t.wire ∨ On cfg established t.wire
  | _ => Silent established t.wire ∨ On cfg established t.wire

theorem emitted_concat (log : List SendEvent) (event : SendEvent) :
    emitted (log ++ [event]) = emitted log ++ emitted [event] :=
  List.filter_append ..

/-- What is noted is not seen on the wire. -/
theorem wire_note (event : SendEvent) (hevent : emitted [event] = []) : (t.note event).wire = t.wire := by
  have hsame : emitted (t.log ++ [event]) = emitted t.log := by rw [emitted_concat, hevent, List.append_nil]
  exact congrArg (Wire.mk t.obfSent t.postHsJunkSent) hsame

/-- The message is sent, and none of the noise is left. -/
theorem Noisy.message {msg : Bytes} (h : Noisy cfg established [] t.wire) :
    ∃ noise : List Bytes, IsNoise cfg established noise ∧
      SendTask.emitted (t.log ++ [.message msg]) = noise.map .decoy ++ [.message msg] := by
  obtain ⟨noise, hnoise, hemitted⟩ := h.emitted
  rw [List.append_nil] at hnoise
  have hlog : SendTask.emitted t.log = noise.map .decoy := hemitted
  exact ⟨noise, hnoise, by rw [emitted_concat, hlog]; rfl⟩

theorem isJunk_nil (h : cfg.jcAfterHs = 0) : IsJunk cfg [] := by
  refine ⟨fun _ => 0, ?_⟩
  rw [sendPostHandshakeJunk, h]
  rfl

theorem settled_of_quiet (h : ¬ (t.obfSent = false ∧ cfg.isEnabled = true)) : Settled cfg t.wire := by
  cases hobf : t.obfSent with
  | true => exact .inl hobf
  | false => exact .inr (Bool.eq_false_iff.2 fun henabled => h ⟨hobf, henabled⟩)

theorem Staged.moves (h : Staged cfg established t) (hmoves : Moves cfg clientId t t') :
    Staged cfg established t' := by
  unfold Staged at h
  -- by the step; the stage says what has been sent so far
  cases hmoves with
  | took packet rest hpc hqueue =>
      rw [hpc, ← wire_note (.took packet) rfl] at h
      exact h
  | closed hpc hqueue hclosed =>
      rw [hpc] at h
      exact h
  | noisy packet pkt yields due hpc hobf henabled =>
      rw [hpc, ← wire_note (.encapsulated packet (.writeToNetwork pkt)) rfl] at h
      rcases h with hsilent | hon
      -- before the first message nothing has been sent
      · have hfresh : established = false := hsilent.obf.symm.trans hobf
        refine ⟨.inl rfl, hsilent.post, [], ?_, hsilent.emitted⟩
        rw [List.nil_append, IsNoise, if_pos ⟨hfresh, henabled⟩]
        exact ⟨yields, rfl⟩
      -- the noise is over already
      · rcases hon.settled with hsent | hoff
        · exact absurd (hsent.symm.trans hobf) (by decide)
        · exact absurd (hoff.symm.trans henabled) (by decide)
  | ready packet pkt hpc hquiet =>
      rw [hpc, ← wire_note (.encapsulated packet (.writeToNetwork pkt)) rfl] at h
      rcases h with hsilent | hon
      · refine .inl ⟨settled_of_quiet hquiet, hsilent.post, [], ?_, hsilent.emitted⟩
        rw [List.append_nil, IsNoise, if_neg]
        -- without noise the message follows at once
        have hobf : t.obfSent = established := hsilent.obf
        rwa [← hobf]
      · exact .inr hon
  | dropped packet answer hpc hanswer =>
      rw [hpc, ← wire_note (.encapsulated packet answer) rfl] at h
      exact h
  | noiseSent datagram rest due msg hpc =>
      rw [hpc] at h
      obtain ⟨noise, hnoise, hemitted⟩ := h.emitted
      have hlog : emitted t.log = noise.map .decoy := hemitted
      refine ⟨h.settled, h.post, noise ++ [datagram], ?_, ?_⟩
      · rw [List.append_assoc]
        exact hnoise
      · dsimp only [wire, SendTask.note]
        rw [emitted_concat, hlog, List.map_append]
        rfl
  | noiseSlept millis rest due due' msg hpc =>
      rw [hpc] at h
      exact h
  | noiseOver due msg hpc =>
      rw [hpc] at h
      exact .inl h
  | sentFirst msg yields due hpc hsome hfirst =>
      rw [hpc] at h
      rcases h with hnoisy | hon
      · obtain ⟨noise, hnoise, hemitted⟩ := hnoisy.message
        exact ⟨hnoisy.settled, rfl, noise, msg, [], hnoise, ⟨yields, rfl⟩, hemitted⟩
      · exact absurd ⟨hsome, hfirst⟩ hon.post
  | sent msg hpc hno =>
      rw [hpc] at h
      rcases h with hnoisy | hon
      -- no junk is due behind it
      · have hnone : cfg.jcAfterHs = 0 := by
          by_contra hsome
          exact hno ⟨Nat.pos_of_ne_zero hsome, hnoisy.post⟩
        obtain ⟨noise, hnoise, hemitted⟩ := hnoisy.message
        exact .inr ⟨hnoisy.settled, hno, noise, msg, [], [], hnoise, isJunk_nil hnone,
          hemitted.trans (List.append_nil _).symm⟩
      -- a later message follows the junk
      · obtain ⟨noise, first, junk, msgs, hnoise, hjunk, hemitted⟩ := hon.emitted
        have hlog : emitted t.log = noise.map .decoy ++ .message first :: junk.map .decoy ++ msgs.map .message :=
          hemitted
        refine .inr ⟨hon.settled, hno, noise, first, junk, msgs ++ [msg], hnoise, hjunk, ?_⟩
        dsimp only [wire, SendTask.note]
        rw [emitted_concat, hlog, List.map_append, ← List.append_assoc]
        rfl
  | junkSent datagram rest due hpc =>
      rw [hpc] at h
      obtain ⟨noise, msg, junk, hnoise, hjunk, hemitted⟩ := h.emitted
      have hlog : emitted t.log = noise.map .decoy ++ .message msg :: junk.map .decoy := hemitted
      refine ⟨h.settled, h.post, noise, msg, junk ++ [datagram], hnoise, ?_, ?_⟩
      · rw [List.append_assoc]
        exact hjunk
      · dsimp only [wire, SendTask.note]
        rw [emitted_concat, hlog, List.map_append, List.append_assoc]
        rfl
  | junkSlept millis rest due due' hpc =>
      rw [hpc] at h
      exact h
  | junkOver due hpc =>
      rw [hpc] at h
      obtain ⟨noise, msg, junk, hnoise, hjunk, hemitted⟩ := h.emitted
      have hpost : ¬ (0 < cfg.jcAfterHs ∧ t.wire.post = false) := by
        rw [h.post]
        exact fun hfirst => absurd hfirst.2 (by decide)
      rw [show Noise.datagrams [] = [] from rfl, List.append_nil] at hjunk
      exact .inr ⟨h.settled, hpost, noise, msg, junk, [], hnoise, hjunk, hemitted.trans (List.append_nil _).symm⟩

theorem Staged.offer {packet : Bytes} (h : Staged cfg established t) (hoffer : t.offer packet = some t') :
    Staged cfg established t' := by
  unfold SendTask.offer at hoffer
  split_ifs at hoffer
  cases hoffer
  unfold Staged at h
  rw [← wire_note (.offered packet) rfl] at h
  exact h

end SendTask

end Tunnel
end WireGuard
end AuroraVpn
