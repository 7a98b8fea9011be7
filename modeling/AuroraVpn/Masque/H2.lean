import AuroraVpn.Masque.Quic

/-!
# H2 — the event loop of a MASQUE tunnel over HTTP/2

`masque_h2::run`.  Everything that wakes the loop up is an event of its own here, so that a turn is
a clock and an event.

* `history_drive`: what the latches of the loop say about the events so far.
* `honest_iff`: a tunnel that was never confirmed ends in success exactly when the edge closes the
  stream.
-/

namespace AuroraVpn
namespace Masque
namespace H2

open EventLoop Quic

/-! ## In front of the loop -/

structure Response where
  status : Nat
  headers : List (String × Option String)
  deriving DecidableEq, Repr

/-- `describe_refusal`. -/
def describeRefusal (response : Response) : String :=
  response.headers.foldl
    (fun described (name, value) =>
      if name.startsWith "cf-" || name == "reason" || name == "x-error" then
        described ++ "; " ++ name ++ "=" ++ value.getD "<not text>"
      else
        described)
    ("h2 connect-ip status " ++ toString response.status)

/-- What the steps up to the response of the edge come to. -/
structure Opening where
  tls : Except AetherError Unit
  dialled : Except AetherError Unit
  tlsHandshake : Except String Unit
  handshake : Except String Unit
  pingPong : Bool
  ready : Except String Unit
  request : Except String Unit
  sent : Except String Unit
  response : Except String Response

def masqueError (label : String) {α : Type} (x : Except String α) : Except AetherError α :=
  x.mapError fun e => .masque (label ++ ": " ++ e)

def Opening.outcome (o : Opening) : Except AetherError Unit := do
  o.tls
  o.dialled
  o.tlsHandshake.mapError fun e => .tls ("h2 tls handshake: " ++ e)
  masqueError "h2 handshake" o.handshake
  if o.pingPong then pure () else throw (.masque "h2 connection does not support ping")
  masqueError "h2 ready" o.ready
  masqueError "build request" o.request
  masqueError "send_request" o.sent
  let response ← masqueError "await response" o.response
  if 200 ≤ response.status ∧ response.status < 300 then
    pure ()
  else
    throw (.masque (describeRefusal response))

/-! ## The two halves of the stream -/

/-- What wakes `pump_outbound` up, with the outcome of sending it on.  `Finish` is not among them: it
is only sent by a `run` that returns. -/
inductive SenderTurn
  | capsule (sent : Except AetherError Unit)
  | packet (sent : Except AetherError Unit)
  | queueClosed

/-- How `pump_outbound` ends, where it does. -/
def pumpEnd : List SenderTurn → Option (Except AetherError Unit)
  | [] => none
  | .queueClosed :: _ => some (.ok ())
  | .capsule sent :: turns | .packet sent :: turns =>
      match sent with
      | .ok () => pumpEnd turns
      | .error e => some (.error e)

inductive TrySend
  | sent
  | full
  | closed
  deriving DecidableEq, Repr

/-- `drain_capsules`: whether it delivered a packet, and what it leaves in the buffer.  `inbound`
says what each `try_send` finds. -/
def drainInbound (inbound : Nat → TrySend) : Nat → Nat → Bool → CapsuleParser → Bool × CapsuleParser
  | 0, _, delivered, p => (delivered, p)
  | n + 1, k, delivered, p =>
      match p.next with
      | (.ok (some (.datagram payload)), p') =>
          match stripDatagramContext payload with
          | none => drainInbound inbound n k delivered p'
          | some _ =>
              match inbound k with
              | .closed => (true, p')
              | _ => drainInbound inbound n (k + 1) true p'
      | (.ok (some _), p') => drainInbound inbound n k delivered p'
      | (.ok none, p') => (delivered, p')
      | (.error _, p') => (delivered, p')

/-- A chunk of the body, with the drain behind it.  Every capsule takes bytes off the buffer, so a
turn more than it has bytes is enough. -/
def takeChunk (inbound : Nat → TrySend) (p : CapsuleParser) (chunk : Bytes) : Bool × CapsuleParser :=
  let p := p.push chunk
  drainInbound inbound (p.buf.length + 1) 0 false p

/-! ## The loop -/

structure TunnelConfig where
  dataCheck : Bool
  validationTimeout : Nat
  keepaliveTimeout : Nat
  probePacket : Bytes
  /-- The clock when the loop begins. -/
  openedAt : Nat

/-- The branch of the `select!` that is taken, with what it finds. -/
inductive Event
  | keepalive (sent : Except String Unit) (sentAt : Nat)
  | pong (answer : Except String Unit)
  | probe
  | deadline
  | ctrl (message : Option Control)
  | sender (task : List SenderTurn)
  | senderGone
  | data (chunk : Option (Except String Bytes)) (inbound : Nat → TrySend)

structure Turn where
  now : Nat
  event : Event

/-- This side asks for the close of the tunnel: on the control channel, or by closing the queue that
`pump_outbound` reads. -/
def Turn.asks (t : Turn) : Bool :=
  match t.event with
  | .ctrl (some .close) => true
  | .ctrl none => true
  | .sender task =>
      match pumpEnd task with
      | some (.ok ()) => true
      | _ => false
  | _ => false

inductive SenderMsg
  | capsule (framed : Bytes)
  | finish
  deriving DecidableEq, Repr

structure State where
  capsules : CapsuleParser
  validateSuccesses : Nat
  readyFired : Bool
  validateDeadline : Option Nat
  awaitingPong : Bool
  pongDeadline : Option Nat
  messages : List SenderMsg
  deriving DecidableEq, Repr

def State.message (s : State) (m : SenderMsg) : State :=
  { s with messages := s.messages ++ [m] }

def probe (cfg : TunnelConfig) : SenderMsg :=
  .capsule (encodeDatagramCapsule cfg.probePacket)

def init (cfg : TunnelConfig) : State where
  capsules := .new
  validateSuccesses := 0
  readyFired := !cfg.dataCheck
  validateDeadline := if cfg.dataCheck then some (cfg.openedAt + cfg.validationTimeout) else none
  awaitingPong := false
  pongDeadline := none
  messages := if cfg.dataCheck then [probe cfg] else []

/-- What is made of a chunk of the body. -/
def onChunk (cfg : TunnelConfig) (chunk : Bytes) (inbound : Nat → TrySend) (s : State) : State :=
  let (gotData, capsules) := takeChunk inbound s.capsules chunk
  let s := { s with capsules }
  if gotData && !s.readyFired then
    let s := { s with validateSuccesses := s.validateSuccesses + 1 }
    if s.validateSuccesses ≥ DATA_PROBE_REQUIRED_SUCCESSES then
      { s with readyFired := true, validateDeadline := none }
    else
      s.message (probe cfg)
  else
    s

def expired (cfg : TunnelConfig) (t : Turn) (s : State) : Bool :=
  cfg.dataCheck && !s.readyFired && s.validateDeadline.any fun deadline => decide (deadline ≤ t.now)

def stalled (t : Turn) (s : State) : Bool :=
  s.pongDeadline.any fun deadline => decide (deadline ≤ t.now)

def onEvent (cfg : TunnelConfig) (s : State) : Event → Outcome State (Except AetherError Unit)
  | .keepalive sent sentAt =>
      -- no second ping while the first one is out
      if s.readyFired && !s.awaitingPong then
        match sent with
        | .ok () =>
            .running { s with
              awaitingPong := true, pongDeadline := some (sentAt + cfg.keepaliveTimeout) }
        | .error _ => .running s
      else
        .running s
  | .pong answer =>
      if s.awaitingPong then
        match answer with
        | .ok () => .running { s with awaitingPong := false, pongDeadline := none }
        | .error e => .returned (s.message .finish) (.error (.masque ("h2 keepalive: " ++ e)))
      else
        .running s
  | .probe =>
      if cfg.dataCheck && !s.readyFired then .running (s.message (probe cfg)) else .running s
  -- the deadline is looked at in the next turn
  | .deadline => .running s
  | .ctrl (some .close) => .returned (s.message .finish) (.ok ())
  | .ctrl none => .returned (s.message .finish) (.ok ())
  | .ctrl (some .migrate) => .running s
  | .sender task =>
      -- the send task ends with an outcome, or it was the last of the packets that woke the loop
      match pumpEnd task with
      | some outcome => .returned s outcome
      | none => .running s
  | .senderGone => .returned s (.error (.masque "h2 send task stopped"))
  | .data (some (.ok chunk)) inbound => .running (onChunk cfg chunk inbound s)
  | .data (some (.error e)) _ => .returned s (.error (.masque ("h2 body: " ++ e)))
  -- the edge has closed the stream
  | .data none _ => .returned s (.ok ())

def turn (cfg : TunnelConfig) (t : Turn) (s : State) : Outcome State (Except AetherError Unit) :=
  if expired cfg t s then
    .returned (s.message .finish)
      (.error (.masque "h2 data-plane validation timeout (handshake ok, no traffic)"))
  else if stalled t s then
    .returned (s.message .finish) (.error (.masque "h2 keepalive timeout"))
  else
    onEvent cfg s t.event

/-- `masque_h2::run`. -/
def run (cfg : TunnelConfig) (opening : Opening) (turns : List Turn) :
    Outcome State (Except AetherError Unit) :=
  match opening.outcome with
  | .error e => .returned (init cfg) (.error e)
  | .ok () => drive (turn cfg) turns (init cfg)

/-! ## What the events say -/

/-- The chunks behind which a packet was found, and the buffer that the last of them leaves. -/
def received (turns : List Turn) : Nat × CapsuleParser :=
  turns.foldl
    (fun (count, p) t =>
      match t.event with
      | .data (some (.ok chunk)) inbound =>
          let (delivered, p) := takeChunk inbound p chunk
          (count + delivered.toNat, p)
      | _ => (count, p))
    (0, .new)

/-- Whether `ready` has been signalled. -/
def isReady (cfg : TunnelConfig) (turns : List Turn) : Bool :=
  if cfg.dataCheck then decide (DATA_PROBE_REQUIRED_SUCCESSES ≤ (received turns).1) else true

/-- The latches of the loop, in terms of the turns behind it. -/
structure History (cfg : TunnelConfig) (turns : List Turn) (s : State) : Prop where
  capsules : s.capsules = (received turns).2
  ready : s.readyFired = isReady cfg turns
  successes : s.readyFired = false → s.validateSuccesses = (received turns).1
  asked : turns.any Turn.asks = false

section History

variable {cfg : TunnelConfig} {before : List Turn} {t : Turn} {s s' : State}

theorem received_concat_data {chunk : Bytes} {inbound : Nat → TrySend}
    (h : t.event = .data (some (.ok chunk)) inbound) :
    received (before ++ [t]) =
      ((received before).1 + (takeChunk inbound (received before).2 chunk).1.toNat,
        (takeChunk inbound (received before).2 chunk).2) := by
  simp only [received, List.foldl_append, List.foldl_cons, List.foldl_nil, h]

theorem received_concat_other (h : ∀ chunk inbound, t.event ≠ .data (some (.ok chunk)) inbound) :
    received (before ++ [t]) = received before := by
  simp only [received, List.foldl_append, List.foldl_cons, List.foldl_nil]

theorem history_init : History cfg [] (init cfg) where
  capsules := rfl
  ready := by cases h : cfg.dataCheck <;> simp [isReady, h, init, received, DATA_PROBE_REQUIRED_SUCCESSES]
  successes _ := rfl
  asked := rfl

/-! ## One turn -/

/-- What a turn that brings no chunk leaves alone. -/
structure Kept (s s' : State) : Prop where
  capsules : s'.capsules = s.capsules
  ready : s'.readyFired = s.readyFired
  successes : s'.validateSuccesses = s.validateSuccesses

/-- An event that the loop goes on after. -/
theorem onEvent_eq_running (h : onEvent cfg s t.event = .running s') :
    t.asks = false ∧
      ((∃ chunk inbound, t.event = .data (some (.ok chunk)) inbound ∧
          s' = onChunk cfg chunk inbound s) ∨
        (∀ chunk inbound, t.event ≠ .data (some (.ok chunk)) inbound) ∧ Kept s s') := by
  unfold Turn.asks
  -- by cases on what woke the loop up: only a chunk of the body may change what is counted
  cases hevent : t.event with
  | keepalive sent sentAt =>
      refine ⟨rfl, .inr ⟨nofun, ?_⟩⟩
      simp only [hevent, onEvent] at h
      split_ifs at h
      · cases sent <;> (cases h; exact ⟨rfl, rfl, rfl⟩)
      · cases h
        exact ⟨rfl, rfl, rfl⟩
  | pong answer =>
      refine ⟨rfl, .inr ⟨nofun, ?_⟩⟩
      simp only [hevent, onEvent] at h
      split_ifs at h
      · cases answer <;> cases h
        exact ⟨rfl, rfl, rfl⟩
      · cases h
        exact ⟨rfl, rfl, rfl⟩
  | probe =>
      refine ⟨rfl, .inr ⟨nofun, ?_⟩⟩
      simp only [hevent, onEvent] at h
      split_ifs at h <;> (cases h; exact ⟨rfl, rfl, rfl⟩)
  | deadline =>
      rw [hevent] at h
      cases h
      exact ⟨rfl, .inr ⟨nofun, rfl, rfl, rfl⟩⟩
  | ctrl message =>
      cases message with
      | none =>
          rw [hevent] at h
          cases h
      | some control =>
          rw [hevent] at h
          cases control with
          | close => cases h
          | migrate =>
              cases h
              exact ⟨rfl, .inr ⟨nofun, rfl, rfl, rfl⟩⟩
  | sender task =>
      simp only [hevent, onEvent] at h
      cases hend : pumpEnd task with
      | some outcome =>
          rw [hend] at h
          cases h
      | none =>
          rw [hend] at h
          cases h
          exact ⟨by simp only [hend], .inr ⟨nofun, rfl, rfl, rfl⟩⟩
  | senderGone =>
      rw [hevent] at h
      cases h
  | data chunk inbound =>
      refine ⟨rfl, .inl ?_⟩
      rw [hevent] at h
      cases chunk with
      | none => cases h
      | some chunk =>
          cases chunk with
          | error e => cases h
          | ok chunk =>
              cases h
              exact ⟨chunk, inbound, rfl, rfl⟩

/-- **A chunk of the body, in terms of the events.** -/
theorem history_chunk {chunk : Bytes} {inbound : Nat → TrySend} (hist : History cfg before s)
    (hevent : t.event = .data (some (.ok chunk)) inbound) (hasks : t.asks = false) :
    History cfg (before ++ [t]) (onChunk cfg chunk inbound s) := by
  -- a turn that goes on has not asked for the end
  have hasked : (before ++ [t]).any Turn.asks = false := by
    rw [List.any_append, hist.asked]
    simp [hasks]
  have hreceived := @received_concat_data before t chunk inbound hevent
  rw [← hist.capsules] at hreceived
  cases htake : takeChunk inbound s.capsules chunk with
  | mk delivered p =>
      rw [htake] at hreceived
      have hcount : (received (before ++ [t])).1 = (received before).1 + delivered.toNat := by
        rw [hreceived]
      have hbuffer : p = (received (before ++ [t])).2 := by rw [hreceived]
      -- a delivery is counted until the tunnel is ready, and not any more
      by_cases hcounts : (delivered && !s.readyFired) = true
      · obtain ⟨hdelivered, hnot⟩ := Bool.and_eq_true_iff.1 hcounts
        have hnot : s.readyFired = false := by simpa using hnot
        have hcheck : cfg.dataCheck = true := by
          by_contra hoff
          rw [hist.ready, isReady, if_neg hoff] at hnot
          cases hnot
        have htotal : s.validateSuccesses + 1 = (received (before ++ [t])).1 := by
          rw [hcount, hdelivered, hist.successes hnot]
          rfl
        have hafter : isReady cfg (before ++ [t]) =
            decide (DATA_PROBE_REQUIRED_SUCCESSES ≤ s.validateSuccesses + 1) := by
          rw [isReady, if_pos hcheck, htotal]
        -- enough deliveries: this chunk fires the signal
        by_cases henough : s.validateSuccesses + 1 ≥ DATA_PROBE_REQUIRED_SUCCESSES
        · have hchunk : onChunk cfg chunk inbound s =
              { s with capsules := p, validateSuccesses := s.validateSuccesses + 1,
                       readyFired := true, validateDeadline := none } := by
            simp only [onChunk, htake, hcounts, henough, if_true]
          rw [hchunk]
          exact ⟨hbuffer, hafter.symm ▸ (decide_eq_true henough).symm, fun hn => (nomatch hn), hasked⟩
        · have hchunk : onChunk cfg chunk inbound s =
              { s with capsules := p, validateSuccesses := s.validateSuccesses + 1,
                       messages := s.messages ++ [probe cfg] } := by
            simp only [onChunk, htake, hcounts, henough, if_true, if_false]
            rfl
          rw [hchunk]
          refine ⟨hbuffer, ?_, fun _ => htotal, hasked⟩
          rw [hafter]
          exact hnot.trans (decide_eq_false henough).symm
      -- nothing delivered, or ready already: only the buffer changes
      · have hchunk : onChunk cfg chunk inbound s = { s with capsules := p } := by
          simp only [onChunk, htake]
          exact if_neg hcounts
        rw [hchunk]
        cases hdelivered : delivered with
        | false =>
            rw [hdelivered] at hcount
            refine ⟨hbuffer, ?_, fun hn => (hist.successes hn).trans hcount.symm, hasked⟩
            calc s.readyFired = isReady cfg before := hist.ready
              _ = isReady cfg (before ++ [t]) := by rw [isReady, isReady, hcount]; rfl
        | true =>
            have hfired : s.readyFired = true := by
              rw [hdelivered] at hcounts
              simpa using hcounts
            refine ⟨hbuffer, ?_, fun hn => absurd (hfired.symm.trans hn) Bool.noConfusion, hasked⟩
            have hready : isReady cfg before = true := hist.ready.symm.trans hfired
            have hmore : (received before).1 ≤ (received (before ++ [t])).1 := by
              rw [hcount]
              exact Nat.le_add_right _ _
            -- ready stays ready, since the number received only grows
            refine hfired.trans (Eq.symm ?_)
            unfold isReady at hready ⊢
            by_cases hcheck : cfg.dataCheck = true
            · rw [if_pos hcheck] at hready ⊢
              exact decide_eq_true ((of_decide_eq_true hready).trans hmore)
            · rw [if_neg hcheck]

/-- A turn that goes on handles its event. -/
theorem turn_eq_running (h : turn cfg t s = .running s') : onEvent cfg s t.event = .running s' := by
  unfold turn at h
  split_ifs at h
  exact h

/-- **The latches of a running loop say what its events said.** -/
theorem history_drive {turns : List Turn} (h : drive (turn cfg) turns (init cfg) = .running s) :
    History cfg turns s := by
  refine drive_history history_init (fun before t s s' hist hturn => ?_) h
  obtain ⟨hasks, ⟨chunk, inbound, hevent, rfl⟩ | ⟨hother, hkept⟩⟩ :=
    onEvent_eq_running (turn_eq_running hturn)
  · exact history_chunk hist hevent hasks
  · have hreceived := @received_concat_other before t hother
    refine ⟨?_, ?_, ?_, ?_⟩
    · rw [hkept.capsules, hist.capsules, hreceived]
    · rw [hkept.ready, hist.ready, isReady, isReady, hreceived]
    · intro hn
      rw [hkept.ready] at hn
      rw [hkept.successes, hist.successes hn, hreceived]
    · rw [List.any_append, hist.asked]
      simp [hasks]

/-- The turns at which the loop ends in success. -/
theorem turn_eq_ok : turn cfg t s = .returned s' (.ok ()) ↔
    expired cfg t s = false ∧ stalled t s = false ∧
      ((t.asks = true ∧ onEvent cfg s t.event = .returned s' (.ok ())) ∨
        ∃ inbound, t.event = .data none inbound ∧ s' = s) := by
  -- the deadlines come first, and neither of them is a success
  unfold turn
  cases hexp : expired cfg t s with
  | true => simp
  | false =>
      cases hstalled : stalled t s with
      | true => simp
      | false =>
          simp only [Bool.false_eq_true, if_false, true_and]
          -- the ends in success: the app asks, the send task returns, or the edge closes the stream
          constructor
          · intro h
            unfold Turn.asks
            cases hevent : t.event with
            | keepalive sent sentAt =>
                simp only [hevent, onEvent] at h
                split_ifs at h
                cases sent <;> cases h
            | pong answer =>
                simp only [hevent, onEvent] at h
                split_ifs at h
                cases answer <;> cases h
            | probe =>
                simp only [hevent, onEvent] at h
                split_ifs at h
            | deadline =>
                rw [hevent] at h
                cases h
            | ctrl message =>
                cases message with
                | none => exact .inl ⟨rfl, hevent ▸ h⟩
                | some control =>
                    cases control with
                    | close => exact .inl ⟨rfl, hevent ▸ h⟩
                    | migrate =>
                        rw [hevent] at h
                        cases h
            | sender task =>
                simp only [hevent, onEvent] at h
                cases hend : pumpEnd task with
                | none =>
                    rw [hend] at h
                    cases h
                | some outcome =>
                    simp only [hend] at h
                    cases h
                    exact .inl ⟨by simp only [hend], by simp only [onEvent, hend]⟩
            | senderGone =>
                rw [hevent] at h
                cases h
            | data chunk inbound =>
                rw [hevent] at h
                cases chunk with
                | none =>
                    cases h
                    exact .inr ⟨inbound, rfl, rfl⟩
                | some chunk => cases chunk <;> cases h
          · rintro (⟨-, h⟩ | ⟨inbound, hevent, rfl⟩)
            · exact h
            · rw [hevent]
              rfl

/-! ## Success without a confirmation -/

theorem run_eq_running {opening : Opening} {turns : List Turn}
    (h : run cfg opening turns = .running s) : drive (turn cfg) turns (init cfg) = .running s := by
  unfold run at h
  cases hopening : opening.outcome with
  | error e =>
      rw [hopening] at h
      cases h
  | ok u =>
      rw [hopening] at h
      exact h

/-- Where a run ends in success, `ready` was signalled or this side had asked for the end. -/
def Honest (cfg : TunnelConfig) (opening : Opening) (turns : List Turn) : Prop :=
  ∀ before t after s s', turns = before ++ t :: after → run cfg opening before = .running s →
    turn cfg t s = .returned s' (.ok ()) →
    s'.readyFired = true ∨ (before ++ [t]).any Turn.asks = true

/-- The loop goes through the turns in front of `t`, and no deadline has passed in `t`. -/
def Reaches (cfg : TunnelConfig) (opening : Opening) (before : List Turn) (t : Turn) : Prop :=
  ∃ s, run cfg opening before = .running s ∧ expired cfg t s = false ∧ stalled t s = false

/-- The edge closes the stream in `t`, with `ready` not signalled. -/
def ClosesEarly (cfg : TunnelConfig) (before : List Turn) (t : Turn) : Prop :=
  (∃ inbound, t.event = .data none inbound) ∧ isReady cfg before = false

/-- In no turn that the loop reaches the edge closes the stream early. -/
def NeverClosesEarly (cfg : TunnelConfig) (opening : Opening) (turns : List Turn) : Prop :=
  ∀ before t after, turns = before ++ t :: after → Reaches cfg opening before t →
    ¬ ClosesEarly cfg before t

/-- **A run ends in success without a reason exactly if the edge closes the stream early.** -/
theorem honest_iff (cfg : TunnelConfig) (opening : Opening) (turns : List Turn) :
    Honest cfg opening turns ↔ NeverClosesEarly cfg opening turns := by
  constructor
  · rintro honest before t after hturns ⟨s, hrun, hexp, hstalled⟩ ⟨⟨inbound, hevent⟩, hready⟩
    have hist := history_drive (run_eq_running hrun)
    have hreturned : turn cfg t s = .returned s (.ok ()) :=
      turn_eq_ok.2 ⟨hexp, hstalled, .inr ⟨inbound, hevent, rfl⟩⟩
    -- the run had fired the signal, or a turn before asked for the stop; both are ruled out
    rcases honest before t after s s hturns hrun hreturned with h | h
    · rw [hist.ready, hready] at h
      cases h
    · rw [List.any_append, hist.asked] at h
      simp [Turn.asks, hevent] at h
  · intro never before t after s s' hturns hrun hturn
    -- a turn ends in success when it is asked to stop, or when the edge closes
    obtain ⟨hexp, hstalled, ⟨hasks, -⟩ | ⟨inbound, hevent, rfl⟩⟩ := turn_eq_ok.1 hturn
    · right
      rw [List.any_append]
      simp [hasks]
    · have hist := history_drive (run_eq_running hrun)
      left
      by_contra hnot
      refine never before t after hturns ⟨s', hrun, hexp, hstalled⟩ ⟨⟨inbound, hevent⟩, ?_⟩
      rw [← hist.ready, Bool.eq_false_iff.2 hnot]

/-! ## The signal -/

theorem onChunk_ready {chunk : Bytes} {inbound : Nat → TrySend} (hready : s.readyFired = true) :
    (onChunk cfg chunk inbound s).readyFired = true := by
  have hquiet : ∀ gotData : Bool, (gotData && !s.readyFired) = false := fun gotData => by
    rw [hready]
    exact Bool.and_false _
  simp only [onChunk, hquiet, Bool.false_eq_true, if_false]
  exact hready

/-- **A turn does not take the signal back**, whether it goes on or returns. -/
theorem turn_ready (hready : s.readyFired = true) : (turn cfg t s).state.readyFired = true := by
  unfold turn
  by_cases hexp : expired cfg t s = true
  · rw [if_pos hexp]
    exact hready
  rw [if_neg hexp]
  by_cases hstalled : stalled t s = true
  · rw [if_pos hstalled]
    exact hready
  rw [if_neg hstalled]
  -- the signal is a field that every branch leaves or sets
  cases t.event with
  | keepalive sent sentAt =>
      simp only [onEvent]
      split_ifs
      · cases sent <;> exact hready
      · exact hready
  | pong answer =>
      simp only [onEvent]
      split_ifs
      · cases answer <;> exact hready
      · exact hready
  | probe =>
      simp only [onEvent]
      split_ifs <;> exact hready
  | deadline => exact hready
  | ctrl message =>
      cases message with
      | none => exact hready
      | some control => cases control <;> exact hready
  | sender task =>
      simp only [onEvent]
      cases pumpEnd task <;> exact hready
  | senderGone => exact hready
  | data chunk inbound =>
      cases chunk with
      | none => exact hready
      | some chunk =>
          cases chunk with
          | error e => exact hready
          | ok chunk => exact onChunk_ready hready

end History

end H2
end Masque
end AuroraVpn
