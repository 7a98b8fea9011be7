import AuroraVpn.Account.Provision
import AuroraVpn.Lib.EventLoop
import AuroraVpn.Lib.Utf8
import AuroraVpn.Masque.Resync
import Mathlib.Data.List.TakeWhile

/-!
# Quic — the event loop of a MASQUE tunnel over HTTP/3

`quic::run`, one turn of its loop after the other.  What the QUIC library answers in a turn is part
of the input (`Turn`), so that the loop is met with every order of events; what the turn asks of the
connection is recorded in `calls`.

* `history_drive`: what the latches of the loop say about the events so far.
* `turn_eq_ok`: the turns at which the loop ends in success.
* `honest_iff`: a tunnel that was never confirmed ends in success exactly when the edge closes the
  connection behind its handshake and nobody here has asked for it.
-/

namespace AuroraVpn
namespace Masque
namespace Quic

open EventLoop Utf8

def DATA_PROBE_REQUIRED_SUCCESSES : Nat := 2

def CRYPTO_ERROR_BASE : Nat := 0x100
def TLS_ALERT_ECH_REQUIRED : Nat := 121

inductive Control
  | migrate
  | close
  deriving DecidableEq, Repr

/-! ## Datagrams of the request stream -/

def quarterStreamId (streamId : Nat) : Nat :=
  streamId / 4

/-- `decode_ip_datagram`. -/
def decodeIpDatagram (datagram : Bytes) (expectStreamId : Nat) : Except AetherError (Option Bytes) := do
  let (qsid, b) ← orShort (Octets.getVarint datagram)
  if qsid ≠ quarterStreamId expectStreamId then
    pure none
  else
    let (ctx, b) ← orShort (Octets.getVarint b)
    if ctx ≠ CONNECT_IP_CONTEXT_ID then pure none else pure (some b)

/-- What `drain_datagrams` returns.  The first packet decides it, whatever becomes of the packets in
the inbound queue. -/
def drainDatagrams (reqStream : Option Nat) (datagrams : List Bytes) : Bool :=
  match reqStream with
  | none => false
  | some sid =>
      datagrams.any fun datagram =>
        match decodeIpDatagram datagram sid with
        | .ok (some _) => true
        | _ => false

/-! ## The request stream -/

inductive H3Event
  | headers (list : List (Bytes × Bytes))
  | data (body : List Bytes)
  | finished
  | reset (code : Nat)
  | other
  deriving DecidableEq, Repr

def statusName : Bytes :=
  asciiBytes ":status".toList

def hex (n : Nat) : String :=
  "0x" ++ String.ofList (Nat.toDigits 16 n)

/-- The first status of a list of headers that is not a success. -/
def refusedStatus (list : List (Bytes × Bytes)) : Option Text :=
  list.findSome? fun (name, value) =>
    if name = statusName then
      let status := fromUtf8Lossy value
      if status.head? = some '2' then none else some status
    else
      none

/-- `poll_h3`, over the events that polling yields and what it stops with. -/
def pollH3 (reqStream : Nat) (stop : Except AetherError Unit) :
    List (Nat × H3Event) → CapsuleParser → Except AetherError CapsuleParser
  | [], capsules => stop.map fun _ => capsules
  | (stream, event) :: events, capsules =>
      if stream ≠ reqStream then
        pollH3 reqStream stop events capsules
      else
        match event with
        | .headers list =>
            match refusedStatus list with
            | some status =>
                .error (.masque
                  ("the edge refused connect-ip with status " ++ String.ofList status))
            | none => pollH3 reqStream stop events capsules
        | .data body =>
            pollH3 reqStream stop events (drainCapsules (body.foldl CapsuleParser.push capsules)).2
        | .finished => .error (.masque "the edge closed the connect-ip stream")
        | .reset code =>
            .error (.masque ("the edge reset the connect-ip stream (code " ++ hex code ++ ")"))
        | .other => pollH3 reqStream stop events capsules

/-! ## Why a connection closed early -/

structure ConnectionError where
  isApp : Bool
  errorCode : Nat
  reason : Bytes
  deriving DecidableEq, Repr

/-- `name_close_code`. -/
def nameCloseCode (code : Nat) : String :=
  match code with
  | 0x00 => "no error"
  | 0x01 => "internal error"
  | 0x02 => "connection refused"
  | 0x03 => "flow control error"
  | 0x07 => "frame encoding error"
  | 0x0a => "protocol violation"
  | 0x0d => "crypto buffer exceeded"
  | code =>
      if CRYPTO_ERROR_BASE ≤ code ∧ code ≤ 0x1ff then
        match code - CRYPTO_ERROR_BASE with
        | 40 => "tls: handshake failure"
        | 42 => "tls: bad certificate"
        | 48 => "tls: unknown certificate authority"
        | 50 => "tls: decode error"
        | 70 => "tls: protocol version"
        | 80 => "tls: internal error"
        | 112 => "tls: unrecognised name"
        | 120 => "tls: no application protocol"
        | 121 => "tls: ECH required"
        | _ => "tls alert"
      else
        "unnamed"

namespace ConnectionError

def isEchRequired (e : ConnectionError) : Bool :=
  !e.isApp && e.errorCode == CRYPTO_ERROR_BASE + TLS_ALERT_ECH_REQUIRED

def stated (label : String) (e : ConnectionError) : String :=
  let reason := trim (fromUtf8Lossy e.reason)
  label ++ " closed it: code=" ++ hex e.errorCode ++ " (" ++ nameCloseCode e.errorCode ++ ")" ++
    (if reason = [] then "" else " reason=" ++ String.ofList reason)

end ConnectionError

/-- `describe_early_close`. -/
def describeEarlyClose (peer own : Option ConnectionError) : AetherError :=
  if peer.any ConnectionError.isEchRequired || own.any ConnectionError.isEchRequired then
    .ech ("the gateway requires an ECH configuration and refused the one sent (TLS alert 121);" ++
      "              set AETHER_ECH=auto, or use the H2 framing")
  else
    let said :=
      match peer, own with
      | some e, _ => e.stated "the gateway"
      | none, some e => e.stated "this end"
      | none, none => "neither end said why"
    .masque ("closed before the tunnel carried anything; " ++ said)

/-! ## The loop -/

structure TunnelConfig where
  echConfigList : Option Bytes
  dataCheck : Bool
  validationTimeout : Nat
  probePacket : Bytes

/-- The branch of the `select!` that is taken. -/
inductive Event
  | keepalive
  | probe
  | net (data : Bytes)
  | ctrl (message : Option Control)
  | outbound (packet : Option Bytes)
  | timeout
  deriving DecidableEq, Repr

/-- This side asks for the close of the tunnel. -/
def Event.asks : Event → Bool
  | .ctrl (some .close) => true
  | .ctrl none => true
  | .outbound none => true
  | _ => false

/-- A turn of the loop: the clock, the branch, and what the libraries answer behind it. -/
structure Turn where
  now : Nat
  event : Event
  established : Bool
  /-- `with_transport` and `send_request`, and the clock when they are done. -/
  opened : Except AetherError Nat
  openedAt : Nat
  polled : List (Nat × H3Event)
  pollStop : Except AetherError Unit
  datagrams : List Bytes
  flushed : Except AetherError Unit
  closed : Bool
  peerError : Option ConnectionError
  localError : Option ConnectionError
  echRetryConfigs : Option Bytes
  /-- `connect` and `inject_ech` of a second handshake, and its first flush. -/
  reconnected : Except AetherError Unit

/-- What the loop asks of the connection. -/
inductive Call
  | sendAckEliciting
  | dgramSend (streamId : Nat) (ipPacket : Bytes)
  | recv (data : Bytes)
  | migrate
  | close (reason : String)
  | onTimeout
  | reconnect (ech : Bytes)
  deriving DecidableEq, Repr

/-- `h3_conn` and `req_stream` are set and taken together; `reqStream` stands for both. -/
structure State where
  currentEch : Option Bytes
  reqStream : Option Nat
  capsules : CapsuleParser
  establishedEver : Bool
  echRetried : Bool
  readyFired : Bool
  validateDeadline : Option Nat
  validateSuccesses : Nat
  ctrlOpen : Bool
  outboundOpen : Bool
  calls : List Call
  deriving DecidableEq, Repr

def init (cfg : TunnelConfig) : State where
  currentEch := cfg.echConfigList
  reqStream := none
  capsules := .new
  establishedEver := false
  echRetried := false
  readyFired := false
  validateDeadline := none
  validateSuccesses := 0
  ctrlOpen := true
  outboundOpen := true
  calls := []

def State.call (s : State) (c : Call) : State :=
  { s with calls := s.calls ++ [c] }

/-- `conn.dgram_send` of a packet that is framed for the request stream. -/
def State.send (s : State) (packet : Bytes) : State :=
  match s.reqStream with
  | some sid => s.call (.dgramSend sid packet)
  | none => s

/-- The branch that is taken, where its guard lets it. -/
def onEvent (cfg : TunnelConfig) (established : Bool) (s : State) : Event → State
  | .keepalive => if established then s.call .sendAckEliciting else s
  | .probe => if cfg.dataCheck && !s.readyFired then s.send cfg.probePacket else s
  | .net data => s.call (.recv data)
  | .ctrl message =>
      if s.ctrlOpen then
        match message with
        | some .migrate => s.call .migrate
        | some .close => { s.call (.close "bye") with ctrlOpen := false }
        | none => { s.call (.close "bye") with ctrlOpen := false }
      else
        s
  | .outbound packet =>
      if s.outboundOpen then
        match packet with
        | some ipPacket => s.send ipPacket
        | none => { s.call (.close "eof") with outboundOpen := false }
      else
        s
  | .timeout => s.call .onTimeout

/-- `if conn.is_established() && h3_conn.is_none() { .. }`. -/
def establish (cfg : TunnelConfig) (t : Turn) (s : State) : Except AetherError State :=
  if t.established && s.reqStream.isNone then do
    let sid ← t.opened
    let s := { s with establishedEver := true, reqStream := some sid }
    if cfg.dataCheck then
      pure { s with validateDeadline := some (t.openedAt + cfg.validationTimeout) }
    else
      pure { s with readyFired := true }
  else
    pure s

def poll (t : Turn) (s : State) : Except AetherError State :=
  match s.reqStream with
  | some sid => do
      let capsules ← pollH3 sid t.pollStop t.polled s.capsules
      pure { s with capsules }
  | none => pure s

/-- What is made of the datagrams of a turn. -/
def confirm (t : Turn) (s : State) : State :=
  if drainDatagrams s.reqStream t.datagrams && !s.readyFired then
    let s := { s with validateSuccesses := s.validateSuccesses + 1 }
    if s.validateSuccesses ≥ DATA_PROBE_REQUIRED_SUCCESSES then
      { s with readyFired := true, validateDeadline := none }
    else
      s
  else
    s

/-- A turn from the answer of the `select!` to the last flush.  An error comes with the state it
leaves behind. -/
def progress (cfg : TunnelConfig) (t : Turn) (s : State) : Except (State × AetherError) State := do
  let s := onEvent cfg t.established s t.event
  let s ← (establish cfg t s).mapError fun e => (s, e)
  let s ← (poll t s).mapError fun e => (s, e)
  let s := confirm t s
  t.flushed.mapError fun e => (s, e)
  pure s

def expired (cfg : TunnelConfig) (t : Turn) (s : State) : Bool :=
  cfg.dataCheck && !s.readyFired && s.validateDeadline.any fun deadline => decide (deadline ≤ t.now)

/-- The configuration for a second handshake, where the closed connection is worth one. -/
def echRetry (t : Turn) (s : State) : Option Bytes :=
  if !s.establishedEver && !s.echRetried && s.currentEch.isSome then t.echRetryConfigs else none

def retried (retry : Bytes) (s : State) : State :=
  { s.call (.reconnect retry) with
    echRetried := true, currentEch := some retry, reqStream := none, capsules := .new }

/-- `if conn.is_closed() { .. }`. -/
def onClosed (t : Turn) (s : State) : Outcome State (Except AetherError Unit) :=
  match echRetry t s with
  | some retry =>
      match t.reconnected with
      | .ok () => .running (retried retry s)
      | .error e => .returned (retried retry s) (.error e)
  | none =>
      if s.establishedEver then
        .returned s (.ok ())
      else
        .returned s (.error (describeEarlyClose t.peerError t.localError))

def turn (cfg : TunnelConfig) (t : Turn) (s : State) : Outcome State (Except AetherError Unit) :=
  if expired cfg t s then
    .returned (s.call (.close "validation-timeout"))
      (.error (.masque "data-plane validation timeout (handshake ok, no traffic)"))
  else
    match progress cfg t s with
    | .error (s', e) => .returned s' (.error e)
    | .ok s' => if t.closed then onClosed t s' else .running s'

/-- `quic::run`.  `setup` is what stands in front of the loop: the socket, the configuration of TLS
and the first flush. -/
def run (cfg : TunnelConfig) (setup : Except AetherError Unit) (turns : List Turn) :
    Outcome State (Except AetherError Unit) :=
  match setup with
  | .error e => .returned (init cfg) (.error e)
  | .ok () => drive (turn cfg) turns (init cfg)

/-! ## What the events say -/

def Turn.asks (t : Turn) : Bool :=
  t.event.asks

/-- The request stream is the one of the first turn that finds the handshake done. -/
def requestStream (turns : List Turn) : Option Nat :=
  (turns.find? Turn.established).bind fun t => t.opened.toOption

/-- The turns that brought a packet over the request stream. -/
def confirmed (turns : List Turn) : Nat :=
  (turns.dropWhile fun t => !t.established).countP fun t =>
    drainDatagrams (requestStream turns) t.datagrams

/-- Whether `ready` has been signalled. -/
def isReady (cfg : TunnelConfig) (turns : List Turn) : Bool :=
  if cfg.dataCheck then decide (DATA_PROBE_REQUIRED_SUCCESSES ≤ confirmed turns)
  else turns.any Turn.established

/-- The latches of the loop, in terms of the turns behind it. -/
structure History (cfg : TunnelConfig) (turns : List Turn) (s : State) : Prop where
  established : s.establishedEver = turns.any Turn.established
  opened : s.reqStream.isSome = s.establishedEver
  stream : s.reqStream = requestStream turns
  ready : s.readyFired = isReady cfg turns
  successes : cfg.dataCheck = true → s.readyFired = false → s.validateSuccesses = confirmed turns
  asked : (s.ctrlOpen && s.outboundOpen) = !turns.any Turn.asks

section History

variable {cfg : TunnelConfig} {before : List Turn} {t : Turn} {s s' : State}

theorem history_init : History cfg [] (init cfg) where
  established := rfl
  opened := rfl
  stream := rfl
  ready := by cases h : cfg.dataCheck <;> simp [isReady, h, init, confirmed, DATA_PROBE_REQUIRED_SUCCESSES]
  successes _ _ := rfl
  asked := rfl

theorem not_established_of_mem (h : before.any Turn.established = false) :
    ∀ u ∈ before, u.established = false :=
  fun u hu => Bool.eq_false_iff.2 fun hest => Bool.eq_false_iff.1 h (List.any_eq_true.2 ⟨u, hu, hest⟩)

theorem find?_of_not_any (h : before.any Turn.established = false) :
    before.find? Turn.established = none :=
  List.find?_eq_none.2 fun u hu => Bool.eq_false_iff.1 (not_established_of_mem h u hu)

theorem requestStream_concat_of_any (h : before.any Turn.established = true) :
    requestStream (before ++ [t]) = requestStream before := by
  obtain ⟨u, hu, hest⟩ := List.any_eq_true.1 h
  obtain ⟨v, hv⟩ := Option.isSome_iff_exists.1 (List.find?_isSome.2 ⟨u, hu, hest⟩)
  simp only [requestStream, List.find?_append, hv]
  rfl

theorem requestStream_concat_of_not_any (h : before.any Turn.established = false) :
    requestStream (before ++ [t]) = if t.established then t.opened.toOption else none := by
  cases hest : t.established <;> simp [requestStream, List.find?_append, find?_of_not_any h, hest]

theorem requestStream_of_not_any (h : before.any Turn.established = false) :
    requestStream before = none := by
  rw [requestStream, find?_of_not_any h]
  rfl

theorem confirmed_concat : confirmed (before ++ [t]) =
    confirmed before + (drainDatagrams (requestStream (before ++ [t])) t.datagrams).toNat := by
  unfold confirmed
  rw [List.dropWhile_append]
  -- the count begins with the turn that is established, and the stream is the one opened in it
  cases hany : before.any Turn.established with
  | true =>
      have hdrop : (before.dropWhile fun t => !t.established).isEmpty = false := by
        obtain ⟨u, hu, hest⟩ := List.any_eq_true.1 hany
        refine Bool.eq_false_iff.2 fun hempty => ?_
        have hall := List.dropWhile_eq_nil_iff.1 (List.isEmpty_iff.1 hempty) u hu
        rw [hest] at hall
        cases hall
      rw [hdrop, requestStream_concat_of_any hany]
      simp only [Bool.false_eq_true, if_false, List.countP_append, List.countP_singleton]
      cases drainDatagrams (requestStream before) t.datagrams <;> rfl
  | false =>
      have hdrop : (before.dropWhile fun t => !t.established) = [] :=
        List.dropWhile_eq_nil_iff.2 fun u hu => by rw [not_established_of_mem hany u hu]; rfl
      rw [hdrop, requestStream_concat_of_not_any hany]
      cases hest : t.established with
      | false => simp [hest, drainDatagrams]
      | true =>
          simp only [List.isEmpty_nil, if_true, List.dropWhile_cons, hest, Bool.not_true,
            Bool.false_eq_true, if_false, List.dropWhile_nil, List.countP_singleton,
            List.countP_nil, Nat.zero_add]
          cases drainDatagrams t.opened.toOption t.datagrams <;> rfl

/-! ## One turn -/

/-- What the branch of a turn leaves alone, and what it does to the two channels. -/
structure Handled (e : Event) (s s' : State) : Prop where
  established : s'.establishedEver = s.establishedEver
  stream : s'.reqStream = s.reqStream
  ready : s'.readyFired = s.readyFired
  successes : s'.validateSuccesses = s.validateSuccesses
  asked : (s'.ctrlOpen && s'.outboundOpen) = (s.ctrlOpen && s.outboundOpen && !e.asks)

theorem handled_call (c : Call) {e : Event} (h : e.asks = false) : Handled e s (s.call c) where
  established := rfl
  stream := rfl
  ready := rfl
  successes := rfl
  asked := by rw [h, Bool.not_false, Bool.and_true]; rfl

theorem handled_self {e : Event} (h : e.asks = false) : Handled e s s where
  established := rfl
  stream := rfl
  ready := rfl
  successes := rfl
  asked := by rw [h, Bool.not_false, Bool.and_true]

theorem handled_send (packet : Bytes) {e : Event} (h : e.asks = false) :
    Handled e s (s.send packet) := by
  unfold State.send
  cases s.reqStream with
  | none => exact handled_self h
  | some sid => exact handled_call _ h

theorem handled_onEvent (established : Bool) (e : Event) :
    Handled e s (onEvent cfg established s e) := by
  -- each event either asks for the end or makes calls that leave the fields alone
  cases e with
  | keepalive =>
      cases established with
      | true => exact handled_call _ rfl
      | false => exact handled_self rfl
  | probe =>
      simp only [onEvent]
      split_ifs
      · exact handled_send _ rfl
      · exact handled_self rfl
  | net data => exact handled_call _ rfl
  | ctrl message =>
      simp only [onEvent]
      split_ifs with hopen
      · cases message with
        | none => exact ⟨rfl, rfl, rfl, rfl, by simp [Event.asks]⟩
        | some control =>
            cases control with
            | migrate => exact handled_call _ rfl
            | close => exact ⟨rfl, rfl, rfl, rfl, by simp [Event.asks]⟩
      · exact ⟨rfl, rfl, rfl, rfl, by simp [hopen]⟩
  | outbound packet =>
      simp only [onEvent]
      split_ifs with hopen
      · cases packet with
        | none => exact ⟨rfl, rfl, rfl, rfl, by simp [Event.asks, State.call]⟩
        | some ipPacket => exact handled_send _ rfl
      · exact ⟨rfl, rfl, rfl, rfl, by simp [hopen]⟩
  | timeout => exact handled_call _ rfl

/-- The handshake of a turn: the request is sent once, in the first turn that finds it done. -/
theorem establish_eq_ok (h : establish cfg t s = .ok s') :
    (t.established = true ∧ s.reqStream = none ∧ ∃ sid, t.opened = .ok sid ∧
      s'.establishedEver = true ∧ s'.reqStream = some sid ∧
      s'.readyFired = (!cfg.dataCheck || s.readyFired) ∧
      s'.validateSuccesses = s.validateSuccesses ∧ s'.ctrlOpen = s.ctrlOpen ∧
      s'.outboundOpen = s.outboundOpen) ∨
    ((t.established = false ∨ s.reqStream.isSome) ∧ s' = s) := by
  unfold establish at h
  -- the request goes out when the handshake is done and no stream is there yet
  by_cases hcond : (t.established && s.reqStream.isNone) = true
  · rw [if_pos hcond] at h
    obtain ⟨hest, hnone⟩ := Bool.and_eq_true_iff.1 hcond
    obtain ⟨sid, hopened, hrest⟩ := Fallible.bind_eq_ok.1 h
    left
    refine ⟨hest, Option.isNone_iff_eq_none.1 hnone, sid, hopened, ?_⟩
    -- without the data check, ready is signalled with the handshake
    cases hcheck : cfg.dataCheck with
    | true =>
        simp only [hcheck, if_true] at hrest
        cases hrest
        exact ⟨rfl, rfl, rfl, rfl, rfl, rfl⟩
    | false =>
        simp only [hcheck, Bool.false_eq_true, if_false] at hrest
        cases hrest
        exact ⟨rfl, rfl, rfl, rfl, rfl, rfl⟩
  · rw [if_neg hcond] at h
    cases h
    right
    refine ⟨?_, rfl⟩
    cases hest : t.established with
    | false => exact .inl rfl
    | true =>
        rw [hest, Bool.true_and] at hcond
        exact .inr (Option.isSome_iff_ne_none.2 fun hnone => hcond (by rw [hnone]; rfl))

/-- Polling touches nothing but the capsules. -/
theorem poll_eq_ok (h : poll t s = .ok s') : ∃ capsules, s' = { s with capsules } := by
  unfold poll at h
  cases hstream : s.reqStream with
  | none =>
      rw [hstream] at h
      cases h
      exact ⟨s.capsules, by rw [← hstream]⟩
  | some sid =>
      rw [hstream] at h
      obtain ⟨capsules, -, hrest⟩ := Fallible.bind_eq_ok.1 h
      cases hrest
      exact ⟨capsules, by rw [← hstream]⟩

theorem progress_eq_ok (h : progress cfg t s = .ok s') :
    ∃ s₁ s₂, establish cfg t (onEvent cfg t.established s t.event) = .ok s₁ ∧ poll t s₁ = .ok s₂ ∧
      t.flushed = .ok () ∧ s' = confirm t s₂ := by
  obtain ⟨s₁, h₁, h⟩ := Fallible.bind_eq_ok.1 h
  obtain ⟨s₂, h₂, h⟩ := Fallible.bind_eq_ok.1 h
  obtain ⟨_, h₃, h⟩ := Fallible.bind_eq_ok.1 h
  cases h
  exact ⟨s₁, s₂, Fallible.mapError_eq_ok.1 h₁, Fallible.mapError_eq_ok.1 h₂,
    Fallible.mapError_eq_ok.1 h₃, rfl⟩

/-- The first turn of the handshake, or a turn without one, in terms of the events. -/
theorem history_establish (hist : History cfg before s)
    (h : establish cfg t (onEvent cfg t.established s t.event) = .ok s') :
    s'.establishedEver = (before ++ [t]).any Turn.established ∧
      s'.reqStream.isSome = s'.establishedEver ∧ s'.reqStream = requestStream (before ++ [t]) ∧
      s'.readyFired = (s.readyFired || (!cfg.dataCheck && s'.establishedEver)) ∧
      s'.validateSuccesses = s.validateSuccesses ∧
      (s'.ctrlOpen && s'.outboundOpen) = !(before ++ [t]).any Turn.asks := by
  -- the event first, then the handshake
  have hev : Handled t.event s (onEvent cfg t.established s t.event) := handled_onEvent _ _
  have hasked : (s.ctrlOpen && s.outboundOpen && !t.event.asks) =
      !(before ++ [t]).any Turn.asks := by
    rw [hist.asked, List.any_append, Bool.not_or]
    simp [Turn.asks]
  have hany : (before ++ [t]).any Turn.established = (s.establishedEver || t.established) := by
    rw [hist.established, List.any_append]
    simp
  -- this turn finds the handshake done, or the loop stays as it was
  rcases establish_eq_ok h with ⟨hest, hnone, sid, hopened, h₁, h₂, h₃, h₄, h₅, h₆⟩ | ⟨hcond, rfl⟩
  · rw [hev.stream] at hnone
    have hnever : before.any Turn.established = false := by
      rw [← hist.established, ← hist.opened, hnone]
      rfl
    refine ⟨by rw [h₁, hany, hest, Bool.or_true], by rw [h₂, h₁]; rfl, ?_, ?_, ?_, ?_⟩
    · rw [h₂, requestStream_concat_of_not_any hnever, hest, hopened]
      rfl
    · rw [h₃, h₁, hev.ready, Bool.and_true, Bool.or_comm]
    · rw [h₄, hev.successes]
    · rw [h₅, h₆, hev.asked, hasked]
  · rw [hev.stream] at hcond
    -- not done yet, or done in an earlier turn
    have hsame : (before ++ [t]).any Turn.established = s.establishedEver := by
      rw [hany]
      rcases hcond with hest | hsome
      · rw [hest, Bool.or_false]
      · rw [← hist.opened, hsome, Bool.true_or]
    refine ⟨by rw [hev.established, hsame], by rw [hev.stream, hev.established, hist.opened], ?_,
      ?_, hev.successes, by rw [hev.asked, hasked]⟩
    · rw [hev.stream, hist.stream]
      cases hever : before.any Turn.established with
      | true => exact (requestStream_concat_of_any hever).symm
      | false =>
          have hest : t.established = false := by
            rcases hcond with hest | hsome
            · exact hest
            · rw [hist.opened, hist.established, hever] at hsome
              cases hsome
          rw [requestStream_concat_of_not_any hever, requestStream_of_not_any hever, hest]
          rfl
    · rw [hev.ready, hev.established, hist.ready, isReady, hist.established]
      cases cfg.dataCheck <;> simp

theorem confirm_quiet (h : (drainDatagrams s.reqStream t.datagrams && !s.readyFired) = false) :
    confirm t s = s := by
  unfold confirm
  exact if_neg (by rw [h]; exact Bool.false_ne_true)

/-- A packet that counts. -/
theorem confirm_counts (h : (drainDatagrams s.reqStream t.datagrams && !s.readyFired) = true) :
    confirm t s =
      if s.validateSuccesses + 1 ≥ DATA_PROBE_REQUIRED_SUCCESSES then
        { s with validateSuccesses := s.validateSuccesses + 1, readyFired := true,
                 validateDeadline := none }
      else
        { s with validateSuccesses := s.validateSuccesses + 1 } := by
  unfold confirm
  exact if_pos h

/-- **A turn that fails nowhere adds itself to the history.** -/
theorem history_progress (hist : History cfg before s) (h : progress cfg t s = .ok s') :
    History cfg (before ++ [t]) s' := by
  obtain ⟨s₁, s₂, hest, hpoll, -, rfl⟩ := progress_eq_ok h
  obtain ⟨capsules, rfl⟩ := poll_eq_ok hpoll
  obtain ⟨hever, hopened, hstream, hready, hsucc, hasked⟩ := history_establish hist hest
  have hcount := @confirmed_concat before t
  rw [← hstream] at hcount
  by_cases hcheck : cfg.dataCheck = true
  · have hbefore : s₁.readyFired = s.readyFired := by
      rw [hready, hcheck, Bool.not_true, Bool.false_and, Bool.or_false]
    have hready' : s₁.readyFired = decide (DATA_PROBE_REQUIRED_SUCCESSES ≤ confirmed before) := by
      rw [hbefore, hist.ready, isReady, if_pos hcheck]
    have hafter : isReady cfg (before ++ [t]) =
        decide (DATA_PROBE_REQUIRED_SUCCESSES ≤ confirmed (before ++ [t])) := if_pos hcheck
    have hbehind (hnot : s₁.readyFired = false) : s₁.validateSuccesses = confirmed before :=
      hsucc.trans (hist.successes hcheck (hbefore.symm.trans hnot))
    by_cases hfired : s₁.readyFired = true
    · rw [confirm_quiet (by simp [hfired])]
      refine ⟨hever, hopened, hstream, ?_, fun _ hnot => ?_, hasked⟩
      have hle := of_decide_eq_true (hready'.symm.trans hfired)
      calc s₁.readyFired = true := hfired
        _ = decide (DATA_PROBE_REQUIRED_SUCCESSES ≤ confirmed (before ++ [t])) :=
          (decide_eq_true (hle.trans (hcount ▸ Nat.le_add_right _ _))).symm
        _ = isReady cfg (before ++ [t]) := hafter.symm
      rw [hfired] at hnot
      cases hnot
    · have hnot : s₁.readyFired = false := Bool.eq_false_iff.2 hfired
      by_cases hdrain : drainDatagrams s₁.reqStream t.datagrams = true
      · rw [hdrain, Bool.toNat_true] at hcount
        have htotal : s₁.validateSuccesses + 1 = confirmed (before ++ [t]) := by
          rw [hbehind hnot, hcount]
        rw [confirm_counts (by simp [hdrain, hnot])]
        dsimp only
        by_cases henough : s₁.validateSuccesses + 1 ≥ DATA_PROBE_REQUIRED_SUCCESSES
        · rw [if_pos henough]
          refine ⟨hever, hopened, hstream, ?_, fun _ hn => (nomatch hn), hasked⟩
          rw [hafter, ← htotal]
          exact (decide_eq_true henough).symm
        · rw [if_neg henough]
          refine ⟨hever, hopened, hstream, ?_, fun _ _ => htotal, hasked⟩
          rw [hafter, ← htotal]
          exact hnot.trans (decide_eq_false henough).symm
      · have hquiet := Bool.eq_false_iff.2 hdrain
        rw [hquiet, Bool.toNat_false, Nat.add_zero] at hcount
        rw [confirm_quiet (by simp [hquiet])]
        refine ⟨hever, hopened, hstream, ?_, fun _ _ => (hbehind hnot).trans hcount.symm, hasked⟩
        rw [hafter, hcount]
        exact hready'
  · have hoff := Bool.eq_false_iff.2 hcheck
    have hready' : s₁.readyFired = s₁.establishedEver := by
      rw [hready, hist.ready, isReady, if_neg hcheck, hoff, hever, List.any_append]
      simp
    -- a stream to read from means that ready was signalled with the handshake
    have hquiet : (drainDatagrams s₁.reqStream t.datagrams && !s₁.readyFired) = false := by
      rw [hready', ← hopened]
      cases s₁.reqStream with
      | none => rfl
      | some sid => exact Bool.and_false _
    have hsame := confirm_quiet (s := { s₁ with capsules }) hquiet
    rw [hsame]
    refine ⟨hever, hopened, hstream, ?_, fun hon => absurd hon hcheck, hasked⟩
    calc s₁.readyFired = (before ++ [t]).any Turn.established := hready'.trans hever
      _ = isReady cfg (before ++ [t]) := (if_neg hcheck).symm

/-- A second handshake only follows one that was never finished. -/
theorem history_retried {retry : Bytes} (hist : History cfg before s)
    (h : echRetry t s = some retry) : History cfg before (retried retry s) := by
  have hnever : s.establishedEver = false := by
    unfold echRetry at h
    split_ifs at h with hcond
    rw [Bool.and_eq_true, Bool.and_eq_true] at hcond
    simpa using hcond.1.1
  have hany : before.any Turn.established = false := by rw [← hist.established, hnever]
  exact {
    established := hist.established
    opened := hnever.symm
    stream := (requestStream_of_not_any hany).symm
    ready := hist.ready
    successes := hist.successes
    asked := hist.asked }

/-- A turn that goes on has failed nowhere. -/
theorem turn_eq_running (h : turn cfg t s = .running s') :
    ∃ s₁, progress cfg t s = .ok s₁ ∧
      (s' = s₁ ∨ ∃ retry, echRetry t s₁ = some retry ∧ s' = retried retry s₁) := by
  unfold turn at h
  -- the deadline of the validation is looked at first
  by_cases hexp : expired cfg t s = true
  · rw [if_pos hexp] at h
    cases h
  rw [if_neg hexp] at h
  cases hprog : progress cfg t s with
  | error e =>
      rw [hprog] at h
      cases h
  | ok s₁ =>
      refine ⟨s₁, rfl, ?_⟩
      simp only [hprog] at h
      -- a closed connection goes on only where ECH is tried once more
      by_cases hclosed : t.closed = true
      · rw [if_pos hclosed, onClosed] at h
        cases hretry : echRetry t s₁ with
        | none =>
            simp only [hretry] at h
            split_ifs at h
        | some retry =>
            cases hagain : t.reconnected with
            | error e => simp only [hretry, hagain, reduceCtorEq] at h
            | ok u =>
                simp only [hretry, hagain, Outcome.running.injEq] at h
                exact .inr ⟨retry, rfl, h.symm⟩
      · rw [if_neg hclosed] at h
        cases h
        exact .inl rfl

/-- **The latches of a running loop say what its events said.** -/
theorem history_drive {turns : List Turn} (h : drive (turn cfg) turns (init cfg) = .running s) :
    History cfg turns s := by
  refine drive_history history_init (fun before t s s' hist hturn => ?_) h
  obtain ⟨s₁, hprog, rfl | ⟨retry, hretry, rfl⟩⟩ := turn_eq_running hturn
  · exact history_progress hist hprog
  · exact history_retried (history_progress hist hprog) hretry

/-- The turns at which the loop ends in success. -/
theorem turn_eq_ok : turn cfg t s = .returned s' (.ok ()) ↔
    expired cfg t s = false ∧ progress cfg t s = .ok s' ∧ t.closed = true ∧
      s'.establishedEver = true := by
  -- a success is a closed connection that has been up
  constructor
  · intro h
    unfold turn at h
    by_cases hexp : expired cfg t s = true
    · rw [if_pos hexp] at h
      cases h
    rw [if_neg hexp] at h
    cases hprog : progress cfg t s with
    | error e =>
        rw [hprog] at h
        cases h
    | ok s₁ =>
        simp only [hprog] at h
        by_cases hclosed : t.closed = true
        · rw [if_pos hclosed, onClosed] at h
          cases hretry : echRetry t s₁ with
          | some retry => cases hagain : t.reconnected <;> simp [hretry, hagain] at h
          | none =>
              simp only [hretry] at h
              by_cases hever : s₁.establishedEver = true
              · rw [if_pos hever] at h
                cases h
                exact ⟨Bool.eq_false_iff.2 hexp, rfl, hclosed, hever⟩
              · rw [if_neg hever] at h
                cases h
        · rw [if_neg hclosed] at h
          cases h
  · rintro ⟨hexp, hprog, hclosed, hever⟩
    -- a connection that has been up is not tried once more
    have hretry : echRetry t s' = none := by
      unfold echRetry
      rw [hever]
      rfl
    simp only [turn, hexp, hprog, hclosed, onClosed, hretry, hever, Bool.false_eq_true, if_false,
      if_true]

/-! ## Success without a confirmation -/

theorem run_eq_running {setup : Except AetherError Unit} {turns : List Turn}
    (h : run cfg setup turns = .running s) :
    setup = .ok () ∧ drive (turn cfg) turns (init cfg) = .running s := by
  cases setup with
  | error e => cases h
  | ok u => exact ⟨rfl, h⟩

/-- Where a run ends in success, `ready` was signalled or this side had asked for the end. -/
def Honest (cfg : TunnelConfig) (setup : Except AetherError Unit) (turns : List Turn) : Prop :=
  ∀ before t after s s', turns = before ++ t :: after → run cfg setup before = .running s →
    turn cfg t s = .returned s' (.ok ()) →
    s'.readyFired = true ∨ (before ++ [t]).any Turn.asks = true

/-- The loop goes through the turns in front of `t`, and through `t` itself up to its last flush. -/
def Reaches (cfg : TunnelConfig) (setup : Except AetherError Unit) (before : List Turn) (t : Turn) :
    Prop :=
  ∃ s s', run cfg setup before = .running s ∧ expired cfg t s = false ∧ progress cfg t s = .ok s'

/-- The connection is closed in `t`, with the handshake done, `ready` not signalled and no close
asked for. -/
def ClosesEarly (cfg : TunnelConfig) (before : List Turn) (t : Turn) : Prop :=
  t.closed = true ∧ (before ++ [t]).any Turn.established = true ∧
    isReady cfg (before ++ [t]) = false ∧ (before ++ [t]).any Turn.asks = false

/-- No turn that the loop reaches closes the connection early. -/
def NeverClosesEarly (cfg : TunnelConfig) (setup : Except AetherError Unit) (turns : List Turn) :
    Prop :=
  ∀ before t after, turns = before ++ t :: after → Reaches cfg setup before t →
    ¬ ClosesEarly cfg before t

/-- **A run ends in success without a reason exactly if the connection is closed early.** -/
theorem honest_iff (cfg : TunnelConfig) (setup : Except AetherError Unit) (turns : List Turn) :
    Honest cfg setup turns ↔ NeverClosesEarly cfg setup turns := by
  constructor
  · rintro honest before t after hturns ⟨s, s', hrun, hexp, hprog⟩ ⟨hclosed, hever, hready, hasked⟩
    have hist := history_progress (history_drive (run_eq_running hrun).2) hprog
    have hreturned : turn cfg t s = .returned s' (.ok ()) :=
      turn_eq_ok.2 ⟨hexp, hprog, hclosed, by rw [hist.established, hever]⟩
    rcases honest before t after s s' hturns hrun hreturned with h | h
    · rw [hist.ready, hready] at h
      cases h
    · rw [hasked] at h
      cases h
  · intro never before t after s s' hturns hrun hturn
    obtain ⟨hexp, hprog, hclosed, hever⟩ := turn_eq_ok.1 hturn
    have hist := history_progress (history_drive (run_eq_running hrun).2) hprog
    by_contra hnone
    obtain ⟨hready, hasked⟩ := not_or.1 hnone
    refine never before t after hturns ⟨s, s', hrun, hexp, hprog⟩ ⟨hclosed, ?_, ?_, ?_⟩
    · rw [← hist.established, hever]
    · rw [← hist.ready, Bool.eq_false_iff.2 hready]
    · exact Bool.eq_false_iff.2 hasked

/-! ## The signal -/

theorem handled_ready {e : Event} {established : Bool} :
    (onEvent cfg established s e).readyFired = s.readyFired :=
  (handled_onEvent established e).ready

theorem establish_ready (h : establish cfg t s = .ok s') (hready : s.readyFired = true) :
    s'.readyFired = true := by
  rcases establish_eq_ok h with ⟨-, -, sid, -, -, -, hfired, -⟩ | ⟨-, rfl⟩
  · rw [hfired, hready, Bool.or_true]
  · exact hready

theorem confirm_ready (hready : s.readyFired = true) : (confirm t s).readyFired = true := by
  rw [confirm_quiet (by rw [hready]; exact Bool.and_false _)]
  exact hready

/-- The state a turn leaves behind, whether or not it failed. -/
def left : Except (State × AetherError) State → State
  | .ok s => s
  | .error (s, _) => s

theorem progress_ready (hready : s.readyFired = true) :
    (left (progress cfg t s)).readyFired = true := by
  -- the event first: no branch of it takes the signal back
  have hevent : (onEvent cfg t.established s t.event).readyFired = true := by
    rw [handled_ready, hready]
  cases hest : establish cfg t (onEvent cfg t.established s t.event) with
  | error e =>
      have hfail : progress cfg t s = .error (onEvent cfg t.established s t.event, e) := by
        unfold progress
        dsimp only
        rw [hest]
        rfl
      rw [hfail]
      exact hevent
  -- the rest of the turn may fail, but only behind the handshake
  | ok s₁ =>
      have h₁ : s₁.readyFired = true := establish_ready hest hevent
      have hrest : progress cfg t s = (do
          let s ← (poll t s₁).mapError fun e => (s₁, e)
          t.flushed.mapError fun e => (confirm t s, e)
          pure (confirm t s)) := by
        unfold progress
        dsimp only
        rw [hest]
        rfl
      rw [hrest]
      cases hpoll : poll t s₁ with
      | error e => exact h₁
      | ok s₂ =>
          obtain ⟨capsules, rfl⟩ := poll_eq_ok hpoll
          have h₂ : (confirm t { s₁ with capsules }).readyFired = true := confirm_ready h₁
          cases t.flushed with
          | error e => exact h₂
          | ok u => exact h₂

/-- **A turn does not take the signal back**, whether it goes on or returns. -/
theorem turn_ready (hready : s.readyFired = true) : (turn cfg t s).state.readyFired = true := by
  -- the progress of a turn keeps the signal, and what follows in the turn does not touch it
  have hprogress : (left (progress cfg t s)).readyFired = true := progress_ready hready
  unfold turn
  by_cases hexp : expired cfg t s = true
  · rw [if_pos hexp]
    exact hready
  rw [if_neg hexp]
  cases hprog : progress cfg t s with
  | error e =>
      rw [hprog] at hprogress
      exact hprogress
  | ok s₁ =>
      rw [hprog] at hprogress
      dsimp only
      by_cases hclosed : t.closed = true
      · rw [if_pos hclosed, onClosed]
        cases echRetry t s₁ with
        | some retry =>
            cases t.reconnected with
            | error e => exact hprogress
            | ok u => exact hprogress
        | none =>
            cases s₁.establishedEver with
            | false => exact hprogress
            | true => exact hprogress
      · rw [if_neg hclosed]
        exact hprogress

end History

end Quic
end Masque
end AuroraVpn
