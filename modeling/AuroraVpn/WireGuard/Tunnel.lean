import AuroraVpn.Lib.Runs
import AuroraVpn.WireGuard.Noise
import AuroraVpn.WireGuard.Probe

/-!
# Tunnel — the four tasks of a WireGuard tunnel

`WgTunnel::run` of `wireguard.rs`: what the socket yields, what the application hands over, the timers and
the health check, each in a task of its own, over one session of boringtun behind a lock.  What boringtun, the
socket and the random generator answer is given with each turn (`Env`).  A turn of a task leads from one await
to the next.  Times are in milliseconds.

* `machine`: the tasks, the application and the clock, in any order.
-/

namespace AuroraVpn
namespace WireGuard
namespace Tunnel

open Draws Noise Runs

/-! ## Messages -/

def WG_MSG_TYPE_MIN : UInt8 := 1
def WG_MSG_TYPE_MAX : UInt8 := 4

/-- `pkt[1..4].copy_from_slice(reserved)`, on a message of the protocol. -/
def setReserved (reserved : List.Vector UInt8 3) (pkt : Bytes) : Bytes :=
  match pkt with
  | first :: _ :: _ :: _ :: rest =>
      if first < WG_MSG_TYPE_MIN ∨ WG_MSG_TYPE_MAX < first then pkt else first :: reserved.toList ++ rest
  | _ => pkt

def injectClientId (pkt : Bytes) (clientId : List.Vector UInt8 3) : Bytes :=
  setReserved clientId pkt

def stripClientId (pkt : Bytes) : Bytes :=
  setReserved ⟨[0, 0, 0], rfl⟩ pkt

/-! ## What the surroundings answer -/

/-- `std::io::ErrorKind`, as far as a socket yields it. -/
inductive SocketError
  | connectionRefused
  | connectionReset
  | connectionAborted
  | hostUnreachable
  | networkUnreachable
  | interrupted
  | wouldBlock
  | timedOut
  | notConnected
  | addrNotAvailable
  | permissionDenied
  | invalidInput
  | other
  deriving DecidableEq

def isTransientSocketError : SocketError → Bool
  | .connectionRefused | .connectionReset | .connectionAborted | .hostUnreachable | .networkUnreachable
  | .interrupted | .wouldBlock | .timedOut => true
  | _ => false

/-- `boringtun::noise::TunnResult`. -/
inductive TunnResult
  | done
  | err
  | writeToNetwork (pkt : Bytes)
  | writeToTunnel (pkt : Bytes)
  deriving DecidableEq

/-- `sock.recv`. -/
inductive Received
  | datagram (bytes : Bytes)
  | failed (error : SocketError)
  deriving DecidableEq

structure Env where
  received : Received
  answer : TunnResult
  yields : Yield

/-! ## What comes in -/

def MAX_TRANSIENT_RECV_ERRORS : Nat := 64
def TRANSIENT_RECV_BACKOFF : Nat := 50

/-- The await that the task has come to. -/
inductive RecvPc
  | receiving
  | locking (datagram : Bytes)
  | answering (pkt : Bytes)
  | handing (pkt : Bytes)
  | resting (until_ : Nat)
  | ended
  deriving DecidableEq

inductive RecvEvent
  | received (answer : Received)
  | decapsulated (time : Nat) (datagram : Bytes) (answer : TunnResult)
  | sent (pkt : Bytes)
  deriving DecidableEq

structure RecvTask where
  pc : RecvPc
  transientErrors : Nat
  lastValidRx : Nat
  /-- What the application has been handed. -/
  inbound : List Bytes
  log : List RecvEvent

namespace RecvTask

def note (event : RecvEvent) (t : RecvTask) : RecvTask :=
  { t with log := t.log ++ [event] }

def received (answer : Received) (now : Nat) (t : RecvTask) : RecvTask :=
  let t := t.note (.received answer)
  match answer with
  | .datagram [] => t
  | .datagram bytes => { t with transientErrors := 0, pc := .locking (stripClientId bytes) }
  | .failed error =>
      if isTransientSocketError error then
        if MAX_TRANSIENT_RECV_ERRORS < t.transientErrors + 1 then
          { t with transientErrors := t.transientErrors + 1, pc := .ended }
        else { t with transientErrors := t.transientErrors + 1, pc := .resting (now + TRANSIENT_RECV_BACKOFF) }
      else { t with pc := .ended }

def decapsulated (clientId : List.Vector UInt8 3) (datagram : Bytes) (answer : TunnResult) (now : Nat)
    (t : RecvTask) : RecvTask :=
  let t := t.note (.decapsulated now datagram answer)
  match answer with
  | .done => { t with lastValidRx := now, pc := .receiving }
  | .err => { t with pc := .receiving }
  | .writeToNetwork pkt => { t with lastValidRx := now, pc := .answering (injectClientId pkt clientId) }
  | .writeToTunnel pkt => { t with lastValidRx := now, pc := .handing pkt }

/-- The application gets the packet, unless it has gone. -/
def hand (pkt : Bytes) (inboundOpen : Bool) (t : RecvTask) : RecvTask :=
  { t with inbound := if inboundOpen then t.inbound ++ [pkt] else t.inbound, pc := .receiving }

/-- `held`: the session is locked. -/
def turn (clientId : List.Vector UInt8 3) (env : Env) (now : Nat) (held inboundOpen : Bool) (t : RecvTask) :
    Option RecvTask :=
  match t.pc with
  | .receiving => some (t.received env.received now)
  | .locking datagram => if held then none else some (t.decapsulated clientId datagram env.answer now)
  | .answering pkt => some { t.note (.sent pkt) with pc := .receiving }
  | .handing pkt => some (t.hand pkt inboundOpen)
  | .resting until_ => if until_ ≤ now then some { t with pc := .receiving } else none
  | .ended => none

end RecvTask

/-! ## What goes out -/

inductive SendPc
  | taking
  | locking (packet : Bytes)
  | noise (acts : List Act) (due : Nat) (msg : Bytes)
  | sending (msg : Bytes)
  | junk (acts : List Act) (due : Nat)
  | ended
  deriving DecidableEq

inductive SendEvent
  | offered (packet : Bytes)
  | took (packet : Bytes)
  | encapsulated (packet : Bytes) (answer : TunnResult)
  | message (msg : Bytes)
  | decoy (datagram : Bytes)
  deriving DecidableEq

structure SendTask where
  pc : SendPc
  /-- What the application has handed over, and whether it may hand over more. -/
  queue : List Bytes
  queueOpen : Bool
  obfSent : Bool
  postHsJunkSent : Bool
  log : List SendEvent

namespace SendTask

def note (event : SendEvent) (t : SendTask) : SendTask :=
  { t with log := t.log ++ [event] }

variable (cfg : AetherNoizeConfig)

def offer (packet : Bytes) (t : SendTask) : Option SendTask :=
  if t.queueOpen then some { t.note (.offered packet) with queue := t.queue ++ [packet] } else none

def took (t : SendTask) : Option SendTask :=
  match t.queue with
  | packet :: rest => some { t.note (.took packet) with queue := rest, pc := .locking packet }
  | [] => if t.queueOpen then none else some { t with pc := .ended }

def encapsulated (clientId : List.Vector UInt8 3) (packet : Bytes) (env : Env) (now : Nat) (t : SendTask) :
    SendTask :=
  let t := t.note (.encapsulated packet env.answer)
  match env.answer with
  | .writeToNetwork pkt =>
      let msg := injectClientId pkt clientId
      if t.obfSent = false ∧ cfg.isEnabled then
        { t with obfSent := true, pc := .noise ((applyObfuscation cfg).run env.yields).1 now msg }
      else { t with pc := .sending msg }
  | _ => { t with pc := .taking }

def sent (msg : Bytes) (yields : Yield) (now : Nat) (t : SendTask) : SendTask :=
  let t := t.note (.message msg)
  if 0 < cfg.jcAfterHs ∧ t.postHsJunkSent = false then
    { t with postHsJunkSent := true, pc := .junk ((sendPostHandshakeJunk cfg).run yields).1 now }
  else { t with pc := .taking }

def turn (clientId : List.Vector UInt8 3) (env : Env) (now : Nat) (held : Bool) (t : SendTask) :
    Option SendTask :=
  match t.pc with
  | .taking => t.took
  | .locking packet => if held then none else some (t.encapsulated cfg clientId packet env now)
  | .noise acts due msg =>
      if due ≤ now then
        match acts with
        | .sent datagram :: rest => some { t.note (.decoy datagram) with pc := .noise rest due msg }
        | .slept millis :: rest => some { t with pc := .noise rest (now + millis) msg }
        | [] => some { t with pc := .sending msg }
      else none
  | .sending msg => some (t.sent cfg msg env.yields now)
  | .junk acts due =>
      if due ≤ now then
        match acts with
        | .sent datagram :: rest => some { t.note (.decoy datagram) with pc := .junk rest due }
        | .slept millis :: rest => some { t with pc := .junk rest (now + millis) }
        | [] => some { t with pc := .taking }
      else none
  | .ended => none

end SendTask

/-! ## The timers -/

def TIMER_TICK : Nat := 250

/-- `next`: when the interval ticks again. -/
inductive TimerPc
  | ticking (next : Nat)
  | locking (next : Nat)
  | junk (acts : List Act) (due : Nat) (msg : Bytes) (next : Nat)
  | sending (msg : Bytes) (next : Nat)
  deriving DecidableEq

inductive TimerEvent
  | updated (answer : TunnResult)
  | message (msg : Bytes)
  | decoy (datagram : Bytes)
  deriving DecidableEq

structure TimerTask where
  pc : TimerPc
  log : List TimerEvent

namespace TimerTask

def note (event : TimerEvent) (t : TimerTask) : TimerTask :=
  { t with log := t.log ++ [event] }

variable (cfg : AetherNoizeConfig)

def updated (clientId : List.Vector UInt8 3) (env : Env) (now next : Nat) (t : TimerTask) : TimerTask :=
  let t := t.note (.updated env.answer)
  match env.answer with
  | .writeToNetwork pkt =>
      let msg := injectClientId pkt clientId
      if cfg.isEnabled then { t with pc := .junk ((sendKeepaliveJunk cfg).run env.yields).1 now msg next }
      else { t with pc := .sending msg next }
  | _ => { t with pc := .ticking next }

def turn (clientId : List.Vector UInt8 3) (env : Env) (now : Nat) (held : Bool) (t : TimerTask) :
    Option TimerTask :=
  match t.pc with
  | .ticking next => if next ≤ now then some { t with pc := .locking (next + TIMER_TICK) } else none
  | .locking next => if held then none else some (t.updated cfg clientId env now next)
  | .junk acts due msg next =>
      if due ≤ now then
        match acts with
        | .sent datagram :: rest =>
            some { t.note (.decoy datagram) with pc := .junk rest due msg next }
        | .slept millis :: rest => some { t with pc := .junk rest (now + millis) msg next }
        | [] => some { t with pc := .sending msg next }
      else none
  | .sending msg next => some { t.note (.message msg) with pc := .ticking next }

end TimerTask

/-! ## The health check -/

def WG_HEALTHCHECK_INTERVAL : Nat := 3000
def WG_HEALTHCHECK_JITTER : Nat := 500

def healthCheckPause : Drawing Nat := do
  let offset ← between 0 (WG_HEALTHCHECK_JITTER * 2)
  pure (WG_HEALTHCHECK_INTERVAL - WG_HEALTHCHECK_JITTER + offset)

/-- `wg_stale_timeout`, by what the variable is set to. -/
def wgStaleTimeout (setting : Option Nat) : Nat :=
  match setting.filter fun secs => 0 < secs with
  | some secs => min secs 86400 * 1000
  | none => 10 * 1000

/-- The session is locked while a probe is sent. -/
inductive HealthPc
  | sleeping (began until_ : Nat)
  | locking (probe : Bytes)
  | sending (msg : Bytes)
  | ended (lastValidRx : Nat)
  deriving DecidableEq

inductive HealthEvent
  | encapsulated (probe : Bytes) (answer : TunnResult)
  | message (msg : Bytes)
  deriving DecidableEq

structure HealthTask where
  pc : HealthPc
  /-- When the task last looked for data. -/
  looked : Nat
  log : List HealthEvent

namespace HealthTask

def note (event : HealthEvent) (t : HealthTask) : HealthTask :=
  { t with log := t.log ++ [event] }

def holds (t : HealthTask) : Bool :=
  match t.pc with
  | .sending _ => true
  | _ => false

/-- The loop begins anew. -/
def rest (yields : Yield) (now : Nat) (t : HealthTask) : HealthTask :=
  { t with pc := .sleeping now (now + (healthCheckPause.run yields).1) }

def look (src : List.Vector UInt8 4) (staleTimeout lastValidRx : Nat) (yields : Yield) (now : Nat) (t : HealthTask) :
    HealthTask :=
  let idle := now - lastValidRx
  if staleTimeout ≤ idle then { t with pc := .ended lastValidRx, looked := now }
  else { t with pc := .locking ((buildDataplaneProbe src).run yields).1, looked := now }

def encapsulated (clientId : List.Vector UInt8 3) (probe : Bytes) (env : Env) (now : Nat) (t : HealthTask) :
    HealthTask :=
  let t := t.note (.encapsulated probe env.answer)
  match env.answer with
  | .writeToNetwork pkt => { t with pc := .sending (injectClientId pkt clientId) }
  | _ => t.rest env.yields now

def turn (clientId : List.Vector UInt8 3) (src : List.Vector UInt8 4) (staleTimeout lastValidRx : Nat) (env : Env)
    (now : Nat) (t : HealthTask) : Option HealthTask :=
  match t.pc with
  | .sleeping _ until_ => if until_ ≤ now then some (t.look src staleTimeout lastValidRx env.yields now) else none
  | .locking probe => some (t.encapsulated clientId probe env now)
  | .sending msg => some ((t.note (.message msg)).rest env.yields now)
  | .ended _ => none

end HealthTask

/-! ## The tunnel -/

structure Config where
  clientId : List.Vector UInt8 3
  localIpv4 : List.Vector UInt8 4
  noise : AetherNoizeConfig
  /-- The number that `AETHER_WG_STALE_SECS` is. -/
  staleSecs : Option Nat
  /-- The session was established by a probe, which sent the noise. -/
  established : Bool

inductive Task
  | recv
  | send
  | timer
  | health
  deriving DecidableEq

structure State where
  now : Nat
  inboundOpen : Bool
  recv : RecvTask
  send : SendTask
  timer : TimerTask
  health : HealthTask
  result : Option (Except AetherError Unit)

/-- `run` begins. -/
def start (cfg : Config) (yields : Yield) : State where
  now := 0
  inboundOpen := true
  recv := ⟨.receiving, 0, 0, [], []⟩
  send := ⟨.taking, [], true, cfg.established, false, []⟩
  timer := ⟨.ticking 0, []⟩
  health := (⟨.sleeping 0 0, 0, []⟩ : HealthTask).rest yields 0
  result := none

def State.turn (cfg : Config) (env : Env) (s : State) : Task → Option State
  | .recv => (s.recv.turn cfg.clientId env s.now s.health.holds s.inboundOpen).map fun t => { s with recv := t }
  | .send => (s.send.turn cfg.noise cfg.clientId env s.now s.health.holds).map fun t => { s with send := t }
  | .timer => (s.timer.turn cfg.noise cfg.clientId env s.now s.health.holds).map fun t => { s with timer := t }
  | .health =>
      (s.health.turn cfg.clientId cfg.localIpv4 (wgStaleTimeout cfg.staleSecs) s.recv.lastValidRx env s.now).map
        fun t => { s with health := t }

/-- What `run` returns when a task has ended. -/
def State.ended (s : State) : Task → Option (Except AetherError Unit)
  | .recv => if s.recv.pc = .ended then some (.ok ()) else none
  | .send => if s.send.pc = .ended then some (.ok ()) else none
  | .timer => none
  | .health =>
      match s.health.pc with
      | .ended _ => some (.error (.other "wireguard tunnel stale: no valid data from peer"))
      | _ => none

inductive Label
  | pass (millis : Nat)
  | offer (packet : Bytes)
  | closeOutbound
  | closeInbound
  | turn (task : Task) (env : Env)
  | finish (task : Task)

def step (cfg : Config) (l : Label) (s : State) : Option State :=
  if s.result.isSome then none
  else
    match l with
    | .pass millis => some { s with now := s.now + millis }
    | .offer packet => (s.send.offer packet).map fun t => { s with send := t }
    | .closeOutbound => some { s with send := { s.send with queueOpen := false } }
    | .closeInbound => some { s with inboundOpen := false }
    | .turn task env => s.turn cfg env task
    | .finish task => (s.ended task).map fun result => { s with result := some result }

def machine (cfg : Config) : Machine State Label where
  init s := ∃ yields, s = start cfg yields
  enabled l s := (step cfg l s).isSome
  step := step cfg

end Tunnel
end WireGuard
end AuroraVpn
