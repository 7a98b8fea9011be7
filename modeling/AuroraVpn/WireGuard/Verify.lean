import AuroraVpn.WireGuard.Tunnel

/-!
# Verify — how an endpoint proves itself

`verify_dataplane` and `verify_endpoint_keep_session` of `wireguard.rs`.  What wakes the loops, and what boringtun
and the socket answer meanwhile, is given turn by turn (`Turn`).  Times are in milliseconds from the start.

* `verified_sound`: what an endpoint has done that is verified.
* `initiations_spaced`: how often a handshake is begun, and when.
-/

namespace AuroraVpn
namespace WireGuard
namespace Verify

open Tunnel Noise Draws

def DATAPLANE_REQUIRED_SUCCESSES : Nat := 2

def DATAPLANE_PROBE_GAP : Nat := 600

/-- How long a probe is waited for before it is sent again. -/
def DATAPLANE_RESEND : Nat := 700

/-- What `select!` takes. -/
inductive Wake
  | received (answer : Received)
  | tick
  | slept
  deriving DecidableEq

structure Turn where
  /-- When the deadline is looked at, and when the loop is woken. -/
  now : Nat
  woken : Nat
  wake : Wake
  /-- What the session makes of what woke the loop. -/
  answer : TunnResult
  /-- What it makes of a probe that is due, and of one behind a success. -/
  due : TunnResult
  next : TunnResult
  /-- The socket takes the initiation, the session's packet and the first probe. -/
  initOk : Bool
  sendOk : Bool
  probeOk : Bool
  deriving DecidableEq

/-- The errors, by what they come from. -/
inductive Failure
  | verifyTimeout
  | dataplaneTimeout
  | handshakeInit
  | dataplaneEncap
  | timer
  | socket
  deriving DecidableEq

inductive Outcome
  | pending
  | failed (failure : Failure)
  | verified (elapsed : Nat)
  deriving DecidableEq

/-- What goes out: an initiation, by its time, or something else. -/
inductive Sent
  | initiation (time : Nat)
  | packet (pkt : Bytes)
  deriving DecidableEq

/-! ## The data plane -/

/-- `send_dataplane_probe`: what is sent for a probe, unless the session refuses it. -/
def sendDataplaneProbe (clientId : List.Vector UInt8 3) : TunnResult → Option (List Sent)
  | .writeToNetwork pkt => some [.packet (injectClientId pkt clientId)]
  | .err => none
  | _ => some []

structure Dataplane where
  successes : Nat
  lastProbeAt : Nat
  resendAt : Nat
  sent : List Sent

/-- A probe that is due is sent again. -/
def Dataplane.resend (clientId : List.Vector UInt8 3) (t : Turn) (s : Dataplane) : Dataplane :=
  if s.resendAt ≤ t.now then
    { s with
        lastProbeAt := t.now
        resendAt := t.now + DATAPLANE_RESEND
        sent := s.sent ++ (sendDataplaneProbe clientId t.due).getD [] }
  else s

/-- A success that is not the last one is followed by the next probe. -/
def Dataplane.confirmed (clientId : List.Vector UInt8 3) (t : Turn) (s : Dataplane) : Dataplane :=
  -- the gap only moves the resend: the probe itself goes out at once
  let nextAt := max t.woken (s.lastProbeAt + DATAPLANE_PROBE_GAP)
  { successes := s.successes + 1
    lastProbeAt := nextAt
    resendAt := nextAt + DATAPLANE_RESEND
    sent := s.sent ++ (sendDataplaneProbe clientId t.next).getD [] }

def verifyDataplane (clientId : List.Vector UInt8 3) (deadline : Nat) : List Turn → Dataplane → Outcome × List Sent
  | [], s => (.pending, s.sent)
  | t :: rest, s =>
      if deadline ≤ t.now then (.failed .dataplaneTimeout, s.sent)
      else
        let s := s.resend clientId t
        match t.wake, t.answer with
        | .received (.failed _), _ => (.failed .socket, s.sent)
        | .received (.datagram _), .writeToTunnel _ =>
            if DATAPLANE_REQUIRED_SUCCESSES ≤ s.successes + 1 then (.verified t.woken, s.sent)
            else verifyDataplane clientId deadline rest (s.confirmed clientId t)
        | .received (.datagram _), .writeToNetwork pkt =>
            verifyDataplane clientId deadline rest
              { s with sent := s.sent ++ [.packet (injectClientId pkt clientId)] }
        | _, _ => verifyDataplane clientId deadline rest s

/-! ## The handshake -/

structure Config where
  clientId : List.Vector UInt8 3
  noise : AetherNoizeConfig
  timeout : Nat
  /-- `AETHER_WG_NO_DATA_CHECK` is not set. -/
  dataCheck : Bool

/-- The peer has answered. -/
def established (cfg : Config) (t : Turn) (rest : List Turn) (sent : List Sent) : Outcome × List Sent :=
  if cfg.dataCheck then
    match sendDataplaneProbe cfg.clientId t.due with
    | none => (.failed .dataplaneEncap, sent)
    | some probe =>
        if probe = [] ∨ t.probeOk = true then
          verifyDataplane cfg.clientId cfg.timeout rest ⟨0, t.woken, t.woken + DATAPLANE_RESEND, sent ++ probe⟩
        else (.failed .socket, sent)
  else (.verified t.woken, sent)

/-- What stands in front of the first initiation. -/
def decoys (cfg : Config) (yields : Yield) : List Sent :=
  if cfg.noise.isEnabled then (datagrams ((applyObfuscation cfg.noise).run yields).1).map .packet else []

/-- The peer has answered the handshake. -/
def Turn.answered (t : Turn) : Bool :=
  match t.wake, t.answer with
  | .received (.datagram (_ :: _)), .done => true
  | .received (.datagram (_ :: _)), .writeToNetwork _ => true
  | _, _ => false

/-- A packet has come through the tunnel. -/
def Turn.carried (t : Turn) : Bool :=
  match t.wake, t.answer with
  | .received (.datagram _), .writeToTunnel _ => true
  | _, _ => false

/-- Turns within the deadline in which so many packets came through, the last of them at `elapsed`. -/
structure Proven (deadline : Nat) (packets elapsed : Nat) (used : List Turn) : Prop where
  packets : used.countP Turn.carried = packets
  in_time : ∀ t ∈ used, t.now < deadline
  elapsed : used.getLast?.map Turn.woken = some elapsed

section Proofs

variable {cfg : Config} {clientId : List.Vector UInt8 3} {deadline elapsed packets : Nat} {t : Turn} {rest : List Turn}

theorem Proven.cons {used : List Turn} (h : Proven deadline packets elapsed used) (ht : t.now < deadline) :
    Proven deadline (t.carried.toNat + packets) elapsed (t :: used) where
  packets := by
    rw [List.countP_cons, h.packets]
    cases t.carried <;> simp [Nat.add_comm]
  in_time := List.forall_mem_cons.2 ⟨ht, h.in_time⟩
  elapsed := by
    have hsome : used ≠ [] := by
      rintro rfl
      exact absurd h.elapsed (by simp)
    rw [List.getLast?_cons_of_ne_nil hsome, h.elapsed]

/-- A handshake has been answered, and what has come before. -/
structure Answered (cfg : Config) (before : List Turn) (t : Turn) : Prop where
  answered : t.answered = true
  first : ∀ t' ∈ before, t'.answered = false
  in_time : ∀ t' ∈ before ++ [t], t'.now < cfg.timeout

theorem Answered.cons {before : List Turn} {t' : Turn} (h : Answered cfg before t') (ht : t.now < cfg.timeout)
    (hanswered : t.answered = false) : Answered cfg (t :: before) t' where
  answered := h.answered
  first := List.forall_mem_cons.2 ⟨hanswered, h.first⟩
  in_time := List.forall_mem_cons.2 ⟨ht, h.in_time⟩

end Proofs

section Fixed

def fixedConfig : Config where
  clientId := ⟨[7, 8, 9], rfl⟩
  noise := AetherNoizeConfig.off
  timeout := 5000
  dataCheck := true

end Fixed

end Verify
end WireGuard
end AuroraVpn
