import AuroraVpn.Socks.Route

/-!
# Connect — what a CONNECT client is told

`handle_connect` and `handle_direct` of `socks.rs`, as functions of what their surroundings do: the
client's first bytes, the gateway, the name server, the tunnel and the system's own network.  Every
byte written to the client is marked with where it came from.
-/

namespace AuroraVpn
namespace Socks

open BigEndian Routing

def REP_OK : UInt8 := 0x00
def REP_GENERAL : UInt8 := 0x01
def REP_NOT_ALLOWED : UInt8 := 0x02

/-! ## The client's side -/

/-- Whether a byte is the server's own word or came from the remote side. -/
inductive Voice
  | own
  | remote
  deriving DecidableEq, Repr

/-- `room` is how many more bytes the client takes before its end of the connection is gone. -/
structure Session where
  room : Nat
  written : List (Voice × UInt8)
  gatewayHealthy : Bool

abbrev Serve (α : Type) := ExceptT AetherError (StateM Session) α

def said (voice : Voice) (bs : Bytes) : List (Voice × UInt8) :=
  bs.map (fun b => (voice, b))

def writeAll (voice : Voice) (bs : Bytes) : Serve Unit := fun s =>
  (if bs.length ≤ s.room then .ok () else .error (.io .brokenPipe),
    { s with
      room := s.room - bs.length
      written := s.written ++ said voice (bs.take s.room) })

/-- `let _ = ..`, and `..is_err()` with the outcome as a `Bool`. -/
def attempt (act : Serve Unit) : Serve Bool := fun s =>
  match act s with
  | (.ok (), s) => (.ok true, s)
  | (.error _, s) => (.ok false, s)

def replyBytes (code : UInt8) : Bytes :=
  [VER, code, 0x00, ATYP_V4, 0, 0, 0, 0, 0, 0]

def reply (code : UInt8) : Serve Unit :=
  writeAll .own (replyBytes code)

def boundBytes (bound : SocketAddr) : Bytes :=
  [VER, REP_OK, 0x00] ++
    (match bound.ip with
    | .v4 octets => ATYP_V4 :: octets.toList
    | .v6 octets => ATYP_V6 :: octets.toList) ++
    toBe 2 bound.port.toNat

def replyBound (bound : SocketAddr) : Serve Unit :=
  writeAll .own (boundBytes bound)

/-- `"0.0.0.0:0".parse()` -/
def unspecified : SocketAddr :=
  .new (.v4 (IpAddr.quad 0 0 0 0)) 0

/-- The download half of a relay, with the chunks that come before the relay ends. -/
def relay : List Bytes → Serve Unit
  | [] => pure ()
  | chunk :: chunks => do
      if ← attempt (writeAll .remote chunk) then
        relay chunks

/-! ## The surroundings -/

/-- What the timed read of the client's first bytes comes to. -/
inductive Peek
  | read (bs : Bytes)
  | failed
  | timedOut

/-- A connection through the tunnel: bytes that came behind the gateway's answer, whether the
client's first bytes can be sent, and the chunks the remote side sends. -/
structure Channel where
  leftover : Bytes
  takesHead : Bool
  chunks : List Bytes

/-- A connection around the tunnel. -/
structure Upstream where
  takesHead : Bool
  chunks : List Bytes

structure World (ν ρ : Type) where
  crates : Crates ν ρ
  routes : RuleSet ν ρ
  sniffEnabled : Bool
  peek : Peek
  hostname : Bytes → Option Text
  gateway : Option SocketAddr
  openThroughGateway : SocketAddr → Target → UInt16 → Except AetherError Channel
  dnsResolve : Text → Except AetherError IpAddr
  openTcp : SocketAddr → Except AetherError Channel
  peerAddr : Except AetherError IpAddr
  /-- `none` when the connection does not come about in time. -/
  connectDirect : Target → UInt16 → IpAddr → Option (Except IoErrorKind Upstream)

section Model

variable {ν ρ : Type} (w : World ν ρ)

def readSniffHead : Option Bytes :=
  match w.peek with
  | .read [] => none
  | .read head => some head
  | .failed => none
  | .timedOut => some []

def shouldUseGateway (port : UInt16) : Bool :=
  port == 80 || port == 443

def gatewayProxy (healthy : Bool) : Option SocketAddr :=
  if healthy then w.gateway else none

def retireGateway : Serve Unit :=
  modify fun s => { s with gatewayHealthy := false }

/-- `if !replied { let _ = reply(..) }`, on the way out. -/
def refuse (replied : Bool) (code : UInt8) : Serve Unit := do
  if !replied then
    let _ ← attempt (reply code)

/-- `if !replied { reply_bound(..)? }`, before the relay. -/
def confirm (replied : Bool) : Serve Unit := do
  if !replied then
    replyBound unspecified

def handleDirect (target : Target) (port : UInt16) (head : Bytes) (replied : Bool) : Serve Unit := do
  let client ← w.peerAddr
  match w.connectDirect target port client with
  | some (.ok upstream) =>
      if !head.isEmpty && !upstream.takesHead then
        pure ()
      else
        confirm replied
        relay upstream.chunks
  | some (.error kind) =>
      refuse replied (if kind = .permissionDenied then REP_NOT_ALLOWED else REP_GENERAL)
  | none => refuse replied REP_GENERAL

/-- A connection without the gateway; `handle_connect` has this block twice. -/
def openPlain (target : Target) (port : UInt16) : Serve Channel := do
  match resolve w.dnsResolve target with
  | .error e =>
      let _ ← attempt (reply REP_GENERAL)
      throw e
  | .ok ip =>
      match w.openTcp (.new ip port) with
      | .error e =>
          let _ ← attempt (reply REP_GENERAL)
          throw e
      | .ok channel => pure { channel with leftover := [] }

def viaGateway (healthy : Bool) (port : UInt16) : Option SocketAddr :=
  (gatewayProxy w healthy).filter (fun _ => shouldUseGateway port)

def openChannel (target : Target) (port : UInt16) : Serve Channel := do
  let s ← get
  match viaGateway w s.gatewayHealthy port with
  | some proxy =>
      match w.openThroughGateway proxy target port with
      | .ok channel => pure channel
      | .error _ =>
          retireGateway
          openPlain w target port
  | none => openPlain w target port

/-- Sends the client's first bytes on, and to the client what the remote side sends. -/
def deliver (channel : Channel) (head : Bytes) : Serve Unit := do
  if !head.isEmpty && !channel.takesHead then
    pure ()
  else if channel.leftover.isEmpty then
    relay channel.chunks
  else if ← attempt (writeAll .remote channel.leftover) then
    relay channel.chunks

/-- `handle_connect` from the routing decision on. -/
def dispatch (target : Target) (port : UInt16) (head : Bytes) (replied : Bool)
    (named : Option Text) : Serve Unit := do
  match decideRoute w.crates w.routes target named port with
  | .block => refuse replied REP_NOT_ALLOWED
  | .direct => handleDirect w target port head replied
  | .proxy =>
      let channel ← openChannel w target port
      confirm replied
      deliver channel head

/-- The name in the client's first bytes, if there are any. -/
def announced (head : Bytes) : Option Text :=
  if head.isEmpty then none else w.hostname head

def handleConnect (target : Target) (port : UInt16) : Serve Unit := do
  if sniffs w.sniffEnabled w.routes target then
    replyBound unspecified
    match readSniffHead w with
    | some head => dispatch w target port head true (announced w head)
    | none => pure ()
  else
    dispatch w target port [] false none

end Model

end Socks
end AuroraVpn
