import AuroraVpn.Bridge.Config
import AuroraVpn.Lib.Program
import AuroraVpn.Masque.Candidates

/-!
# Calls — what the engine asks of the network, of Cloudflare and of its files

The entry points of the engine are programs over the calls below.  An identity is loaded or provisioned
in one call; so is the verification of one address, with all that its answer may depend on (`Check`).

* `Settings`: the variables of the environment that are read.
* `Proof.AppliesTo`: what an attempt may make of a remembered endpoint.
-/

namespace AuroraVpn
namespace Engine

open Account (Identity Slot Family)
open Bridge (EmbeddedConfig Protocol)
open Program (outcome made)

/-- An ECHConfigList. -/
abbrev ECHConfigList := Bytes

def lower (t : Text) : Text :=
  t.map Char.toLower

def base64Value (c : Char) : Option Nat :=
  if 'A' ≤ c ∧ c ≤ 'Z' then some (c.toNat - 'A'.toNat)
  else if 'a' ≤ c ∧ c ≤ 'z' then some (c.toNat - 'a'.toNat + 26)
  else if '0' ≤ c ∧ c ≤ '9' then some (c.toNat - '0'.toNat + 52)
  else if c = '+' then some 62
  else if c = '/' then some 63
  else none

/-- `STANDARD.decode` of the crate `base64`: whole groups, and no bit left over in the last one. -/
def base64Decode : Text → Option Bytes
  | [] => some []
  | [a, b, '=', '='] => do
      let n := (← base64Value a) * 64 + (← base64Value b)
      if n % 16 = 0 then pure [UInt8.ofNat (n / 16)] else none
  | [a, b, c, '='] => do
      let n := ((← base64Value a) * 64 + (← base64Value b)) * 64 + (← base64Value c)
      if n % 4 = 0 then pure [UInt8.ofNat (n / 1024), UInt8.ofNat (n / 4)] else none
  | a :: b :: c :: d :: rest => do
      let n := (((← base64Value a) * 64 + (← base64Value b)) * 64 + (← base64Value c)) * 64 + (← base64Value d)
      let bytes ← base64Decode rest
      pure (UInt8.ofNat (n / 65536) :: UInt8.ofNat (n / 256) :: UInt8.ofNat n :: bytes)
  | _ => none

/-- `decode_ech_config_list`, where it does not fail. -/
def decodeEchConfigList (t : Text) : Option ECHConfigList :=
  base64Decode (trim t)

/-! ## Settings -/

/-- The variables that the engine reads, as they are set, and what `attempt_ech` holds of the last ten
minutes. -/
structure Settings where
  masqueHttp2 : Option Text := none
  masqueH2Peer : Option Text := none
  masqueH2Fragment : Option Text := none
  ech : Option Text := none
  heldEch : Option (Option ECHConfigList) := none
  noize : Option Text := none
  wgNoProfileRetry : Option Text := none
  teamEndpoint : Option Text := none
  quickReconnect : Option Text := none
  peer : Option Text := none
  wgPeer : Option Text := none
  scan : Option Text := none
  ip : Option Text := none
  wiwPeers : Option Text := none
  wiwOuterPeer : Option Text := none
  wiwInnerPeer : Option Text := none
  mimPeers : Option Text := none
  mimOuterPeer : Option Text := none
  mimInnerPeer : Option Text := none
  deriving DecidableEq

namespace Settings

/-- `masque_h2::enabled`. -/
def h2Enabled (settings : Settings) : Bool :=
  match settings.masqueHttp2 with
  | some v => lower (trim v) ∈ ["1".toList, "true".toList, "h2".toList, "yes".toList, "on".toList]
  | none => false

/-- The edge that is dialled over HTTP/2 whatever the peer is. -/
def h2Override (settings : Settings) : Option SocketAddr :=
  settings.masqueH2Peer.bind fun v => parseSocketAddr (trim v)

def h2Peer (settings : Settings) (quicPeer : SocketAddr) : SocketAddr :=
  settings.h2Override.getD quicPeer

def echRequired (settings : Settings) : Bool :=
  match settings.ech with
  | some v => lower v = "require".toList
  | none => false

/-- Whether `resolve_ech` looks for a configuration on the network. -/
def echFetched (settings : Settings) : Bool :=
  match settings.ech with
  | some v => lower v ∈ ["auto".toList, "require".toList]
  | none => false

/-- The configuration that the variable itself carries, where it carries one. -/
def echGiven (settings : Settings) : Option ECHConfigList :=
  match settings.ech with
  | some v => if v = [] ∨ lower v = "off".toList then none else decodeEchConfigList v
  | none => none

/-- `noize_config`, by the name of its profile. -/
def noizeConfig (settings : Settings) : Text :=
  settings.noize.getD "firewall".toList

/-- `aethernoize_config`, by the name of its profile. -/
def aethernoizeConfig (settings : Settings) : Text :=
  settings.noize.getD "balanced".toList

/-- The profiles behind the first one, as far as it is none of them. -/
def fallbackProfiles (primary : Text) : List Text :=
  ["balanced".toList, "aggressive".toList, "light".toList, "off".toList].filter fun fallback =>
    lower primary ≠ lower fallback

def wgProfileCandidates (settings : Settings) : List Text :=
  let primary := settings.aethernoizeConfig
  if settings.wgNoProfileRetry.isSome then [primary] else primary :: fallbackProfiles primary

/-- The endpoint that the organization assigned. -/
def assignedByTeam (settings : Settings) : Option SocketAddr :=
  settings.teamEndpoint.bind parseSocketAddr

end Settings

/-! ## Remembered endpoints -/

/-- What an endpoint was proven with. -/
structure Proof where
  transport : Text := []
  profile : Text := []
  fragmentTls : Bool := false
  ech : Bool := false
  deriving DecidableEq

structure LastConnection where
  /-- As far as the text in the file is an address. -/
  peer : Option SocketAddr
  profile : Text
  proof : Proof
  deriving DecidableEq

/-- `LastConnection::applies_to`. -/
def Proof.AppliesTo (proof now : Proof) : Prop :=
  proof.transport = [] ∨
    proof.transport = now.transport ∧ proof.fragmentTls = now.fragmentTls ∧ proof.ech = now.ech

instance (proof now : Proof) : Decidable (proof.AppliesTo now) :=
  inferInstanceAs (Decidable (_ ∨ _ ∧ _ ∧ _))

namespace Settings

/-- The shape that this attempt is made with. -/
def attemptProof (settings : Settings) (transport : Text) : Proof where
  transport := transport
  profile := settings.noize.getD "firewall".toList
  fragmentTls := settings.masqueH2Fragment.isSome
  ech := ¬ (settings.ech = none ∨ settings.ech = some [] ∨ settings.ech = some "off".toList)

def masqueFraming (settings : Settings) : Text :=
  if settings.h2Enabled then "h2".toList else "h3".toList

end Settings

/-! ## Identities and tunnels -/

/-- An identity, with the loader it came from and the slot it is held in. -/
structure Held where
  loader : Family
  slot : Slot
  identity : Identity
  deriving DecidableEq

/-- What an exchange with an edge looks like on the network. -/
inductive Wire
  | h3 (noize : Text) (ech : Option ECHConfigList)
  | h2
  | wg (profile : Text)
  deriving DecidableEq

/-- The verification of one address. -/
structure Check where
  wire : Wire
  held : Held
  /-- Where the packets go to. -/
  dial : SocketAddr
  /-- Whether a request over HTTP has to come back through the tunnel. -/
  ping : Bool
  timeoutMs : Nat
  deriving DecidableEq

/-- One hop of a tunnel. -/
structure Hop where
  wire : Wire
  held : Held
  dial : SocketAddr
  /-- Dialled inside another tunnel, to a forwarder on this device. -/
  inside : Bool
  deriving DecidableEq

/-! ## Scans -/

inductive IpScan
  | v4
  | v6
  | both
  deriving DecidableEq, Repr

def IpScan.parse (s : Text) : IpScan :=
  let s := lower (trim s)
  if s ∈ ["6".toList, "v6".toList, "ipv6".toList] then .v6
  else if s ∈ ["both".toList, "all".toList, "dual".toList] then .both
  else .v4

def IpScan.wantV4 (ip : IpScan) : Bool := ip ≠ .v6
def IpScan.wantV6 (ip : IpScan) : Bool := ip ≠ .v4

inductive ScanMode
  | turbo
  | balanced
  | thorough
  | stealth
  | ironclad
  deriving DecidableEq, Repr

/-- `ScanMode::parse`, and `WgScanMode::parse`. -/
def ScanMode.parse (s : Text) : ScanMode :=
  let s := lower (trim s)
  if s ∈ ["turbo".toList, "fast".toList] then .turbo
  else if s ∈ ["thorough".toList, "deep".toList, "pro".toList] then .thorough
  else if s ∈ ["stealth".toList, "quiet".toList] then .stealth
  else if s ∈ ["ironclad".toList, "real".toList, "verify".toList, "guaranteed".toList] then .ironclad
  else .balanced

structure Strategy where
  perProbeTimeoutMs : Nat
  quietAfterFirstMs : Nat
  targetSuccesses : Nat
  earlyExitFirst : Bool

def ScanMode.strategy : ScanMode → Strategy
  | .turbo => ⟨6000, 0, 1, true⟩
  | .balanced => ⟨6000, 20000, 6, false⟩
  | .thorough => ⟨10000, 30000, 0, false⟩
  | .stealth => ⟨12000, 25000, 4, false⟩
  | .ironclad => ⟨15000, 15000, 3, false⟩

def ScanMode.wgStrategy : ScanMode → Strategy
  | .turbo => ⟨5000, 0, 1, true⟩
  | .balanced => ⟨6000, 12000, 5, false⟩
  | .thorough => ⟨9000, 25000, 0, false⟩
  | .stealth => ⟨10000, 20000, 3, false⟩
  | .ironclad => ⟨15000, 15000, 3, false⟩

structure ProbeResult where
  peer : SocketAddr
  rtt : Nat
  deriving DecidableEq

/-- What happens next in a scan: the probe of a candidate ends, the deadline passes, or the caller
cancels it.  The order in which the probes end is the network's. -/
inductive Turn
  | ended (peer : SocketAddr)
  | timeUp
  | cancelled
  deriving DecidableEq

/-! ## The calls -/

inductive Call
  /-- `load_or_provision_masque` and `load_or_provision_warp`. -/
  | load (loader : Family) (slot : Slot)
  /-- `fetch_ech_config`, as far as it finds one. -/
  | fetchEch
  | verify (check : Check)
  | hostHasIpv6
  /-- The course of a scan of the candidates that a prober builds. -/
  | course (family : Family) (mode : ScanMode) (ip : IpScan) (excluded : List SocketAddr)
  /-- The course of the pass over the documented WireGuard endpoints, under one of the profiles each. -/
  | anchors (ip : IpScan) (profiles : List Text)
  /-- `fetch_device`, for the endpoint it names. -/
  | deviceEndpoint (identity : Identity)
  | loadLastconn (family : Family)
  | saveLastconn (family : Family) (peer : SocketAddr) (proof : Proof)
  /-- A hop is built, up to the data it confirms. -/
  | establish (hop : Hop)
  /-- The session over a hop that is up, to its end. -/
  | carry (hop : Hop)
  | draws
  | forwarder (remote : SocketAddr)
  deriving DecidableEq

abbrev Answer : Call → Type
  | .load _ _ => Except AetherError Identity
  | .fetchEch => Option ECHConfigList
  | .verify _ => Except AetherError Nat
  | .hostHasIpv6 => Bool
  | .course _ _ _ _ => List Turn
  | .anchors _ _ => List (Text × SocketAddr)
  | .deviceEndpoint _ => Option Text
  | .loadLastconn _ => Option LastConnection
  | .saveLastconn _ _ _ => Unit
  | .establish _ => Except AetherError Unit
  | .carry _ => Except AetherError Unit
  | .draws => Masque.Draws
  | .forwarder _ => Except AetherError SocketAddr

abbrev engine : Program.Interface where
  Call := Call
  Answer := Answer

abbrev Task (α : Type) := Program.Task engine AetherError α

abbrev ask (c : Call) : Task (Answer c) :=
  Program.ask (I := engine) c

/-- The behaviour of the surroundings at one moment: what each call is answered, whoever makes it. -/
abbrev Answers :=
  (c : Call) → Answer c

/-- An answer that fails the program where it is an error. -/
def orFail {α : Type} (r : Except AetherError α) : Task α :=
  ExceptT.mk (pure r)

@[simp] theorem outcome_orFail {α : Type} {answers : Answers} (r : Except AetherError α) :
    outcome answers (orFail r) = r :=
  rfl

@[simp] theorem made_orFail {α : Type} {answers : Answers} (r : Except AetherError α) :
    made answers (orFail r) = [] :=
  rfl

/-! ## One call each -/

def loadIdentity (loader : Family) (slot : Slot) : Task (Except AetherError Identity) :=
  ask (.load loader slot)

def fetchEch : Task (Option ECHConfigList) :=
  ask .fetchEch

/-- Whether and how fast an address passes a verification. -/
def verify (check : Check) : Task (Except AetherError Nat) :=
  ask (.verify check)

def hostHasIpv6 : Task Bool :=
  ask .hostHasIpv6

def course (family : Family) (mode : ScanMode) (ip : IpScan) (excluded : List SocketAddr) :
    Task (List Turn) :=
  ask (.course family mode ip excluded)

def anchors (ip : IpScan) (profiles : List Text) : Task (List (Text × SocketAddr)) :=
  ask (.anchors ip profiles)

def deviceEndpoint (identity : Identity) : Task (Option Text) :=
  ask (.deviceEndpoint identity)

def loadLastconn (family : Family) : Task (Option LastConnection) :=
  ask (.loadLastconn family)

def saveLastconn (family : Family) (peer : SocketAddr) (proof : Proof) : Task Unit :=
  ask (.saveLastconn family peer proof)

def establish (hop : Hop) : Task (Except AetherError Unit) :=
  ask (.establish hop)

def carry (hop : Hop) : Task (Except AetherError Unit) :=
  ask (.carry hop)

def draws : Task Masque.Draws :=
  ask .draws

def spawnForwarder (remote : SocketAddr) : Task (Except AetherError SocketAddr) :=
  ask (.forwarder remote)

/-! ## The first steps of an attempt -/

/-- `load_or_provision_masque` and `load_or_provision_warp`. -/
def loadOrProvision (loader : Family) (slot : Slot) : Task Held := do
  let r ← loadIdentity loader slot
  let identity ← orFail r
  pure ⟨loader, slot, identity⟩

def resolveEch (settings : Settings) : Task (Option ECHConfigList) :=
  if settings.echFetched then fetchEch else pure settings.echGiven

/-- `attempt_ech`. -/
def attemptEch (settings : Settings) : Task (Option ECHConfigList) :=
  if settings.h2Enabled then pure none
  else
    match settings.heldEch with
    | some held => pure held
    | none => resolveEch settings

/-- `ech_policy_satisfied`. -/
def echPolicySatisfied (settings : Settings) : Task Unit := do
  if settings.echRequired then
    match ← attemptEch settings with
    | some _ => pure ()
    | none =>
        throw (.ech (if settings.h2Enabled then
          "ECH was required, and the HTTP/2 framing does not carry it; choose H3 or set          AETHER_ECH=auto"
        else
          "ECH was required and no ECHConfigList could be resolved; refusing to send the SNI in          cleartext"))
  else
    pure ()

end Engine
end AuroraVpn
