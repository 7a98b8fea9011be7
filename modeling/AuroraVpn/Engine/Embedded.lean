import AuroraVpn.Engine.Probing

/-!
# Embedded — the entry points that the app calls

`provision_embedded`, `prepare_embedded`, `scan_embedded`, `test_embedded_peer` and `run_embedded`.
A tunnel is two calls, one up to the data it confirms and one for the session over it; an endpoint is
remembered between the two.
-/

namespace AuroraVpn
namespace Engine

open Account (Identity Slot Family)
open Bridge (EmbeddedConfig Protocol)

/-! ## What a configuration is about -/

/-- The loader of the identities of a tunnel, which is also the family of its files. -/
def familyOf : Protocol → Family
  | .masque | .masqueInMasque => .masque
  | .wireGuard | .warpInWarp => .wireguard

/-- The outer account's slot, `identity_site`. -/
def identitySlot : Protocol → Slot
  | .masque | .masqueInMasque => .masque
  | .wireGuard | .warpInWarp => .wireguard

/-- The inner account's slot, `secondary_identity_site`. -/
def secondaryIdentitySlot : Protocol → Slot
  | .masque | .masqueInMasque => .masqueInner
  | .wireGuard | .warpInWarp => .wireguardInner

def nested : Protocol → Bool
  | .masqueInMasque | .warpInWarp => true
  | .masque | .wireGuard => false

/-! ## Provisioning -/

/-- The identity of the single hop, or of the outer one. -/
def outerIdentity (protocol : Protocol) : Task Held :=
  match protocol with
  | .masque | .masqueInMasque => loadOrProvision .masque (identitySlot protocol)
  | .wireGuard | .warpInWarp => loadOrProvision .wireguard (identitySlot protocol)

/-- The identity of the inner hop, where `nested` says that there is one. -/
def secondaryIdentity (protocol : Protocol) : Task Held :=
  match protocol with
  | .masqueInMasque => loadOrProvision .masque (secondaryIdentitySlot protocol)
  | _ => loadOrProvision .wireguard (secondaryIdentitySlot protocol)

def provisionEmbedded (config : EmbeddedConfig) : Task (List Text) := do
  let first ← outerIdentity config.protocolOf
  if nested config.protocolOf then
    let second ← secondaryIdentity config.protocolOf
    pure [first.identity.deviceId, second.identity.deviceId]
  else
    pure [first.identity.deviceId]

/-! ## The choice of a MASQUE edge -/

/-- `on_443` of `assigned_masque_peers`. -/
def on443 (host : Text) : Option SocketAddr :=
  let host := trim host
  if host = [] then none
  else if ':' ∈ host ∧ host.head? ≠ some '[' then parseSocketAddr ("[".toList ++ host ++ "]:443".toList)
  else parseSocketAddr (host ++ ":443".toList)

def assignedMasquePeers (held : Held) : Task (List SocketAddr) := do
  let stored := (on443 held.identity.assignedEndpoint).toList
  match ← deviceEndpoint held.identity with
  | none => pure stored
  | some host => pure (stored ++ (on443 host).toList.filter fun current => current ∉ stored)

def firstVerified (settings : Settings) (held : Held) : List SocketAddr → Task (Option SocketAddr)
  | [] => pure none
  | peer :: rest => do
      if ← quickVerifyMasquePeer settings held peer then pure (some peer)
      else firstVerified settings held rest

/-- The remembered endpoint, where it was earned by the attempt that is made now. -/
def rememberedPeer (settings : Settings) (family : Family) (transport : Text) :
    Task (Option (SocketAddr × Text)) := do
  match ← loadLastconn family with
  | none => pure none
  | some cached =>
      if cached.proof.AppliesTo (settings.attemptProof transport) then
        pure (cached.peer.map fun peer => (peer, cached.profile))
      else
        pure none

/-- `select_embedded_peer`, behind the peer that the configuration names: the endpoint of the team, the
remembered one, those that Cloudflare assigned to the device, and a hunt. -/
def discoverEmbeddedPeer (settings : Settings) (held : Held) (config : EmbeddedConfig) :
    Task SocketAddr := do
  match ← firstVerified settings held settings.assignedByTeam.toList with
  | some peer => pure peer
  | none =>
      let cached ← rememberedPeer settings .masque settings.masqueFraming
      match ← firstVerified settings held (cached.map Prod.fst).toList with
      | some peer => pure peer
      | none =>
          match ← firstVerified settings held (← assignedMasquePeers held) with
          | some peer => pure peer
          | none => huntMasquePeer settings held config.scanMode (.parse config.ipScan)

/-- The text of the source names the address as well. -/
def customEndpointFailed (tunnel : String) : AetherError :=
  .other ("custom endpoint failed " ++ tunnel ++ " validation")

def selectEmbeddedPeer (settings : Settings) (held : Held) (config : EmbeddedConfig) :
    Task SocketAddr := do
  match config.peer with
  | none => discoverEmbeddedPeer settings held config
  | some peer =>
      if ← quickVerifyMasquePeer settings held peer then pure peer
      else if config.peerFallback then discoverEmbeddedPeer settings held config
      else throw (customEndpointFailed "MASQUE")

/-! ## The choice of a WireGuard endpoint -/

/-- The first profile that an endpoint answers under. -/
def firstProfile (held : Held) (peer : SocketAddr) : List Text → Task (Option Text)
  | [] => pure none
  | profile :: rest => do
      match ← verifyWgPeer held peer profile with
      | .ok _ => pure (some profile)
      | .error _ => firstProfile held peer rest

/-- `select_embedded_wg_peer`, behind the peer that the configuration names. -/
def discoverEmbeddedWgPeer (settings : Settings) (held : Held) (config : EmbeddedConfig) :
    Task (SocketAddr × Text) := do
  let hunt := huntWgPeer held settings.wgProfileCandidates config.scanMode (.parse config.ipScan) []
  match ← rememberedPeer settings .wireguard "wg".toList with
  | none => hunt
  | some (peer, profile) =>
      match ← verifyWgPeer held peer profile with
      | .ok _ => pure (peer, profile)
      | .error _ => hunt

def selectEmbeddedWgPeer (settings : Settings) (held : Held) (config : EmbeddedConfig) :
    Task (SocketAddr × Text) := do
  match config.peer with
  | none => discoverEmbeddedWgPeer settings held config
  | some peer =>
      match ← firstProfile held peer settings.wgProfileCandidates with
      | some profile => pure (peer, profile)
      | none =>
          if config.peerFallback then discoverEmbeddedWgPeer settings held config
          else throw (customEndpointFailed "WireGuard")

/-! ## Preparing -/

structure EmbeddedPrepared where
  ipv4 : Text
  ipv6 : Text
  peer : SocketAddr

/-- A promise that cannot be kept is refused before anything is registered or searched for. -/
def echPromise (settings : Settings) (protocol : Protocol) : Task Unit :=
  match protocol with
  | .masque | .masqueInMasque => echPolicySatisfied settings
  | .wireGuard | .warpInWarp => pure ()

/-- The outer edge; the inner ones are derived from it when the tunnel is built. -/
def selectPeer (settings : Settings) (held : Held) (config : EmbeddedConfig) : Task SocketAddr :=
  match config.protocolOf with
  | .masque | .masqueInMasque => selectEmbeddedPeer settings held config
  | .wireGuard | .warpInWarp => Prod.fst <$> selectEmbeddedWgPeer settings held config

section SelectPeer

variable {settings : Settings} {held : Held} {config : EmbeddedConfig}

theorem selectPeer_masque (h : familyOf config.protocolOf = .masque) :
    selectPeer settings held config = selectEmbeddedPeer settings held config := by
  unfold selectPeer
  revert h
  cases config.protocolOf <;> intro h <;> first | rfl | cases h

theorem selectPeer_wg (h : familyOf config.protocolOf = .wireguard) :
    selectPeer settings held config = Prod.fst <$> selectEmbeddedWgPeer settings held config := by
  unfold selectPeer
  revert h
  cases config.protocolOf <;> intro h <;> first | rfl | cases h

end SelectPeer

def prepareEmbedded (settings : Settings) (config : EmbeddedConfig) : Task EmbeddedPrepared := do
  echPromise settings config.protocolOf
  let held ← outerIdentity config.protocolOf
  let peer ← selectPeer settings held config
  -- Nested, the interface is addressed for the inner account.
  if nested config.protocolOf then
    let secondary ← secondaryIdentity config.protocolOf
    pure ⟨secondary.identity.ipv4, secondary.identity.ipv6, peer⟩
  else
    pure ⟨held.identity.ipv4, held.identity.ipv6, peer⟩

/-! ## Scanning and testing -/

def scanEmbeddedWg (settings : Settings) (config : EmbeddedConfig) (limit : Nat) :
    Task (List ProbeResult) := do
  let held ← loadOrProvision .wireguard (identitySlot config.protocolOf)
  match localIpv4 held with
  | none => throw (.other "invalid ipv4")
  | some _ =>
      scanWgEndpoints ⟨held, settings.aethernoizeConfig, .parse config.ipScan, []⟩
        (.parse config.scanMode) limit

def scanEmbedded (settings : Settings) (config : EmbeddedConfig) (limit : Nat) :
    Task (List ProbeResult) := do
  if config.protocolOf ≠ .masque then scanEmbeddedWg settings config limit
  else
    let held ← loadOrProvision .masque (identitySlot config.protocolOf)
    let probe ← masqueProbe settings held (.parse config.ipScan)
    scanGateways settings probe (.parse config.scanMode) limit

/-- The profiles of a test, one after the other, with the last error there was. -/
def testProfiles (held : Held) (peer : SocketAddr) : List Text → AetherError → Task ProbeResult
  | [], last => throw last
  | profile :: rest, _ => do
      match ← verifyWgPeer held peer profile with
      | .ok rtt => pure ⟨peer, rtt⟩
      | .error error => testProfiles held peer rest error

def testEmbeddedPeer (settings : Settings) (config : EmbeddedConfig) : Task ProbeResult := do
  match config.peer with
  | none => throw (.other "custom endpoint is required")
  | some peer =>
      if config.protocolOf ≠ .masque then
        let held ← loadOrProvision .wireguard (identitySlot config.protocolOf)
        testProfiles held peer settings.wgProfileCandidates .noCleanEndpoint
      else
        let held ← loadOrProvision .masque (identitySlot config.protocolOf)
        let rtt ← orFail (← verifyMasquePeer settings held peer)
        pure ⟨peer, rtt⟩

/-! ## Running -/

/-- A hop that is up is remembered before the session over it is waited for. -/
def runHop (hop : Hop) (onReady : Task Unit) : Task (Except AetherError Unit) := do
  match ← establish hop with
  | .error error => pure (.error error)
  | .ok _ =>
      onReady
      carry hop

def masqueWire (settings : Settings) (ech : Option ECHConfigList) : Wire :=
  if settings.h2Enabled then .h2 else .h3 settings.noizeConfig ech

def h2Dial (settings : Settings) (peer : SocketAddr) : SocketAddr :=
  if settings.h2Enabled then settings.h2Peer peer else peer

/-- The inner hops, until one is up; the session over that one is the result. -/
def runInnerHops (settings : Settings) (secondary : Held) (onReady : Task Unit) :
    List SocketAddr → Option AetherError → Task Unit
  | [], last =>
      throw (last.getD (.other "no inner masque edge answered from inside the outer tunnel"))
  | inner :: rest, _ => do
      let forwarder ← orFail (← spawnForwarder inner)
      let hop : Hop := ⟨masqueWire settings none, secondary, forwarder, true⟩
      match ← establish hop with
      | .error error => runInnerHops settings secondary onReady rest (some error)
      | .ok _ =>
          onReady
          orFail (← carry hop)

def runMasqueInMasqueEmbedded (settings : Settings) (primary secondary : Held) (peer : SocketAddr)
    (ech : Option ECHConfigList) (onReady : Task Unit) : Task Unit := do
  orFail (← establish ⟨masqueWire settings ech, primary, h2Dial settings peer, false⟩)
  let draws ← draws
  let candidates := (Masque.innerMasqueCandidates draws peer Masque.MIM_INNER_TRIES).filter fun inner =>
    inner.ip ≠ peer.ip
  if candidates = [] then throw (.other "no second masque edge is known for the inner hop")
  else runInnerHops settings secondary onReady candidates none

def runWarpInWarpEmbedded (settings : Settings) (primary secondary : Held) (peer : SocketAddr)
    (onReady : Task Unit) : Task Unit := do
  orFail (← establish ⟨.wg settings.aethernoizeConfig, primary, peer, false⟩)
  let forwarder ← orFail (← spawnForwarder peer)
  orFail (← runHop ⟨.wg "off".toList, secondary, forwarder, true⟩ onReady)

def runEmbedded (settings : Settings) (config : EmbeddedConfig) : Task Unit := do
  let protocol := config.protocolOf
  match config.peer with
  | none => throw (.other "embedded peer is required")
  | some peer =>
      match familyOf protocol with
      | .wireguard =>
          let held ← loadOrProvision .wireguard (identitySlot protocol)
          -- the peer is verified once more, which settles the profile as well
          let (peer, name) ← selectEmbeddedWgPeer settings held { config with peer := some peer }
          let onReady := saveLastconn .wireguard peer
            { settings.attemptProof "wg".toList with profile := name }
          if protocol = .warpInWarp then
            let secondary ← loadOrProvision .wireguard (secondaryIdentitySlot protocol)
            runWarpInWarpEmbedded settings held secondary peer onReady
          else
            orFail (← runHop ⟨.wg name, held, peer, false⟩ onReady)
      | .masque =>
          let held ← loadOrProvision .masque (identitySlot protocol)
          let ech ← attemptEch settings
          let onReady := saveLastconn .masque peer (settings.attemptProof settings.masqueFraming)
          if protocol = .masqueInMasque then
            let secondary ← loadOrProvision .masque (secondaryIdentitySlot protocol)
            runMasqueInMasqueEmbedded settings held secondary peer ech onReady
          else
            orFail (← runHop ⟨masqueWire settings ech, held, h2Dial settings peer, false⟩ onReady)

end Engine
end AuroraVpn
