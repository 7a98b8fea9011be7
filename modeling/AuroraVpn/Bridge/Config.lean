import AuroraVpn.Account.Provision
import AuroraVpn.Socks.Handshake
import Mathlib.Data.Char
import Mathlib.Data.List.Lex

/-!
# Config — the settings that the app hands to the engine

`BridgeConfig` of the Android bridge: its checks, what the engine is given of it, and the environment
that `apply_environment` leaves for the engine to read.
-/

namespace AuroraVpn
namespace Bridge

/-! ## The configuration -/

structure BridgeConfig where
  mode : Text
  configPath : Text
  listenPort : UInt16 := 1819
  lanSharing : Bool := false
  lanUsername : Text := []
  lanPassword : Text := []
  wgKeepalive : UInt16 := 0
  upstreamProxy : Text := []
  dnsServers : Text := []
  routeSniff : Bool := true
  routeBlock : Text := []
  routeDirect : Text := []
  autoReprovision : Bool := true
  logLevel : Text := []
  tlsGroups : Text := []
  peer : Option Text := none
  peerFallback : Bool := false
  scanMode : Text := "balanced".toList
  ipScan : Text := "both".toList
  transport : Text := "h3".toList
  noize : Text := "firewall".toList
  validationEnabled : Bool := true
  fragmentTls : Bool := false
  encryptedHello : Bool := false
  deriving DecidableEq

/-- `serde_json::from_str` at `BridgeConfig`, which fills in the defaults. -/
abbrev Serde := Text → Except String BridgeConfig

namespace BridgeConfig

def modes : List Text :=
  ["proxy".toList, "tun".toList]

def logLevels : List Text :=
  ["error".toList, "warn".toList, "info".toList, "debug".toList, "trace".toList]

def transports : List Text :=
  ["h3".toList, "h2".toList, "wg".toList, "wiw".toList, "mim".toList]

/-- What `parse` says of the custom peer. -/
def checkPeer (config : BridgeConfig) : Except String Unit :=
  match config.peer with
  | some peer =>
      match parseSocketAddr peer with
      | none => .error "peer must be an IP:port address"
      | some address => if address.port = 0 then .error "peer port must be between 1 and 65535" else .ok ()
  | none => if config.peerFallback then .error "peerFallback requires a custom peer" else .ok ()

/-- The checks of `parse`, in its order. -/
def check (config : BridgeConfig) : Except String Unit :=
  if config.mode ∉ modes then
    .error "mode must be proxy or tun"
  else if trim config.configPath = [] then
    .error "configPath is required"
  else if config.listenPort < 1024 then
    .error "listenPort must be between 1024 and 65535"
  else if (config.lanUsername = []) ≠ (config.lanPassword = []) then
    .error "lanUsername and lanPassword must both be set, or neither"
  else if 300 < config.wgKeepalive then
    .error "wgKeepalive must be 300 seconds or less"
  else if config.logLevel ≠ [] ∧ config.logLevel ∉ logLevels then
    .error "logLevel must be error, warn, info, debug or trace"
  else if config.transport ∉ transports then
    .error "transport must be h3, h2, wg, wiw or mim"
  else
    config.checkPeer

/-- `BridgeConfig::parse`. -/
def parse (serde : Serde) (raw : Text) : Except String BridgeConfig := do
  let config ← serde raw
  config.check
  pure config

end BridgeConfig

/-! ## What the engine is given -/

structure EmbeddedConfig where
  configPath : Text
  listen : SocketAddr
  access : Socks.Access
  peer : Option SocketAddr
  peerFallback : Bool
  scanMode : Text
  ipScan : Text
  protocol : Text
  deriving DecidableEq

inductive Protocol
  | masque
  | wireGuard
  | warpInWarp
  | masqueInMasque
  deriving DecidableEq, Repr

/-- The letters of the names are ASCII, so ASCII lowering tells the same texts apart. -/
def Protocol.parse (s : Text) : Protocol :=
  let s := (trim s).map Char.toLower
  if s ∈ ["wg".toList, "wireguard".toList] then .wireGuard
  else if s ∈ ["gool".toList, "wiw".toList, "warp-in-warp".toList, "warpinwarp".toList] then .warpInWarp
  else if s ∈ ["mim".toList, "m2".toList, "masque-in-masque".toList, "masqueinmasque".toList] then
    .masqueInMasque
  else
    .masque

def EmbeddedConfig.protocolOf (config : EmbeddedConfig) : Protocol :=
  if trim config.protocol = [] then .masque else .parse (trim config.protocol)

namespace BridgeConfig

def access (config : BridgeConfig) : Socks.Access where
  credentials :=
    if config.lanSharing ∧ config.lanUsername ≠ [] then
      some ⟨String.ofList config.lanUsername, String.ofList config.lanPassword⟩
    else
      none

/-- The tunnel that a transport means. -/
def protocol (transport : Text) : Except String Text :=
  if transport = "h2".toList ∨ transport = "h3".toList then .ok "masque".toList
  else if transport = "wg".toList then .ok "wireguard".toList
  else if transport = "wiw".toList then .ok "warp-in-warp".toList
  else if transport = "mim".toList then .ok "masque-in-masque".toList
  else
    .error ("this build accepts the transport '" ++ String.ofList transport ++
      "' but does not know which tunnel it means")

/-- The peer that the engine is given: the prepared one, or else the custom one. -/
def peerOf (config : BridgeConfig) : Option SocketAddr → Except String (Option SocketAddr)
  | some peer => .ok (some peer)
  | none =>
      match config.peer with
      | none => .ok none
      | some peer =>
          match parseSocketAddr peer with
          | none => .error "peer must be an IP:port address"
          | some address => .ok (some address)

def embedded (config : BridgeConfig) (preparedPeer : Option SocketAddr) : Except String EmbeddedConfig := do
  let peer ← config.peerOf preparedPeer
  let protocol ← protocol config.transport
  let octets := if config.lanSharing then IpAddr.quad 0 0 0 0 else IpAddr.quad 127 0 0 1
  pure
    { configPath := config.configPath
      listen := (.new (.v4 octets) config.listenPort)
      access := config.access
      peer := peer
      peerFallback := config.peerFallback
      scanMode := config.scanMode
      ipScan := config.ipScan
      protocol := protocol }

end BridgeConfig

/-! ## The environment -/

/-- The variables that `apply_environment` sets or clears. -/
inductive Var
  | noize
  | masqueHttp2
  | quickReconnect
  | masqueH2Fragment
  | ech
  | masqueNoDataCheck
  | wgKeepalive
  | upstream
  | dns
  | tlsGroups
  | routeBlock
  | routeDirect
  | logLevel
  | routeSniff
  | reprovision
  deriving DecidableEq, Repr

def Var.name : Var → String
  | .noize => "AETHER_NOIZE"
  | .masqueHttp2 => "AETHER_MASQUE_HTTP2"
  | .quickReconnect => "AETHER_QUICK_RECONNECT"
  | .masqueH2Fragment => "AETHER_MASQUE_H2_FRAGMENT"
  | .ech => "AETHER_ECH"
  | .masqueNoDataCheck => "AETHER_MASQUE_NO_DATA_CHECK"
  | .wgKeepalive => "AETHER_WG_KEEPALIVE"
  | .upstream => "AETHER_UPSTREAM"
  | .dns => "AETHER_DNS"
  | .tlsGroups => "AETHER_TLS_GROUPS"
  | .routeBlock => "AETHER_ROUTE_BLOCK"
  | .routeDirect => "AETHER_ROUTE_DIRECT"
  | .logLevel => "AETHER_LOG_LEVEL"
  | .routeSniff => "AETHER_ROUTE_SNIFF"
  | .reprovision => "AETHER_REPROVISION"

/-- The environment of the process, at the variables of the engine. -/
abbrev Environment := Var → Option Text

/-- `set_or_clear`. -/
def setOrClear (value : Text) : Option Text :=
  if trim value = [] then none else some (trim value)

/-- A switch that is set to a word when it is on, and cleared when it is off. -/
def setWhen (on : Bool) (word : String) : Option Text :=
  if on then some word.toList else none

/-- What `apply_environment` makes of each variable, whatever it was. -/
def BridgeConfig.applyEnvironment (config : BridgeConfig) : Environment
  | .noize => some config.noize
  | .masqueHttp2 => setWhen (config.transport = "h2".toList) "1"
  | .quickReconnect => some "1".toList
  | .masqueH2Fragment => setWhen config.fragmentTls "1"
  | .ech => setWhen config.encryptedHello "auto"
  | .masqueNoDataCheck => setWhen (!config.validationEnabled) "1"
  -- zero says nothing, and leaves the choice to the engine
  | .wgKeepalive => setWhen (0 < config.wgKeepalive) (toString config.wgKeepalive)
  | .upstream => setOrClear config.upstreamProxy
  | .dns => setOrClear config.dnsServers
  | .tlsGroups => setOrClear config.tlsGroups
  | .routeBlock => setOrClear config.routeBlock
  | .routeDirect => setOrClear config.routeDirect
  | .logLevel => setOrClear config.logLevel
  -- on unless it is switched off
  | .routeSniff => setWhen (!config.routeSniff) "0"
  | .reprovision => setWhen (!config.autoReprovision) "0"

section Proofs

variable {config : BridgeConfig} {serde : Serde} {raw : Text}

end Proofs

end Bridge
end AuroraVpn
