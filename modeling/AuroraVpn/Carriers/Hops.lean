import AuroraVpn.Carriers.Tor
import AuroraVpn.Engine.Calls
import AuroraVpn.Upstream.Setting

/-!
# Hops — the carriers of a chain, each dialling through the one before it

`buildCarrier`, `carrierEngineConfig` and `bridgeBehind` of `AetherVpnService.kt`, and what becomes of
the upstream port behind them: in the settings of the engine, in the configuration of Psiphon, in the
`torrc`, and in the environment of a pluggable transport.

* `dials_aether`: the engine dials through the first hop, by HTTP/2.
* `throughFirst_iff`: when all that the second hop dials goes through the first one.
-/

namespace AuroraVpn
namespace Carriers

open Bridge (BridgeConfig)

/-! ## Settings as JSON -/

/-- A value of a settings object; an array, an object or a number with a fraction is kept as its text. -/
inductive JsonValue
  | null
  | bool (b : Bool)
  | int (n : Int)
  | text (t : Text)
  | other (t : Text)
  deriving DecidableEq

abbrev JsonObject :=
  Text → Option JsonValue

namespace JsonObject

def put (json : JsonObject) (name : String) (value : JsonValue) : JsonObject :=
  Function.update json name.toList (some value)

/-- `optString`: whatever is there, as a text. -/
def optString (json : JsonObject) (name : String) (fallback : Text) : Text :=
  match json name.toList with
  | none => fallback
  | some .null => "null".toList
  | some (.bool b) => (toString b).toList
  | some (.int n) => (toString n).toList
  | some (.text t) => t
  | some (.other t) => t

/-! What `serde` makes of a field that has a default. -/

def textField (json : JsonObject) (name : String) (default : Text) : Option Text :=
  match json name.toList with
  | none => some default
  | some (.text t) => some t
  | some _ => none

def boolField (json : JsonObject) (name : String) (default : Bool) : Option Bool :=
  match json name.toList with
  | none => some default
  | some (.bool b) => some b
  | some _ => none

def u16Field (json : JsonObject) (name : String) (default : UInt16) : Option UInt16 :=
  match json name.toList with
  | none => some default
  | some (.int n) => if 0 ≤ n ∧ n < 65536 then some (UInt16.ofNat n.toNat) else none
  | some _ => none

/-- A field that must be there. -/
def requiredField (json : JsonObject) (name : String) : Option Text :=
  match json name.toList with
  | some (.text t) => some t
  | _ => none

def optionalField (json : JsonObject) (name : String) : Option (Option Text) :=
  match json name.toList with
  | none => some none
  | some .null => some none
  | some (.text t) => some (some t)
  | some _ => none

end JsonObject

/-- `serde_json::from_str` at `BridgeConfig`. -/
def ofJson (json : JsonObject) : Option BridgeConfig := do
  -- the two fields without a default, and then every field with its own
  let mode ← json.requiredField "mode"
  let configPath ← json.requiredField "configPath"
  let listenPort ← json.u16Field "listenPort" 1819
  let lanSharing ← json.boolField "lanSharing" false
  let lanUsername ← json.textField "lanUsername" []
  let lanPassword ← json.textField "lanPassword" []
  let wgKeepalive ← json.u16Field "wgKeepalive" 0
  let upstreamProxy ← json.textField "upstreamProxy" []
  let dnsServers ← json.textField "dnsServers" []
  let routeSniff ← json.boolField "routeSniff" true
  let routeBlock ← json.textField "routeBlock" []
  let routeDirect ← json.textField "routeDirect" []
  let autoReprovision ← json.boolField "autoReprovision" true
  let logLevel ← json.textField "logLevel" []
  let tlsGroups ← json.textField "tlsGroups" []
  let peer ← json.optionalField "peer"
  let peerFallback ← json.boolField "peerFallback" false
  let scanMode ← json.textField "scanMode" "balanced".toList
  let ipScan ← json.textField "ipScan" "both".toList
  let transport ← json.textField "transport" "h3".toList
  let noize ← json.textField "noize" "firewall".toList
  let validationEnabled ← json.boolField "validationEnabled" true
  let fragmentTls ← json.boolField "fragmentTls" false
  let encryptedHello ← json.boolField "encryptedHello" false
  pure
    { mode, configPath, listenPort, lanSharing, lanUsername, lanPassword, wgKeepalive, upstreamProxy,
      dnsServers, routeSniff, routeBlock, routeDirect, autoReprovision, logLevel, tlsGroups, peer,
      peerFallback, scanMode, ipScan, transport, noize, validationEnabled, fragmentTls,
      encryptedHello }

/-- What a field that was put there is read as. -/
theorem ofJson_put {json : JsonObject} {config : BridgeConfig} {upstream transport : Text}
    (h : ofJson ((json.put "upstreamProxy" (.text upstream)).put "transport" (.text transport)) =
      some config) : config.upstreamProxy = upstream ∧ config.transport = transport := by
  have hupstream : ((json.put "upstreamProxy" (.text upstream)).put "transport"
      (.text transport)).textField "upstreamProxy" [] = some upstream := rfl
  have htransport : ((json.put "upstreamProxy" (.text upstream)).put "transport"
      (.text transport)).textField "transport" "h3".toList = some transport := rfl
  unfold ofJson at h
  -- the fields in front of the two, between them and behind them
  iterate 7 obtain ⟨_, -, h⟩ := Option.bind_eq_some_iff.1 h
  obtain ⟨_, hreadUpstream, h⟩ := Option.bind_eq_some_iff.1 h
  iterate 11 obtain ⟨_, -, h⟩ := Option.bind_eq_some_iff.1 h
  obtain ⟨_, hreadTransport, h⟩ := Option.bind_eq_some_iff.1 h
  iterate 4 obtain ⟨_, -, h⟩ := Option.bind_eq_some_iff.1 h
  cases h
  rw [hupstream] at hreadUpstream
  rw [htransport] at hreadTransport
  cases hreadUpstream
  cases hreadTransport
  exact ⟨rfl, rfl⟩

/-! ## Building a hop -/

inductive Carrier
  | aether
  | psiphon
  | tor
  deriving DecidableEq, Repr

/-- What the session knows when it builds its carriers. -/
structure Session where
  psiphonRegion : Text
  torBridge : TorBridge
  torBridges : Text
  reconnectAttempt : Int
  /-- The framing that last worked on the network the phone is on. -/
  rememberedTransport : Option Text
  onMobileData : Bool

/-- A carrier client, with what it was built with; an upstream of 0 is the network itself. -/
inductive Client
  | aether (engineConfig : JsonObject)
  | psiphon (egressRegion : Text) (upstreamPort : UInt16)
  | tor (bridge : TorBridge) (customBridges : Text) (upstreamPort : UInt16)

/-- `AutoPlanner.framingOrder`. -/
def framingOrder (provenFraming : Option Text) (onMobileData : Bool) : List Text :=
  let h3First :=
    if provenFraming = some "h3".toList then true
    else if provenFraming = some "h2".toList then false
    else !onMobileData
  if h3First then ["h3".toList, "h2".toList] else ["h2".toList, "h3".toList]

section Build

variable (session : Session)

/-- What Automatic tries, in order. -/
def ladder (scanMode : Text) : List (Text × Text) :=
  let order := framingOrder
    (session.rememberedTransport.filter fun t => t = "h2".toList ∨ t = "h3".toList) session.onMobileData
  ((session.rememberedTransport.map fun t => (t, scanMode)).toList ++
    order.map (·, "turbo".toList) ++ order.map (·, scanMode)).eraseDups

def autoConfig (json : JsonObject) (attempt : Int) : JsonObject :=
  let ladder := ladder session (json.optString "scanMode" "balanced".toList)
  match ladder[(max attempt 0).toNat % ladder.length]? with
  | some (transport, scan) => (json.put "transport" (.text transport)).put "scanMode" (.text scan)
  | none => json

def configForAttempt (json : JsonObject) (attempt : Int) : JsonObject :=
  if json.optString "transport" [] = "auto".toList then autoConfig session json attempt
  else
    let configured := json.optString "transport" "h3".toList
    let swap (other : String) : JsonObject :=
      json.put "transport" (.text (if attempt.tmod 2 = 1 then other.toList else configured))
    if configured = "h3".toList then swap "h2"
    else if configured = "h2".toList then swap "h3"
    else json

def transportOf (json : JsonObject) : Text :=
  json.optString "transport" "h3".toList

def withEngineMode (json : JsonObject) (mode : String) : JsonObject :=
  json.put "mode" (.text mode.toList)

/-- The engine as a hop: a listener, and behind another carrier over HTTP/2. -/
def carrierEngineConfig (config : JsonObject) (upstream : UInt16) : JsonObject :=
  let resolved :=
    if transportOf config = "auto".toList then configForAttempt session config session.reconnectAttempt
    else config
  let proxyMode := withEngineMode resolved "proxy"
  if upstream = 0 then proxyMode
  else
    (proxyMode.put "upstreamProxy" (.text (Upstream.loopback upstream))).put "transport"
      (.text "h2".toList)

/-- Snowflake's first leg carries datagrams, so it is not used behind another carrier. -/
def bridgeBehind (upstream : UInt16) : TorBridge :=
  if 0 < upstream ∧ session.torBridge = .snowflake then .none else session.torBridge

def buildCarrier (hop : Carrier) (config : JsonObject) (upstream : UInt16) : Client :=
  match hop with
  | .psiphon => .psiphon session.psiphonRegion upstream
  | .tor => .tor (bridgeBehind session upstream) session.torBridges upstream
  | .aether => .aether (carrierEngineConfig session config upstream)

end Build

/-! ## What a hop dials -/

inductive Leg
  | registration
  | probe
  | tunnel
  | relays
  | transport
  | psiphon
  deriving DecidableEq, Repr

/-- How a leg dials: the proxy that is named for it, and whether it dials by TCP, which is all that a
SOCKS5 CONNECT carries. -/
structure Dial where
  leg : Leg
  proxy : Option Upstream
  tcp : Bool
  deriving DecidableEq

/-- A proxy URL, as whoever is given it reads it. -/
def proxyOfUrl (url : Option Text) : Option Upstream :=
  url.bind fun url => (Upstream.parse url).toOption

/-- The legs of the engine; `BridgeConfig::parse` may refuse the settings. -/
def dialsOfEngine (json : JsonObject) : Except Text (List Dial) :=
  match ofJson json with
  | none => .error "the settings are not understood".toList
  | some config =>
      match config.check, config.embedded none with
      | .error message, _ => .error message.toList
      | .ok _, .error message => .error message.toList
      | .ok _, .ok embedded =>
          let env := config.applyEnvironment
          let proxy := Upstream.fromEnv (env .upstream)
          -- of the tunnels only MASQUE has a framing over TCP
          let tcp := embedded.protocolOf = .masque ∧
            ({ masqueHttp2 := env .masqueHttp2 } : Engine.Settings).h2Enabled
          .ok [⟨.registration, proxy, true⟩, ⟨.probe, proxy, tcp⟩, ⟨.tunnel, proxy, tcp⟩]

/-- What `PsiphonConfig.render` gives of the upstream. -/
def upstreamProxyUrl (upstreamPort : UInt16) : Option Text :=
  if 0 < upstreamPort then some (Upstream.loopback upstreamPort) else none

/-- The proxy that a `torrc` names, as `host:port`. -/
def socks5Proxy (torrc : List Text) : Option Text :=
  (torrc.filterMap (·.dropPrefix? "Socks5Proxy ".toList)).getLast?

/-- The proxy that tor makes of it. -/
def proxyOfTorrc (torrc : List Text) : Option Upstream :=
  (socks5Proxy torrc).bind fun address =>
    (Upstream.splitEndpoint address).toOption.map fun endpoint =>
      ⟨.socks5, endpoint.1, endpoint.2, none, none⟩

/-- Tor proxies for itself only: a transport that was started beside it has its own environment. -/
def dialsOfTor (running : Running) : List Dial :=
  ⟨.relays, proxyOfTorrc running.torrc, true⟩ ::
    running.transport.toList.map fun transport =>
      ⟨.transport, proxyOfUrl (transport.environment "TOR_PT_PROXY".toList), true⟩

/-- What a client that is started dials. -/
def Client.dials (kotlin : Kotlin) (device : Device) : Client → Except Text (List Dial)
  | .aether engineConfig => dialsOfEngine engineConfig
  | .psiphon _ upstreamPort => .ok [⟨.psiphon, proxyOfUrl (upstreamProxyUrl upstreamPort), true⟩]
  | .tor bridge customBridges upstreamPort =>
      (TorCarrierService.start kotlin device bridge none customBridges upstreamPort).map dialsOfTor

/-- All that was not refused goes through the listener of the first hop, by TCP. -/
def ThroughFirst (p : UInt16) (dials : Except Text (List Dial)) : Prop :=
  ∀ ds, dials = .ok ds → ∀ dial ∈ ds, dial.proxy = some (.ofLoopback p) ∧ dial.tcp = true

/-- A second hop behind port `p` starts a transport: its bridges need one, it can be had, and the
`torrc` for it is written. -/
def StartsTransport (kotlin : Kotlin) (device : Device) (session : Session) (p : UInt16) : Prop :=
  ∃ wanted listening,
    TorConfig.transportName kotlin (bridgeBehind session p) session.torBridges = some wanted ∧
      TorCarrierService.Offers device wanted listening ∧
      device.writeTorrc (TorConfig.render kotlin (bridgeBehind session p) none (some listening)
        session.torBridges p) = .ok ()

section Proofs

variable {session : Session} {kotlin : Kotlin} {device : Device} {p : UInt16}

/-- The environment that the settings of a second hop leave. -/
theorem environment_behind (hp : p ≠ 0) {config : BridgeConfig}
    (hupstream : config.upstreamProxy = Upstream.loopback p) (htransport : config.transport = "h2".toList) :
    Upstream.fromEnv (config.applyEnvironment .upstream) = some (.ofLoopback p) ∧
      ({ masqueHttp2 := config.applyEnvironment .masqueHttp2 } : Engine.Settings).h2Enabled = true := by
  constructor
  · have hset : config.applyEnvironment .upstream = some (Upstream.loopback p) := by
      have hne : Upstream.loopback p ≠ [] := List.append_ne_nil_of_left_ne_nil (by decide) _
      change Bridge.setOrClear config.upstreamProxy = _
      rw [hupstream, Bridge.setOrClear, Upstream.trim_loopback, if_neg hne]
    rw [hset]
    exact Upstream.fromEnv_loopback hp
  · have hset : config.applyEnvironment .masqueHttp2 = some "1".toList := by
      change Bridge.setWhen (config.transport = "h2".toList) "1" = _
      rw [htransport]
      rfl
    rw [hset]
    decide

/-- HTTP/2 is a framing of MASQUE. -/
theorem protocolOf_h2 {config : BridgeConfig} (htransport : config.transport = "h2".toList)
    {embedded : Bridge.EmbeddedConfig} (h : config.embedded none = .ok embedded) :
    embedded.protocolOf = .masque := by
  have hprotocol : BridgeConfig.protocol config.transport = .ok "masque".toList := by
    rw [htransport]
    rfl
  unfold BridgeConfig.embedded at h
  rw [hprotocol] at h
  cases hpeer : config.peerOf none with
  | error message =>
      rw [hpeer] at h
      cases h
  | ok peer =>
      rw [hpeer] at h
      cases h
      rfl

/-- The engine behind another carrier: whatever its settings were, all its legs go through the first
hop by TCP. -/
theorem dials_aether (hp : p ≠ 0) {config : JsonObject} {dials : List Dial}
    (h : dialsOfEngine (carrierEngineConfig session config p) = .ok dials) :
    ∀ dial ∈ dials, dial.proxy = some (.ofLoopback p) ∧ dial.tcp = true := by
  unfold carrierEngineConfig at h
  dsimp only at h
  rw [if_neg hp] at h
  generalize withEngineMode _ "proxy" = proxyMode at h
  unfold dialsOfEngine at h
  split at h
  -- a config that is refused dials nothing
  · cases h
  · next bridge hread =>
      obtain ⟨hupstream, htransport⟩ := ofJson_put hread
      obtain ⟨hproxy, hh2⟩ := environment_behind hp hupstream htransport
      split at h
      · cases h
      · cases h
      · next embedded _ hembedded =>
          cases h
          have htcp := protocolOf_h2 htransport hembedded
          -- the legs of the engine: the account, the endpoint, the inner tunnel
          intro dial hdial
          simp only [List.mem_cons, List.not_mem_nil, or_false] at hdial
          rcases hdial with rfl | rfl | rfl
          · exact ⟨hproxy, rfl⟩
          · exact ⟨hproxy, decide_eq_true ⟨htcp, hh2⟩⟩
          · exact ⟨hproxy, decide_eq_true ⟨htcp, hh2⟩⟩

/-- The proxy that the `torrc` of a second hop names. -/
theorem socks5Proxy_render (hp : p ≠ 0) (bridge : TorBridge) (exitCountry transport : Option Text)
    (customBridges : Text) :
    socks5Proxy (TorConfig.render kotlin bridge exitCountry transport customBridges p) =
      some ("127.0.0.1:".toList ++ Nat.toDigits 10 p.toNat) := by
  have hpos : 0 < p := by
    rw [UInt16.lt_iff_toNat_lt]
    exact Nat.pos_of_ne_zero fun h => hp (UInt16.toNat_inj.1 h)
  have hbridges : ∀ bridges : List Text, (bridges.map ("Bridge ".toList ++ ·)).filterMap
      (·.dropPrefix? "Socks5Proxy ".toList) = [] := by
    intro bridges
    induction bridges with
    | nil => rfl
    | cons b bridges ih => exact ih
  -- of the other lines none names a proxy
  have hmode : ∀ name transport bridges, (TorConfig.bridgeModeLines name transport bridges).filterMap
      (·.dropPrefix? "Socks5Proxy ".toList) = [] := by
    intro name transport bridges
    unfold TorConfig.bridgeModeLines
    split
    · split_ifs
      · rfl
      · exact hbridges bridges
    · rfl
  have hexit : ∀ country, (TorConfig.exitLines country).filterMap
      (·.dropPrefix? "Socks5Proxy ".toList) = [] := by
    intro country
    cases country <;> rfl
  have hupstream : (TorConfig.upstreamLines p).filterMap (·.dropPrefix? "Socks5Proxy ".toList) =
      ["127.0.0.1:".toList ++ Nat.toDigits 10 p.toNat] := by
    unfold TorConfig.upstreamLines
    rw [if_pos hpos]
    rfl
  have hfixed : TorConfig.fixedLines.filterMap (·.dropPrefix? "Socks5Proxy ".toList) = [] := rfl
  unfold socks5Proxy TorConfig.render
  rw [List.filterMap_append, List.filterMap_append, List.filterMap_append, hfixed, hupstream, hmode,
    hexit]
  rfl

theorem proxyOfTorrc_render (hp : p ≠ 0) (bridge : TorBridge) (exitCountry transport : Option Text)
    (customBridges : Text) :
    proxyOfTorrc (TorConfig.render kotlin bridge exitCountry transport customBridges p) =
      some (.ofLoopback p) := by
  unfold proxyOfTorrc
  rw [socks5Proxy_render hp, Option.bind_some, Upstream.splitEndpoint_loopback hp]
  rfl

theorem proxyOfUrl_loopback (hp : p ≠ 0) :
    proxyOfUrl (some (Upstream.loopback p)) = some (.ofLoopback p) := by
  unfold proxyOfUrl
  rw [Option.bind_some, Upstream.parse_loopback hp]
  rfl

/-- Tor behind the first hop has a transport beside it exactly if one can be started. -/
theorem startsTransport_iff : StartsTransport kotlin device session p ↔
    ∃ running transport, TorCarrierService.start kotlin device (bridgeBehind session p) none
      session.torBridges p = .ok running ∧ running.transport = some transport := by
  constructor
  -- a transport that was wanted, is shipped and listens is the one that runs
  · rintro ⟨wanted, listening, hwanted, hoffers, hwrite⟩
    refine ⟨⟨_, some ⟨wanted, listening, PluggableTransport.environment device [wanted]⟩⟩, _,
      TorCarrierService.start_eq_ok.2 ⟨?_, ?_, rfl, hwrite⟩, rfl⟩
    · exact TorCarrierService.refusal_of_transportName hwanted
    · rw [hwanted]
      exact TorCarrierService.startTransport_eq_ok.2 ⟨listening, hoffers, rfl⟩
  · rintro ⟨running, transport, hstart, htransport⟩
    obtain ⟨-, hruns, htorrc, hwrite⟩ := TorCarrierService.start_eq_ok.1 hstart
    rw [htransport] at hruns htorrc
    -- without a transport in the mode nothing runs beside tor
    cases hwanted : TorConfig.transportName kotlin (bridgeBehind session p) session.torBridges with
    | none =>
        rw [hwanted] at hruns
        cases hruns
    | some wanted =>
        rw [hwanted] at hruns
        obtain ⟨listening, hoffers, heq⟩ := TorCarrierService.startTransport_eq_ok.1 hruns
        cases heq
        rw [htorrc] at hwrite
        exact ⟨wanted, listening, hwanted, hoffers, hwrite⟩

/-- What tor dials behind the first hop: the relays through it, a transport through what this process
was told of. -/
theorem dialsOfTor_of_start (hp : p ≠ 0) {running : Running}
    (h : TorCarrierService.start kotlin device (bridgeBehind session p) none session.torBridges p =
      .ok running) :
    dialsOfTor running = ⟨.relays, some (.ofLoopback p), true⟩ ::
      running.transport.toList.map fun _ =>
        ⟨.transport, proxyOfUrl (device.inherited "TOR_PT_PROXY".toList), true⟩ := by
  obtain ⟨-, hruns, htorrc, -⟩ := TorCarrierService.start_eq_ok.1 h
  unfold dialsOfTor
  rw [htorrc, proxyOfTorrc_render hp]
  congr 1
  refine List.map_congr_left fun transport htransport => ?_
  rw [Option.mem_toList] at htransport
  rw [Option.mem_def.1 htransport] at hruns
  -- the transport inherits the variable of this process, whatever port the first hop has
  cases hwanted : TorConfig.transportName kotlin (bridgeBehind session p) session.torBridges with
  | none =>
      rw [hwanted] at hruns
      cases hruns
  | some wanted =>
      rw [hwanted] at hruns
      obtain ⟨listening, -, heq⟩ := TorCarrierService.startTransport_eq_ok.1 hruns
      cases heq
      dsimp only
      rw [TorCarrierService.environment_proxy]

/-- Tor as a second hop. -/
theorem throughFirst_tor_iff (hp : p ≠ 0) :
    ThroughFirst p ((Client.tor (bridgeBehind session p) session.torBridges p).dials kotlin device) ↔
      (StartsTransport kotlin device session p →
        proxyOfUrl (device.inherited "TOR_PT_PROXY".toList) = some (.ofLoopback p)) := by
  rw [startsTransport_iff]
  -- the relays go through the first hop anyway, so all is with the transport
  constructor
  · rintro h ⟨running, transport, hstart, htransport⟩
    have hdials := h (dialsOfTor running) (by rw [Client.dials, hstart]; rfl)
    rw [dialsOfTor_of_start hp hstart, htransport] at hdials
    exact (hdials _ (List.mem_cons_of_mem _ List.mem_cons_self)).1
  · intro h dials hdials dial hdial
    cases hstart : TorCarrierService.start kotlin device (bridgeBehind session p) none
      session.torBridges p with
    | error message =>
        rw [Client.dials, hstart] at hdials
        cases hdials
    | ok running =>
        rw [Client.dials, hstart] at hdials
        cases hdials
        rw [dialsOfTor_of_start hp hstart] at hdial
        rcases List.mem_cons.1 hdial with rfl | hdial
        · exact ⟨rfl, rfl⟩
        · obtain ⟨transport, htransport, rfl⟩ := List.mem_map.1 hdial
          exact ⟨h ⟨running, transport, hstart, Option.mem_toList.1 htransport⟩, rfl⟩

/-- **The second hop leaves through the first** unless it is tor with a transport: nothing tells a
transport of the proxy but what it inherits. -/
theorem throughFirst_iff (hp : p ≠ 0) (pair : Carrier × Carrier) (config : JsonObject) :
    ThroughFirst p ((buildCarrier session pair.2 config p).dials kotlin device) ↔
      (pair.2 = .tor → StartsTransport kotlin device session p →
        proxyOfUrl (device.inherited "TOR_PT_PROXY".toList) = some (.ofLoopback p)) := by
  obtain ⟨first, second⟩ := pair
  cases second with
  -- the engine reads its upstream from the config, Psiphon its proxy url, and both are those of the first hop
  | aether =>
      refine iff_of_true ?_ nofun
      exact fun dials h => dials_aether hp h
  | psiphon =>
      refine iff_of_true ?_ nofun
      rintro dials ⟨⟩ dial hdial
      rw [List.mem_singleton.1 hdial]
      refine ⟨?_, rfl⟩
      have hpos : 0 < p := by
        rw [UInt16.lt_iff_toNat_lt]
        exact Nat.pos_of_ne_zero fun h => hp (UInt16.toNat_inj.1 h)
      change proxyOfUrl (upstreamProxyUrl p) = _
      rw [upstreamProxyUrl, if_pos hpos]
      exact proxyOfUrl_loopback hp
  | tor =>
      rw [show buildCarrier session Carrier.tor config p =
        .tor (bridgeBehind session p) session.torBridges p from rfl, throughFirst_tor_iff hp]
      exact ⟨fun h _ => h, fun h => h rfl⟩

end Proofs

/-! ## A transport that nothing is told of -/

/-- Letters and digits, and small letters, as far as ASCII goes. -/
def ascii : Kotlin where
  isLetterOrDigit := Char.isAlphanum
  lowercase t := t.map Char.toLower

/-- A phone on which the transport starts at once. -/
def phone : Device where
  inherited _ := none
  stateDir := "pt-state".toList
  ships _ := true
  launch _ _ := .ok ["CMETHOD obfs4 socks5 127.0.0.1:40000".toList, "CMETHODS DONE".toList]
  writeTorrc _ := .ok ()

def behind (bridge : TorBridge) : Session where
  psiphonRegion := []
  torBridge := bridge
  torBridges := []
  reconnectAttempt := 0
  rememberedTransport := none
  onMobileData := false

/-- Tor behind the engine with the bridges that the app ships: the transport dials the network. -/
theorem not_throughFirst_obfs4 :
    ¬ ThroughFirst 1819 ((buildCarrier (behind .obfs4) .tor (fun _ => none) 1819).dials ascii phone) := by
  have hstarts : StartsTransport ascii phone (behind .obfs4) 1819 := by
    refine ⟨"obfs4".toList, "127.0.0.1:40000".toList, rfl, ⟨rfl, ?_⟩, rfl⟩
    exact ⟨_, rfl, by decide⟩
  intro hthrough
  have hproxy := (throughFirst_tor_iff (by decide)).1 hthrough hstarts
  cases hproxy

/-- With snowflake chosen tor does without bridges, and stays behind the first hop. -/
theorem throughFirst_snowflake :
    ThroughFirst 1819 ((buildCarrier (behind .snowflake) .tor (fun _ => none) 1819).dials ascii phone) := by
  refine (throughFirst_iff (by decide) (.aether, .tor) (fun _ => none)).2 ?_
  rintro - ⟨wanted, -, hwanted, -⟩
  cases hwanted

end Carriers
end AuroraVpn
