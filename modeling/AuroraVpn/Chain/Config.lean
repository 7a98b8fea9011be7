import AuroraVpn.Chain.Rules
import AuroraVpn.Lib.Utf16
import Mathlib.Logic.Function.Basic

/-!
# Config — the configuration of the exit chain, as it is written

`render` and `renderCarrier` of `ChainConfig.kt` with what they append, what `prepareHome` of `ChainController.kt`
leaves in the home directory of the chain, and the controller that says whether the running chain was configured
from it.  What is appended is given by its lines.
-/

namespace AuroraVpn
namespace Chain

open Utf16

@[ext]
structure ChainSource where
  name : Text
  url : Text
  enabled : Bool
  deriving DecidableEq

structure ChainSettings where
  enabled : Bool
  throughTunnel : Bool
  sources : List ChainSource
  manual : Text
  node : Option Text
  routeBlock : Text
  routeDirect : Text
  hiddenNodes : List Text
  deriving DecidableEq

def TUNNEL_PROXY : Text :=
  "aether".toList

def CARRIER_PROXY : Text :=
  "carrier".toList

def MANUAL_PROVIDER : Text :=
  "manual".toList

def HEALTH_CHECK_URL : Text :=
  "http://www.gstatic.com/generate_204".toList

def isNotBlank (t : Text) : Bool :=
  !t.all isWhitespaceKotlin

def providerKey (url : Text) : Text :=
  let hash := (utf16 (trimKotlin url)).foldl (fun hash character => (hash ^^^ character.toUInt32) * 0x01000193)
    (0x811c9dc5 : UInt32)
  "source".toList ++ (Nat.toDigits 16 hash.toNat).leftpad 8 '0'

/-- What `quote` makes of a character. -/
def escape (character : Char) : Text :=
  if character = '"' ∨ character = '\\' then ['\\', character]
  else if character = '\n' then "\\n".toList
  else if character = '\r' then "\\r".toList
  else if character = '\t' then "\\t".toList
  else if character.toNat < 0x20 then "\\x".toList ++ (Nat.toDigits 16 character.toNat).leftpad 2 '0'
  else [character]

def quote (value : Text) : Text :=
  '"' :: (value.flatMap escape ++ ['"'])

/-! ## What is appended -/

/-- Lines, each with its end. -/
def appendLines (appended : List Text) : Text :=
  appended.flatMap fun line => line ++ ['\n']

def preamble : List Text :=
  ["mode: rule", "log-level: info", "ipv6: true", "find-process-mode: off"].map String.toList

def appendDns (socksPort : Option Nat) (proxyName : Text) : List Text :=
  let via := if socksPort.isSome then '#' :: proxyName else []
  ["dns:", "  enable: true", "  ipv6: true", "  listen: 0.0.0.0:1053", "  enhanced-mode: fake-ip",
    "  fake-ip-range: 198.19.0.1/16", "  nameserver:"].map String.toList ++
    ["    - https://1.1.1.1/dns-query".toList ++ via, "    - https://dns.google/dns-query".toList ++ via]

/-- The proxy on the port, with its flag. -/
def appendProxy (proxyName : Text) (socksPort : Nat) (udp : Bool) : List Text :=
  ["proxies:".toList,
    "  - \x7bname: ".toList ++ proxyName ++ ", type: socks5, server: 127.0.0.1, port: ".toList ++
      Nat.toDigits 10 socksPort ++ ", udp: ".toList ++ (toString udp).toList ++ "\x7d".toList]

def healthCheck : Text :=
  "    health-check: \x7benable: true, url: \"".toList ++ HEALTH_CHECK_URL ++
    "\", interval: 300, lazy: true\x7d".toList

/-- The sources that providers are rendered for. -/
def ChainSettings.rendered (settings : ChainSettings) : List ChainSource :=
  settings.sources.filter fun source => source.enabled && isNotBlank source.url

/-- The lines of a provider that is fetched. -/
def sourceLines (through : List Text) (url : Text) : List Text :=
  ["  ".toList ++ providerKey url ++ ":".toList, "    type: http".toList, "    url: ".toList ++ quote url,
    "    interval: 3600".toList, "    path: ./providers/".toList ++ providerKey url ++ ".yaml".toList] ++ through ++
    [healthCheck]

def manualLines (through : List Text) : List Text :=
  ["  ".toList ++ MANUAL_PROVIDER ++ ":".toList, "    type: file".toList,
    "    path: ./providers/manual.txt".toList] ++ through ++ [healthCheck]

/-- What is appended, and the names of the providers. -/
def appendProviders (settings : ChainSettings) (through : List Text) : List Text × List Text :=
  let sources := settings.rendered
  let manual := trimKotlin settings.manual
  if sources = [] ∧ manual = [] then ([], [])
  else
    ("proxy-providers:".toList :: (sources.flatMap (fun source => sourceLines through source.url) ++
        if manual ≠ [] then manualLines through else []),
      sources.map (fun source => providerKey source.url) ++ if manual ≠ [] then [MANUAL_PROVIDER] else [])

section Render

variable (kotlin : Kotlin)

def appendRules (settings : ChainSettings) : List Text :=
  "rules:".toList ::
    (chainRules kotlin settings.routeBlock settings.routeDirect).map fun rule => "  - ".toList ++ rule

def appendCarrierRules (settings : ChainSettings) (udp : Bool) : List Text :=
  "rules:".toList ::
    ((ruleLines settings.routeBlock).flatMap (fun pattern => mihomoRules kotlin pattern REJECT) ++
      (ruleLines settings.routeDirect).flatMap (fun pattern => mihomoRules kotlin pattern DIRECT) ++
      (if udp then [] else ["NETWORK,udp,REJECT".toList]) ++
      ["MATCH,".toList ++ EXIT_GROUP]).map fun rule => "  - ".toList ++ rule

def groupLines (members : Text) : List Text :=
  ["proxy-groups:".toList, "  - name: ".toList ++ EXIT_GROUP, "    type: select".toList, "    ".toList ++ members]

/-- `render`, `none` where it throws for want of node sources. -/
def render (settings : ChainSettings) (socksPort : Option Nat) (proxyName : Text) : Option Text :=
  let proxies := match socksPort with
    | some port => appendProxy proxyName port true
    | none => []
  let through := if socksPort.isSome then ["    dialer-proxy: ".toList ++ proxyName] else []
  let (providers, names) := appendProviders settings through
  if names = [] then none
  else
    some (appendLines (preamble ++ appendDns socksPort proxyName ++ proxies ++ providers ++
      groupLines ("use: [".toList ++ ", ".toList.intercalate names ++ "]".toList) ++
      appendRules kotlin settings))

def renderCarrier (settings : ChainSettings) (socksPort : Nat) (udp : Bool) : Text :=
  appendLines (preamble ++ appendDns (some socksPort) CARRIER_PROXY ++ appendProxy CARRIER_PROXY socksPort udp ++
    groupLines ("proxies: [".toList ++ CARRIER_PROXY ++ "]".toList) ++ appendCarrierRules kotlin settings udp)

/-! ## Home directory -/

/-- `config.yaml`, and the files in `providers`. -/
structure Home where
  config : Option Text
  providers : Text → Option Text

/-- The files that `prepareHome` does not delete. -/
def wanted (settings : ChainSettings) : List Text :=
  settings.rendered.map (fun source => providerKey source.url ++ ".yaml".toList) ++ ["manual.txt".toList]

/-- What `prepareHome` writes of the pasted nodes, if anything. -/
def manualFile (settings : ChainSettings) : Option Text :=
  if isNotBlank settings.manual then some (trimKotlin settings.manual ++ ['\n']) else none

def prepareHome (settings : ChainSettings) (socksPort : Option Nat) (proxyName : Text) (home : Home) :
    Option Home :=
  (render kotlin settings socksPort proxyName).map fun config =>
    let kept := fun name => if name ∈ wanted settings then home.providers name else none
    { config := some config
      providers :=
        match manualFile settings with
        | some manual => Function.update kept "manual.txt".toList (some manual)
        | none => kept }

def ChainSettings.hasNodes (settings : ChainSettings) : Bool :=
  settings.sources.any (fun source => source.enabled && isNotBlank source.url) || isNotBlank settings.manual

/-- `startupError`, whether there is one. -/
def ChainSettings.startupError (settings : ChainSettings) : Bool :=
  settings.enabled && !settings.hasNodes

end Render

/-! ## Fingerprints -/

namespace ChainSettings

/-- The urls that the fingerprint is made of. -/
def urls (settings : ChainSettings) : List Text :=
  (settings.sources.filter ChainSource.enabled).map ChainSource.url

def nodeSourceFingerprint (settings : ChainSettings) : Text :=
  (toString settings.throughTunnel).toList ++ ['|'] ++
    (settings.sources.filter ChainSource.enabled).flatMap (fun source => source.url ++ [',']) ++ ['|'] ++
    trimKotlin settings.manual

def fingerprint (settings : ChainSettings) : Text :=
  settings.nodeSourceFingerprint ++ ['|'] ++ trimKotlin settings.routeBlock ++ ['|'] ++
    trimKotlin settings.routeDirect

end ChainSettings

/-! ## The controller -/

/-- The home directory, what of it the engine was last configured from, and what the controller has noted of that. -/
structure Controller where
  home : Home
  loaded : Option Home
  applied : Option Text

/-- How far a start gets. -/
inductive Outcome
  | unavailable
  /-- The engine has refused its configuration. -/
  | refused
  /-- It has taken it, but not the interface. -/
  | detached
  | attached
  deriving DecidableEq

namespace Controller

variable (kotlin : Kotlin)

/-- What is left behind of what was written, with what is noted where all went well. -/
def outcome (c : Controller) (written : Option Home) (applied : Option Text) : Outcome → Controller
  | .unavailable => c
  | .refused => { c with home := written.getD c.home }
  | .detached => { c with home := written.getD c.home, loaded := written.or c.loaded }
  | .attached =>
      match written with
      | some home => ⟨home, some home, applied⟩
      | none => c

/-- `start`. -/
def start (c : Controller) (settings : ChainSettings) (socksPort : Option Nat) (result : Outcome) : Controller :=
  if settings.startupError then c
  else
    c.outcome (prepareHome kotlin settings socksPort TUNNEL_PROXY c.home) (some settings.fingerprint) result

/-- `startCarrier`. -/
def startCarrier (c : Controller) (settings : ChainSettings) (socksPort : Nat) (udp : Bool) (result : Outcome) :
    Controller :=
  c.outcome
    (if settings.enabled then prepareHome kotlin settings (some socksPort) CARRIER_PROXY c.home
      else some { c.home with config := some (renderCarrier kotlin settings socksPort udp) })
    none result

def stop (c : Controller) : Controller :=
  { c with loaded := none, applied := none }

def isRunningConfigCurrent (c : Controller) (settings : ChainSettings) : Bool :=
  c.applied.isSome && c.applied = some settings.fingerprint

end Controller

end Chain
end AuroraVpn
