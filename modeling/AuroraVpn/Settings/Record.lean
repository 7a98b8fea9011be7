import AuroraVpn.Carriers.Tor
import AuroraVpn.Service.Attempts
import AuroraVpn.Settings.Codecs

/-!
# Record — `AppSettings` and the preferences it is kept in

The record of `AppSettings.kt`, with the fields of its `chain` and `splitTunnel` one by one, and
`SettingsRepository`, which reads it from the preferences (`settingsOf`) and writes all of it there
(`savePreferences`).

* `settingsOf_absent`: what is read where nothing was ever written is `AppSettings()`.
* `savedField_iff`: the values of a field that are read as they were written.
* `valid_settingsOf`: what is read is made of such values.

The text of the two preferences that hold JSON is kept as what `org.json` reads in it.
-/

namespace AuroraVpn
namespace Settings

open Carriers (TorBridge)
open Chain (ChainSource ChainSettings isNotBlank)
open Service.Attempts (Carrier)

/-! ## Enumerations -/

inductive EngineMode
  | tun
  | proxy
  deriving DecidableEq

inductive TunnelProtocol
  | auto
  | h3
  | h2
  | wireguard
  | warpInWarp
  | masqueInMasque
  deriving DecidableEq

inductive ScanStrategy
  | turbo
  | balanced
  | thorough
  | stealth
  | ironclad
  deriving DecidableEq

inductive EndpointMode
  | automatic
  | customFirst
  | customOnly
  deriving DecidableEq

inductive ThemeMode
  | system
  | light
  | dark
  deriving DecidableEq

inductive AppLanguage
  | system
  | english
  | persian
  deriving DecidableEq

instance : Enumeration EngineMode where
  entries := [.tun, .proxy]
  name
    | .tun => "TUN"
    | .proxy => "PROXY"
  find_name e := by cases e <;> rfl
  name_ne_empty e := by cases e <;> decide

instance : Enumeration Carrier where
  entries := [.aether, .psiphon, .tor]
  name
    | .aether => "AETHER"
    | .psiphon => "PSIPHON"
    | .tor => "TOR"
  find_name e := by cases e <;> rfl
  name_ne_empty e := by cases e <;> decide

instance : Enumeration TorBridge where
  entries := [.none, .obfs4, .snowflake, .custom]
  name
    | .none => "NONE"
    | .obfs4 => "OBFS4"
    | .snowflake => "SNOWFLAKE"
    | .custom => "CUSTOM"
  find_name e := by cases e <;> rfl
  name_ne_empty e := by cases e <;> decide

instance : Enumeration TunnelProtocol where
  entries := [.auto, .h3, .h2, .wireguard, .warpInWarp, .masqueInMasque]
  name
    | .auto => "AUTO"
    | .h3 => "H3"
    | .h2 => "H2"
    | .wireguard => "WIREGUARD"
    | .warpInWarp => "WARP_IN_WARP"
    | .masqueInMasque => "MASQUE_IN_MASQUE"
  find_name e := by cases e <;> rfl
  name_ne_empty e := by cases e <;> decide

instance : Enumeration ScanStrategy where
  entries := [.turbo, .balanced, .thorough, .stealth, .ironclad]
  name
    | .turbo => "TURBO"
    | .balanced => "BALANCED"
    | .thorough => "THOROUGH"
    | .stealth => "STEALTH"
    | .ironclad => "IRONCLAD"
  find_name e := by cases e <;> rfl
  name_ne_empty e := by cases e <;> decide

instance : Enumeration EndpointMode where
  entries := [.automatic, .customFirst, .customOnly]
  name
    | .automatic => "AUTOMATIC"
    | .customFirst => "CUSTOM_FIRST"
    | .customOnly => "CUSTOM_ONLY"
  find_name e := by cases e <;> rfl
  name_ne_empty e := by cases e <;> decide

instance : Enumeration ThemeMode where
  entries := [.system, .light, .dark]
  name
    | .system => "SYSTEM"
    | .light => "LIGHT"
    | .dark => "DARK"
  find_name e := by cases e <;> rfl
  name_ne_empty e := by cases e <;> decide

instance : Enumeration AppLanguage where
  entries := [.system, .english, .persian]
  name
    | .system => "SYSTEM"
    | .english => "ENGLISH"
    | .persian => "PERSIAN"
  find_name e := by cases e <;> rfl
  name_ne_empty e := by cases e <;> decide

/-! ## Preferences -/

/-- How the repository reads and writes one preference, and which values it reads as it wrote them. -/
structure Preference (V : Type) where
  Stored : Type
  read : Option Stored → V
  write : V → Option Stored
  Valid : V → Prop
  read_write : ∀ v, read (write v) = v ↔ Valid v
  valid_read : ∀ stored, Valid (read stored)

namespace Preference

/-- `preferences[KEY] ?: default`. -/
def plain {V : Type} (default : V) : Preference V where
  Stored := V
  read stored := stored.getD default
  write := some
  Valid _ := True
  read_write _ := ⟨fun _ => trivial, fun _ => rfl⟩
  valid_read _ := trivial

/-- `preferences[KEY]?.coerceIn(lo, hi) ?: default`. -/
def coerced (lo hi default : Int) (h : lo ≤ default ∧ default ≤ hi) : Preference Int where
  Stored := Int
  read stored := (stored.map fun n => max lo (min n hi)).getD default
  write := some
  Valid n := lo ≤ n ∧ n ≤ hi
  read_write n := by
    change max lo (min n hi) = n ↔ _
    omega
  valid_read stored := by
    cases stored with
    | none => exact h
    | some n =>
        change lo ≤ max lo (min n hi) ∧ max lo (min n hi) ≤ hi
        omega

section Enumerations

variable (E : Type) [Enumeration E]

/-- `enumValueOrDefault`. -/
def enumValueOrDefault (default : E) : Preference E where
  Stored := Text
  read stored := (stored.bind Enumeration.ofName).getD default
  write e := some (Enumeration.name e).toList
  Valid _ := True
  read_write e := by
    refine ⟨fun _ => trivial, fun _ => ?_⟩
    rw [Option.bind_some, Enumeration.ofName_name, Option.getD_some]
  valid_read _ := trivial

/-- A value that may be missing: without one the preference is removed. -/
def removed : Preference (Option E) where
  Stored := Text
  read stored := stored.bind Enumeration.ofName
  write value := value.map fun e => (Enumeration.name e).toList
  Valid _ := True
  read_write value := by
    refine ⟨fun _ => trivial, fun _ => ?_⟩
    cases value with
    | none => rfl
    | some e => exact Enumeration.ofName_name e
  valid_read _ := trivial

/-- A value that may be missing: without one the preference is an empty text. -/
def emptied : Preference (Option E) where
  Stored := Text
  read stored := stored.bind Enumeration.ofName
  write value := some ((value.map fun e => (Enumeration.name e).toList).getD [])
  Valid _ := True
  read_write value := by
    refine ⟨fun _ => trivial, fun _ => ?_⟩
    cases value with
    | none => exact Enumeration.ofName_nil
    | some e => exact Enumeration.ofName_name e
  valid_read _ := trivial

end Enumerations

end Preference

/-! ## The record -/

/-- A field of `AppSettings` that has a preference of its own. -/
inductive PlainField
  | mode
  | proxyPort
  | carrier
  | secondCarrier
  | automaticCarrier
  | psiphonRegion
  | torBridge
  | torBridges
  | transport
  | scanStrategy
  | dualStack
  | validationEnabled
  | noizeProfile
  | endpointMode
  | customEndpoint
  | customEndpointProtocol
  | fragmentTls
  | encryptedHello
  | lanSharing
  | lanUsername
  | lanPassword
  | routeBlock
  | routeDirect
  | killSwitch
  | strictKillSwitch
  | wgKeepalive
  | upstreamProxy
  | dnsServers
  | routeSniff
  | autoReprovision
  | engineLogLevel
  | tlsGroups
  | batteryRequestIgnored
  | batteryNoticeDismissed
  | themeMode
  | language
  | showAdvanced
  deriving DecidableEq

inductive ChainField
  | enabled
  | throughTunnel
  | sources
  | manual
  | node
  | routeBlock
  | routeDirect
  | hiddenNodes
  deriving DecidableEq

inductive SplitTunnelField
  | mode
  | packages
  deriving DecidableEq

/-- A field of `AppSettings`, those of `chain` and of `splitTunnel` one by one. -/
inductive Field
  | plain (f : PlainField)
  | chain (f : ChainField)
  | splitTunnel (f : SplitTunnelField)
  deriving DecidableEq

def PlainField.Value : PlainField → Type
  | .mode => EngineMode
  | .proxyPort | .wgKeepalive => Int
  | .carrier => Carrier
  | .secondCarrier => Option Carrier
  | .torBridge => TorBridge
  | .transport => TunnelProtocol
  | .scanStrategy => ScanStrategy
  | .endpointMode => EndpointMode
  | .customEndpointProtocol => Option TunnelProtocol
  | .themeMode => ThemeMode
  | .language => AppLanguage
  | .automaticCarrier | .dualStack | .validationEnabled | .fragmentTls | .encryptedHello | .lanSharing
  | .killSwitch | .strictKillSwitch | .routeSniff | .autoReprovision | .batteryRequestIgnored
  | .batteryNoticeDismissed | .showAdvanced => Bool
  | .psiphonRegion | .torBridges | .noizeProfile | .customEndpoint | .lanUsername | .lanPassword | .routeBlock
  | .routeDirect | .upstreamProxy | .dnsServers | .engineLogLevel | .tlsGroups => Text

def ChainField.Value : ChainField → Type
  | .enabled | .throughTunnel => Bool
  | .sources => List ChainSource
  | .manual | .routeBlock | .routeDirect => Text
  | .node => Option Text
  | .hiddenNodes => List Text

def SplitTunnelField.Value : SplitTunnelField → Type
  | .mode => SplitTunnelMode
  | .packages => Finset Text

def Field.Value : Field → Type
  | .plain f => f.Value
  | .chain f => f.Value
  | .splitTunnel f => f.Value

abbrev AppSettings :=
  ∀ f : Field, f.Value

/-- A field of `ChainSettings`. -/
def chainField (chain : ChainSettings) : ∀ f : ChainField, f.Value
  | .enabled => chain.enabled
  | .throughTunnel => chain.throughTunnel
  | .sources => chain.sources
  | .manual => chain.manual
  | .node => chain.node
  | .routeBlock => chain.routeBlock
  | .routeDirect => chain.routeDirect
  | .hiddenNodes => chain.hiddenNodes

def splitTunnelField (split : SplitTunnel) : ∀ f : SplitTunnelField, f.Value
  | .mode => split.mode
  | .packages => split.packages

def AppSettings.chain (settings : AppSettings) : ChainSettings where
  enabled := settings (.chain .enabled)
  throughTunnel := settings (.chain .throughTunnel)
  sources := settings (.chain .sources)
  manual := settings (.chain .manual)
  node := settings (.chain .node)
  routeBlock := settings (.chain .routeBlock)
  routeDirect := settings (.chain .routeDirect)
  hiddenNodes := settings (.chain .hiddenNodes)

def AppSettings.splitTunnel (settings : AppSettings) : SplitTunnel where
  mode := settings (.splitTunnel .mode)
  packages := settings (.splitTunnel .packages)

/-- The defaults of the constructor. -/
def PlainField.default : ∀ f : PlainField, f.Value
  | .mode => EngineMode.tun
  -- in the order in which the class declares its fields
  | .proxyPort => (1819 : Int)
  | .carrier => Carrier.aether
  | .secondCarrier => (none : Option Carrier)
  | .automaticCarrier => true
  | .psiphonRegion => ([] : Text)
  | .torBridge => TorBridge.none
  | .torBridges => ([] : Text)
  | .transport => TunnelProtocol.auto
  | .scanStrategy => ScanStrategy.balanced
  | .dualStack => true
  | .validationEnabled => true
  | .noizeProfile => "firewall".toList
  | .endpointMode => EndpointMode.automatic
  | .customEndpoint => ([] : Text)
  | .customEndpointProtocol => (none : Option TunnelProtocol)
  | .fragmentTls => false
  | .encryptedHello => false
  | .lanSharing => false
  | .lanUsername => ([] : Text)
  | .lanPassword => ([] : Text)
  | .routeBlock => ([] : Text)
  | .routeDirect => ([] : Text)
  | .killSwitch => false
  | .strictKillSwitch => false
  | .wgKeepalive => (25 : Int)
  | .upstreamProxy => ([] : Text)
  | .dnsServers => ([] : Text)
  | .routeSniff => true
  | .autoReprovision => true
  | .engineLogLevel => ([] : Text)
  | .tlsGroups => ([] : Text)
  | .batteryRequestIgnored => false
  | .batteryNoticeDismissed => false
  | .themeMode => ThemeMode.system
  | .language => AppLanguage.system
  | .showAdvanced => false

/-- `AppSettings()`. -/
def AppSettings.new : AppSettings
  | .plain f => f.default
  | .chain f => chainField .new f
  | .splitTunnel f => splitTunnelField .new f

/-! ## The repository -/

/-- How `SettingsRepository` reads and writes a field. -/
def preference : ∀ f : PlainField, Preference f.Value
  | .mode => .enumValueOrDefault EngineMode .tun
  | .proxyPort => .coerced 1024 65535 1819 (by decide)
  -- a carrier that cannot be the second one is left out, and not the whole setting
  | .carrier => .enumValueOrDefault Carrier .aether
  | .secondCarrier => .removed Carrier
  | .automaticCarrier => .plain true
  | .psiphonRegion => .plain ([] : Text)
  | .torBridge => .enumValueOrDefault TorBridge .none
  | .torBridges => .plain ([] : Text)
  | .transport => .enumValueOrDefault TunnelProtocol .auto
  | .scanStrategy => .enumValueOrDefault ScanStrategy .balanced
  | .dualStack => .plain true
  | .validationEnabled => .plain true
  | .noizeProfile => .plain "firewall".toList
  | .endpointMode => .enumValueOrDefault EndpointMode .automatic
  | .customEndpoint => .plain ([] : Text)
  | .customEndpointProtocol => .emptied TunnelProtocol
  | .themeMode => .enumValueOrDefault ThemeMode .system
  | .language => .enumValueOrDefault AppLanguage .system
  | .showAdvanced => .plain false
  | .fragmentTls => .plain false
  | .encryptedHello => .plain false
  | .lanSharing => .plain false
  | .lanUsername => .plain ([] : Text)
  | .lanPassword => .plain ([] : Text)
  | .routeBlock => .plain ([] : Text)
  | .routeDirect => .plain ([] : Text)
  | .killSwitch => .plain false
  | .strictKillSwitch => .plain false
  | .wgKeepalive => .coerced 0 300 25 (by decide)
  | .upstreamProxy => .plain ([] : Text)
  | .dnsServers => .plain ([] : Text)
  | .routeSniff => .plain true
  | .autoReprovision => .plain true
  | .engineLogLevel => .plain ([] : Text)
  | .tlsGroups => .plain ([] : Text)
  | .batteryRequestIgnored => .plain false
  | .batteryNoticeDismissed => .plain false

/-- The preferences of the app.  One that holds JSON is `none` where it is absent, blank, or no object. -/
structure Preferences where
  plain : ∀ f : PlainField, Option (preference f).Stored
  chain : Option JsonObject
  splitTunnel : Option JsonObject

/-- Preferences in which nothing was ever written. -/
def Preferences.absent : Preferences where
  plain _ := none
  chain := none
  splitTunnel := none

/-- `SettingsRepository.settings`, for one state of the preferences. -/
def settingsOf (preferences : Preferences) : AppSettings
  | .plain f => (preference f).read (preferences.plain f)
  | .chain f => chainField (ChainSettings.decode preferences.chain) f
  | .splitTunnel f => splitTunnelField (SplitTunnel.decode preferences.splitTunnel) f

/-- `SettingsRepository.save`: every field is written. -/
def savePreferences (settings : AppSettings) : Preferences where
  plain f := (preference f).write (settings (.plain f))
  chain := some settings.chain.encode
  splitTunnel := some settings.splitTunnel.encode

/-- **What is read where nothing was written** are the defaults of the constructor. -/
theorem settingsOf_absent : settingsOf .absent = AppSettings.new := by
  funext f
  cases f with
  | plain f => cases f <;> rfl
  | chain f => rfl
  | splitTunnel f => rfl

/-! ## What is read as it was written -/

/-- A value of a field that the repository reads as it wrote it. -/
def Valid : ∀ f : Field, f.Value → Prop
  | .plain f, v => (preference f).Valid v
  | .chain .sources, (sources : List ChainSource) => ∀ source ∈ sources, source.Kept
  | .chain .node, (node : Option Text) => ∀ name ∈ node, isNotBlank name = true
  | .chain .hiddenNodes, (nodes : List Text) => ∀ name ∈ nodes, isNotBlank name = true
  | .splitTunnel .packages, (packages : Finset Text) => ∀ name ∈ packages, isNotBlank name = true
  | _, _ => True

/-- **The values that come back** from the preferences, field by field. -/
theorem savedField_iff (settings : AppSettings) (f : Field) :
    settingsOf (savePreferences settings) f = settings f ↔ Valid f (settings f) := by
  cases f with
  | plain f => exact (preference f).read_write _
  | chain f =>
      have hread : settingsOf (savePreferences settings) (.chain f) =
          chainField (ChainSettings.decode (some settings.chain.encode)) f := rfl
      rw [hread, ChainSettings.decode_encode]
      cases f with
      | sources => exact ChainSettings.filterMap_sources_iff settings.chain.sources
      | node => exact ChainSettings.filter_node_iff settings.chain.node
      | hiddenNodes => exact List.filter_eq_self
      | _ => exact ⟨fun _ => trivial, fun _ => rfl⟩
  | splitTunnel f =>
      have hread : settingsOf (savePreferences settings) (.splitTunnel f) =
          splitTunnelField (SplitTunnel.decode (some settings.splitTunnel.encode)) f := rfl
      rw [hread, SplitTunnel.decode_encode]
      cases f with
      | mode => exact ⟨fun _ => trivial, fun _ => rfl⟩
      | packages => exact Finset.filter_eq_self

/-- **What is read is read again.** -/
theorem valid_settingsOf (preferences : Preferences) (f : Field) : Valid f (settingsOf preferences f) := by
  cases f with
  | plain f => exact (preference f).valid_read _
  | chain f =>
      have hkept := ChainSettings.kept_decode preferences.chain
      cases f with
      | sources => exact hkept.sources
      | node => exact hkept.node
      | hiddenNodes => exact hkept.hiddenNodes
      | _ => trivial
  | splitTunnel f =>
      cases f with
      | mode => trivial
      | packages => exact SplitTunnel.kept_decode preferences.splitTunnel

theorem valid_new (f : Field) : Valid f (AppSettings.new f) :=
  settingsOf_absent ▸ valid_settingsOf .absent f

end Settings
end AuroraVpn
