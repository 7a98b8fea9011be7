import AuroraVpn.Lib.Text
import Mathlib.Logic.Function.Basic

/-!
# Tor — what tor and its pluggable transport are started with

`TorBridges`, `TorConfig`, `PluggableTransport.start` and `TorCarrierService.start`, on a service that
runs no tor yet.  The transport is started first, because the `torrc` names the port it listens on.

* `start_eq_ok`: what a start that was not refused leaves running.
* `environment_proxy`: the proxy that the transport is told of.
-/

namespace AuroraVpn
namespace Carriers

/-! ## Bridge lines -/

/-- `String.lines` of Kotlin. -/
def lines : Text → List Text
  | [] => [[]]
  | '\r' :: '\n' :: t => [] :: lines t
  | '\r' :: t => [] :: lines t
  | '\n' :: t => [] :: lines t
  | c :: t => (lines t).modifyHead (c :: ·)

/-- `split(' ')`. -/
def words (t : Text) : List Text :=
  t.splitOn ' '

inductive TorBridge
  | none
  | obfs4
  | snowflake
  | custom
  deriving DecidableEq, Repr

/-- What is used of Kotlin's characters and strings besides. -/
structure Kotlin where
  isLetterOrDigit : Char → Bool
  lowercase : Text → Text

namespace TorBridges

def binaryFor (transport : Text) : Text :=
  if transport = "snowflake".toList then "libsnowflake.so".toList else "liblyrebird.so".toList

/-- What a bridge line looks like. -/
def isBridge (kotlin : Kotlin) (line : Text) : Bool :=
  if line = [] ∨ "#".toList.isPrefixOf line then false
  else
    match words line with
    | transport :: address :: _ =>
        transport.all (fun c => kotlin.isLetterOrDigit c || c = '_') && address.contains ':'
    | _ => false

def parse (kotlin : Kotlin) (text : Text) : List Text :=
  ((lines text).map trimKotlin).filter (isBridge kotlin)

/-- The transport that the first line names. -/
def transportOf (bridges : List Text) : Option Text :=
  (bridges.head?.bind fun line => (words line).head?).filter fun name => !name.all isWhitespaceKotlin

def forTransport (bridges : List Text) (transport : Text) : List Text :=
  bridges.filter fun line => (transport ++ [' ']).isPrefixOf line

end TorBridges

/-! ## The `torrc` -/

namespace TorConfig

def DEFAULT_OBFS4 : List Text :=
  [("obfs4 37.218.245.14:38224 D9A82D2F9C2F65A18407B1D2B764F130847F8B5D " ++
    "cert=bjRaMrr1BRiAW8IE9U5z27fQaYgOhX1UCmOpg2pFpoMvo6ZgQMzLsaTzzQNTlm7hNcb+Sg iat-mode=0").toList,
  ("obfs4 212.83.43.95:443 BFE712113A72899AD685764B211FACD30FF52C31 " ++
    "cert=ayq0XzCwhpdysn5o0EyDUbmSOx3X/oTEbzDMvczHOdBJKlvIdHHLJGkZARtT4dcBFArPPg iat-mode=1").toList,
  ("obfs4 51.222.13.177:80 5EDAC3B810E12B01F6FD8050D2FD3E277B289A08 " ++
    "cert=2uplIpLQ0q9+0qMFrK5pkaYRDOe460LL9WHBvatgkuRr/SL31wBOEupaMMJ6koRE6Ld0ew iat-mode=0").toList,
  ("obfs4 45.145.95.6:27015 C5B7CD6946FF10C5B3E89691A7D3F2C122D2117C " ++
    "cert=TD7PbUO0/0k6xYHMPW3vJxICfkMZNdkRrb63Zhl5j9dW3iRGiCx0A7mPhe5T2EDzQ35+Zw iat-mode=0").toList,
  ("obfs4 209.148.46.65:443 74FAD13168806246602538555B5521A0383A1875 " ++
    "cert=ssH+9rP8dG2NLDN2XuFw63hIO/9MNNinLmxQDpVa+7kTOa9/m+tGWT1SmSYpQ9uTBGa6Hw iat-mode=0").toList,
  ("obfs4 212.83.43.74:443 39562501228A4D5E27FCA4C0C81A01EE23AE3EE4 " ++
    "cert=PBwr+S8JTVZo6MPdHnkTwXJPILWADLqfMGoVvhZClMq/Urndyd42BwX9YFJHZnBB3H0XCw iat-mode=1").toList]

def DEFAULT_SNOWFLAKE : Text :=
  ("snowflake 192.0.2.3:80 2B280B23E1107BB62ABFC40DDCC8824814F80A72 " ++
    "fingerprint=2B280B23E1107BB62ABFC40DDCC8824814F80A72 url=https://1098762253.rsc.cdn77.org/ " ++
    "fronts=app.datapacket.com,www.datapacket.com ice=stun:stun.epygi.com:3478," ++
    "stun:stun.uls.co.za:3478,stun:stun.voipgate.com:3478,stun:stun.mixvoip.com:3478," ++
    "stun:stun.telnyx.com:3478,stun:stun.hot-chilli.net:3478,stun:stun.fitauto.ru:3478," ++
    "stun:stun.m-online.net:3478 utls-imitate=hellorandomizedalpn").toList

section

variable (kotlin : Kotlin)

def transportName (bridge : TorBridge) (custom : Text) : Option Text :=
  match bridge with
  | .none => none
  | .obfs4 => some "obfs4".toList
  | .snowflake => some "snowflake".toList
  | .custom => TorBridges.transportOf (TorBridges.parse kotlin custom)

def bridgeLines (bridge : TorBridge) (custom : Text) : List Text :=
  match bridge with
  | .none => []
  | .obfs4 => DEFAULT_OBFS4
  | .snowflake => [DEFAULT_SNOWFLAKE]
  | .custom =>
      let bridges := TorBridges.parse kotlin custom
      match TorBridges.transportOf bridges with
      | some transport => TorBridges.forTransport bridges transport
      | none => []

/-- `exitCountry?.trim()?.lowercase()?.takeIf { it.length == 2 }`. -/
def countryOf (exitCountry : Option Text) : Option Text :=
  (exitCountry.map fun country => kotlin.lowercase (trimKotlin country)).filter fun country =>
    country.length = 2

/-- What stands in every `torrc`. -/
def fixedLines : List Text :=
  ["SocksPolicy accept 127.0.0.1/8".toList, "SocksPolicy reject *".toList, "ClientOnly 1".toList,
    "AvoidDiskWrites 1".toList, "DNSPort 0".toList, "TransPort 0".toList]

def upstreamLines (upstreamPort : UInt16) : List Text :=
  if 0 < upstreamPort then ["Socks5Proxy 127.0.0.1:".toList ++ Nat.toDigits 10 upstreamPort.toNat]
  else []

/-- A transport and bridges for it, or neither. -/
def bridgeModeLines (name transport : Option Text) (bridges : List Text) : List Text :=
  match name, transport with
  | some name, some listening =>
      if bridges = [] then []
      else
        ("ClientTransportPlugin ".toList ++ name ++ " socks5 ".toList ++ listening) ::
          "UseBridges 1".toList :: bridges.map ("Bridge ".toList ++ ·)
  | _, _ => []

def exitLines (country : Option Text) : List Text :=
  match country with
  | some country => ["ExitNodes \x7b".toList ++ country ++ "\x7d".toList, "StrictNodes 0".toList]
  | none => []

/-- `TorConfig.render`, by its lines. -/
def render (bridge : TorBridge) (exitCountry transport : Option Text) (customBridges : Text)
    (upstreamPort : UInt16) : List Text :=
  fixedLines ++ upstreamLines upstreamPort ++
    bridgeModeLines (transportName kotlin bridge customBridges) transport
      (bridgeLines kotlin bridge customBridges) ++
    exitLines (countryOf kotlin exitCountry)

inductive Refusal
  | noBridges
  deriving DecidableEq, Repr

def refusal (bridge : TorBridge) (customBridges : Text) : Option Refusal :=
  if bridge ≠ .custom then none
  else if TorBridges.parse kotlin customBridges = [] then some .noBridges
  else if transportName kotlin bridge customBridges = none then some .noBridges
  else none

end

end TorConfig

/-! ## The pluggable transport -/

/-- The variables of a process. -/
abbrev ProcessEnv :=
  Text → Option Text

/-- `put`. -/
def ProcessEnv.put (env : ProcessEnv) (name : String) (value : Text) : ProcessEnv :=
  Function.update env name.toList (some value)

/-- The device that a carrier is started on: what a process inherits, the executables that were
extracted, what a started one prints until it closes its output or the handshake has taken too long,
and what writing the `torrc` answers. -/
structure Device where
  inherited : ProcessEnv
  stateDir : Text
  ships : Text → Bool
  launch : Text → ProcessEnv → Except Text (List Text)
  writeTorrc : List Text → Except Text Unit

namespace PluggableTransport

/-- The environment that the transport is started in. -/
def environment (device : Device) (transports : List Text) : ProcessEnv :=
  ((((device.inherited.put "TOR_PT_MANAGED_TRANSPORT_VER" "1".toList).put
    "TOR_PT_STATE_LOCATION" device.stateDir).put
    "TOR_PT_CLIENT_TRANSPORTS" (List.intercalate ",".toList transports)).put
    "TOR_PT_EXIT_ON_STDIN_CLOSE" "1".toList)

/-- Where each transport listens. -/
abbrev Methods :=
  Text → Option Text

/-- The loop of `start` over what the transport prints. -/
def readMethods (methods : Methods) : List Text → Methods
  | [] => methods
  | line :: rest =>
      let parts := words (trimKotlin line)
      if parts.head? = some "CMETHOD".toList then
        match parts with
        | _ :: name :: _ :: address :: _ => readMethods (Function.update methods name (some address)) rest
        | _ => readMethods methods rest
      else if parts.head? = some "CMETHODS".toList ∧ parts[1]? = some "DONE".toList then methods
      else if parts.head? = some "ENV-ERROR".toList ∨ parts.head? = some "VERSION-ERROR".toList then
        fun _ => none
      else readMethods methods rest

/-- `PluggableTransport.start`. -/
def start (device : Device) (binary : Text) (transports : List Text) : Except Text Methods :=
  (device.launch binary (environment device transports)).map (readMethods fun _ => none)

end PluggableTransport

/-! ## The service -/

/-- A transport that runs for tor. -/
structure Transport where
  name : Text
  listening : Text
  environment : ProcessEnv

/-- What a start leaves running: tor with its `torrc`, and the transport. -/
structure Running where
  torrc : List Text
  transport : Option Transport

namespace TorCarrierService

variable (kotlin : Kotlin) (device : Device)

/-- The transport of a start, as far as the bridge mode wants one. -/
def startTransport (wanted : Option Text) : Except Text (Option Transport) :=
  match wanted with
  | none => .ok none
  | some wanted =>
      if device.ships (TorBridges.binaryFor wanted) = false then
        .error "This build ships no pluggable transports".toList
      else
        match PluggableTransport.start device (TorBridges.binaryFor wanted) [wanted] with
        | .error message =>
            .error ("The ".toList ++ wanted ++ " transport did not start: ".toList ++ message)
        | .ok methods =>
            match methods wanted with
            | none =>
                .error ("The ".toList ++ wanted ++ " transport started without offering ".toList ++ wanted)
            | some listening =>
                .ok (some ⟨wanted, listening, PluggableTransport.environment device [wanted]⟩)

/-- `TorCarrierService.start`, of a service that was not started. -/
def start (bridge : TorBridge) (exitCountry : Option Text) (customBridges : Text)
    (upstreamPort : UInt16) : Except Text Running := do
  if TorConfig.refusal kotlin bridge customBridges ≠ none then
    .error "No usable bridge lines. Paste the ones you were given, or fetch them.".toList
  else
    let transport ← startTransport device (TorConfig.transportName kotlin bridge customBridges)
    let torrc := TorConfig.render kotlin bridge exitCountry (transport.map Transport.listening)
      customBridges upstreamPort
    match device.writeTorrc torrc with
    | .ok () => .ok ⟨torrc, transport⟩
    | .error message => .error ("Could not write tor's configuration: ".toList ++ message)

/-- The transport that a start wants can be had: its executable was extracted, runs, and says that it
listens at `listening`. -/
structure Offers (wanted listening : Text) : Prop where
  ships : device.ships (TorBridges.binaryFor wanted) = true
  listens : ∃ methods, PluggableTransport.start device (TorBridges.binaryFor wanted) [wanted] =
    .ok methods ∧ methods wanted = some listening

variable {kotlin device} {wanted : Text} {transport : Option Transport}

theorem startTransport_eq_ok : startTransport device (some wanted) = .ok transport ↔
    ∃ listening, Offers device wanted listening ∧
      transport = some ⟨wanted, listening, PluggableTransport.environment device [wanted]⟩ := by
  constructor
  · intro h
    unfold startTransport at h
    dsimp only at h
    -- the transport is shipped, it was started, and it listens; all else is an error
    split_ifs at h with hships
    split at h
    · cases h
    · next methods hstart =>
        split at h
        · cases h
        · next listening hlistens =>
            cases h
            exact ⟨listening, ⟨Bool.of_not_eq_false hships, methods, hstart, hlistens⟩, rfl⟩
  · rintro ⟨listening, ⟨hships, methods, hstart, hlistens⟩, rfl⟩
    unfold startTransport
    dsimp only
    rw [if_neg (by rw [hships]; decide), hstart]
    dsimp only
    rw [hlistens]

/-- A bridge mode that names a transport is not refused. -/
theorem refusal_of_transportName {bridge : TorBridge} {customBridges : Text}
    (h : TorConfig.transportName kotlin bridge customBridges = some wanted) :
    TorConfig.refusal kotlin bridge customBridges = none := by
  unfold TorConfig.refusal
  by_cases hcustom : bridge = .custom
  · subst hcustom
    have hparse : TorBridges.parse kotlin customBridges ≠ [] := by
      intro hnil
      simp [TorConfig.transportName, hnil, TorBridges.transportOf] at h
    rw [if_neg (by simp), if_neg hparse, if_neg (by rw [h]; simp)]
  · rw [if_pos hcustom]

/-- **A start that is not refused** leaves tor running with its torrc, and with it the transport that
was wanted, if one was. -/
theorem start_eq_ok {bridge : TorBridge} {exitCountry : Option Text} {customBridges : Text}
    {upstreamPort : UInt16} {running : Running} :
    start kotlin device bridge exitCountry customBridges upstreamPort = .ok running ↔
      TorConfig.refusal kotlin bridge customBridges = none ∧
        startTransport device (TorConfig.transportName kotlin bridge customBridges) =
          .ok running.transport ∧
        running.torrc = TorConfig.render kotlin bridge exitCountry
          (running.transport.map Transport.listening) customBridges upstreamPort ∧
        device.writeTorrc running.torrc = .ok () := by
  constructor
  -- past each of the checks in the order of the code
  · intro h
    unfold start at h
    split_ifs at h with hrefusal
    refine ⟨not_not.1 hrefusal, ?_⟩
    cases htransport : startTransport device (TorConfig.transportName kotlin bridge customBridges) with
    | error message =>
        rw [htransport] at h
        cases h
    | ok transport =>
        rw [htransport] at h
        change (match device.writeTorrc _ with
          | .ok () => _
          | .error message => _) = _ at h
        split at h
        · next hwrite =>
            cases h
            exact ⟨rfl, rfl, hwrite⟩
        · cases h
  -- and with all of them passed the code runs to its end
  · rintro ⟨hrefusal, htransport, htorrc, hwrite⟩
    unfold start
    rw [if_neg (not_not.2 hrefusal), htransport]
    change (match device.writeTorrc (TorConfig.render kotlin bridge exitCountry
        (running.transport.map Transport.listening) customBridges upstreamPort) with
      | .ok () => _
      | .error message => _) = _
    rw [← htorrc, hwrite]

/-- The environment of the transport names the proxy that this process inherited, if any. -/
theorem environment_proxy (transports : List Text) :
    PluggableTransport.environment device transports "TOR_PT_PROXY".toList =
      device.inherited "TOR_PT_PROXY".toList := by
  unfold PluggableTransport.environment ProcessEnv.put
  rw [Function.update_of_ne (by decide), Function.update_of_ne (by decide),
    Function.update_of_ne (by decide), Function.update_of_ne (by decide)]

end TorCarrierService

end Carriers
end AuroraVpn
