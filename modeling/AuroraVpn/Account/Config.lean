import AuroraVpn.Account.Store
import AuroraVpn.Lib.Except
import Mathlib.Data.Vector.Basic
import Mathlib.Logic.Function.Basic

/-!
# Config — identities, the texts they are kept as, and the files

`config.rs`, and `device_from` and `identity_from` of `identity.rs`.  The TOML and base64 libraries
are parameters (`Formats`), of which their round trips are used.  A certificate and its key are kept
as the text that their bytes are.

* `toIdentity_ofIdentity`, `parse_toText`: an identity that was written is read back.
* `peek_eq_some`: what a file shows.
-/

namespace AuroraVpn
namespace Account

open Fallible

/-! ## Identities -/

/-- `base64::engine::general_purpose::STANDARD`. -/
structure Base64 where
  encode : Bytes → Text
  decode : Text → Except String Bytes
  encode_nil : encode [] = []
  decode_encode : ∀ b, decode (encode b) = .ok b

structure PersistedIdentity where
  deviceId : Text
  accessToken : Text
  certPem : Text := []
  keyPem : Text := []
  certIssuedAt : UInt64 := 0
  ipv4 : Text
  ipv6 : Text
  wgPrivateKey : Text
  wgPeerPublicKey : Text
  clientId : Text := []
  organization : Text := []
  gatewayProxy : Text := []
  assignedEndpoint : Text := []
  deriving DecidableEq, Repr

/-- An identity the engine dials with. -/
structure Identity where
  deviceId : Text
  accessToken : Text
  certPem : Text
  keyPem : Text
  certIssuedAt : UInt64
  ipv4 : Text
  ipv6 : Text
  wgPrivateKey : List.Vector UInt8 32
  wgPeerPublicKey : List.Vector UInt8 32
  clientId : List.Vector UInt8 3
  organization : Text
  gatewayProxy : Text
  assignedEndpoint : Text
  /-- Cloudflare no longer accepts the identity; kept in memory only. -/
  refused : Bool
  deriving DecidableEq

structure Formats where
  store : Codec Persisted
  identity : Codec PersistedIdentity
  base64 : Base64

def decodeFixed (base64 : Base64) (n : Nat) (field : String) (value : Text) :
    Except AetherError (List.Vector UInt8 n) :=
  match base64.decode value with
  | .error e =>
      .error (.other ("config field " ++ field ++ " is not valid base64: " ++ e))
  | .ok decoded =>
      if h : decoded.length = n then
        .ok ⟨decoded, h⟩
      else
        .error (.other ("config field " ++ field ++ " must decode to " ++ toString n ++
          " bytes, found " ++ toString decoded.length))

namespace PersistedIdentity

def ofIdentity (base64 : Base64) (id : Identity) : PersistedIdentity where
  deviceId := id.deviceId
  accessToken := id.accessToken
  certPem := id.certPem
  keyPem := id.keyPem
  certIssuedAt := id.certIssuedAt
  ipv4 := id.ipv4
  ipv6 := id.ipv6
  wgPrivateKey := base64.encode id.wgPrivateKey.toList
  wgPeerPublicKey := base64.encode id.wgPeerPublicKey.toList
  clientId := base64.encode id.clientId.toList
  organization := id.organization
  gatewayProxy := id.gatewayProxy
  assignedEndpoint := id.assignedEndpoint

/-- A client id that is missing or does not decode is all zeros. -/
def clientIdBytes (base64 : Base64) (p : PersistedIdentity) : List.Vector UInt8 3 :=
  if p.clientId = [] then
    List.Vector.replicate 3 0
  else
    (decodeFixed base64 3 "client_id" p.clientId).toOption.getD (List.Vector.replicate 3 0)

def toIdentity (base64 : Base64) (p : PersistedIdentity) : Except AetherError Identity := do
  let wgPrivateKey ← decodeFixed base64 32 "wg_private_key" p.wgPrivateKey
  let wgPeerPublicKey ← decodeFixed base64 32 "wg_peer_public_key" p.wgPeerPublicKey
  return {
    deviceId := p.deviceId
    accessToken := p.accessToken
    certPem := p.certPem
    keyPem := p.keyPem
    certIssuedAt := p.certIssuedAt
    ipv4 := p.ipv4
    ipv6 := p.ipv6
    wgPrivateKey := wgPrivateKey
    wgPeerPublicKey := wgPeerPublicKey
    clientId := p.clientIdBytes base64
    organization := p.organization
    gatewayProxy := p.gatewayProxy
    assignedEndpoint := p.assignedEndpoint
    refused := false }

end PersistedIdentity

section RoundTrip

variable (base64 : Base64)

theorem decodeFixed_encode {n : Nat} (field : String) (v : List.Vector UInt8 n) :
    decodeFixed base64 n field (base64.encode v.toList) = .ok v := by
  have hlen : v.toList.length = n := v.toList_length
  unfold decodeFixed
  rw [base64.decode_encode]
  simp only [hlen, dif_pos]
  exact congrArg Except.ok (List.Vector.eq _ _ rfl)

theorem encode_eq_nil {b : Bytes} : base64.encode b = [] ↔ b = [] := by
  constructor
  · intro h
    have hdecode := base64.decode_encode b
    rw [h, ← base64.encode_nil, base64.decode_encode] at hdecode
    exact (Except.ok.inj hdecode).symm
  · rintro rfl
    exact base64.encode_nil

theorem clientIdBytes_ofIdentity (id : Identity) :
    (PersistedIdentity.ofIdentity base64 id).clientIdBytes base64 = id.clientId := by
  have hne : base64.encode id.clientId.toList ≠ [] := by
    intro h
    have hlen : id.clientId.toList.length = 3 := id.clientId.toList_length
    rw [(encode_eq_nil base64).1 h] at hlen
    cases hlen
  simp [PersistedIdentity.clientIdBytes, PersistedIdentity.ofIdentity, hne, decodeFixed_encode,
    Except.toOption]

/-- An identity comes back from its record, except for the mark that is kept in memory only. -/
theorem toIdentity_ofIdentity (id : Identity) :
    (PersistedIdentity.ofIdentity base64 id).toIdentity base64 = .ok { id with refused := false } := by
  unfold PersistedIdentity.toIdentity
  rw [clientIdBytes_ofIdentity]
  simp only [PersistedIdentity.ofIdentity, decodeFixed_encode]
  rfl

end RoundTrip

/-- Base64 as far as all-zero keys and client ids go; other bytes are spelled out. -/
def Base64.zeros : Base64 where
  encode b :=
    if b = [] then []
    else if b = List.replicate 32 0 then List.replicate 43 'A' ++ ['=']
    else if b = List.replicate 3 0 then List.replicate 4 'A'
    else '#' :: b.map fun x => Char.ofNat x.toNat
  decode
    | [] => .ok []
    | '#' :: rest => .ok (rest.map fun c => UInt8.ofNat c.toNat)
    | t =>
        if t = List.replicate 43 'A' ++ ['='] then .ok (List.replicate 32 0)
        else if t = List.replicate 4 'A' then .ok (List.replicate 3 0)
        else .error "Invalid symbol"
  encode_nil := rfl
  decode_encode b := by
    have hbyte : ∀ x : UInt8, UInt8.ofNat (Char.ofNat x.toNat).toNat = x := by
      intro x
      -- no number below 256 is a surrogate
      have hchar : ∀ n : Fin 256, (Char.ofNat n).toNat = n := fun n => by
        rw [Char.ofNat, dif_pos (.inl (by omega))]
        rfl
      rw [hchar ⟨x.toNat, x.toNat_lt⟩]
      exact UInt8.ofNat_toNat
    split_ifs with hnil hkey hid
    · rw [hnil]
    · rw [hkey]
      rfl
    · rw [hid]
      rfl
    · simp [Function.comp_def, hbyte]

/-! ## Device records -/

/-- Reads an identity into a device record.  A certificate means the device was enrolled. -/
def deviceFrom (base64 : Base64) (identity : Identity) (registeredAt : UInt64) : Device :=
  let persisted := PersistedIdentity.ofIdentity base64 identity
  { accessToken := persisted.accessToken
    ipv4 := persisted.ipv4
    ipv6 := persisted.ipv6
    wgPrivateKey := persisted.wgPrivateKey
    wgPeerPublicKey := persisted.wgPeerPublicKey
    clientId := persisted.clientId
    organization := persisted.organization
    gatewayProxy := persisted.gatewayProxy
    assignedEndpoint := persisted.assignedEndpoint
    registeredAt := registeredAt
    tunnelType := if persisted.certPem = [] then .wireguard else .masque
    enrolmentPendingSince := 0
    certPem := persisted.certPem
    keyPem := persisted.keyPem
    certIssuedAt := persisted.certIssuedAt
    refusedAt := 0 }

/-- Turns a device record back into the identity the engine dials with. -/
def identityFrom (base64 : Base64) (id : Text) (device : Device) : Except AetherError Identity :=
  PersistedIdentity.toIdentity base64 {
    deviceId := id
    accessToken := device.accessToken
    certPem := device.certPem
    keyPem := device.keyPem
    certIssuedAt := device.certIssuedAt
    ipv4 := device.ipv4
    ipv6 := device.ipv6
    wgPrivateKey := device.wgPrivateKey
    wgPeerPublicKey := device.wgPeerPublicKey
    clientId := device.clientId
    organization := device.organization
    gatewayProxy := device.gatewayProxy
    assignedEndpoint := device.assignedEndpoint }

@[simp] theorem deviceFrom_tunnelType (base64 : Base64) (identity : Identity) (at_ : UInt64) :
    (deviceFrom base64 identity at_).tunnelType = if identity.certPem = [] then .wireguard else .masque :=
  rfl

/-! ## Files -/

/-- The files, by their paths.  A file that cannot be read counts as absent. -/
abbrev Disk := Text → Option Text

/-- How `write_private` ends: the rename is all or nothing, whatever is reported of it. -/
inductive WriteOutcome
  | written
  | failed (kind : IoErrorKind) (landed : Bool)
  deriving DecidableEq, Repr

def writePrivate (w : WriteOutcome) (path contents : Text) (disk : Disk) :
    Except AetherError Unit × Disk :=
  match w with
  | .written => (.ok (), Function.update disk path (some contents))
  | .failed kind true => (.error (.io kind), Function.update disk path (some contents))
  | .failed kind false => (.error (.io kind), disk)

variable (fmt : Formats)

/-- The on-disk form of an identity. -/
def toText (identity : Identity) : Except AetherError Text :=
  (fmt.identity.encode (.ofIdentity fmt.base64 identity)).mapError fun e =>
    .other ("config encode: " ++ e)

/-- Reads an identity out of text that came from elsewhere. -/
def parse (text : Text) : Except AetherError Identity := do
  let persisted ← (fmt.identity.decode text).mapError fun e =>
    .other ("this is not a WhiteAesther identity: " ++ e)
  (persisted.toIdentity fmt.base64).mapError fun e =>
    .other ("this identity is not usable: " ++ e.display)

/-- The identity a file holds, if it holds one. -/
def peek (disk : Disk) (path : Text) : Option Identity := do
  let text ← disk path
  let persisted ← (fmt.identity.decode text).toOption
  (persisted.toIdentity fmt.base64).toOption

theorem toText_eq_ok {identity : Identity} {text : Text} : toText fmt identity = .ok text ↔
    fmt.identity.encode (.ofIdentity fmt.base64 identity) = .ok text :=
  mapError_eq_ok

theorem parse_eq_ok {identity : Identity} {text : Text} : parse fmt text = .ok identity ↔
    ∃ persisted, fmt.identity.decode text = .ok persisted ∧
      persisted.toIdentity fmt.base64 = .ok identity := by
  simp only [parse, bind_eq_ok, mapError_eq_ok]

/-- **An identity that was written is read back.** -/
theorem parse_toText {identity : Identity} {text : Text} (h : toText fmt identity = .ok text) :
    parse fmt text = .ok { identity with refused := false } :=
  (parse_eq_ok fmt).2 ⟨_, fmt.identity.decode_encode _ _ ((toText_eq_ok fmt).1 h),
    toIdentity_ofIdentity fmt.base64 identity⟩

/-- A file shows what its text parses as. -/
theorem peek_eq_some {disk : Disk} {path : Text} {identity : Identity} :
    peek fmt disk path = some identity ↔
      ∃ text, disk path = some text ∧ parse fmt text = .ok identity := by
  simp only [parse_eq_ok]
  simp only [peek, bind, Option.bind_eq_some_iff, toOption_eq_some]

end Account
end AuroraVpn
