import AuroraVpn.Account.Http
import AuroraVpn.Lib.Text

/-!
# Provision — from an account to an identity that is on record

`provision_wg`, `provision_team`, `refresh_profile` and `ensure_masque_enrolled` of `account.rs`,
and `provision_account`, `adopt_team_profile`, `record`, `provision_within_budget`,
`load_or_provision_warp`, `enrol_and_record` and `load_or_provision_masque` of `lib.rs`.  The
gateway and the endpoint that a team profile sets for the process are left out.
-/

namespace AuroraVpn
namespace Account

open Program (plain)

variable (env : Env)

/-! ## Accounts -/

/-- `rsplit_once(':')`: what stands before the last colon. -/
def beforeLastColon (t : Text) : Option Text :=
  if ':' ∈ t then some ((t.reverse.dropWhile (· ≠ ':')).tail.reverse) else none

def endpointFrom (reg : AccountData) : Text :=
  let raw := (reg.peers.head?.map fun peer => trim peer.2).getD []
  match beforeLastColon raw with
  | some host => if host = [] then raw else host
  | none => raw

def extractWgPeer (reg : AccountData) : Except AetherError (List.Vector UInt8 32) :=
  match reg.peers with
  | [] => .error (.api "no peers in registration response")
  | peer :: _ =>
      match env.fmt.base64.decode peer.1 with
      | .error e => .error (.api ("decode peer pubkey: " ++ e))
      | .ok decoded =>
          if h : decoded.length = 32 then
            .ok ⟨decoded, h⟩
          else
            .error (.api "invalid peer pubkey length")

/-- A client id that does not decode to three bytes is all zeros. -/
def clientIdOf (reg : AccountData) : List.Vector UInt8 3 :=
  (decodeFixed env.fmt.base64 3 "client_id" reg.clientId).toOption.getD (List.Vector.replicate 3 0)

def finishProvision (reg : AccountData) (wgPrivate : List.Vector UInt8 32) :
    Except AetherError Identity := do
  if reg.token = [] then
    throw (.api "registration returned empty token")
  let wgPeerPublic ← extractWgPeer env reg
  return {
    deviceId := reg.id
    accessToken := reg.token
    certPem := []
    keyPem := []
    certIssuedAt := 0
    ipv4 := reg.interfaceV4
    ipv6 := reg.interfaceV6
    wgPrivateKey := wgPrivate
    wgPeerPublicKey := wgPeerPublic
    clientId := clientIdOf env reg
    organization := trim reg.organization
    gatewayProxy := trim reg.httpProxy
    assignedEndpoint := endpointFrom reg
    refused := false }

def provisionWg : Task Identity := do
  let wgPrivate ← ask .wgKeypair
  let reg ← register env
  liftExcept (finishProvision env reg wgPrivate)

def resolveToken : Task Unit := do
  match ← ask .resolveToken with
  | .ok _ => pure ()
  | .error e => throw (.api e)

def provisionTeam : Task Identity := do
  resolveToken
  let wgPrivate ← ask .wgKeypair
  let reg ← registerWithTeam env
  liftExcept (finishProvision env reg wgPrivate)

/-- What the account api says of an identity, as far as it says anything. -/
def refreshed (identity : Identity) (reg : AccountData) : Identity :=
  { identity with
    ipv4 := if trim reg.interfaceV4 = [] then identity.ipv4 else trim reg.interfaceV4
    ipv6 := if trim reg.interfaceV6 = [] then identity.ipv6 else trim reg.interfaceV6
    organization := trim reg.organization
    gatewayProxy := trim reg.httpProxy
    assignedEndpoint := endpointFrom reg
    refused := false }

/-- A profile that cannot be read is left as it was, and one that is refused is marked. -/
def afterRefresh (identity : Identity) : AetherError → Identity
  | .identityRefused _ => { identity with refused := true }
  | _ => identity

def refreshProfile (identity : Identity) : Task Identity :=
  tryCatch
    (do
      let reg ← fetchDevice env identity.deviceId
      pure (refreshed identity reg))
    fun e => pure (afterRefresh identity e)

def provisionAccount : Task Identity :=
  if env.team then do
    let identity ← provisionTeam env
    refreshProfile env identity
  else
    provisionWg env

def adoptTeamProfile (identity : Identity) : Task Identity :=
  if env.team then refreshProfile env identity else pure identity

/-! ## Records -/

/-- What the provisioning of one slot works on. -/
structure IdentitySite where
  slot : Slot
  path : Text
  storePath : Text
  legacy : List (Slot × Text)

/-- `identity::save`. -/
def saveStore (storePath : Text) (store : Store) : Task Unit := do
  let text ← liftExcept (store.toText env.fmt.store)
  let outcome ← ask (.writePrivate storePath text)
  liftExcept outcome

/-- `config::save`. -/
def saveFile (path : Text) (identity : Identity) : Task Unit := do
  let text ← liftExcept (toText env.fmt identity)
  let outcome ← ask (.writePrivate path text)
  liftExcept outcome

/-- The record of an identity, with what only the store knows of its device. -/
def recordDevice (store : Store) (identity : Identity) (now : UInt64) : Device :=
  let device := deviceFrom env.fmt.base64 identity now
  match store.device identity.deviceId with
  | none => device
  | some existing =>
      { device with
        registeredAt := if existing.registeredAt ≠ 0 then existing.registeredAt else now
        refusedAt := existing.refusedAt
        enrolmentPendingSince :=
          if device.hasCertificate then 0 else existing.enrolmentPendingSince }

/-- The store with an identity in a slot. -/
def recorded (store : Store) (slot : Slot) (identity : Identity) (now : UInt64) : Store :=
  (store.put identity.deviceId (recordDevice env store identity now)).setSlot slot
    (some identity.deviceId)

/-- Records an identity in the store and in the file that an earlier build reads. -/
def record (site : IdentitySite) (identity : Identity) : StoreTask Unit := do
  let now ← plain (ask .now)
  modify fun store => recorded env store site.slot identity now
  plain (saveStore env site.storePath (← get))
  plain (saveFile env site.path identity)

/-! ## Registrations -/

/-- A registration, as far as the address has no wait to serve. -/
def provisionWithinBudget (site : IdentitySite) : StoreTask Identity := do
  let now ← plain (ask .now)
  let store ← get
  match store.registration.mayAttempt now with
  | .error wait => throw (.registrationOnHold store.registration.lastReason wait)
  | .ok _ =>
      tryCatch
        (do
          let identity ← plain (provisionAccount env)
          let now ← plain (ask .now)
          modify fun store => { store with registration := store.registration.succeeded now }
          pure identity)
        fun error => do
          let now ← plain (ask .now)
          modify fun store => { store with
            registration := store.registration.failed now error.display error.retryAfter }
          tryCatch (plain (saveStore env site.storePath (← get))) fun _ => pure ()
          throw error

/-! ## WireGuard -/

/-- A file beside `path` that shows a certificate for a device. -/
def deviceEnrolledElsewhere (path id : Text) : Task (Option Text) := do
  let found ← ask (.siblings path)
  pure ((found.find? fun file => file.2.deviceId = id ∧ file.2.certPem ≠ []).map Prod.fst)

def provisionWarp (site : IdentitySite) : StoreTask Identity := do
  let identity ← provisionWithinBudget env site
  record env site identity
  let identity ← plain (adoptTeamProfile env identity)
  record env site identity
  pure identity

def loadOrProvisionWarp (site : IdentitySite) : StoreTask Identity := do
  plain (ask .lock)
  let loaded ← plain (ask (.load site.storePath site.legacy))
  set loaded.store
  match loaded.store.takeUsable site.slot with
  | some (id, device) =>
      match ← plain (deviceEnrolledElsewhere site.path id) with
      | some _ => provisionWarp env site
      | none => do
          let identity ← plain (liftExcept (identityFrom env.fmt.base64 id device))
          let identity ← plain (adoptTeamProfile env identity)
          record env site identity
          pure identity
  | none => provisionWarp env site

/-! ## MASQUE -/

def MASQUE_CERT_LIFETIME_SECS : UInt64 := 365 * 86400

def MASQUE_CERT_RENEW_BEFORE_SECS : UInt64 := 7 * 86400

def masqueCertExpiring (now issuedAt : UInt64) : Bool :=
  issuedAt = 0 || now < issuedAt ||
    MASQUE_CERT_LIFETIME_SECS ≤ now - issuedAt + MASQUE_CERT_RENEW_BEFORE_SECS

def certStillUsable (now : UInt64) (identity : Identity) : Bool :=
  identity.certPem ≠ [] && identity.keyPem ≠ [] && identity.certIssuedAt ≠ 0 &&
    identity.certIssuedAt ≤ now && now - identity.certIssuedAt < MASQUE_CERT_LIFETIME_SECS

/-- Whether there is a certificate to dial with; the clock is read for one that is there. -/
def hasMasqueCredentials (identity : Identity) : Task Bool :=
  if identity.certPem ≠ [] ∧ identity.keyPem ≠ [] then do
    let now ← ask .now
    pure (!masqueCertExpiring now identity.certIssuedAt)
  else
    pure false

structure MasqueEnrollment where
  certPem : Text
  keyPem : Text
  issuedAt : UInt64

def keptEnrollment (identity : Identity) : MasqueEnrollment where
  certPem := identity.certPem
  keyPem := identity.keyPem
  issuedAt := identity.certIssuedAt

def masqueKeypair : Task (Text × Text) := do
  match ← ask .masqueKeypair with
  | .ok keypair => pure keypair
  | .error e => throw (.tls e)

def ensureMasqueEnrolled (identity : Identity) : Task MasqueEnrollment := do
  if ← hasMasqueCredentials identity then
    pure (keptEnrollment identity)
  else
    let (certPem, keyPem) ← masqueKeypair
    tryCatch
      (do
        let _ ← enrollKey env identity.deviceId
        let now ← ask .now
        pure { certPem := certPem, keyPem := keyPem, issuedAt := now })
      fun error => do
        let now ← ask .now
        if certStillUsable now identity then
          pure (keptEnrollment identity)
        else
          throw error

/-- `save_masque_creds`: marks the file of another copy of an enrolled device. -/
def saveMasqueCreds (path certPem keyPem : Text) (issuedAt : UInt64) : Task Unit := do
  match ← ask (.read path) with
  | none => pure ()
  | some text =>
      let persisted ← liftExcept ((env.fmt.identity.decode text).mapError fun e =>
        .other ("config parse: " ++ e))
      let updated ← liftExcept ((env.fmt.identity.encode { persisted with
        certPem := certPem
        keyPem := keyPem
        certIssuedAt := issuedAt }).mapError fun e => .other ("config encode: " ++ e))
      liftExcept (← ask (.writePrivate path updated))

/-- The files beside `path` that hold the same device and do not show its enrolment. -/
def toMark (identity : Identity) (found : List (Text × Identity)) : List Text :=
  (found.filter fun file =>
    file.2.deviceId = identity.deviceId ∧ file.2.certPem = []).map Prod.fst

def markAll (identity : Identity) : List Text → Task Unit
  | [] => pure ()
  | path :: paths => do
      tryCatch (saveMasqueCreds env path identity.certPem [] identity.certIssuedAt) fun _ => pure ()
      markAll identity paths

def recordEnrolmentBeside (path : Text) (identity : Identity) : Task Unit :=
  if identity.certPem = [] then
    pure ()
  else do
    let found ← ask (.siblings path)
    markAll env identity (toMark identity found)

/-- Enrols a MASQUE key, with the attempt on record before it is made. -/
def enrolAndRecord (site : IdentitySite) (identity : Identity) : StoreTask Identity := do
  let now ← plain (ask .now)
  modify fun store =>
    store.modify identity.deviceId fun device => { device with enrolmentPendingSince := now }
  plain (saveStore env site.storePath (← get))
  let enrollment ← plain (ensureMasqueEnrolled env identity)
  let identity : Identity := { identity with
    certPem := enrollment.certPem
    keyPem := enrollment.keyPem
    certIssuedAt := enrollment.issuedAt }
  let identity ← plain (adoptTeamProfile env identity)
  record env site identity
  plain (recordEnrolmentBeside env site.path identity)
  pure identity

def provisionMasque (site : IdentitySite) : StoreTask Identity := do
  let identity ← provisionWithinBudget env site
  record env site identity
  enrolAndRecord env site identity

/-- Marks a device that Cloudflare refused, in memory. -/
def markRefused (id : Text) : StoreTask Unit := do
  let now ← plain (ask .now)
  modify fun store => store.modify id fun device => { device with refusedAt := now }

/-- What `load_or_provision_masque` does with a device that the slot holds. -/
def resumeMasque (site : IdentitySite) (id : Text) (device : Device) : StoreTask Identity := do
  let identity ← plain (liftExcept (identityFrom env.fmt.base64 id device))
  if ← plain (hasMasqueCredentials identity) then
    let identity ← plain (adoptTeamProfile env identity)
    if !identity.refused then do
      record env site identity
      pure identity
    else if !env.keepSavedIdentity then
      pure identity
    else do
      markRefused id
      provisionMasque env site
  else
    tryCatch (enrolAndRecord env site identity) fun error =>
      match error with
      | .identityRefused _ =>
          if !env.keepSavedIdentity then
            pure { identity with refused := true }
          else do
            markRefused id
            provisionMasque env site
      | e => throw e

def loadOrProvisionMasque (site : IdentitySite) : StoreTask Identity := do
  plain (ask .lock)
  let loaded ← plain (ask (.load site.storePath site.legacy))
  set loaded.store
  match loaded.store.takeUsable site.slot with
  | none => provisionMasque env site
  | some (id, device) => resumeMasque env site id device

end Account
end AuroraVpn
