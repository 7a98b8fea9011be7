import AuroraVpn.Account.Footprint
import AuroraVpn.Account.Teams

/-!
# Open — identity files as the library opens them

`identity_path`, `provision_identity`, `attach_masque_cert` and `open_identity` of `api.rs`, and
`load` of `config.rs`.

* `identityPath_eq_slot_iff`: when the library and the engine agree about a path.
* `provisionAccount_answered`: a registration gives the device of the account that it was answered with.
-/

namespace AuroraVpn
namespace Account

open Program

inductive Transport
  | masque
  | wireguard
  deriving DecidableEq, Repr

namespace Transport

/-- The slot that the engine fills for a transport. -/
def slot : Transport → Slot
  | .masque => .masque
  | .wireguard => .wireguard

end Transport

/-! ## Paths -/

/-- `api::identity_path`. -/
def identityPath (base : Text) (transport : Transport) (team : Option Text) : Text :=
  match team with
  | some team => deriveSiblingPath base ("team-".toList ++ team)
  | none =>
      match transport with
      | .masque => deriveSiblingPath base "masque".toList
      | .wireguard => base

/-- The role whose path the library opens. -/
def openedRole (transport : Transport) (team : Option Text) : Role :=
  match team with
  | some _ => .slot .wireguard
  | none => .slot transport.slot

theorem identityPath_eq_role (base : Text) (transport : Transport) (team : Option Text) :
    identityPath base transport team = (openedRole transport team).path (scopedTo team) base := by
  cases team with
  | some team => exact (identitySite_path (scopedTo (some team)) base .wireguard).symm
  | none =>
      cases transport with
      | masque => exact (identitySite_path (scopedTo none) base .masque).symm
      | wireguard => exact (identitySite_path (scopedTo none) base .wireguard).symm

/-- **When the library and the engine agree about a path**: without an organization, or for
WireGuard. -/
theorem identityPath_eq_slot_iff {team : Option Text} (hteam : ∀ t, team = some t → Plain t)
    (base : Text) (transport : Transport) :
    identityPath base transport team = (identitySite (scopedTo team) base transport.slot).path ↔
      team = none ∨ transport = .wireguard := by
  rw [identityPath_eq_role]
  constructor
  · intro hsame
    by_contra hnot
    obtain ⟨hsome, htransport⟩ := not_or.1 hnot
    obtain ⟨t, rfl⟩ := Option.ne_none_iff_exists'.1 hsome
    cases transport with
    | wireguard => exact htransport rfl
    | masque =>
        -- for MASQUE the two paths differ in the words behind the stem
        obtain ⟨head, tail, h⟩ := exists_derives base
        have hmasque := @rolePath_eq _ _ _ _ (.slot .masque) h hteam
        have hwarp := @rolePath_eq _ _ _ _ (.slot .wireguard) h hteam
        have hpaths := hwarp.symm.trans (hsame.trans hmasque)
        rw [List.append_cancel_right_eq, List.append_cancel_left_eq,
          List.append_cancel_left_eq] at hpaths
        cases hpaths
  · rintro (rfl | rfl)
    · rfl
    · cases team <;> rfl

/-! ## Files -/

/-- What the file system answers inside one load. -/
structure FileOutcome where
  /-- The file is there and cannot be read. -/
  unreadable : Option IoErrorKind
  /-- The file that does not parse was moved. -/
  moved : Bool

/-- `quarantine`. -/
def quarantine (o : FileOutcome) (path text : Text) (disk : Disk) : Disk :=
  if o.moved then
    Function.update (Function.update disk (path ++ ".corrupt".toList) (some text)) path none
  else
    disk

variable (env : Env)

def damaged (o : FileOutcome) (path : Text) (message : String) : AetherError :=
  if o.moved then
    .other (message ++ "; the damaged file was moved to " ++ String.ofList (path ++ ".corrupt".toList) ++
      " so a fresh identity can be provisioned")
  else
    .other (message ++ "; delete " ++ String.ofList path ++ " to provision a fresh identity")

/-- `config::load`. -/
def loadIdentity (o : FileOutcome) (path : Text) (disk : Disk) :
    Except AetherError (Option Identity) × Disk :=
  match disk path with
  | none => (.ok none, disk)
  | some text =>
      match o.unreadable with
      | some kind => (.error (.io kind), disk)
      | none =>
          match env.fmt.identity.decode text with
          | .error e => (.error (damaged o path ("config parse: " ++ e)), quarantine o path text disk)
          | .ok persisted =>
              match persisted.toIdentity env.fmt.base64 with
              | .error e => (.error (damaged o path e.display), quarantine o path text disk)
              | .ok identity => (.ok (some identity), disk)

/-! ## Calls -/

structure ProvisionRequest where
  team : Option Text
  masqueCert : Bool

/-- `ProvisionRequest::for_transport`, in a team or in none. -/
def ProvisionRequest.forTransport (transport : Transport) (team : Option Text) :
    ProvisionRequest where
  team := team
  masqueCert := transport = .masque

/-- A certificate that is there and not about to expire, by two looks at the clock. -/
def holdsCert (identity : Identity) : Task Bool := do
  if ← hasMasqueCredentials identity then
    let now ← ask .now
    pure (!masqueCertExpiring now identity.certIssuedAt)
  else
    pure false

def attachMasqueCert (identity : Identity) : Task Identity := do
  if ← holdsCert identity then
    pure identity
  else
    let enrollment ← ensureMasqueEnrolled env identity
    pure { identity with
      certPem := enrollment.certPem
      keyPem := enrollment.keyPem
      certIssuedAt := enrollment.issuedAt }

/-- `attach_masque_cert` where it is asked for. -/
def withCert (request : ProvisionRequest) (identity : Identity) : Task Identity :=
  if request.masqueCert then attachMasqueCert env identity else pure identity

/-- `refresh_identity` in a team. -/
def withProfile (request : ProvisionRequest) (identity : Identity) : Task Identity :=
  if request.team.isSome then refreshProfile env identity else pure identity

def provisionIdentity (request : ProvisionRequest) : Task Identity := do
  let identity ← provisionAccount { env with team := request.team.isSome }
  withCert env request identity

/-- What `open_identity` does once the file was looked at. -/
def openLoaded (path : Text) (request : ProvisionRequest) :
    Except AetherError (Option Identity) → Task Identity
  | .error e => throw e
  | .ok (some identity) => do
      let identity ← withProfile env request identity
      let identity ← withCert env request identity
      saveFile env path identity
      pure identity
  | .ok none => do
      let identity ← provisionIdentity env request
      saveFile env path identity
      pure identity

/-- `api::open_identity`, cut off anywhere: the files when the file was looked at, and what is left
to do. -/
def OpenReaches (o : FileOutcome) (path : Text) (request : ProvisionRequest) (disk : Disk)
    (w : Traced) (q : Prog Calls (Except AetherError Identity)) : Prop :=
  Reaches (traced (effects env.fmt)) (Traced.start (loadIdentity env o path disk).2)
    (openLoaded env path request (loadIdentity env o path disk).1).run w q

/-- `api::open_identity`, up to its end. -/
def OpenRuns (o : FileOutcome) (path : Text) (request : ProvisionRequest) (disk : Disk)
    (r : Except AetherError Identity) (w : Traced) : Prop :=
  Program.Runs (traced (effects env.fmt)) (Traced.start (loadIdentity env o path disk).2)
    (openLoaded env path request (loadIdentity env o path disk).1).run r w

/-! ## Registrations -/

section Granted

variable {env} {storePath path : Text} {disk : Disk} {account : AccountData} {identity : Identity}
variable {w w' : Traced}

/-- A registration was answered with an account, and the store was not saved. -/
def Answered (env : Env) (storePath : Text) (account : AccountData) (w : Traced) : Prop :=
  ∃ awaited, progress env storePath w.2 = .answered account awaited

theorem Answered.step {c : Call} {x : c.Answer} (h : Answered env storePath account w)
    (hc : c.Idle) (heff : traced (effects env.fmt) c w x w') :
    Answered env storePath account w' := by
  obtain ⟨awaited, hprogress⟩ := h
  have hgrant : granted env c x = none := granted_of_not_registers hc.registers
  have hsave : savesStore storePath c x = false := by
    have hwrites := hc.writes
    cases c with
    | writePrivate => cases hwrites
    | _ => rfl
  refine ⟨awaited || c.isAwait, ?_⟩
  rw [heff.2, progress_concat, hprogress]
  simp [Purchase.after, hgrant, hsave]

/-- Nothing was written. -/
def Unwritten (disk : Disk) (w : Traced) : Prop :=
  w.1.disk = disk ∧ ∀ e ∈ w.2, e.1.writes = false

theorem Unwritten.step {c : Call} {x : c.Answer} (h : Unwritten disk w) (hc : c.writes = false)
    (heff : traced (effects env.fmt) c w x w') : Unwritten disk w' := by
  refine ⟨(effects_disk hc heff.1).trans h.1, fun e hmem => ?_⟩
  rw [heff.2] at hmem
  rcases List.mem_append.1 hmem with hmem | hmem
  · exact h.2 e hmem
  · rw [List.mem_singleton.1 hmem]
    exact hc

theorem Unwritten.wp {α : Type} {p : Prog Calls α} (h : Unwritten disk w)
    (hp : Uses (fun c : Call => c.writes = false) p) :
    wp (traced (effects env.fmt)) (Unwritten disk) (fun _ _ => True) p w :=
  hp.wp (fun _ _ _ _ hc hw heff => hw.step hc heff) h

/-- A program that neither registers a device nor writes, after an answered registration. -/
theorem Answered.wp {α : Type} {p : Prog Calls α} (h : Answered env storePath account w)
    (hp : Uses Call.Idle p) :
    wp (traced (effects env.fmt)) (Answered env storePath account) (fun _ _ => True) p w :=
  hp.wp (fun _ _ _ _ hc hw heff => hw.step hc heff) h

/-- A profile that was read again is of the same device. -/
theorem refreshProfile_device : wp (traced (effects env.fmt)) (fun _ => True)
    (fun r _ => ∀ i, r = .ok i → i.deviceId = identity.deviceId)
    (refreshProfile env identity).run w := by
  have hany : ∀ {α : Type} (p : Prog Calls α) (v : Traced),
      Program.wp (traced (effects env.fmt)) (fun _ => True) (fun _ _ => True) p v := by
    intro α p v
    exact (uses_all p).wp (fun _ _ _ _ _ _ _ => trivial) trivial
  refine wp_tryCatch (R := fun r _ => ∀ i, r = .ok i → i.deviceId = identity.deviceId) ?_
    (fun _ _ _ h => h) ?_
  · refine wp_bind_except (hany _ _) (fun _ _ _ _ => nofun) ?_
    rintro reg v - -
    refine wp_ok trivial ?_
    rintro _ ⟨⟩
    rfl
  · rintro e v - -
    refine wp_ok trivial ?_
    rintro _ ⟨⟩
    cases e <;> rfl

/-- **What a registration comes to**: the device of the account that it was answered with. -/
theorem provisionAccount_answered (h : Unanswered env storePath disk w) :
    wp (traced (effects env.fmt)) (fun _ => True)
      (fun r w => ∀ i, r = .ok i → ∃ account, i.deviceId = account.id ∧
        Answered env storePath account w)
      (provisionAccount env).run w := by
  -- both ways end alike: the answer's account is the identity's
  have hfinish : ∀ {v : Traced} {request : Request} {report} {wgPrivate : List.Vector UInt8 32},
      request.registers = true → Unanswered env storePath disk v →
      Program.wp (traced (effects env.fmt)) (fun _ => True)
        (fun r w => ∀ i, r = .ok i → ∃ account, i.deviceId = account.id ∧
          Answered env storePath account w)
        (withFallback env request report >>= fun reg =>
          liftExcept (finishProvision env reg wgPrivate) : Task Identity).run v := by
    intro v request report wgPrivate hrequest hv
    refine wp_bind_except ((register_purchase hrequest report hv).mono (fun _ _ => trivial)
      fun _ _ _ h => h) (fun _ _ _ _ => nofun) ?_
    rintro reg v₁ - ⟨-, hanswered⟩
    refine wp_result trivial ?_
    intro i hi
    exact ⟨reg, (finishProvision_ok hi).1, false, hanswered⟩
  -- what makes the keypair asks nobody
  have hkeypair : ∀ {v v' : Traced} {x : List.Vector UInt8 32}, Unanswered env storePath disk v →
      traced (effects env.fmt) .wgKeypair v x v' → Unanswered env storePath disk v' :=
    fun hv heff => hv.step rfl rfl heff
  unfold provisionAccount
  split_ifs
  -- for an organization the profile is fetched once more, of the device that was granted
  · refine wp_bind_except (R := fun r w => ∀ i, r = .ok i → ∃ account, i.deviceId = account.id ∧
      Answered env storePath account w) ?_ (fun _ _ _ _ => nofun) ?_
    · refine wp_bind_except (R := fun _ v => Unanswered env storePath disk v) ?_
        (fun _ _ _ _ => nofun) ?_
      · refine wp_ask_bind trivial fun x v heff => ?_
        have hv : Unanswered env storePath disk v := h.step rfl rfl heff
        cases x with
        | error e => exact wp_throw trivial hv
        | ok token => exact wp_ok trivial hv
      · rintro - v - hv
        exact wp_ask_bind trivial fun x v' heff => hfinish rfl (hkeypair hv heff)
    · rintro i v - hi
      obtain ⟨account, hid, hanswered⟩ := hi i rfl
      have hidle : Uses Call.Idle (refreshProfile env i).run :=
        have hnetwork : Network (· = .fetchDevice i.deviceId) (refreshProfile env i) :=
          network_refreshProfile env rfl
        idle_network hnetwork fun _ h => by rw [h]; rfl
      refine ((hanswered.wp hidle).and refreshProfile_device).mono (fun _ _ => trivial) ?_
      rintro r v' ⟨hv', -⟩ ⟨-, hdevice⟩ i' hi'
      exact ⟨account, (hdevice i' hi').trans hid, hv'⟩
  -- for a person the keypair is all that comes before
  · refine wp_ask_bind trivial fun x v heff => ?_
    exact @hfinish _ .register reportRegister _ rfl (hkeypair h heff)

end Granted

end Account
end AuroraVpn
