import AuroraVpn.Account.Enrolled
import AuroraVpn.Account.Open
import AuroraVpn.Lib.Runs

/-!
# Opened — what calls of the library leave in the files

`open_identity` of `api.rs`, called again and again for both transports.

* `open_touches`: a call works on one device, and puts no other in its file.
* `separate_reach`: while no organization is opened for both transports, no file that is opened for
  WireGuard holds a device that a MASQUE key was sent for.
* `identity_files_iff`: where the library and the engine agree, and what the calls keep.
-/

namespace AuroraVpn
namespace Account

open Program

/-! ## One call -/

/-- The account that a registration was answered with. -/
def Purchase.account? : Purchase → Option AccountData
  | .none => Option.none
  | .answered account _ => some account
  | .saved account _ => some account

/-- The device that a call sends a MASQUE key for. -/
def Call.enrols (c : Call) : Option Text :=
  match c.request? with
  | some (.enrollKey id) => some id
  | _ => none

/-- The devices that a MASQUE key was sent for. -/
def enrolledIn (t : List Event) : List Text :=
  t.filterMap fun e => e.1.enrols

section Call

variable {env : Env} {path id : Text} {request : ProvisionRequest}
variable {loaded : Except AetherError (Option Identity)} {disk : Disk} {account : AccountData}
variable {identity : Identity} {w w' : Traced}

/-- The device that a call works on: the one in the file, or the one that it was granted. -/
def Subject (env : Env) (path : Text) (loaded : Except AetherError (Option Identity)) (id : Text)
    (w : Traced) : Prop :=
  (∃ identity, loaded = .ok (some identity) ∧ identity.deviceId = id) ∨
    (loaded = .ok none ∧ ∃ account, (progress env path w.2).account? = some account ∧ account.id = id)

/-- A call at work on a device. -/
structure Works (env : Env) (path : Text) (request : ProvisionRequest)
    (loaded : Except AetherError (Option Identity)) (id : Text) (w : Traced) : Prop where
  subject : Subject env path loaded id w
  enrolled : ∀ x ∈ enrolledIn w.2, x = id
  cert : request.masqueCert = false → enrolledIn w.2 = []

/-- What a call may do to a device that it works on. -/
structure Call.Tends (request : ProvisionRequest) (id : Text) (c : Call) : Prop where
  idle : c.Idle
  enrols : ∀ x, c.enrols = some x → x = id ∧ request.masqueCert = true

theorem enrolledIn_concat (t : List Event) (e : Event) :
    enrolledIn (t ++ [e]) = enrolledIn t ++ e.1.enrols.toList := by
  unfold enrolledIn
  cases h : e.1.enrols <;> simp [h]

theorem account_concat {t : List Event} {e : Event} (hc : e.1.registers = false) :
    (progress env path (t ++ [e])).account? = (progress env path t).account? := by
  have hgrant : granted env e.1 e.2 = none := granted_of_not_registers hc
  rw [progress_concat]
  cases progress env path t with
  | none => simp [Purchase.after, hgrant]
  | answered account awaited =>
      simp only [Purchase.after, hgrant]
      split_ifs <;> rfl
  | saved account awaited => simp [Purchase.after, hgrant]

theorem Subject.step {e : Event} (h : Subject env path loaded id w) (hc : e.1.registers = false)
    (htrace : w'.2 = w.2 ++ [e]) : Subject env path loaded id w' := by
  rcases h with hheld | ⟨hnone, account, haccount, hid⟩
  · exact .inl hheld
  · refine .inr ⟨hnone, account, ?_, hid⟩
    rw [htrace, account_concat hc, haccount]

theorem Works.step {e : Event} (h : Works env path request loaded id w)
    (hc : e.1.registers = false) (henrols : ∀ x, e.1.enrols = some x → x = id ∧ request.masqueCert = true)
    (htrace : w'.2 = w.2 ++ [e]) : Works env path request loaded id w' where
  subject := h.subject.step hc htrace
  enrolled x hx := by
    rw [htrace, enrolledIn_concat] at hx
    rcases List.mem_append.1 hx with hx | hx
    · exact h.enrolled x hx
    · exact (henrols x (Option.mem_toList.1 hx)).1
  cert hcert := by
    rw [htrace, enrolledIn_concat, h.cert hcert]
    cases hx : e.1.enrols with
    | none => rfl
    | some x =>
        rw [(henrols x hx).2] at hcert
        cases hcert

/-- The file is as it was, or it holds the device that the call works on. -/
structure Touches (env : Env) (path : Text) (request : ProvisionRequest)
    (loaded : Except AetherError (Option Identity)) (disk : Disk) (id : Text) (w : Traced) :
    Prop where
  works : Works env path request loaded id w
  disk : w.1.disk = disk ∨ ∃ text identity, w.1.disk = Function.update disk path (some text) ∧
    parse env.fmt text = .ok identity ∧ identity.deviceId = id

/-- What holds wherever a call is cut off. -/
def Opening (env : Env) (path : Text) (request : ProvisionRequest)
    (loaded : Except AetherError (Option Identity)) (disk : Disk) (w : Traced) : Prop :=
  (w.1.disk = disk ∧ enrolledIn w.2 = []) ∨ ∃ id, Touches env path request loaded disk id w

theorem Touches.opening (h : Touches env path request loaded disk id w) :
    Opening env path request loaded disk w :=
  .inr ⟨id, h⟩

/-- A program that tends to a device. -/
theorem tends_wp {α : Type} {p : Prog Calls α} (hp : Uses (Call.Tends request id) p)
    (h : Works env path request loaded id w) (hdisk : w.1.disk = disk) :
    wp (traced (effects env.fmt)) (Opening env path request loaded disk)
      (fun _ w => Works env path request loaded id w ∧ w.1.disk = disk) p w := by
  have hkeeps : ∀ c (v : Traced) x v', Call.Tends request id c →
      (Works env path request loaded id v ∧ v.1.disk = disk) → traced (effects env.fmt) c v x v' →
      Works env path request loaded id v' ∧ v'.1.disk = disk := by
    rintro c v x v' hc ⟨hworks, hv⟩ heff
    exact ⟨hworks.step hc.idle.registers hc.enrols heff.2,
      (effects_disk hc.idle.writes heff.1).trans hv⟩
  refine (hp.wp hkeeps ⟨h, hdisk⟩).mono (fun v hv => ?_) fun _ v hv _ => hv
  exact Touches.opening ⟨hv.1, .inl hv.2⟩

theorem tends_network {α : Type} {p : Task α} {allowed : Request → Prop} (hp : Network allowed p)
    (h : ∀ r, allowed r → r.registers = false ∧
      ∀ x, r = .enrollKey x → x = id ∧ request.masqueCert = true) :
    Uses (Call.Tends request id) p.run := by
  refine hp.mono fun c hc => ⟨hc.idle fun r hr => (h r hr).1, fun x hx => ?_⟩
  unfold Call.enrols at hx
  split at hx
  · cases hx
    exact (h _ (hc.request _ (by assumption))).2 _ rfl
  · cases hx

/-- The save at the end of a call. -/
theorem saveFile_touches (hdevice : identity.deviceId = id)
    (h : Works env path request loaded id w) (hdisk : w.1.disk = disk) :
    wp (traced (effects env.fmt)) (Opening env path request loaded disk)
      (fun _ w => Touches env path request loaded disk id w) (saveFile env path identity).run w := by
  have hsame : Touches env path request loaded disk id w := ⟨h, .inl hdisk⟩
  refine wp_saveFile hsame.opening (fun _ => hsame) ?_
  intro text r w' htext hwrote
  have hworks : Works env path request loaded id w' :=
    h.step (e := ⟨.writePrivate path text, r⟩) rfl (fun _ => nofun) hwrote.trace
  have htouches : Touches env path request loaded disk id w' := by
    refine ⟨hworks, ?_⟩
    rcases hwrote.disk with hnew | ⟨hold, -⟩
    · exact .inr ⟨text, _, hdisk ▸ hnew, parse_toText env.fmt htext, hdevice⟩
    · exact .inl (hold.trans hdisk)
  exact ⟨htouches.opening, htouches⟩

theorem tends_hasMasqueCredentials : Uses (Call.Tends request id) (hasMasqueCredentials identity).run := by
  unfold hasMasqueCredentials
  split_ifs
  · exact Uses.bind_except (uses_ask ⟨⟨rfl, rfl⟩, fun _ => nofun⟩) fun _ => trivial
  · exact trivial

theorem tends_ensureMasqueEnrolled (hdevice : identity.deviceId = id)
    (hcert : request.masqueCert = true) :
    Uses (Call.Tends request id) (ensureMasqueEnrolled env identity).run := by
  have hnow : Uses (Call.Tends request id) (ask .now).run := uses_ask ⟨⟨rfl, rfl⟩, fun _ => nofun⟩
  have hkeypair : Network (fun _ => False) masqueKeypair := network_masqueKeypair
  have hkey : Network (· = .enrollKey identity.deviceId) (enrollKey env identity.deviceId) :=
    network_enrollKey env rfl
  refine Uses.bind_except tends_hasMasqueCredentials fun kept => ?_
  split_ifs
  · exact trivial
  · refine Uses.bind_except (tends_network hkeypair fun _ h => h.elim) fun keypair =>
      Uses.tryCatch ?_ fun e => ?_
    · refine Uses.bind_except (tends_network hkey ?_) fun _ => Uses.bind_except hnow fun _ => trivial
      rintro _ rfl
      refine ⟨rfl, ?_⟩
      rintro x ⟨⟩
      exact ⟨hdevice, hcert⟩
    · refine Uses.bind_except hnow fun now => ?_
      split_ifs <;> exact trivial

/-- A certificate that is attached does not change the device. -/
theorem withCert_device : wp (traced (effects env.fmt)) (fun _ => True)
    (fun r _ => ∀ i, r = .ok i → i.deviceId = identity.deviceId) (withCert env request identity).run w := by
  -- whether the calls go well plays no part here
  have hany : ∀ {α : Type} (p : Prog Calls α) (v : Traced),
      wp (traced (effects env.fmt)) (fun _ => True) (fun _ _ => True) p v := by
    intro α p v
    exact (uses_all p).wp (fun _ _ _ _ _ _ _ => trivial) trivial
  have hsame : ∀ v : Traced, wp (traced (effects env.fmt)) (fun _ => True)
      (fun r _ => ∀ i, r = .ok i → i.deviceId = identity.deviceId)
      (pure identity : Task Identity).run v := by
    intro v
    refine wp_ok trivial ?_
    rintro _ ⟨⟩
    rfl
  -- with a kept certificate or a fresh one, the device is that of the identity
  unfold withCert
  split_ifs
  · refine wp_bind_except (hany _ _) (fun _ _ _ _ => nofun) ?_
    rintro kept v - -
    split_ifs
    · exact hsame v
    · refine wp_bind_except (hany _ _) (fun _ _ _ _ => nofun) ?_
      rintro enrollment v' - -
      refine wp_ok trivial ?_
      rintro _ ⟨⟩
      rfl
  · exact hsame w

theorem tends_withCert (hdevice : identity.deviceId = id) :
    Uses (Call.Tends request id) (withCert env request identity).run := by
  have hnow : Uses (Call.Tends request id) (ask .now).run := uses_ask ⟨⟨rfl, rfl⟩, fun _ => nofun⟩
  unfold withCert
  split_ifs with hcert
  · have hholds : Uses (Call.Tends request id) (holdsCert identity).run := by
      refine Uses.bind_except tends_hasMasqueCredentials fun held => ?_
      split_ifs
      · exact Uses.bind_except hnow fun _ => trivial
      · exact trivial
    refine Uses.bind_except hholds fun kept => ?_
    split_ifs
    · exact trivial
    · exact Uses.bind_except (tends_ensureMasqueEnrolled hdevice hcert) fun _ => trivial
  · exact trivial

/-- **A registration**, and the certificate where one is asked for: the call works on the device that
it was granted. -/
theorem provisionIdentity_touches (disk : Disk) :
    wp (traced (effects env.fmt)) (Opening env path request (.ok none) disk)
      (fun r w => ∀ i, r = .ok i → Works env path request (.ok none) i.deviceId w ∧ w.1.disk = disk)
      (provisionIdentity env request).run (Traced.start disk) := by
  have hasks : Network (fun r => ∀ x, r ≠ .enrollKey x)
      (provisionAccount { env with team := request.team.isSome }) :=
    network_provisionAccount_of _ nofun nofun fun _ => nofun
  -- nothing is put on disk, and no key is sent for enrolment, while the account is asked for
  have hplain : wp (traced (effects env.fmt)) (fun w => w.1.disk = disk ∧ enrolledIn w.2 = [])
      (fun _ _ => True) (provisionAccount { env with team := request.team.isSome }).run
      (Traced.start disk) := by
    refine hasks.wp (fun c v x v' hc hv heff => ⟨?_, ?_⟩) ⟨rfl, rfl⟩
    · exact (network_effect hc.network heff.1).1.trans hv.1
    · rw [heff.2, enrolledIn_concat, hv.2]
      cases hx : c.enrols with
      | none => rfl
      | some x =>
          unfold Call.enrols at hx
          split at hx
          · exact absurd rfl (hc.request _ (by assumption) _)
          · cases hx
  have hanswered := @provisionAccount_answered { env with team := request.team.isSome } path disk
    (Traced.start disk) ⟨rfl, rfl⟩
  refine wp_bind_except ((hplain.and hanswered).mono (fun _ hw => .inl hw.1) fun _ _ hw hr =>
    And.intro hw.1 hr.2) (fun _ _ _ _ => nofun) ?_
  rintro identity w₁ - ⟨⟨hdisk, hnone⟩, hok⟩
  obtain ⟨account, hid, awaited, hprogress⟩ := hok identity rfl
  -- the device is the one that was answered with
  have hworks : Works env path request (.ok none) identity.deviceId w₁ := by
    refine ⟨.inr ⟨rfl, account, ?_, hid.symm⟩, ?_, fun _ => hnone⟩
    · exact congrArg Purchase.account? hprogress
    · rw [hnone]
      exact nofun
  have htends : Uses (Call.Tends request identity.deviceId) (withCert env request identity).run :=
    tends_withCert rfl
  have hcert := (tends_wp htends hworks hdisk).and withCert_device
  refine hcert.mono (fun _ hw => hw.1) ?_
  rintro r w₂ - ⟨⟨h₂, hdisk₂⟩, hsame⟩ i hi
  exact ⟨hsame i hi ▸ h₂, hdisk₂⟩

/-- **A call works on one device**, wherever it is cut off, and puts no other in its file. -/
theorem open_touches (disk : Disk) :
    wp (traced (effects env.fmt)) (Opening env path request loaded disk) (fun _ _ => True)
      (openLoaded env path request loaded).run (Traced.start disk) := by
  have hstart : Opening env path request loaded disk (Traced.start disk) := .inl ⟨rfl, rfl⟩
  -- every way of an opened file ends with the same write
  have hsave : ∀ {i : Identity} {v : Traced}, Works env path request loaded i.deviceId v →
      v.1.disk = disk → wp (traced (effects env.fmt)) (Opening env path request loaded disk)
        (fun _ _ => True) (saveFile env path i >>= fun _ => pure i : Task Identity).run v := by
    intro i v hv hdisk
    refine wp_bind_except (saveFile_touches rfl hv hdisk) (fun _ _ _ _ => trivial) ?_
    exact fun _ w hw _ => wp_ok hw trivial
  rcases loaded with e | _ | identity
  · exact wp_throw hstart trivial
  -- nothing on file: a registration
  · refine wp_bind_except (provisionIdentity_touches disk) (fun _ _ _ _ => trivial) ?_
    rintro i w - hi
    obtain ⟨hworks, hdisk⟩ := hi i rfl
    exact hsave hworks hdisk
  -- a file that is read: its device is what the call works on
  · have hworks : Works env path request (.ok (some identity)) identity.deviceId
        (Traced.start disk) :=
      ⟨.inl ⟨identity, rfl, rfl⟩, nofun, fun _ => rfl⟩
    have hprofile : Uses (Call.Tends request identity.deviceId)
        (withProfile env request identity).run := by
      have hnetwork : Network (· = .fetchDevice identity.deviceId) (refreshProfile env identity) :=
        network_refreshProfile env rfl
      unfold withProfile
      split_ifs
      · refine tends_network hnetwork ?_
        rintro _ rfl
        exact ⟨rfl, nofun⟩
      · exact trivial
    have hdevice : wp (traced (effects env.fmt)) (fun _ => True)
        (fun r _ => ∀ i, r = .ok i → i.deviceId = identity.deviceId)
        (withProfile env request identity).run (Traced.start disk) := by
      unfold withProfile
      split_ifs
      · exact refreshProfile_device
      · refine wp_ok trivial ?_
        rintro _ ⟨⟩
        rfl
    refine wp_bind_except (((tends_wp hprofile hworks rfl).and hdevice).mono (fun _ hw => hw.1)
      fun _ _ _ hr => hr) (fun _ _ _ _ => trivial) ?_
    rintro i₁ w₁ - ⟨⟨h₁, hdisk₁⟩, hsame₁⟩
    -- neither the profile nor the certificate is another device's
    have htends : Uses (Call.Tends request identity.deviceId) (withCert env request i₁).run :=
      tends_withCert (hsame₁ i₁ rfl)
    have hcert := (tends_wp htends h₁ hdisk₁).and withCert_device
    refine wp_bind_except (hcert.mono (fun _ hw => hw.1) fun _ _ _ hr => hr)
      (fun _ _ _ _ => trivial) ?_
    rintro i₂ w₂ - ⟨⟨h₂, hdisk₂⟩, hsame₂⟩
    have hid : i₂.deviceId = identity.deviceId := (hsame₂ i₂ rfl).trans (hsame₁ i₁ rfl)
    exact hsave (hid ▸ h₂) hdisk₂

/-- A file shows after a load what it showed before, if anything. -/
theorem loadIdentity_peek {o : FileOutcome} {p : Text}
    (h : peek env.fmt (loadIdentity env o path disk).2 p = some identity) :
    peek env.fmt disk p = some identity := by
  have hquarantine : ∀ text, disk path = some text → (∀ i, parse env.fmt text ≠ .ok i) →
      peek env.fmt (quarantine o path text disk) p = some identity →
      peek env.fmt disk p = some identity := by
    intro text htext hparse hpeek
    unfold quarantine at hpeek
    split_ifs at hpeek
    · obtain ⟨text', hat, hok⟩ := (peek_eq_some env.fmt).1 hpeek
      by_cases hown : p = path
      · rw [hown, Function.update_self] at hat
        cases hat
      · rw [Function.update_of_ne hown] at hat
        by_cases hmoved : p = path ++ ".corrupt".toList
        · rw [hmoved, Function.update_self] at hat
          -- the file that was moved away cannot be read
          cases hat
          exact absurd hok (hparse identity)
        · rw [Function.update_of_ne hmoved] at hat
          exact (peek_eq_some env.fmt).2 ⟨text', hat, hok⟩
    · exact hpeek
  unfold loadIdentity at h
  cases htext : disk path with
  | none =>
      -- by the reasons for which a file is not taken up
      simp only [htext] at h
      exact h
  | some text =>
      cases hread : o.unreadable with
      | some kind =>
          simp only [htext, hread] at h
          exact h
      | none =>
          cases hdecode : env.fmt.identity.decode text with
          | error e =>
              simp only [htext, hread, hdecode] at h
              refine hquarantine text htext (fun i hi => ?_) h
              obtain ⟨persisted, hok, -⟩ := (parse_eq_ok env.fmt).1 hi
              rw [hdecode] at hok
              cases hok
          | ok persisted =>
              cases hidentity : persisted.toIdentity env.fmt.base64 with
              | error e =>
                  simp only [htext, hread, hdecode, hidentity] at h
                  refine hquarantine text htext (fun i hi => ?_) h
                  obtain ⟨persisted', hok, hi'⟩ := (parse_eq_ok env.fmt).1 hi
                  rw [hdecode] at hok
                  cases hok
                  rw [hidentity] at hi'
                  cases hi'
              | ok i =>
                  simp only [htext, hread, hdecode, hidentity] at h
                  exact h

/-- What a load found is what the file shows. -/
theorem loadIdentity_some {o : FileOutcome}
    (h : (loadIdentity env o path disk).1 = .ok (some identity)) :
    peek env.fmt disk path = some identity := by
  unfold loadIdentity at h
  -- every way but the last gives an error or no identity
  cases htext : disk path with
  | none =>
      simp only [htext] at h
      cases h
  | some text =>
      cases hread : o.unreadable with
      | some kind =>
          simp only [htext, hread] at h
          cases h
      | none =>
          cases hdecode : env.fmt.identity.decode text with
          | error e =>
              simp only [htext, hread, hdecode] at h
              cases h
          | ok persisted =>
              cases hidentity : persisted.toIdentity env.fmt.base64 with
              | error e =>
                  simp only [htext, hread, hdecode, hidentity] at h
                  cases h
              | ok i =>
                  simp only [htext, hread, hdecode, hidentity] at h
                  cases h
                  exact (peek_eq_some env.fmt).2 ⟨text, htext, (parse_eq_ok env.fmt).2
                    ⟨persisted, hdecode, hidentity⟩⟩

end Call

/-! ## Calls one after another -/

/-- The files of an install, and the devices that a MASQUE key was sent for. -/
structure Install where
  disk : Disk
  enrolled : List Text

/-- One call, cut off anywhere. -/
structure OpenCall where
  env : Env
  -- an entry of the table is a word that stands between the two names
  outcome : FileOutcome
  transport : Transport
  team : Option Text
  world : Traced
  rest : Prog Calls (Except AetherError Identity)

section Calls

variable (fmt : Formats) (base : Text) (asked : Transport → Option Text → Prop)

/-- The identity that a file holds that is opened for a transport. -/
def Install.holds (s : Install) (transport : Transport) (team : Option Text) (i : Identity) : Prop :=
  asked transport team ∧ peek fmt s.disk (identityPath base transport team) = some i

/-- No file and no enrolment names the device. -/
structure Install.New (s : Install) (id : Text) : Prop where
  enrolled : id ∉ s.enrolled
  held : ∀ transport team i, s.holds fmt base asked transport team i → i.deviceId ≠ id

/-- No file that is opened for WireGuard holds a device that is in a file for MASQUE. -/
def Install.Disjoint (s : Install) : Prop :=
  ∀ team team' i j, s.holds fmt base asked .wireguard team i →
    s.holds fmt base asked .masque team' j → i.deviceId ≠ j.deviceId

/-- No file that is opened for WireGuard holds a device that a MASQUE key was sent for. -/
def Install.Separate (s : Install) : Prop :=
  ∀ team i, s.holds fmt base asked .wireguard team i → i.deviceId ∉ s.enrolled

/-- Calls for the transports and organizations that are asked for.  The account api gives each
registration a device of its own. -/
def library : Runs.Machine Install OpenCall where
  init s := s.enrolled = [] ∧ s.Disjoint fmt base asked
  enabled l s := l.env.fmt = fmt ∧ asked l.transport l.team ∧
    OpenReaches l.env l.outcome (identityPath base l.transport l.team)
      (.forTransport l.transport l.team) s.disk l.world l.rest ∧
    ∀ account, (progress l.env (identityPath base l.transport l.team) l.world.2).account? =
      some account → s.New fmt base asked account.id
  step l s := some { disk := l.world.1.disk, enrolled := s.enrolled ++ enrolledIn l.world.2 }

variable {fmt base asked} {lower : Text → Text} {s : Install}

/-- While no organization is opened for both transports, their files are apart. -/
theorem openedPaths_apart (haccepted : ∀ transport t, asked transport (some t) → Accepted lower t)
    (hone : ∀ t, ¬(asked .wireguard (some t) ∧ asked .masque (some t))) {team team' : Option Text}
    (hteam : asked .wireguard team) (hteam' : asked .masque team') :
    identityPath base .wireguard team ≠ identityPath base .masque team' := by
  rw [identityPath_eq_role, identityPath_eq_role]
  have hplain : ∀ t, team = some t → Plain t := by
    rintro t rfl
    exact (haccepted _ t hteam).plain
  have hplain' : ∀ t, team' = some t → Plain t := by
    rintro t rfl
    exact (haccepted _ t hteam').plain
  -- for WireGuard the role is that of the slot, with or without an organization
  have hrole : openedRole .wireguard team = .slot .wireguard := by cases team <;> rfl
  have hne : (team, openedRole .wireguard team) ≠ (team', openedRole .masque team') := by
    intro hsame
    obtain ⟨rfl, hroles⟩ := Prod.mk.inj hsame
    cases team with
    | none => cases hroles
    | some t => exact hone t ⟨hteam, hteam'⟩
  rw [Ne, rolePath_eq_iff hplain hplain' hne]
  -- a path in common would need an overlap of the suffixes, and there is none
  rintro ⟨t, t', rfl, rfl, ⟨word, hmem, -⟩ | ⟨word, hmem, -⟩⟩
  · obtain ⟨hsuffix, hword⟩ := mem_overlaps_iff.1 hmem
    exact hword (List.append_eq_nil_iff.1 hsuffix.symm).1
  · obtain ⟨hsuffix, hword⟩ := mem_overlaps_iff.1 hmem
    exact hword (List.append_eq_nil_iff.1 hsuffix.symm).1

/-- A file shows what was written to it, and any other what it showed. -/
theorem touches_peek {env : Env} {path id : Text} {request : ProvisionRequest}
    {loaded : Except AetherError (Option Identity)} {disk : Disk} {w : Traced} {p : Text}
    {i : Identity} (h : Touches env path request loaded disk id w)
    (hpeek : peek env.fmt w.1.disk p = some i) :
    (p = path ∧ i.deviceId = id) ∨ peek env.fmt disk p = some i := by
  rcases h.disk with hdisk | ⟨text, identity, hdisk, hparse, hid⟩
  · rw [hdisk] at hpeek
    exact .inr hpeek
  · obtain ⟨text', hat, hok⟩ := (peek_eq_some env.fmt).1 hpeek
    rw [hdisk] at hat
    by_cases hown : p = path
    · rw [hown, Function.update_self] at hat
      cases hat
      cases hparse.symm.trans hok
      exact .inl ⟨hown, hid⟩
    · rw [Function.update_of_ne hown] at hat
      exact .inr ((peek_eq_some env.fmt).2 ⟨text', hat, hok⟩)

/-- **One call keeps the files apart.** -/
theorem library_step (haccepted : ∀ transport t, asked transport (some t) → Accepted lower t)
    (hone : ∀ t, ¬(asked .wireguard (some t) ∧ asked .masque (some t))) {l : OpenCall}
    {s' : Install} (hdisjoint : s.Disjoint fmt base asked) (hseparate : s.Separate fmt base asked)
    (henabled : (library fmt base asked).enabled l s)
    (hstep : (library fmt base asked).step l s = some s') :
    s'.Disjoint fmt base asked ∧ s'.Separate fmt base asked := by
  obtain ⟨rfl, hasked, hreach, hnew⟩ := henabled
  cases hstep
  have hopening := wp.reaches (open_touches _) hreach
  rcases hopening with ⟨hdisk, hnone⟩ | ⟨id, htouches⟩
  · -- nothing was written, and no key was sent
    have hheld : ∀ {transport team i}, Install.holds l.env.fmt base asked
        { disk := l.world.1.disk, enrolled := s.enrolled ++ enrolledIn l.world.2 } transport team i →
        s.holds l.env.fmt base asked transport team i := by
      rintro transport team i ⟨hasked', hpeek⟩
      rw [hdisk] at hpeek
      exact ⟨hasked', loadIdentity_peek hpeek⟩
    refine ⟨fun team team' i j hi hj => hdisjoint team team' i j (hheld hi) (hheld hj), ?_⟩
    intro team i hi
    rw [hnone, List.append_nil]
    exact hseparate team i (hheld hi)
  · -- what the device of the call was to the files and to the enrolments before
    have hsubject : (∃ i, s.holds l.env.fmt base asked l.transport l.team i ∧ i.deviceId = id) ∨
        s.New l.env.fmt base asked id := by
      rcases htouches.works.subject with ⟨i, hloaded, hid⟩ | ⟨-, account, haccount, rfl⟩
      · exact .inl ⟨i, ⟨hasked, loadIdentity_some hloaded⟩, hid⟩
      · exact .inr (hnew account haccount)
    have hheld : ∀ {transport team i}, Install.holds l.env.fmt base asked
        { disk := l.world.1.disk, enrolled := s.enrolled ++ enrolledIn l.world.2 } transport team i →
        (identityPath base transport team = identityPath base l.transport l.team ∧ i.deviceId = id) ∨
          s.holds l.env.fmt base asked transport team i := by
      rintro transport team i ⟨hasked', hpeek⟩
      rcases touches_peek htouches hpeek with hown | hpeek
      · exact .inl hown
      · exact .inr ⟨hasked', loadIdentity_peek hpeek⟩
    have hpaths : ∀ {team team' : Option Text}, asked .wireguard team → asked .masque team' →
        identityPath base .wireguard team ≠ identityPath base .masque team' :=
      openedPaths_apart haccepted hone
    cases htransport : l.transport with
    | wireguard =>
        -- a WireGuard call sends no key, and its device is that of a WireGuard file or new
        rw [htransport] at hasked hsubject hheld
        have hnone : enrolledIn l.world.2 = [] :=
          htouches.works.cert (by rw [htransport]; rfl)
        refine ⟨fun team team' i j hi hj => ?_, fun team i hi => ?_⟩
        · rcases hheld hj with ⟨hsame, -⟩ | hj'
          · exact absurd hsame.symm (hpaths hasked hj.1)
          rcases hheld hi with ⟨-, hid⟩ | hi'
          · rw [hid]
            rcases hsubject with ⟨i₀, hi₀, hid₀⟩ | hfresh
            · rw [← hid₀]
              exact hdisjoint _ _ _ _ hi₀ hj'
            · exact (hfresh.held _ _ _ hj').symm
          · exact hdisjoint _ _ _ _ hi' hj'
        · rw [hnone, List.append_nil]
          rcases hheld hi with ⟨-, hid⟩ | hi'
          · rw [hid]
            rcases hsubject with ⟨i₀, hi₀, hid₀⟩ | hfresh
            · rw [← hid₀]
              exact hseparate _ _ hi₀
            · exact hfresh.enrolled
          · exact hseparate _ _ hi'
    | masque =>
        rw [htransport] at hasked hsubject hheld
        -- the device of a MASQUE call is in no WireGuard file
        have hother : ∀ {team i}, s.holds l.env.fmt base asked .wireguard team i → i.deviceId ≠ id := by
          intro team i hi
          rcases hsubject with ⟨j₀, hj₀, hid₀⟩ | hfresh
          · rw [← hid₀]
            exact hdisjoint _ _ _ _ hi hj₀
          · exact hfresh.held _ _ _ hi
        have hkept : ∀ {team i}, Install.holds l.env.fmt base asked
            { disk := l.world.1.disk, enrolled := s.enrolled ++ enrolledIn l.world.2 } .wireguard
              team i → s.holds l.env.fmt base asked .wireguard team i := by
          intro team i hi
          rcases hheld hi with ⟨hsame, -⟩ | hi'
          · exact absurd hsame (hpaths hi.1 hasked)
          · exact hi'
        refine ⟨fun team team' i j hi hj => ?_, fun team i hi => ?_⟩
        · rcases hheld hj with ⟨-, hid⟩ | hj'
          · rw [hid]
            exact hother (hkept hi)
          · exact hdisjoint _ _ _ _ (hkept hi) hj'
        · intro hmem
          rcases List.mem_append.1 hmem with hmem | hmem
          · exact hseparate _ _ (hkept hi) hmem
          · exact hother (hkept hi) (htouches.works.enrolled _ hmem)

/-- **While no organization is opened for both transports**, no file that is opened for WireGuard
holds a device that a MASQUE key was sent for. -/
theorem separate_reach (haccepted : ∀ transport t, asked transport (some t) → Accepted lower t)
    (hone : ∀ t, ¬(asked .wireguard (some t) ∧ asked .masque (some t)))
    (h : Runs.Reachable (library fmt base asked) s) : s.Separate fmt base asked := by
  have hinvariant : Runs.Invariant (library fmt base asked)
      (fun s => s.Disjoint fmt base asked ∧ s.Separate fmt base asked) := {
    init := by
      rintro s ⟨hnone, hdisjoint⟩
      refine ⟨hdisjoint, fun team i _ => ?_⟩
      rw [hnone]
      exact List.not_mem_nil
    step := fun s l s' hs hl h => library_step haccepted hone hs.1 hs.2 hl h }
  exact (hinvariant.reachable h).2

end Calls

/-! ## A call that fails -/

section Fails

variable {env : Env} {path : Text} {request : ProvisionRequest} {disk : Disk} {account : AccountData}
variable {w : Traced}

/-- The file was the last thing to be written, and is in place although that was said to fail. -/
def FailedInPlace (path : Text) (w : Traced) : Prop :=
  ∃ text kind, w.2.getLast? = some ⟨.writePrivate path text, .error (.io kind)⟩ ∧
    w.1.disk path = some text

/-- The device of an account is in a file. -/
def OnFile (env : Env) (path : Text) (account : AccountData) (w : Traced) : Prop :=
  ∃ identity, peek env.fmt w.1.disk path = some identity ∧ identity.deviceId = account.id

/-- Where nothing was written the device is not kept, and no write failed. -/
theorem Unwritten.lost (h : Unwritten disk w) (hnone : disk path = none) :
    OnFile env path account w ↔ FailedInPlace path w := by
  refine iff_of_false ?_ ?_
  · rintro ⟨identity, hpeek, -⟩
    rw [h.1] at hpeek
    cases (peek_absent hnone).symm.trans hpeek
  · rintro ⟨text, kind, hlast, -⟩
    cases h.2 _ (List.mem_of_getLast? hlast)

/-- What a call comes to that was answered with an account and fails. -/
def KeptInPlace (env : Env) (path : Text) (r : Except AetherError Identity) (w : Traced) : Prop :=
  ∀ account, r.toOption = none → (progress env path w.2).account? = some account →
    (OnFile env path account w ↔ FailedInPlace path w)

theorem provisionIdentity_unwritten :
    Uses (fun c : Call => c.writes = false) (provisionIdentity env request).run :=
  have hnetwork := network_provisionAccount { env with team := request.team.isSome }
  Uses.bind_except (still_network hnetwork) fun _ =>
    (tends_withCert rfl).mono fun _ hc => hc.idle.writes

/-- **A registration that is not followed by a file** is lost. -/
theorem openLoaded_kept (hnone : disk path = none) :
    wp (traced (effects env.fmt)) (fun _ => True) (KeptInPlace env path)
      (openLoaded env path request (.ok none)).run (Traced.start disk) := by
  have hstart : Unwritten disk (Traced.start disk) := ⟨rfl, nofun⟩
  have hprovision := (@provisionIdentity_touches env path request disk).and
    (hstart.wp (@provisionIdentity_unwritten env request))
  have hboth : wp (traced (effects env.fmt)) (Unwritten disk)
      (fun r w => ∀ i, r = .ok i → Works env path request (.ok none) i.deviceId w)
      (provisionIdentity env request).run (Traced.start disk) :=
    hprovision.mono (fun _ hw => hw.2) fun _ _ _ hr i hi => (hr.1 i hi).1
  have hdone : wp (traced (effects env.fmt)) (fun _ => True)
      (fun r w => Unwritten disk w ∧ ∀ i, r = .ok i → Works env path request (.ok none) i.deviceId w)
      (provisionIdentity env request).run (Traced.start disk) :=
    hboth.mono (fun _ _ => trivial) fun _ _ hw hr => ⟨hw, hr⟩
  refine wp_bind_except hdone ?_ ?_
  · rintro e w - ⟨hunwritten, -⟩ account - -
    exact hunwritten.lost hnone
  · rintro i w - ⟨hunwritten, hworks⟩
    refine wp_bind_except (R := fun r w => ∀ account, r ≠ .ok () →
      (progress env path w.2).account? = some account →
      (OnFile env path account w ↔ FailedInPlace path w)) ?_ ?_ fun _ _ _ _ => wp_ok trivial nofun
    · refine wp_saveFile trivial (fun _ account _ _ => hunwritten.lost hnone) ?_
      intro text r w' htext hwrote
      refine ⟨trivial, fun account hfailed haccount => ?_⟩
      rcases hwrote.result with hok | ⟨kind, rfl⟩
      · exact absurd hok hfailed
      -- the write was said to fail
      have hlast : w'.2.getLast? = some ⟨.writePrivate path text, .error (.io kind)⟩ := by
        rw [hwrote.trace]
        exact List.getLast?_concat
      rcases hwrote.disk with hdisk | ⟨hdisk, -⟩
      · have hat : w'.1.disk path = some text := by rw [hdisk, Function.update_self]
        have hid : i.deviceId = account.id := by
          rcases (hworks i rfl).subject with ⟨_, hheld, -⟩ | ⟨-, account', haccount', hid'⟩
          · cases hheld
          · have hprogress : (progress env path w'.2).account? = some account' := by
              rw [hwrote.trace, account_concat rfl, haccount']
            cases hprogress.symm.trans haccount
            exact hid'.symm
        refine iff_of_true ⟨_, (peek_eq_some env.fmt).2 ⟨text, hat, parse_toText env.fmt htext⟩, hid⟩ ?_
        exact ⟨text, kind, hlast, hat⟩
      · have hat : w'.1.disk path = none := by rw [hdisk, hunwritten.1, hnone]
        refine iff_of_false ?_ ?_
        · rintro ⟨identity, hpeek, -⟩
          cases (peek_absent hat).symm.trans hpeek
        · rintro ⟨text', kind', -, hat'⟩
          rw [hat] at hat'
          cases hat'
    · intro e w' _ hr account _ haccount
      exact hr account nofun haccount

/-- A call that finds an identity, or that fails to look for one, is answered with no account. -/
theorem openLoaded_quiet {loaded : Except AetherError (Option Identity)} (h : loaded ≠ .ok none) :
    Silent (openLoaded env path request loaded).run := by
  rcases loaded with e | _ | identity
  · exact trivial
  · exact absurd rfl h
  · have hprofile : Silent (withProfile env request identity).run := by
      have hnetwork : Network (· = .fetchDevice identity.deviceId) (refreshProfile env identity) :=
        network_refreshProfile env rfl
      unfold withProfile
      split_ifs
      · exact silent_network hnetwork fun _ h => by rw [h]; rfl
      · exact trivial
    exact Uses.bind_except hprofile fun _ =>
      Uses.bind_except ((tends_withCert rfl).mono fun _ hc => hc.idle.registers) fun _ =>
        Uses.bind_except (silent_saveFile _ _) fun _ => trivial

/-- **When a call that fails leaves the registration that it was answered with**: only where what
fails is the write of the file, and the file is in place all the same. -/
theorem openIdentity_keeps_iff {o : FileOutcome} {e : AetherError}
    (h : OpenRuns env o path request disk (.error e) w)
    (haccount : (progress env path w.2).account? = some account) :
    OnFile env path account w ↔ FailedInPlace path w := by
  by_cases hloaded : (loadIdentity env o path disk).1 = .ok none
  -- nothing was loaded, so there was no file
  · have hdisk : (loadIdentity env o path disk).2 path = none := by
      have hpeek : disk path = none ∧ (loadIdentity env o path disk).2 = disk := by
        unfold loadIdentity at hloaded ⊢
        cases htext : disk path with
        | none => simp
        | some text =>
            simp only [htext] at hloaded
            split at hloaded
            · cases hloaded
            · split at hloaded
              · cases hloaded
              · split at hloaded <;> cases hloaded
      rw [hpeek.2, hpeek.1]
    unfold OpenRuns at h
    rw [hloaded] at h
    exact wp.runs (openLoaded_kept hdisk) h account rfl haccount
  · have hstart : Quiet env path (Traced.start (loadIdentity env o path disk).2) := rfl
    -- a file was there: then no registration is asked for, so none was answered
    have hquiet : Quiet env path w := wp.reaches (hstart.wp (openLoaded_quiet hloaded)) h.reaches
    unfold Quiet at hquiet
    rw [hquiet] at haccount
    cases haccount

end Fails

/-- **Where the library and the engine agree about identity files, and what the calls keep**: they
agree without an organization and for WireGuard; while no organization is opened for both transports
no file that is opened for WireGuard holds a device that a MASQUE key was sent for; and a call that
fails leaves the registration that it was answered with only where the file is in place although its
write was said to fail. -/
theorem identity_files_iff (lower : Text → Text) (base : Text) :
    (∀ transport team, (∀ t, team = some t → Accepted lower t) →
      (identityPath base transport team = (identitySite (scopedTo team) base transport.slot).path ↔
        team = none ∨ transport = .wireguard)) ∧
    (∀ fmt asked s, (∀ transport t, asked transport (some t) → Accepted lower t) →
      (∀ t, ¬(asked .wireguard (some t) ∧ asked .masque (some t))) →
      Runs.Reachable (library fmt base asked) s → s.Separate fmt base asked) ∧
    ∀ env o transport team disk e w account,
      OpenRuns env o (identityPath base transport team) (.forTransport transport team) disk (.error e) w →
      (progress env (identityPath base transport team) w.2).account? = some account →
      (OnFile env (identityPath base transport team) account w ↔
        FailedInPlace (identityPath base transport team) w) := by
  refine ⟨fun transport team haccepted => ?_, ?_, ?_⟩
  · exact identityPath_eq_slot_iff (fun t h => (haccepted t h).plain) base transport
  · exact fun _ _ _ => separate_reach
  · exact fun _ _ _ _ _ _ _ _ => openIdentity_keeps_iff

/-! ## Calls for one organization -/

/-- The file system does what it is told. -/
def fileWell : FileOutcome where
  unreadable := none
  moved := true

/-- Every request is answered. -/
def answering (_ : Request) : DirectTry :=
  .answered { status := 200, retryAfter := none, body := [] }

/-- A call in surroundings that answer, up to its end. -/
def openAt (direct : Request → DirectTry) (path : Text) (transport : Transport) (team : Option Text)
    (disk : Disk) : Except AetherError Identity × Traced :=
  Prog.exec (tracing (surroundings acmeFormats 1000 direct))
    (openLoaded (grantingEnv acmeFormats false) path (.forTransport transport team)
      (loadIdentity (grantingEnv acmeFormats false) fileWell path disk).1).run
    (Traced.start (loadIdentity (grantingEnv acmeFormats false) fileWell path disk).2)

theorem openAt_runs (direct : Request → DirectTry) (path : Text) (transport : Transport)
    (team : Option Text) (disk : Disk) :
    OpenRuns (grantingEnv acmeFormats false) fileWell path (.forTransport transport team) disk
      (openAt direct path transport team disk).1 (openAt direct path transport team disk).2 :=
  exec_runs (tracing_effects (surroundings_effects acmeFormats 1000 direct)) _ _

/-- A registration for MASQUE whose enrolment is not answered. -/
def lostCall : Except AetherError Identity × Traced :=
  openAt granting (identityPath aetherToml .masque none) .masque none fun _ => none

theorem lostCall_failed : ∃ e, lostCall.1 = .error e :=
  ⟨_, rfl⟩

theorem lostCall_account : (progress (grantingEnv acmeFormats false)
    (identityPath aetherToml .masque none) lostCall.2.2).account? = some grantedAccount :=
  rfl

theorem lostCall_absent : lostCall.2.1.disk (identityPath aetherToml .masque none) = none :=
  rfl

/-- The first call for WireGuard. -/
def firstCall : Except AetherError Identity × Traced :=
  openAt answering (identityPath aetherToml .wireguard (some acme)) .wireguard (some acme) fun _ => none

/-- A call for MASQUE, of the same organization, after the first. -/
def secondCall : Except AetherError Identity × Traced :=
  openAt answering (identityPath aetherToml .masque (some acme)) .masque (some acme)
    firstCall.2.1.disk

/-- A call as a step of an install. -/
def stepOf (transport : Transport) (call : Except AetherError Identity × Traced) : OpenCall where
  env := grantingEnv acmeFormats false
  outcome := fileWell
  transport := transport
  team := some acme
  world := call.2
  rest := .done call.1

theorem firstCall_reach {asked : Transport → Option Text → Prop} (hasked : asked .wireguard (some acme)) :
    Runs.Reachable (library acmeFormats aetherToml asked)
      { disk := firstCall.2.1.disk, enrolled := enrolledIn firstCall.2.2 } := by
  have hopen : OpenReaches (grantingEnv acmeFormats false) fileWell
      (identityPath aetherToml .wireguard (some acme)) (.forTransport .wireguard (some acme))
      (fun _ => none) firstCall.2 (.done firstCall.1) :=
    (openAt_runs answering _ _ _ _).reaches
  have hnone : ∀ transport team i, ¬Install.holds acmeFormats aetherToml asked
      { disk := fun _ => none, enrolled := [] } transport team i := by
    rintro transport team i ⟨-, hi⟩
    cases (peek_absent rfl).symm.trans hi
  have hinit : (library acmeFormats aetherToml asked).init { disk := fun _ => none, enrolled := [] } :=
    ⟨rfl, fun team _ i _ hi _ => absurd hi (hnone .wireguard team i)⟩
  have henabled : (library acmeFormats aetherToml asked).enabled (stepOf .wireguard firstCall)
      { disk := fun _ => none, enrolled := [] } :=
    ⟨rfl, hasked, hopen, fun _ _ => ⟨List.not_mem_nil, fun transport team i hi =>
      absurd hi (hnone transport team i)⟩⟩
  exact .step (.init hinit) henabled trivial rfl

/-- The same call once more, which finds the file. -/
def againCall : Except AetherError Identity × Traced :=
  openAt answering (identityPath aetherToml .wireguard (some acme)) .wireguard (some acme)
    firstCall.2.1.disk

theorem againCall_account : (progress (grantingEnv acmeFormats false)
    (identityPath aetherToml .wireguard (some acme)) againCall.2.2).account? = none :=
  rfl

theorem againCall_reach {asked : Transport → Option Text → Prop} (hasked : asked .wireguard (some acme)) :
    Runs.Reachable (library acmeFormats aetherToml asked)
      { disk := againCall.2.1.disk, enrolled := enrolledIn firstCall.2.2 ++ enrolledIn againCall.2.2 } := by
  have hopen : OpenReaches (grantingEnv acmeFormats false) fileWell
      (identityPath aetherToml .wireguard (some acme)) (.forTransport .wireguard (some acme))
      firstCall.2.1.disk againCall.2 (.done againCall.1) :=
    (openAt_runs answering _ _ _ _).reaches
  refine .step (l := stepOf .wireguard againCall) (firstCall_reach hasked)
    ⟨rfl, hasked, hopen, fun account haccount => ?_⟩ trivial rfl
  cases againCall_account.symm.trans haccount

/-- The files and the calls of an organization that is opened for WireGuard alone, twice. -/
theorem identity_files_iff_acme :
    identityPath aetherToml .wireguard (some acme) =
        (identitySite (scopedTo (some acme)) aetherToml .wireguard).path ∧
      Install.Separate acmeFormats aetherToml
        (fun transport team => transport = .wireguard ∧ team = some acme)
        { disk := againCall.2.1.disk, enrolled := enrolledIn firstCall.2.2 ++ enrolledIn againCall.2.2 } ∧
      ¬OnFile (grantingEnv acmeFormats false) (identityPath aetherToml .masque none) grantedAccount
        lostCall.2 := by
  have hall := identity_files_iff asciiLower aetherToml
  have haccepted : ∀ t, some acme = some t → Accepted asciiLower t := by
    rintro _ ⟨⟩
    exact acme_accepted
  refine ⟨(hall.1 .wireguard (some acme) haccepted).2 (.inr rfl), ?_, ?_⟩
  · refine hall.2.1 _ _ _ ?_ ?_ (againCall_reach ⟨rfl, rfl⟩)
    · rintro transport t ⟨-, hteam⟩
      exact haccepted t hteam.symm
    · rintro t ⟨-, hmasque, -⟩
      cases hmasque
  · obtain ⟨e, herror⟩ := lostCall_failed
    have hruns := openAt_runs granting (identityPath aetherToml .masque none) .masque none fun _ => none
    have hfailed : OpenRuns (grantingEnv acmeFormats false) fileWell
        (identityPath aetherToml .masque none) (.forTransport .masque none) (fun _ => none) (.error e)
        lostCall.2 := herror ▸ hruns
    rw [hall.2.2 _ _ _ _ _ _ _ _ hfailed lostCall_account]
    rintro ⟨text, kind, -, hat⟩
    cases lostCall_absent.symm.trans hat

/-- For an organization the library opens one file for both transports: a MASQUE key is sent for the
device in the file for WireGuard.  A registration whose enrolment fails is on no file. -/
theorem identity_files_drifted :
    identityPath aetherToml .masque (some acme) ≠
        (identitySite (scopedTo (some acme)) aetherToml .masque).path ∧
      (∃ s, Runs.Reachable (library acmeFormats aetherToml fun _ team => team = some acme) s ∧
        ¬s.Separate acmeFormats aetherToml fun _ team => team = some acme) ∧
      (∃ e, OpenRuns (grantingEnv acmeFormats false) fileWell (identityPath aetherToml .masque none)
        (.forTransport .masque none) (fun _ => none) (.error e) lostCall.2) ∧
      (progress (grantingEnv acmeFormats false) (identityPath aetherToml .masque none)
        lostCall.2.2).account? = some grantedAccount ∧
      lostCall.2.1.disk (identityPath aetherToml .masque none) = none := by
  refine ⟨by decide, ?_, ?_, lostCall_account, lostCall_absent⟩
  · have hopen : OpenReaches (grantingEnv acmeFormats false) fileWell
        (identityPath aetherToml .masque (some acme)) (.forTransport .masque (some acme))
        firstCall.2.1.disk secondCall.2 (.done secondCall.1) :=
      (openAt_runs answering _ _ _ _).reaches
    refine ⟨_, .step (l := stepOf .masque secondCall)
      (@firstCall_reach (fun _ team => team = some acme) rfl)
      ⟨rfl, rfl, hopen, ?_⟩ trivial rfl, fun hseparate => ?_⟩
    -- the second call registers nothing, so no account was answered
    · intro account haccount
      have hnone : (progress (grantingEnv acmeFormats false)
          (identityPath aetherToml .masque (some acme)) secondCall.2.2).account? = none := rfl
      cases hnone.symm.trans haccount
    -- the file for WireGuard holds the device for which the second call sent a key
    · have hpeek : peek acmeFormats secondCall.2.1.disk
          (identityPath aetherToml .wireguard (some acme)) = some acmeIdentity := rfl
      have hsent : acmeIdentity.deviceId ∈
          enrolledIn firstCall.2.2 ++ enrolledIn secondCall.2.2 := by decide
      exact hseparate (some acme) acmeIdentity ⟨rfl, hpeek⟩ hsent
  · obtain ⟨e, herror⟩ := lostCall_failed
    have hruns := openAt_runs granting (identityPath aetherToml .masque none) .masque none fun _ => none
    exact ⟨e, herror ▸ hruns⟩

end Account
end AuroraVpn
