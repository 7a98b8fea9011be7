import AuroraVpn.Account.OnRecord
import AuroraVpn.Account.Refusal
import AuroraVpn.Account.Silent

/-!
# Bought — a registration that was granted is not bought again

A run of `load_or_provision_warp` or `load_or_provision_masque` for a personal account, cut off
anywhere, and the next run.

* `loader_sound`: what holds wherever a run is cut off.
* `loader_again`: the next run sends no registration while the WireGuard key stands.
* `granted_once`: a registration that was granted is not bought again.
-/

namespace AuroraVpn
namespace Account

open Program

section Buy

variable {env : Env} {site : IdentitySite} {disk : Disk}
variable {account : AccountData} {s : Store} {w w' : Traced}

/-! ## Whole runs -/

/-- No registration was answered, and what is fresh is known neither to the files nor to the store. -/
structure Ready (env : Env) (site : IdentitySite) (disk : Disk) (s : Store) (w : Traced) : Prop where
  quiet : Quiet env site.storePath w
  unknown : ∀ id, Fresh env.fmt site disk id → Unknown id s
  unseen : ∀ id, Fresh env.fmt site disk id → ∀ path identity,
    peek env.fmt w.1.disk path = some identity → identity.deviceId ≠ id

theorem Ready.step {c : Call} {x : c.Answer} (h : Ready env site disk s w)
    (hregisters : c.registers = false) (hwrites : c.writes = false)
    (heff : traced (effects env.fmt) c w x w') : Ready env site disk s w' where
  quiet := h.quiet.step hregisters heff
  unknown := h.unknown
  unseen id hfresh path identity hpeek := by
    rw [effects_disk hwrites heff.1] at hpeek
    exact h.unseen id hfresh path identity hpeek

/-- **A load in front of a run.** -/
theorem ready_load (hfmt : env.fmt.Apart) {loaded : Loaded} (hquiet : Quiet env site.storePath w)
    (hdisk : w.1.disk = disk)
    (heff : traced (effects env.fmt) (.load site.storePath site.legacy) w loaded w') :
    Ready env site disk loaded.store w' := by
  have hquiet' := hquiet.step rfl heff
  obtain ⟨⟨o, hload, -, -⟩, -⟩ := heff
  obtain ⟨rfl, hafter⟩ := Prod.mk.inj hload
  rw [hdisk] at hafter
  refine ⟨hquiet', fun id hfresh => ?_, fun id hfresh path identity hpeek => ?_⟩
  · rw [hdisk]
    exact load_unknown hfresh o
  · rw [hafter] at hpeek
    obtain ⟨path', hpath'⟩ := load_peek hfmt o hpeek
    exact hfresh.unseen path' identity hpath'

/-- What sends no registration is sound before any was answered. -/
theorem Quiet.steps {α : Type} {p : StoreTask α} (h : Quiet env site.storePath w)
    (hp : UsesM (fun c : Call => c.registers = false) p) :
    Steps env site disk (fun _ _ w => Quiet env site.storePath w) p s w :=
  (h.wp (hp s)).mono (fun _ hw => hw.sound) fun _ _ hw _ => hw

theorem adoptTeamProfile_personal (hteam : env.team = false) (identity : Identity) :
    adoptTeamProfile env identity = pure identity := by
  simp [adoptTeamProfile, hteam]

/-- The profile of a personal account is what it is. -/
theorem adoptTeamProfile_steps (hteam : env.team = false) {identity : Identity} {α : Type}
    {f : Identity → StoreTask α} {Q : Except AetherError α → Store → Traced → Prop}
    (h : Steps env site disk Q (f identity) s w) :
    Steps env site disk Q (plain (adoptTeamProfile env identity) >>= f) s w := by
  rw [adoptTeamProfile_personal hteam]
  exact h

/-- **From a registration to a device that is on record.** -/
theorem bought_sound (hteam : env.team = false) (hfmt : env.fmt.Apart) (hsite : site.Apart)
    (h : Ready env site disk s w) {rest : Identity → StoreTask Identity}
    {Q : Except AetherError Identity → Store → Traced → Prop}
    (hfail : ∀ e s w, Q (.error e) s w)
    (hrest : ∀ account identity s w, identity.deviceId = account.id → identity.certPem = [] →
      OnRecord env site disk account s w → Steps env site disk Q (rest identity) s w) :
    Steps env site disk Q
      (provisionWithinBudget env site >>= fun identity =>
        record env site identity >>= fun _ => rest identity) s w := by
  -- the registration comes first: behind it the account is known, and the disk and the store are as before
  refine wpM_bind (provisionWithinBudget_sound hteam ⟨rfl, h.quiet⟩)
    (fun e s w _ _ => hfail e s w) ?_
  rintro identity s₁ w₁ - hok
  obtain ⟨hdisk, hdevices, hslots, account, hid, hcert, hanswered⟩ := hok identity rfl
  -- what the first `record` needs: an answered account, which nothing knows yet when it is new
  have hinhand : InHand env site disk account s₁ w₁ := by
    refine ⟨hanswered, fun hfresh => ?_, fun hfresh => ?_⟩
    · obtain ⟨hdevice, hslot⟩ := h.unknown _ hfresh
      refine ⟨?_, ?_⟩
      · rw [Store.device, hdevices]
        exact hdevice
      · rw [hslots]
        exact hslot
    · rw [hdisk]
      exact h.unseen _ hfresh
  refine wpM_bind (record_first hfmt hsite hid hcert hinhand) (fun e s w _ _ => hfail e s w) ?_
  intro _ s₂ w₂ _ honrecord
  exact hrest account identity s₂ w₂ hid hcert (honrecord rfl)

theorem provisionWarp_sound (hteam : env.team = false) (hfmt : env.fmt.Apart) (hsite : site.Apart)
    (h : Ready env site disk s w) :
    Steps env site disk (fun _ _ _ => True) (provisionWarp env site) s w := by
  refine bought_sound hteam hfmt hsite h (fun _ _ _ => trivial) ?_
  intro account identity s₁ w₁ hid hcert h₁
  refine adoptTeamProfile_steps hteam ?_
  refine wpM_bind (record_again hfmt hsite hid (fun _ => hcert) h₁) (fun _ _ _ _ _ => trivial) ?_
  exact fun _ s w hJ _ => wpM_ok hJ trivial

theorem OnRecord.idle {α : Type} {p : Prog Calls α} (h : OnRecord env site disk account s w)
    (hp : Uses Call.Idle p) :
    wp (traced (effects env.fmt)) (Sound env site disk)
      (fun _ w => OnRecord env site disk account s w) p w :=
  (hp.wp (fun _ _ _ _ hc hw heff => hw.step hc.registers hc.writes heff) h).mono
    (fun _ hw => hw.sound) fun _ _ hw _ => hw

/-- What sends no registration is sound after a save of which nothing is promised. -/
theorem saved_sound {α : Type} {p : Prog Calls α} (hp : Silent p)
    (hnot : ¬Fresh env.fmt site disk account.id)
    (h : progress env site.storePath w.2 = .saved account false) :
    wp (traced (effects env.fmt)) (Sound env site disk) (fun _ _ => True) p w := by
  have hsaved : ∀ c w x w', Call.registers c = false →
      progress env site.storePath w.2 = .saved account false →
      traced (effects env.fmt) c w x w' →
      progress env site.storePath w'.2 = .saved account false := by
    intro c w x w' hc hw heff
    rw [heff.2, progress_concat, hw]
    exact after_saved (granted_of_not_registers hc)
  refine (hp.wp hsaved h).mono (fun w hw => ?_) fun _ _ _ _ => trivial
  simp only [Sound, hw, true_and]
  exact fun hfresh => absurd hfresh hnot

/-- No file beside the slot's own shows a device that is on record, so that there is none to mark. -/
theorem recordEnrolmentBeside_sound {identity : Identity} (hid : identity.deviceId = account.id)
    (h : OnRecord env site disk account s w) :
    wp (traced (effects env.fmt)) (Sound env site disk) (fun _ _ => True)
      (recordEnrolmentBeside env site.path identity).run w := by
  by_cases hfresh : Fresh env.fmt site disk account.id
  swap
  · exact saved_sound (silent_recordEnrolmentBeside _ _) hfresh h.saved
  unfold recordEnrolmentBeside
  split_ifs
  · exact wp_ok h.sound trivial
  · refine wp_ask_bind h.sound fun found w' heff => ?_
    have h' := h.step rfl rfl heff
    have hnone : toMark identity found = [] := by
      unfold toMark
      rw [List.map_eq_nil_iff, List.filter_eq_nil_iff]
      intro file hmem hmark
      obtain ⟨hne, hpeek⟩ := heff.1.1 file hmem
      rw [decide_eq_true_eq] at hmark
      exact (h.held hfresh).elsewhere file.1 hne file.2 hpeek (hmark.1.trans hid)
    rw [hnone]
    exact wp_ok h'.sound trivial

theorem filled_modify {id d : Text} (f : Device → Device) (hmasque : site.slot.family = .masque)
    (h : Filled site id s) : Filled site id (s.modify d f) := by
  have hnot : ∀ device : Device, site.slot.family = .wireguard →
      device.wireguardIsTrustworthy = true := by
    intro device hfamily
    rw [hmasque] at hfamily
    cases hfamily
  obtain ⟨device, hdevice, -⟩ := h.device
  unfold Store.modify
  cases hd : s.device d with
  | none => exact h
  | some existing =>
      refine ⟨h.slot, h.others, ?_⟩
      by_cases hid : id = d
      · exact ⟨f existing, by simp [hid], hnot _⟩
      · exact ⟨device, by simp [hid, hdevice], hnot _⟩

/-- **An enrolment keeps a device on record.** -/
theorem enrolAndRecord_sound (hteam : env.team = false) (hfmt : env.fmt.Apart) (hsite : site.Apart)
    (hmasque : site.slot.family = .masque) {identity : Identity}
    (hid : identity.deviceId = account.id) (h : OnRecord env site disk account s w) :
    Steps env site disk (fun _ _ _ => True) (enrolAndRecord env site identity) s w := by
  refine wpM_ask_bind h.sound fun now w₁ heff => wpM_modify_bind (wpM_get_bind ?_)
  have h₁ := h.step rfl rfl heff
  -- only the time of the enrolment changes, so the slots stay filled
  have hfilled : Fresh env.fmt site disk account.id → Filled site account.id
      (s.modify identity.deviceId fun device => { device with enrolmentPendingSince := now }) :=
    fun hfresh => filled_modify _ hmasque (h.filled hfresh)
  refine wpM_plain_bind (R := fun _ w => OnRecord env site disk account _ w)
    (wp_saveStore h₁.sound (fun _ => h₁.value hfilled) ?_) (fun _ _ _ _ => trivial) ?_
  · intro text r w₂ htext hwrote
    have h₂ := h₁.save hfmt hfilled htext hwrote
    exact ⟨h₂.sound, h₂⟩
  rintro _ w₂ - h₂
  refine wpM_plain_bind (h₂.idle (idle_ensureMasqueEnrolled identity)) (fun _ _ _ _ => trivial) ?_
  rintro enrollment w₃ - h₃
  refine adoptTeamProfile_steps hteam ?_
  -- what `record_again` asks for a WireGuard slot is void here
  have hwireguard : ∀ {q : Prop}, site.slot.family = .wireguard → q := by
    intro q hfamily
    rw [hmasque] at hfamily
    cases hfamily
  refine wpM_bind (record_again hfmt hsite hid hwireguard h₃) (fun _ _ _ _ _ => trivial) ?_
  intro _ s₄ w₄ _ h₄
  refine wpM_plain_bind (recordEnrolmentBeside_sound hid (h₄ rfl)) (fun _ _ _ _ => trivial) ?_
  exact fun _ w hJ _ => wpM_ok hJ trivial

theorem provisionMasque_sound (hteam : env.team = false) (hfmt : env.fmt.Apart)
    (hsite : site.Apart) (hmasque : site.slot.family = .masque) (h : Ready env site disk s w) :
    Steps env site disk (fun _ _ _ => True) (provisionMasque env site) s w :=
  bought_sound hteam hfmt hsite h (fun _ _ _ => trivial) fun _ _ _ _ hid _ h₁ =>
    enrolAndRecord_sound hteam hfmt hsite hmasque hid h₁

theorem identityFrom_refused {base64 : Base64} {id : Text} {device : Device} {identity : Identity}
    (h : identityFrom base64 id device = .ok identity) :
    identity.deviceId = id ∧ identity.refused = false := by
  unfold identityFrom PersistedIdentity.toIdentity at h
  obtain ⟨wgPrivate, -, h⟩ := Fallible.bind_eq_ok.1 h
  obtain ⟨wgPeer, -, h⟩ := Fallible.bind_eq_ok.1 h
  cases h
  exact ⟨rfl, rfl⟩

theorem loadOrProvisionWarp_sound (hteam : env.team = false) (hfmt : env.fmt.Apart)
    (hsite : site.Apart) (s : Store) :
    Steps env site disk (fun _ _ _ => True) (loadOrProvisionWarp env site) s (.start disk) := by
  have hquiet : Quiet env site.storePath (.start disk) := rfl
  refine wpM_ask_bind hquiet.sound fun _ w₁ hlock => ?_
  have hdisk : w₁.1.disk = disk := effects_disk (c := .lock) rfl hlock.1
  have hquiet₁ := hquiet.step rfl hlock
  refine wpM_ask_bind hquiet₁.sound fun loaded w₂ hload => ?_
  have hready := ready_load hfmt hquiet₁ hdisk hload
  refine wpM_set_bind ?_
  -- without a usable device, and when a sibling's file has it, a registration follows
  cases husable : loaded.store.takeUsable site.slot with
  | none => exact provisionWarp_sound hteam hfmt hsite hready
  | some usable =>
      obtain ⟨id, device⟩ := usable
      refine wpM_plain_bind (R := fun r w => Ready env site disk loaded.store w) ?_
        (fun _ _ _ _ => trivial) ?_
      · refine wp_ask_bind hready.quiet.sound fun found w₃ hsiblings => ?_
        have hready₃ := hready.step rfl rfl hsiblings
        exact wp_ok hready₃.quiet.sound hready₃
      · rintro found w₃ - hready₃
        cases found with
        | some other => exact provisionWarp_sound hteam hfmt hsite hready₃
        | none =>
            -- the rest asks for no registration
            refine wpM.post (hready₃.quiet.steps ?_) fun _ _ _ _ _ => trivial
            exact (usesM_plain (silent_liftExcept _)).bind fun _ =>
              (usesM_plain (silent_adoptTeamProfile _)).bind fun _ =>
                (silent_record _).bind fun _ => usesM_pure _

/-- A run that finds a device for MASQUE keeps what calls keep that send no registration. -/
theorem resumeMasque_keeps (hteam : env.team = false) {id : Text} {device : Device}
    {P J : Traced → Prop} (hJ : ∀ w, P w → J w)
    (hP : ∀ c w x w', Call.registers c = false → P w → traced (effects env.fmt) c w x w' → P w')
    (h : P w) :
    wpM (traced (effects env.fmt)) J (fun _ _ w => P w) (resumeMasque env site id device) s w := by
  -- what sends no registration keeps everything that such calls keep
  have hsilent : ∀ {α : Type} {p : Prog Calls α} {w : Traced}, P w → Silent p →
      wp (traced (effects env.fmt)) J (fun _ w => P w) p w := fun hw hp =>
    (hp.wp hP hw).mono hJ fun _ _ hw _ => hw
  refine wpM_plain_bind (R := fun r w => r = identityFrom env.fmt.base64 id device ∧ P w)
    (wp_result (hJ w h) ⟨rfl, h⟩) (fun _ _ _ hr => hr.2) ?_
  rintro identity w₁ - ⟨hidentity, h₁⟩
  obtain ⟨-, hrefused⟩ := identityFrom_refused hidentity.symm
  refine wpM_plain_bind (hsilent h₁ (silent_hasMasqueCredentials identity)) (fun _ _ _ hr => hr) ?_
  rintro credentials w₂ - h₂
  -- there are credentials: the record is renewed, and the identity returned
  by_cases hcredentials : credentials = true
  · rw [if_pos hcredentials, adoptTeamProfile_personal hteam]
    refine wpM_plain_bind (R := fun r w => r = .ok identity ∧ P w) (wp_ok (hJ _ h₂) ⟨rfl, h₂⟩)
      (fun _ _ _ hr => hr.2) ?_
    rintro identity' w₃ - ⟨hsame, h₃⟩
    cases hsame
    rw [hrefused]
    have hrecord : UsesM (fun c : Call => c.registers = false)
        (record env site identity >>= fun _ => pure identity) :=
      UsesM.bind (silent_record _) fun _ => usesM_pure _
    exact hsilent h₃ (hrecord s)
  -- none: an enrolment, whose failure is passed over unless the identity was refused
  · rw [if_neg hcredentials]
    refine wpM_tryCatch (R := fun r _ w => Unrefused r ∧ P w) ?_ (fun _ _ _ _ hr => hr.2) ?_
    · have henrol : UsesM (fun c : Call => c.registers = false) (enrolAndRecord env site identity) :=
        silent_enrolAndRecord identity
      exact ((hsilent h₂ (henrol s)).and enrolAndRecord_unrefused).mono (fun _ hw => hw.1)
        fun _ _ _ hr => ⟨hr.2, hr.1⟩
    · rintro e s' w₃ hw ⟨hunrefused, h₃⟩
      cases e with
      | identityRefused message => exact absurd rfl (hunrefused message)
      | _ => exact wpM_throw hw h₃

theorem loadOrProvisionMasque_sound (hteam : env.team = false) (hfmt : env.fmt.Apart)
    (hsite : site.Apart) (hmasque : site.slot.family = .masque) (s : Store) :
    Steps env site disk (fun _ _ _ => True) (loadOrProvisionMasque env site) s (.start disk) := by
  have hquiet : Quiet env site.storePath (.start disk) := rfl
  refine wpM_ask_bind hquiet.sound fun _ w₁ hlock => ?_
  have hdisk : w₁.1.disk = disk := effects_disk (c := .lock) rfl hlock.1
  have hquiet₁ := hquiet.step rfl hlock
  refine wpM_ask_bind hquiet₁.sound fun loaded w₂ hload => ?_
  have hready := ready_load hfmt hquiet₁ hdisk hload
  refine wpM_set_bind ?_
  cases husable : loaded.store.takeUsable site.slot with
  | none => exact provisionMasque_sound hteam hfmt hsite hmasque hready
  | some usable =>
      exact wpM.post (resumeMasque_keeps hteam (fun _ hw => Quiet.sound hw)
        (fun _ _ _ _ hc hw heff => hw.step hc heff) hready.quiet) fun _ _ _ _ _ => trivial

end Buy

/-! ## The next run -/

/-- A registration was sent, whatever came of it. -/
def Sent (t : List Event) : Prop :=
  ∃ e ∈ t, e.1.registers = true

/-- Some file was seen to show that a device was enrolled, which overwrites its WireGuard key. -/
def Overwritten (id : Text) (t : List Event) : Prop :=
  ∃ path, ∃ found : List (Text × Identity), ⟨.siblings path, found⟩ ∈ t ∧
    ∃ file ∈ found, file.2.deviceId = id ∧ file.2.certPem ≠ []

section Next

variable {env : Env} {site : IdentitySite} {id : Text} {s : Store} {w w' : Traced}

/-- Nothing was sent but for a WireGuard key that was overwritten. -/
def Thrifty (id : Text) (w : Traced) : Prop :=
  Sent w.2 → Overwritten id w.2

theorem not_sent_step {c : Call} {x : c.Answer} (h : ¬Sent w.2) (hc : c.registers = false)
    (heff : traced (effects env.fmt) c w x w') : ¬Sent w'.2 := by
  rw [heff.2]
  rintro ⟨e, hmem, he⟩
  rcases List.mem_append.1 hmem with hmem | hmem
  · exact h ⟨e, hmem, he⟩
  · rw [List.mem_singleton.1 hmem, hc] at he
    cases he

theorem thrifty_of_not_sent (h : ¬Sent w.2) : Thrifty id w :=
  fun hsent => absurd hsent h

/-- A program that sends no registration. -/
theorem silent_thrifty {α : Type} {p : Prog Calls α} (h : ¬Sent w.2) (hp : Silent p) :
    wp (traced (effects env.fmt)) (Thrifty id) (fun _ w => ¬Sent w.2) p w := by
  have hkeeps : ∀ c (w : Traced) x w', Call.registers c = false → ¬Sent w.2 →
      traced (effects env.fmt) c w x w' → ¬Sent w'.2 :=
    fun _ _ _ _ hc hw heff => not_sent_step hw hc heff
  exact (hp.wp hkeeps h).mono (fun _ hw => thrifty_of_not_sent hw) fun _ _ hw _ => hw

/-- Any program, once the key was seen to be overwritten. -/
theorem overwritten_thrifty {α : Type} (p : Prog Calls α) (h : Overwritten id w.2) :
    wp (traced (effects env.fmt)) (Thrifty id) (fun _ _ => True) p w := by
  refine ((uses_all p).wp (J := fun w => Overwritten id w.2) (fun c w x w' _ hw heff => ?_) h).mono
    (fun _ hw _ => hw) fun _ _ _ _ => trivial
  obtain ⟨path, found, hmem, hfile⟩ := hw
  refine ⟨path, found, ?_, hfile⟩
  rw [heff.2]
  exact List.mem_append_left _ hmem

theorem Filled.takeUsable (h : Filled site id s) :
    ∃ device, s.takeUsable site.slot = some (id, device) := by
  obtain ⟨device, hdevice, htrust⟩ := h.device
  refine ⟨device, ?_⟩
  cases hfamily : site.slot.family with
  | wireguard => simp [Store.takeUsable, h.slot, hdevice, htrust hfamily]
  | masque => simp [Store.takeUsable, h.slot, hdevice, hfamily]

theorem deviceEnrolledElsewhere_seen {path : Text} (h : ¬Sent w.2) :
    wp (traced (effects env.fmt)) (Thrifty id)
      (fun r w => match r with
        | .ok (some _) => Overwritten id w.2
        | .ok none => ¬Sent w.2
        | .error _ => True)
      (deviceEnrolledElsewhere path id).run w := by
  refine wp_ask_bind (thrifty_of_not_sent h) fun found w' heff => ?_
  have h' := not_sent_step h rfl heff
  refine wp_ok (thrifty_of_not_sent h') ?_
  cases hfind : found.find? fun file => file.2.deviceId = id ∧ file.2.certPem ≠ [] with
  | none => exact h'
  | some file =>
      have hfile := List.find?_some hfind
      rw [decide_eq_true_eq] at hfile
      refine ⟨path, found, ?_, file, List.mem_of_find?_eq_some hfind, hfile⟩
      rw [heff.2]
      exact List.mem_append_right _ (List.mem_singleton.2 rfl)

/-- The crash condition and the effects of the next run. -/
abbrev Again (env : Env) (id : Text) {α : Type}
    (Q : Except AetherError α → Store → Traced → Prop) (p : StoreTask α) (s : Store) (w : Traced) :
    Prop :=
  wpM (traced (effects env.fmt)) (Thrifty id) Q p s w

theorem silent_again {α : Type} {p : StoreTask α} (h : ¬Sent w.2)
    (hp : UsesM (fun c : Call => c.registers = false) p) :
    Again env id (fun _ _ w => ¬Sent w.2) p s w :=
  silent_thrifty h (hp s)

/-- The load in front of the next run finds the device. -/
theorem again_load {disk : Disk} {Q : Except AetherError Identity → Store → Traced → Prop}
    {next : Loaded → StoreTask Identity}
    (h : ∀ loaded w, Filled site id loaded.store → ¬Sent w.2 →
      Again env id Q (next loaded) s w)
    (hsite : site.Apart) (hheld : Held env.fmt site id disk)
    (hown : ∀ identity, peek env.fmt disk site.path = some identity → identity.deviceId = id) :
    Again env id Q (do
      plain (ask .lock)
      let loaded ← plain (ask (.load site.storePath site.legacy))
      next loaded) s (.start disk) := by
  have hstart : ¬Sent (Traced.start disk).2 := fun ⟨e, hmem, _⟩ => by cases hmem
  refine wpM_ask_bind (thrifty_of_not_sent hstart) fun _ w₁ hlock => ?_
  have hdisk : w₁.1.disk = disk := effects_disk (c := .lock) rfl hlock.1
  have h₁ := not_sent_step hstart rfl hlock
  refine wpM_ask_bind (thrifty_of_not_sent h₁) fun loaded w₂ hload => ?_
  refine h loaded w₂ ?_ (not_sent_step h₁ rfl hload)
  obtain ⟨⟨o, hloaded, -, -⟩, -⟩ := hload
  obtain ⟨rfl, -⟩ := Prod.mk.inj hloaded
  rw [hdisk]
  exact load_filled hsite hheld hown o

theorem loadOrProvisionWarp_again (hsite : site.Apart) {disk : Disk}
    (hheld : Held env.fmt site id disk)
    (hown : ∀ identity, peek env.fmt disk site.path = some identity → identity.deviceId = id) :
    Again env id (fun _ _ _ => True) (loadOrProvisionWarp env site) s (.start disk) := by
  refine again_load (fun loaded w hfilled hsent => wpM_set_bind ?_) hsite hheld hown
  obtain ⟨device, husable⟩ := hfilled.takeUsable
  rw [husable]
  refine wpM_plain_bind (deviceEnrolledElsewhere_seen hsent) (fun _ _ _ _ => trivial) ?_
  rintro seen w₁ - hseen
  cases seen with
  | some other => exact overwritten_thrifty _ hseen
  | none =>
      refine wpM.post (silent_again hseen ?_) fun _ _ _ _ _ => trivial
      exact UsesM.bind (usesM_plain (silent_liftExcept _)) fun _ =>
        UsesM.bind (usesM_plain (silent_adoptTeamProfile _)) fun _ =>
          UsesM.bind (silent_record _) fun _ => usesM_pure _

theorem loadOrProvisionMasque_again (hsite : site.Apart) (hteam : env.team = false) {disk : Disk}
    (hheld : Held env.fmt site id disk)
    (hown : ∀ identity, peek env.fmt disk site.path = some identity → identity.deviceId = id) :
    Again env id (fun _ _ _ => True) (loadOrProvisionMasque env site) s (.start disk) := by
  refine again_load (fun loaded w hfilled hsent => wpM_set_bind ?_) hsite hheld hown
  obtain ⟨device, husable⟩ := hfilled.takeUsable
  rw [husable]
  exact wpM.post (resumeMasque_keeps hteam (fun _ hw => thrifty_of_not_sent hw)
    (fun _ _ _ _ hc hw heff => not_sent_step hw hc heff) hsent) fun _ _ _ _ _ => trivial

end Next

/-! ## Both loaders -/

inductive Loader
  | warp
  | masque
  deriving DecidableEq, Repr

namespace Loader

/-- The slots that a loader is called for. -/
def family : Loader → Family
  | .warp => .wireguard
  | .masque => .masque

def program (env : Env) (site : IdentitySite) : Loader → StoreTask Identity
  | .warp => loadOrProvisionWarp env site
  | .masque => loadOrProvisionMasque env site

end Loader

section Loader

variable {env : Env} {site : IdentitySite} {loader : Loader}

/-- **What holds wherever a run is cut off.** -/
theorem loader_sound (hteam : env.team = false) (hfmt : env.fmt.Apart) (hsite : site.Apart)
    (hslot : site.slot.family = loader.family) (disk : Disk) (s : Store) :
    Steps env site disk (fun _ _ _ => True) (loader.program env site) s (.start disk) := by
  cases loader with
  | warp => exact loadOrProvisionWarp_sound hteam hfmt hsite s
  | masque => exact loadOrProvisionMasque_sound hteam hfmt hsite hslot s

/-- **The next run.** -/
theorem loader_again (hteam : env.team = false) (hsite : site.Apart) {id : Text} {disk : Disk}
    (hheld : Held env.fmt site id disk)
    (hown : ∀ identity, peek env.fmt disk site.path = some identity → identity.deviceId = id)
    (s : Store) : Again env id (fun _ _ _ => True) (loader.program env site) s (.start disk) := by
  cases loader with
  | warp => exact loadOrProvisionWarp_again hsite hheld hown
  | masque => exact loadOrProvisionMasque_again hsite hteam hheld hown

/-- **A registration that was granted is not bought again**: in a run for a personal account that is
cut off anywhere, nothing was waited for between the answer and the save of the store, and from that
save on the next load finds the device, while no file of the slot names another. -/
theorem granted_once (hteam : env.team = false) (hfmt : env.fmt.Apart) (hsite : site.Apart)
    (hslot : site.slot.family = loader.family) {disk : Disk} {s : Store} {w : Traced}
    {q : Prog Calls (Except AetherError Identity × Store)}
    (hrun : Reaches (traced (effects env.fmt)) (Traced.start disk)
      ((loader.program env site).run.run s) w q) :
    (progress env site.storePath w.2).awaited = false ∧
      ∀ account awaited, progress env site.storePath w.2 = .saved account awaited →
        Fresh env.fmt site disk account.id → Complete env account →
        (∀ identity, peek env.fmt w.1.disk site.path = some identity →
          identity.deviceId = account.id) →
        (∀ o, ∃ device, (load env.fmt o site.storePath site.legacy w.1.disk).1.store.takeUsable
          site.slot = some (account.id, device)) ∧
        ∀ s' w' q', Reaches (traced (effects env.fmt)) (Traced.start w.1.disk)
          ((loader.program env site).run.run s') w' q' → Sent w'.2 → Overwritten account.id w'.2 := by
  -- the invariant of the whole run, at the point where it was cut off
  have hsound : Sound env site disk w :=
    wp.reaches (loader_sound hteam hfmt hsite hslot disk s) hrun
  refine ⟨?_, fun account awaited hsaved hfresh hcomplete hown => ?_⟩
  · unfold Sound at hsound
    -- by how far the registration had come
    cases hprogress : progress env site.storePath w.2 with
    | none => rfl
    | answered account awaited =>
        rw [hprogress] at hsound
        exact hsound
    | saved account awaited =>
        rw [hprogress] at hsound
        exact hsound.1
  -- saved: the next load finds the device, and a further run sends nothing for it
  · unfold Sound at hsound
    rw [hsaved] at hsound
    have hheld := hsound.2 hfresh hcomplete
    exact ⟨fun o => (load_filled hsite hheld hown o).takeUsable, fun s' w' q' hreach =>
      wp.reaches (loader_again hteam hsite hheld hown s') hreach⟩

end Loader

/-! ## A run that is granted an account -/

/-- An account as a registration is answered with. -/
def grantedAccount : AccountData where
  id := "dev-a".toList
  token := "token".toList
  peers := [(List.replicate 43 'A' ++ ['='], "162.159.192.1:0".toList)]

/-- Registrations are granted, and nothing else is answered. -/
def granting : Request → DirectTry
  | .register | .registerTeam => .answered { status := 200, retryAfter := none, body := [] }
  | .fetchDevice _ | .enrollKey _ => .notCompleted "connection reset"

def grantingEnv (fmt : Formats) (team : Bool) : Env where
  fmt := fmt
  json _ := .ok grantedAccount
  describe _ _ := "HTTP 500"
  team := team
  keepSavedIdentity := true

def emptyFormats : Formats where
  store := Codec.ofTable []
  identity := Codec.ofTable []
  base64 := Base64.zeros

def wireguardSite (storePath path : Text) : IdentitySite where
  slot := .wireguard
  path := path
  storePath := storePath
  legacy := [(.wireguard, path)]

/-- What the store holds once the granted account is on record. -/
def boughtStore : Store :=
  { devices := (∅ : Devices).insert "dev-a".toList
      { accessToken := "token".toList
        wgPrivateKey := List.replicate 43 'A' ++ ['=']
        wgPeerPublicKey := List.replicate 43 'A' ++ ['=']
        clientId := List.replicate 4 'A'
        assignedEndpoint := "162.159.192.1".toList
        registeredAt := 1000 }
    slots := fun slot => if slot = .wireguard then some "dev-a".toList else none
    registration := { lastAttemptAt := 1000 } }

def boughtFormats : Formats where
  store := Codec.ofTable [(boughtStore.toPersisted, ['b'])]
  identity := Codec.ofTable []
  base64 := Base64.zeros

theorem boughtFormats_apart : boughtFormats.Apart :=
  fun _ _ _ => ⟨_, rfl⟩

theorem wireguardSite_apart : (wireguardSite "store.toml".toList "warp.toml".toList).Apart where
  mem := by decide
  slots := by decide
  paths := by decide

/-- A personal account that was granted and saved, and no file of its slot yet. -/
theorem granted_once_saved :
    ∃ w : Traced, progress (grantingEnv boughtFormats false) "store.toml".toList w.2 = .saved grantedAccount false ∧
      (∀ o, ∃ device, (load boughtFormats o "store.toml".toList
        [(.wireguard, "warp.toml".toList)] w.1.disk).1.store.takeUsable
        .wireguard = some (grantedAccount.id, device)) ∧
      ∀ s' w' q', Reaches (traced (effects boughtFormats)) (Traced.start w.1.disk)
        ((Loader.warp.program (grantingEnv boughtFormats false)
          (wireguardSite "store.toml".toList "warp.toml".toList)).run.run s') w' q' →
        Sent w'.2 → Overwritten grantedAccount.id w'.2 := by
  -- the run is computed; what the theorem asks of it is read off its end
  have hrun := exec_runs (tracing_effects (surroundings_effects boughtFormats 1000 granting))
    ((Loader.warp.program (grantingEnv boughtFormats false)
      (wireguardSite "store.toml".toList "warp.toml".toList)).run.run {})
    (Traced.start fun _ => none)
  have hfresh : Fresh boughtFormats (wireguardSite "store.toml".toList "warp.toml".toList)
      (fun _ => none) grantedAccount.id := {
    named := by decide
    unknown := fun _ h => by cases h
    unseen := fun _ _ h => by cases h }
  have hcomplete : Complete (grantingEnv boughtFormats false) grantedAccount :=
    ⟨by decide, List.Vector.replicate 32 0, rfl⟩
  generalize hfinish : Prog.exec (tracing (surroundings boughtFormats 1000 granting))
    ((Loader.warp.program (grantingEnv boughtFormats false)
      (wireguardSite "store.toml".toList "warp.toml".toList)).run.run {})
    (Traced.start fun _ => none) = finish at hrun
  have hsaved : progress (grantingEnv boughtFormats false) "store.toml".toList finish.2.2 =
      .saved grantedAccount false := by
    rw [← hfinish]
    rfl
  have hown : finish.2.1.disk "warp.toml".toList = none := by
    rw [← hfinish]
    rfl
  have hgranted := (@granted_once (grantingEnv boughtFormats false)
    (wireguardSite "store.toml".toList "warp.toml".toList) .warp rfl
    boughtFormats_apart wireguardSite_apart rfl (fun _ => none) {} finish.2 _ hrun.reaches).2
  exact ⟨finish.2, hsaved, hgranted grantedAccount false hsaved hfresh hcomplete fun identity h => by
    cases (peek_absent hown).symm.trans h⟩

/-- For a team the profile is asked for while the granted account is on no file. -/
theorem team_awaits :
    ∃ w q, Reaches (traced (effects emptyFormats)) (Traced.start fun _ => none)
      ((Loader.warp.program (grantingEnv emptyFormats true)
        (wireguardSite "store.toml".toList "warp.toml".toList)).run.run {}) w q ∧
      progress (grantingEnv emptyFormats true) "store.toml".toList w.2 = .answered grantedAccount true := by
  have hrun := exec_runs (tracing_effects (surroundings_effects emptyFormats 1000 granting))
    ((Loader.warp.program (grantingEnv emptyFormats true)
      (wireguardSite "store.toml".toList "warp.toml".toList)).run.run {})
    (Traced.start fun _ => none)
  refine ⟨_, _, hrun.reaches, ?_⟩
  rfl

end Account
end AuroraVpn
