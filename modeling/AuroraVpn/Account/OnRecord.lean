import AuroraVpn.Account.Filled
import AuroraVpn.Account.Purchase

/-!
# OnRecord — from the answer of a registration to a device on record

The steps that a run for a personal account takes after `register` has answered: the identity is made,
the registration is counted, and the store is saved.  Once it was saved the device is on record, and
later saves keep it there.

* `record_first`, `record_again`: what `record` does before and after the device is on record.
* `provisionWithinBudget_sound`: an attempt at a registration.
-/

namespace AuroraVpn
namespace Account

open Program

/-! ## What is on record -/

/-- An account from which an identity can be made. -/
structure Complete (env : Env) (account : AccountData) : Prop where
  token : account.token ≠ []
  peer : ∃ key, extractWgPeer env account = .ok key

section Record

variable {env : Env} {site : IdentitySite} {id : Text} {s : Store} {disk : Disk}

theorem Held.update_store (hfmt : env.fmt.Apart) (hid : id ≠ [])
    (helsewhere : ∀ path, path ≠ site.path → ∀ identity, peek env.fmt disk path = some identity →
      identity.deviceId ≠ id)
    (hfilled : Filled site id s) {text : Text} (htext : s.toText env.fmt.store = .ok text) :
    Held env.fmt site id (Function.update disk site.storePath (some text)) where
  stored := by
    refine ⟨s.named, stored_update env.fmt site.storePath disk htext, ?_, fun slot hne h => ?_,
      hfilled.device⟩
    · simp [Store.named, hfilled.slot, hid]
    · exact hfilled.others slot hne (Option.filter_eq_some_iff.1 h).1
  elsewhere path hpath identity hpeek := by
    by_cases hstore : path = site.storePath
    · subst hstore
      rw [peek_store hfmt htext (Function.update_self _ _ _)] at hpeek
      cases hpeek
    · refine helsewhere path hpath identity ?_
      rw [← hpeek]
      exact peek_of_eq (Function.update_of_ne hstore _ _).symm

theorem Held.update_own (hsite : site.Apart) (h : Held env.fmt site id disk) (text : Text) :
    Held env.fmt site id (Function.update disk site.path (some text)) where
  stored := by
    obtain ⟨s, hstored, hfilled⟩ := h.stored
    refine ⟨s, ?_, hfilled⟩
    rw [← hstored]
    exact stored_of_eq (Function.update_of_ne hsite.own_ne_store.symm _ _)
  elsewhere path hpath identity hpeek := by
    refine h.elsewhere path hpath identity ?_
    rw [← hpeek]
    exact peek_of_eq (Function.update_of_ne hpath _ _).symm

/-- A device that is put on record in a slot fills it. -/
theorem filled_recorded {identity : Identity} {now : UInt64} (hid : identity.deviceId = id)
    (hothers : ∀ slot, slot ≠ site.slot → s.slots slot ≠ some id)
    (htrust : site.slot.family = .wireguard →
      (recordDevice env s identity now).wireguardIsTrustworthy = true) :
    Filled site id (recorded env s site.slot identity now) where
  slot := by
    subst hid
    simp [recorded, Store.setSlot_slots]
  others slot hne := by
    rw [recorded, Store.setSlot_slots, if_neg hne]
    exact hothers slot hne
  device := by
    subst hid
    exact ⟨recordDevice env s identity now, by simp [recorded], htrust⟩

theorem trustworthy_recordDevice_unknown {identity : Identity} {now : UInt64}
    (hunknown : s.device identity.deviceId = none) (hcert : identity.certPem = []) :
    (recordDevice env s identity now).wireguardIsTrustworthy = true := by
  simp [recordDevice, hunknown, Device.wireguardIsTrustworthy, deviceFrom,
    PersistedIdentity.ofIdentity, hcert]

theorem trustworthy_recordDevice_known {identity : Identity} {now : UInt64} {device : Device}
    (hknown : s.device identity.deviceId = some device)
    (htrust : device.wireguardIsTrustworthy = true) (hcert : identity.certPem = []) :
    (recordDevice env s identity now).wireguardIsTrustworthy = true := by
  simp only [Device.wireguardIsTrustworthy, decide_eq_true_eq] at htrust
  simp [recordDevice, hknown, Device.wireguardIsTrustworthy, deviceFrom,
    PersistedIdentity.ofIdentity, hcert, Device.hasCertificate, htrust.2.1, htrust.2.2]

end Record

/-! ## A run that buys -/

section Buy

variable (env : Env) (site : IdentitySite) (disk : Disk)

/-- What is to hold wherever a run is cut off that started with the files `disk`: nothing was waited
for between the answer and the save, and from the save on the device is on record. -/
def Sound (w : Traced) : Prop :=
  match progress env site.storePath w.2 with
  | .none => True
  | .answered _ awaited => awaited = false
  | .saved account awaited => awaited = false ∧
      (Fresh env.fmt site disk account.id → Complete env account →
        Held env.fmt site account.id w.1.disk)

/-- A registration was answered, and the files do not know its device yet. -/
structure InHand (account : AccountData) (s : Store) (w : Traced) : Prop where
  answered : progress env site.storePath w.2 = .answered account false
  unknown : Fresh env.fmt site disk account.id → Unknown account.id s
  unseen : Fresh env.fmt site disk account.id → ∀ path identity,
    peek env.fmt w.1.disk path = some identity → identity.deviceId ≠ account.id

/-- The store was saved after a registration. -/
structure OnRecord (account : AccountData) (s : Store) (w : Traced) : Prop where
  saved : progress env site.storePath w.2 = .saved account false
  held : Fresh env.fmt site disk account.id → Held env.fmt site account.id w.1.disk
  filled : Fresh env.fmt site disk account.id → Filled site account.id s

variable {env site disk} {account : AccountData} {s : Store} {w w' : Traced}

theorem Quiet.sound (h : Quiet env site.storePath w) : Sound env site disk w := by
  have hprogress : progress env site.storePath w.2 = .none := h
  simp [Sound, hprogress]

theorem sound_answered (h : progress env site.storePath w.2 = .answered account false) :
    Sound env site disk w := by
  simp [Sound, h]

theorem OnRecord.sound (h : OnRecord env site disk account s w) : Sound env site disk w := by
  simp only [Sound, h.saved, true_and]
  exact fun hfresh _ => h.held hfresh

theorem Asking.sound {d : Disk} (h : Asking env site.storePath d w) : Sound env site disk w := by
  rcases h.2 with hquiet | ⟨account, hanswered⟩
  · exact hquiet.sound
  · exact sound_answered hanswered

/-- What a call adds to the progress that is neither a registration nor a save. -/
theorem InHand.step {c : Call} {x : c.Answer} (h : InHand env site disk account s w)
    (hregisters : c.registers = false) (hwrites : c.writes = false) (hawait : c.isAwait = false)
    (heff : traced (effects env.fmt) c w x w') : InHand env site disk account s w' := by
  have hdisk := effects_disk hwrites heff.1
  refine ⟨?_, h.unknown, fun hfresh path identity hpeek => ?_⟩
  · rw [heff.2, progress_concat, h.answered]
    refine after_answered (granted_of_not_registers hregisters) ?_ hawait
    cases c with
    | writePrivate => cases hwrites
    | _ => rfl
  · rw [hdisk] at hpeek
    exact h.unseen hfresh path identity hpeek

theorem OnRecord.step {c : Call} {x : c.Answer} (h : OnRecord env site disk account s w)
    (hregisters : c.registers = false) (hwrites : c.writes = false)
    (heff : traced (effects env.fmt) c w x w') : OnRecord env site disk account s w' := by
  refine ⟨?_, fun hfresh => ?_, h.filled⟩
  · rw [heff.2, progress_concat, h.saved]
    exact after_saved (granted_of_not_registers hregisters)
  · rw [effects_disk hwrites heff.1]
    exact h.held hfresh

/-- **The first save after the answer puts the device on record.** -/
theorem InHand.save (hfmt : env.fmt.Apart) {s' : Store} {text : Text}
    {r : Except AetherError Unit} (h : InHand env site disk account s w)
    (hfilled : Fresh env.fmt site disk account.id → Filled site account.id s')
    (htext : s'.toText env.fmt.store = .ok text) (hwrote : Wrote site.storePath text w r w') :
    (r = .ok () ∧ OnRecord env site disk account s' w') ∨
      (∃ e, r = .error e) ∧ progress env site.storePath w'.2 = .answered account false := by
  cases r with
  | ok _ =>
      left
      refine ⟨rfl, ?_, fun hfresh => ?_, hfilled⟩
      · rw [hwrote.trace, progress_concat, h.answered]
        simp [Purchase.after, granted, savesStore]
      -- the new text is in place; the other outcome of a write is an error
      · rcases hwrote.disk with hdisk | ⟨-, e, he⟩
        · rw [hdisk]
          exact .update_store hfmt hfresh.named (fun path _ => h.unseen hfresh path)
            (hfilled hfresh) htext
        · cases he
  | error e =>
      right
      refine ⟨⟨e, rfl⟩, ?_⟩
      rw [hwrote.trace, progress_concat, h.answered]
      exact after_answered rfl rfl rfl

/-- A later save keeps the device on record, and so does one that fails. -/
theorem OnRecord.save (hfmt : env.fmt.Apart) {s' : Store} {text : Text}
    {r : Except AetherError Unit} (h : OnRecord env site disk account s w)
    (hfilled : Fresh env.fmt site disk account.id → Filled site account.id s')
    (htext : s'.toText env.fmt.store = .ok text) (hwrote : Wrote site.storePath text w r w') :
    OnRecord env site disk account s' w' := by
  refine ⟨?_, fun hfresh => ?_, hfilled⟩
  · rw [hwrote.trace, progress_concat, h.saved]
    exact after_saved rfl
  · rcases hwrote.disk with hdisk | ⟨hdisk, -⟩
    · rw [hdisk]
      exact .update_store hfmt hfresh.named (h.held hfresh).elsewhere (hfilled hfresh) htext
    · rw [hdisk]
      exact h.held hfresh

theorem OnRecord.saveFile (hsite : site.Apart) {text : Text} {r : Except AetherError Unit}
    (h : OnRecord env site disk account s w) (hwrote : Wrote site.path text w r w') :
    OnRecord env site disk account s w' := by
  refine ⟨?_, fun hfresh => ?_, h.filled⟩
  · rw [hwrote.trace, progress_concat, h.saved]
    exact after_saved rfl
  · rcases hwrote.disk with hdisk | ⟨hdisk, -⟩
    · rw [hdisk]
      exact (h.held hfresh).update_own hsite text
    · rw [hdisk]
      exact h.held hfresh

theorem OnRecord.value {s' : Store} (h : OnRecord env site disk account s w)
    (hfilled : Fresh env.fmt site disk account.id → Filled site account.id s') :
    OnRecord env site disk account s' w :=
  ⟨h.saved, h.held, hfilled⟩

/-! ### The steps of a run -/

/-- The crash condition and the effects of a run. -/
abbrev Steps (env : Env) (site : IdentitySite) (disk : Disk) {α : Type}
    (Q : Except AetherError α → Store → Traced → Prop) (p : StoreTask α) (s : Store) (w : Traced) :
    Prop :=
  wpM (traced (effects env.fmt)) (Sound env site disk) Q p s w

/-- **`record` after an answer puts the device on record.** -/
theorem record_first (hfmt : env.fmt.Apart) (hsite : site.Apart) {identity : Identity}
    (hid : identity.deviceId = account.id) (hcert : identity.certPem = [])
    (h : InHand env site disk account s w) :
    Steps env site disk (fun r s w => r = .ok () → OnRecord env site disk account s w)
      (record env site identity) s w := by
  refine wpM_ask_bind (sound_answered h.answered) fun now w₁ heff => ?_
  have h₁ := h.step rfl rfl rfl heff
  refine wpM_modify_bind ?_
  -- nobody has the new account yet, so the slots that it fills are its own
  have hfilled : Fresh env.fmt site disk account.id →
      Filled site account.id (recorded env s site.slot identity now) := by
    intro hfresh
    have hunknown := h.unknown hfresh
    refine filled_recorded hid (fun slot _ => hunknown.slots slot) fun _ => ?_
    exact trustworthy_recordDevice_unknown (by rw [hid]; exact hunknown.device) hcert
  refine wpM_get_bind (wpM_plain_bind (R := fun r w => r = .ok () →
    OnRecord env site disk account (recorded env s site.slot identity now) w)
    (wp_saveStore (sound_answered h₁.answered) (fun e h => by cases h) ?_) (fun e w _ _ h => by cases h) ?_)
  -- the store is saved first; where that fails, the account is still only answered
  · intro text r w₂ htext hwrote
    rcases h₁.save hfmt hfilled htext hwrote with ⟨-, honrecord⟩ | ⟨⟨e, rfl⟩, hanswered⟩
    · exact ⟨honrecord.sound, fun _ => honrecord⟩
    · exact ⟨sound_answered hanswered, fun h => by cases h⟩
  · intro _ w₂ _ honrecord
    -- the file of the slot comes second, and cannot take the record away
    refine wpM_plain (wp_saveFile (honrecord rfl).sound (fun e h => by cases h) ?_)
    intro text r w₃ _ hwrote
    have h₃ := (honrecord rfl).saveFile hsite hwrote
    exact ⟨h₃.sound, fun _ => h₃⟩

/-- **`record` keeps a device on record.** -/
theorem record_again (hfmt : env.fmt.Apart) (hsite : site.Apart) {identity : Identity}
    (hid : identity.deviceId = account.id)
    (hcert : site.slot.family = .wireguard → identity.certPem = [])
    (h : OnRecord env site disk account s w) :
    Steps env site disk (fun r s w => r = .ok () → OnRecord env site disk account s w)
      (record env site identity) s w := by
  refine wpM_ask_bind h.sound fun now w₁ heff => ?_
  have h₁ := h.step rfl rfl heff
  refine wpM_modify_bind ?_
  have hfilled : Fresh env.fmt site disk account.id →
      Filled site account.id (recorded env s site.slot identity now) := by
    intro hfresh
    obtain ⟨device, hdevice, htrust⟩ := (h.filled hfresh).device
    refine filled_recorded hid (h.filled hfresh).others fun hfamily => ?_
    exact trustworthy_recordDevice_known (by rw [hid]; exact hdevice) (htrust hfamily) (hcert hfamily)
  refine wpM_get_bind (wpM_plain_bind (R := fun _ w =>
    OnRecord env site disk account (recorded env s site.slot identity now) w)
    (wp_saveStore h₁.sound (fun _ => h₁.value hfilled) ?_) (fun e w _ _ h => by cases h) ?_)
  · intro text r w₂ htext hwrote
    have h₂ := h₁.save hfmt hfilled htext hwrote
    exact ⟨h₂.sound, h₂⟩
  · intro _ w₂ _ h₂
    refine wpM_plain (wp_saveFile h₂.sound (fun e h => by cases h) ?_)
    intro text r w₃ _ hwrote
    have h₃ := h₂.saveFile hsite hwrote
    exact ⟨h₃.sound, fun _ => h₃⟩

theorem finishProvision_ok {identity : Identity} {wgPrivate : List.Vector UInt8 32}
    (h : finishProvision env account wgPrivate = .ok identity) :
    identity.deviceId = account.id ∧ identity.certPem = [] := by
  unfold finishProvision at h
  by_cases htoken : account.token = []
  · rw [if_pos htoken] at h
    cases h
  · rw [if_neg htoken] at h
    cases hpeer : extractWgPeer env account with
    | error e =>
        simp only [hpeer] at h
        cases h
    | ok peer =>
        simp only [hpeer] at h
        cases h
        exact ⟨rfl, rfl⟩

theorem finishProvision_error {e : AetherError} {wgPrivate : List.Vector UInt8 32}
    (h : finishProvision env account wgPrivate = .error e) : ¬Complete env account := by
  rintro ⟨htoken, peer, hpeer⟩
  unfold finishProvision at h
  rw [if_neg htoken, hpeer] at h
  cases h

/-- What a registration of a personal account comes to. -/
def Provisioned (env : Env) (site : IdentitySite) (disk : Disk) :
    Except AetherError Identity → Traced → Prop
  | .ok identity, w => w.1.disk = disk ∧ ∃ account, identity.deviceId = account.id ∧
      identity.certPem = [] ∧ progress env site.storePath w.2 = .answered account false
  | .error _, w => Quiet env site.storePath w ∨
      ∃ account, ¬Complete env account ∧ progress env site.storePath w.2 = .answered account false

theorem provisionAccount_personal {d : Disk} (hteam : env.team = false)
    (h : Unanswered env site.storePath d w) :
    wp (traced (effects env.fmt)) (Sound env site disk) (Provisioned env site d)
      (provisionAccount env).run w := by
  have hpersonal : provisionAccount env = provisionWg env := by
    simp [provisionAccount, hteam]
  rw [hpersonal]
  refine wp_ask_bind h.asking.sound fun wgPrivate w₁ heff => ?_
  have h₁ := h.step rfl rfl heff
  refine wp_bind_except ((register_purchase rfl _ h₁).mono (fun _ hw => hw.sound) fun _ _ _ hr => hr)
    (fun e w₂ _ h₂ => .inl h₂.2) ?_
  rintro account w₂ hsound ⟨hdisk, hanswered⟩
  refine wp_result hsound ?_
  cases hfinish : finishProvision env account wgPrivate with
  | ok identity =>
      obtain ⟨hid, hcert⟩ := finishProvision_ok hfinish
      exact ⟨hdisk, account, hid, hcert, hanswered⟩
  | error e => exact .inr ⟨account, finishProvision_error hfinish, hanswered⟩

/-- The store is saved after a registration that brought no identity. -/
theorem failed_save {s : Store}
    (h : Quiet env site.storePath w ∨
      ∃ account, ¬Complete env account ∧ progress env site.storePath w.2 = .answered account false) :
    wp (traced (effects env.fmt)) (Sound env site disk) (fun _ _ => True)
      (saveStore env site.storePath s).run w := by
  have hsound : Sound env site disk w := by
    rcases h with hquiet | ⟨account, -, hanswered⟩
    · exact hquiet.sound
    · exact sound_answered hanswered
  refine wp_saveStore hsound (fun _ => trivial) fun text r w' _ hwrote => ⟨?_, trivial⟩
  rcases h with hquiet | ⟨account, hincomplete, hanswered⟩
  · have hprogress : progress env site.storePath w.2 = .none := hquiet
    have hquiet' : Quiet env site.storePath w' := by
      unfold Quiet
      rw [hwrote.trace, progress_concat, hprogress]
      exact after_none rfl
    exact hquiet'.sound
  · cases r with
    | error e =>
        have hanswered' : progress env site.storePath w'.2 = .answered account false := by
          rw [hwrote.trace, progress_concat, hanswered]
          exact after_answered rfl rfl rfl
        exact sound_answered hanswered'
    | ok _ =>
        -- the account was of no use, so nothing is promised of its device
        have hsaved : progress env site.storePath w'.2 = .saved account false := by
          rw [hwrote.trace, progress_concat, hanswered]
          simp [Purchase.after, granted, savesStore]
        simp only [Sound, hsaved, true_and]
        exact fun _ hcomplete => absurd hcomplete hincomplete

/-- **An attempt at a registration.** -/
theorem provisionWithinBudget_sound (hteam : env.team = false) {d : Disk}
    (h : Unanswered env site.storePath d w) :
    Steps env site disk (fun r s' w => ∀ identity, r = .ok identity → w.1.disk = d ∧
        s'.devices = s.devices ∧ s'.slots = s.slots ∧ ∃ account, identity.deviceId = account.id ∧
          identity.certPem = [] ∧ progress env site.storePath w.2 = .answered account false)
      (provisionWithinBudget env site) s w := by
  refine wpM_ask_bind h.asking.sound fun now w₁ heff => ?_
  have h₁ := h.step rfl rfl heff
  refine wpM_get_bind ?_
  -- the budget may hold the attempt back
  cases hmay : s.registration.mayAttempt now with
  | error wait => exact wpM_throw h₁.asking.sound fun identity he => by cases he
  | ok _ =>
      -- what the catch needs: the disk while nothing was sent, and the account that was answered
      refine wpM_tryCatch (R := fun r s' w =>
          (∀ identity, r = .ok identity → w.1.disk = d ∧ s'.devices = s.devices ∧ s'.slots = s.slots ∧
            ∃ account, identity.deviceId = account.id ∧ identity.certPem = [] ∧
              progress env site.storePath w.2 = .answered account false) ∧
          (∀ e, r = .error e → Quiet env site.storePath w ∨ ∃ account, ¬Complete env account ∧
            progress env site.storePath w.2 = .answered account false)) ?_ ?_ ?_
      · refine wpM_plain_bind (provisionAccount_personal hteam h₁) (fun e w _ he => ⟨nofun, fun _ _ => he⟩) ?_
        rintro identity w₂ - ⟨hdisk, account, hid, hcert, hanswered⟩
        -- granted: what follows only reads the clock and the budget
        refine wpM_ask_bind (sound_answered hanswered) fun later w₃ heff => ?_
        have hanswered₃ : progress env site.storePath w₃.2 = .answered account false := by
          rw [heff.2, progress_concat, hanswered]
          exact after_answered rfl rfl rfl
        have hdisk₃ : w₃.1.disk = d := (effects_disk (c := .now) rfl heff.1).trans hdisk
        refine wpM_modify_bind (wpM_ok (sound_answered hanswered₃) ⟨fun _ he => ?_, nofun⟩)
        cases he
        exact ⟨hdisk₃, rfl, rfl, account, hid, hcert, hanswered₃⟩
      · exact fun identity s' w₂ _ hr => hr.1
      -- failed: the failure is recorded, and what is saved then says nothing of an account
      · rintro e s' w₂ hsound hr
        refine wpM_ask_bind hsound fun later w₃ heff => ?_
        have hr₃ : Quiet env site.storePath w₃ ∨ ∃ account, ¬Complete env account ∧
            progress env site.storePath w₃.2 = .answered account false := by
          rcases hr.2 e rfl with hquiet | ⟨account, hincomplete, hanswered⟩
          · exact .inl (hquiet.step rfl heff)
          · refine .inr ⟨account, hincomplete, ?_⟩
            rw [heff.2, progress_concat, hanswered]
            exact after_answered rfl rfl rfl
        refine wpM_modify_bind (wpM_get_bind (wpM_bind (R := fun _ _ _ => True) ?_
          (fun e s w _ _ identity he => by cases he) ?_))
        · exact wpM_tryCatch (R := fun _ _ _ => True) (wpM_plain (failed_save hr₃))
            (fun _ _ _ _ _ => trivial) fun _ _ _ hJ _ => wpM_ok hJ trivial
        · exact fun _ s w hJ _ => wpM_throw hJ fun identity he => by cases he

end Buy

end Account
end AuroraVpn
