import AuroraVpn.Account.Durable
import AuroraVpn.Account.Slots

/-!
# Filled — a device that is on record in a slot

A registration is on record once the store on disk names its device in the slot.  It stays on record
unless the file of the slot names another device, which the next load would believe.

* `load_filled`: the next load finds a device that is on record.
* `load_unknown`, `load_peek`: a device that nothing names stays unknown through a load.
-/

namespace AuroraVpn
namespace Account

/-- The text of a store does not read as an identity, whose fields it does not have. -/
def Formats.Apart (fmt : Formats) : Prop :=
  ∀ persisted text, fmt.store.encode persisted = .ok text → ∃ e, fmt.identity.decode text = .error e

/-- A slot names a device that may be dialled with, and no other slot does. -/
structure Filled (site : IdentitySite) (id : Text) (s : Store) : Prop where
  slot : s.slots site.slot = some id
  others : ∀ slot, slot ≠ site.slot → s.slots slot ≠ some id
  device : ∃ device, s.device id = some device ∧
    (site.slot.family = .wireguard → device.wireguardIsTrustworthy = true)

/-- A device is on record: in the store on disk, and in no file but the slot's own. -/
structure Held (fmt : Formats) (site : IdentitySite) (id : Text) (disk : Disk) : Prop where
  stored : ∃ s, stored fmt disk site.storePath = some s ∧ Filled site id s
  elsewhere : ∀ path, path ≠ site.path → ∀ identity, peek fmt disk path = some identity →
    identity.deviceId ≠ id

/-- An id that nothing on disk names. -/
structure Fresh (fmt : Formats) (site : IdentitySite) (disk : Disk) (id : Text) : Prop where
  named : id ≠ []
  unknown : ∀ s, stored fmt disk site.storePath = some s → s.device id = none
  unseen : ∀ path identity, peek fmt disk path = some identity → identity.deviceId ≠ id

/-- A device that a store does not know. -/
structure Unknown (id : Text) (s : Store) : Prop where
  device : s.device id = none
  slots : ∀ slot, s.slots slot ≠ some id

/-! ## Loads of a device that is on record -/

section Filled

variable {fmt : Formats} {site : IdentitySite} {id : Text} {s : Store}

theorem Filled.reconcileFile {st : Store × List Slot} {file : Shown} (base64 : Base64)
    (h : Filled site id st.1) (hown : file.1 = site.slot → file.2.deviceId = id)
    (hother : file.1 ≠ site.slot → file.2.deviceId ≠ id) :
    Filled site id (Account.reconcileFile base64 st file).1 := by
  by_cases hslot : file.1 = site.slot
  · -- the slot's own file names the device that the slot already holds
    have hsame : Account.reconcileFile base64 st file = st := by
      simp [Account.reconcileFile, hslot, hown hslot, h.slot]
    rw [hsame]
    exact h
  · have hid := hother hslot
    refine ⟨?_, fun slot hne => ?_, ?_⟩
    · rw [reconcileFile_slots, if_neg (Ne.symm hslot)]
      exact h.slot
    · rw [reconcileFile_slots]
      split_ifs
      · simpa using hid
      · exact h.others slot hne
    -- the file of another device does not touch the one in the slot
    · obtain ⟨device, hdevice, htrust⟩ := h.device
      refine ⟨device, ?_, htrust⟩
      unfold Account.reconcileFile
      dsimp only
      split_ifs
      · exact hdevice
      · simp [Ne.symm hid, hdevice]

theorem Filled.reconcile {files : List Shown} (base64 : Base64) {st : Store × List Slot}
    (h : Filled site id st.1) (hfiles : ∀ file ∈ files,
      (file.1 = site.slot → file.2.deviceId = id) ∧ (file.1 ≠ site.slot → file.2.deviceId ≠ id)) :
    Filled site id (files.foldl (Account.reconcileFile base64) st).1 := by
  induction files generalizing st with
  | nil => exact h
  | cons file files ih =>
      obtain ⟨hown, hother⟩ := hfiles file List.mem_cons_self
      exact ih (h.reconcileFile base64 hown hother) fun f hf => hfiles f (List.mem_cons_of_mem _ hf)

theorem Filled.repair (h : Filled site id s) : Filled site id s.repair.1 := by
  obtain ⟨device, hdevice, htrust⟩ := h.device
  refine ⟨?_, fun slot hne hid => ?_, device, by simpa using hdevice, htrust⟩
  · rw [Store.repair_slots, Store.settled_eq_some]
    refine ⟨h.slot, device, hdevice, ?_⟩
    -- a WireGuard slot has a trustworthy device, and no WireGuard slot has that of a MASQUE slot
    cases hfamily : site.slot.family with
    | wireguard =>
        have htunnel : device.tunnelType = .wireguard := by
          have := htrust hfamily
          simp only [Device.wireguardIsTrustworthy, decide_eq_true_eq] at this
          exact this.1
        exact htunnel
    | masque =>
        cases device.tunnelType with
        | masque => exact trivial
        | wireguard =>
            have hne : ∀ slot, slot.family = .wireguard → s.slots slot ≠ some id := by
              intro slot hslot
              refine h.others slot fun heq => ?_
              rw [heq, hfamily] at hslot
              cases hslot
            exact ⟨hne _ rfl, hne _ rfl⟩
  · rw [Store.repair_slots, Store.settled_eq_some] at hid
    exact h.others slot hne hid.1

/-- **The next load finds a device that is on record**, whatever becomes of its own write. -/
theorem load_filled (hsite : site.Apart) {disk : Disk} (h : Held fmt site id disk)
    (hown : ∀ identity, peek fmt disk site.path = some identity → identity.deviceId = id)
    (o : LoadOutcome) : Filled site id (load fmt o site.storePath site.legacy disk).1.store := by
  obtain ⟨s, hstored, hfilled⟩ := h.stored
  rw [load_store, hstored, setAside_of_stored fmt o site.storePath disk hstored]
  refine Filled.repair (Filled.reconcile fmt.base64 hfilled fun file hmem => ?_)
  obtain ⟨⟨slot, path⟩, hlegacy, hpeek⟩ := List.mem_filterMap.1 hmem
  obtain ⟨identity, hidentity, rfl⟩ := Option.map_eq_some_iff.1 hpeek
  constructor
  · rintro rfl
    rw [hsite.path_of_slot hlegacy] at hidentity
    exact hown identity hidentity
  · intro hslot
    refine h.elsewhere path (fun heq => hslot ?_) identity hidentity
    rw [heq] at hlegacy
    exact hsite.slot_of_path hlegacy

end Filled

/-! ## Loads of a device that nothing names -/

section Unknown

variable {fmt : Formats} {id : Text} {s : Store} {storePath : Text} {disk : Disk}

theorem Unknown.repair (h : s.device id = none) : Unknown id s.repair.1 where
  device := by simpa using h
  slots slot hid := by
    rw [Store.repair_slots, Store.settled_eq_some] at hid
    obtain ⟨-, device, hdevice, -⟩ := hid
    cases h.symm.trans hdevice

theorem reconcile_unknown (base64 : Base64) {files : List Shown} {st : Store × List Slot}
    (h : st.1.device id = none) (hfiles : ∀ file ∈ files, file.2.deviceId ≠ id) :
    (files.foldl (reconcileFile base64) st).1.device id = none := by
  induction files generalizing st with
  | nil => exact h
  | cons file files ih =>
      refine ih ?_ fun f hf => hfiles f (List.mem_cons_of_mem _ hf)
      have hne : id ≠ file.2.deviceId := (hfiles file List.mem_cons_self).symm
      unfold reconcileFile
      dsimp only
      split_ifs
      · exact h
      · simp [hne, h]

theorem migrate_unknown (base64 : Base64) {files : List Shown} {s : Store}
    (h : s.device id = none) (hfiles : ∀ file ∈ files, file.2.deviceId ≠ id) :
    (files.foldl (migrateFile base64) s).device id = none := by
  induction files generalizing s with
  | nil => exact h
  | cons file files ih =>
      refine ih ?_ fun f hf => hfiles f (List.mem_cons_of_mem _ hf)
      have hne : id ≠ file.2.deviceId := (hfiles file List.mem_cons_self).symm
      simp [migrateFile, hne, h]

theorem peek_of_eq {disk disk' : Disk} {path path' : Text} (h : disk' path' = disk path) :
    peek fmt disk' path' = peek fmt disk path := by
  simp [peek, h]

theorem stored_of_eq {disk disk' : Disk} {path : Text} (h : disk' path = disk path) :
    stored fmt disk' path = stored fmt disk path := by
  simp [stored, h]

theorem peek_absent {disk : Disk} {path : Text} (h : disk path = none) :
    peek fmt disk path = none := by
  simp [peek, h]

theorem peek_store (hfmt : fmt.Apart) {s : Store} {text path : Text} {disk : Disk}
    (htext : s.toText fmt.store = .ok text) (hon : disk path = some text) :
    peek fmt disk path = none := by
  obtain ⟨e, he⟩ := hfmt _ _ ((Store.toText_eq_ok _).1 htext)
  simp [peek, hon, he, Except.toOption]

theorem setAside_peek (o : LoadOutcome) {path : Text} {identity : Identity}
    (h : peek fmt (setAside fmt o storePath disk) path = some identity) :
    ∃ path', peek fmt disk path' = some identity := by
  unfold setAside at h
  cases htext : disk storePath with
  | none =>
      rw [htext] at h
      exact ⟨path, h⟩
  | some text =>
      rw [htext] at h
      dsimp only at h
      cases hparse : Store.parse fmt.store text with
      | ok s =>
          simp only [hparse] at h
          exact ⟨path, h⟩
      | error e =>
          simp only [hparse] at h
          split_ifs at h
          · by_cases hstore : path = storePath
            · rw [hstore, peek_absent (Function.update_self _ _ _)] at h
              cases h
            by_cases hcorrupt : path = storePath ++ ".corrupt".toList
            -- what was moved away is what was there
            · -- what was moved away is what was there
              refine ⟨storePath, (peek_of_eq ?_).symm.trans h⟩
              rw [Function.update_of_ne hstore, hcorrupt, Function.update_self, htext]
            · refine ⟨path, (peek_of_eq ?_).symm.trans h⟩
              rw [Function.update_of_ne hstore, Function.update_of_ne hcorrupt]
          · exact ⟨path, h⟩

theorem writeBack_of_ne (o : LoadOutcome) {path : Text} (hne : path ≠ storePath) :
    writeBack fmt o storePath s disk path = disk path := by
  have hsave : (save fmt o.write storePath s disk).2 path = disk path := by
    rcases save_cases fmt storePath s disk o.write with ⟨text, -, hdisk⟩ | hdisk
    · rw [hdisk, Function.update_of_ne hne]
    · rw [hdisk]
  unfold writeBack
  dsimp only
  split_ifs
  · exact hsave
  · rw [Function.update_of_ne hne]
    exact hsave
  · exact hsave

theorem writeBack_peek (hfmt : fmt.Apart) (o : LoadOutcome) {path : Text} {identity : Identity}
    (h : peek fmt (writeBack fmt o storePath s disk) path = some identity) :
    peek fmt disk path = some identity := by
  by_cases hpath : path = storePath
  · subst hpath
    rcases writeBack_cases fmt o path s disk with ⟨text, htext, -, hdisk⟩ | ⟨-, hdisk⟩ | ⟨-, -, hgone⟩
    · rw [hdisk, peek_store hfmt htext (Function.update_self _ _ _)] at h
      cases h
    · rw [← hdisk]
      exact h
    · rw [peek_absent hgone] at h
      cases h
  · rw [← h, peek_of_eq (writeBack_of_ne o hpath)]

/-- **A load shows no identity that was not there.** -/
theorem load_peek (hfmt : fmt.Apart) (o : LoadOutcome) {legacy : List (Slot × Text)} {path : Text}
    {identity : Identity}
    (h : peek fmt (load fmt o storePath legacy disk).2 path = some identity) :
    ∃ path', peek fmt disk path' = some identity := by
  unfold load at h
  dsimp only at h
  split_ifs at h
  · exact setAside_peek o (writeBack_peek hfmt o h)
  · exact setAside_peek o h

/-- **A load knows no device that nothing names.** -/
theorem load_unknown {site : IdentitySite} (h : Fresh fmt site disk id) (o : LoadOutcome) :
    Unknown id (load fmt o site.storePath site.legacy disk).1.store := by
  have hfiles : ∀ file ∈ peekAll fmt (setAside fmt o site.storePath disk) site.legacy,
      file.2.deviceId ≠ id := by
    intro file hmem
    obtain ⟨⟨slot, path⟩, -, hpeek⟩ := List.mem_filterMap.1 hmem
    obtain ⟨identity, hidentity, rfl⟩ := Option.map_eq_some_iff.1 hpeek
    obtain ⟨path', hpath'⟩ := setAside_peek o hidentity
    exact h.unseen path' identity hpath'
  rw [load_store]
  cases hstored : stored fmt disk site.storePath with
  | none => exact .repair (migrate_unknown fmt.base64 rfl hfiles)
  | some s => exact .repair (reconcile_unknown fmt.base64 (h.unknown s hstored) hfiles)

end Unknown

end Account
end AuroraVpn
