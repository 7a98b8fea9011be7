import AuroraVpn.Account.Revoked

/-!
# Durable — what a load does to a store that could be read

A load that has something to write replaces the store by its repaired version.  When that fails the
file is taken away, whether it was just migrated or held the devices of the install before.

* `reconcile_kept`, `repair_kept`: reading the files and repairing keep the records and the
  registration waits.
* `load_survives_iff`: the store is still there after a load exactly when there was nothing to
  write, or writing it went well, or the file could not be taken away.
-/

namespace AuroraVpn
namespace Account

open Fallible

/-! ## What is kept -/

/-- `s'` holds every record of `s`, of which it may only know that the device was enrolled, and what
`s` knew of registrations. -/
structure Kept (s s' : Store) : Prop where
  registration : s'.registration = s.registration
  device : ∀ id device, s.device id = some device →
    s'.device id = some device ∨ s'.device id = some { device with tunnelType := .masque }

theorem Kept.refl (s : Store) : Kept s s where
  registration := rfl
  device _ _ h := .inl h

theorem Kept.trans {s s' s'' : Store} (h : Kept s s') (h' : Kept s' s'') : Kept s s'' where
  registration := h'.registration.trans h.registration
  device id device hdevice := by
    rcases h.device id device hdevice with hsame | hmarked
    · exact h'.device id device hsame
    · rcases h'.device id _ hmarked with hsame | hagain
      · exact .inr hsame
      · exact .inr hagain

theorem kept_of_devices {s s' : Store} (hdevices : s'.devices = s.devices)
    (hregistration : s'.registration = s.registration) : Kept s s' where
  registration := hregistration
  device id device h := by
    left
    rw [Store.device, hdevices]
    exact h

theorem reconcileFile_kept (base64 : Base64) (st : Store × List Slot) (file : Shown) :
    Kept st.1 (reconcileFile base64 st file).1 := by
  unfold reconcileFile
  dsimp only
  split_ifs
  · exact .refl _
  · refine ⟨rfl, fun id device hdevice => ?_⟩
    by_cases hid : id = file.2.deviceId
    · subst hid
      by_cases hcert : file.2.certPem = [] <;> simp [hdevice, adoptCopy, hcert]
    · simp [hid, hdevice]

/-- **A reconciliation keeps the records.** -/
theorem reconcile_kept (base64 : Base64) (files : List Shown) (st : Store × List Slot) :
    Kept st.1 (files.foldl (reconcileFile base64) st).1 := by
  induction files generalizing st with
  | nil => exact .refl _
  | cons file files ih => exact (reconcileFile_kept base64 st file).trans (ih _)

theorem repair_kept (s : Store) : Kept s s.repair.1 :=
  kept_of_devices (by simp) (by simp)

theorem named_kept (s : Store) : Kept s s.named :=
  kept_of_devices rfl rfl

/-! ## When there is something to write -/

/-- The files name the devices that their slots hold, and the slots need no repair. -/
structure InOrder (s : Store) (files : List Shown) : Prop where
  agrees : ∀ file ∈ files, s.slots file.1 = some file.2.deviceId
  settled : ∀ slot, s.settled slot = s.slots slot

section Reconcile

variable (base64 : Base64) (s : Store) (files : List Shown)

theorem reconcileFile_adopted (st : Store × List Slot) (file : Shown) :
    reconcileFile base64 st file = st ∧ st.1.slots file.1 = some file.2.deviceId ∨
      (reconcileFile base64 st file).2 = st.2 ++ [file.1] ∧
        st.1.slots file.1 ≠ some file.2.deviceId := by
  unfold reconcileFile
  dsimp only
  split_ifs with hheld
  · exact .inl ⟨rfl, hheld⟩
  · exact .inr ⟨rfl, hheld⟩

/-- Adoptions are only ever added. -/
theorem reconcile_adopted_length (st : Store × List Slot) :
    st.2.length ≤ (files.foldl (reconcileFile base64) st).2.length := by
  induction files generalizing st with
  | nil => exact le_refl _
  | cons file files ih =>
      refine le_trans ?_ (ih _)
      rcases reconcileFile_adopted base64 st file with ⟨heq, -⟩ | ⟨heq, -⟩
      · rw [heq]
      · simp [heq]

/-- **Nothing is adopted exactly when the files agree with the store**, and then nothing changes. -/
theorem reconcile_agrees (adopted : List Slot) :
    (files.foldl (reconcileFile base64) (s, adopted)).2 = adopted ↔
      ∀ file ∈ files, s.slots file.1 = some file.2.deviceId := by
  induction files with
  | nil => simp
  | cons file files ih =>
      rw [List.foldl_cons, List.forall_mem_cons]
      rcases reconcileFile_adopted base64 (s, adopted) file with ⟨heq, hheld⟩ | ⟨heq, hother⟩
      · rw [heq, ih]
        exact ⟨fun h => ⟨hheld, h⟩, fun h => h.2⟩
      · constructor
        · intro h
          have hlength := reconcile_adopted_length base64 files (reconcileFile base64 (s, adopted) file)
          rw [h, heq, List.length_append, List.length_singleton] at hlength
          exact absurd hlength (Nat.not_succ_le_self _)
        · intro h
          exact absurd h.1 hother

theorem reconcile_eq_self (adopted : List Slot)
    (h : ∀ file ∈ files, s.slots file.1 = some file.2.deviceId) :
    files.foldl (reconcileFile base64) (s, adopted) = (s, adopted) := by
  induction files with
  | nil => rfl
  | cons file files ih =>
      have hfile : reconcileFile base64 (s, adopted) file = (s, adopted) := by
        simp [reconcileFile, h file (by simp)]
      rw [List.foldl_cons, hfile]
      exact ih fun file hmem => h file (by simp [hmem])

end Reconcile

/-! ## Writing and reading back -/

section Write

variable (fmt : Formats) (o : LoadOutcome) (storePath : Text) (s : Store) (disk : Disk)

/-- Encoding, writing and reading back all go well. -/
structure Saved : Prop where
  encoded : ∃ text, s.toText fmt.store = .ok text
  write : o.write = .written
  readBack : o.readBack = true

theorem stored_update {s : Store} {text : Text} (h : s.toText fmt.store = .ok text) :
    stored fmt (Function.update disk storePath (some text)) storePath = some s.named := by
  simp [stored, Store.parse_toText fmt.store h, Except.toOption]

/-- A save leaves the new file or the old one. -/
theorem save_cases (w : WriteOutcome) :
    (∃ text, s.toText fmt.store = .ok text ∧
        (save fmt w storePath s disk).2 = Function.update disk storePath (some text)) ∨
      (save fmt w storePath s disk).2 = disk := by
  unfold save
  cases htext : s.toText fmt.store with
  | error e => exact .inr rfl
  | ok text =>
      rcases w with _ | ⟨kind, _ | _⟩
      · exact .inl ⟨text, rfl, rfl⟩
      · exact .inr rfl
      · exact .inl ⟨text, rfl, rfl⟩

theorem saved_iff : Saved fmt o s ↔ ((save fmt o.write storePath s disk).1.toOption.isSome = true ∧
    o.readBack = true ∧ (stored fmt (save fmt o.write storePath s disk).2 storePath).isSome = true) := by
  unfold save
  cases htext : s.toText fmt.store with
  | error e =>
      have hnot : ¬Saved fmt o s := by
        rintro ⟨⟨text, h⟩, -, -⟩
        rw [htext] at h
        cases h
      simp [hnot, Except.toOption]
  | ok text =>
      have hstored := stored_update fmt storePath disk htext
      constructor
      · intro h
        simp [h.write, h.readBack, writePrivate, hstored, Except.toOption]
      · rintro ⟨hwrite, hread, -⟩
        refine ⟨⟨text, htext⟩, ?_, hread⟩
        cases hout : o.write with
        | written => rfl
        | failed kind landed => cases landed <;> simp [hout, writePrivate, Except.toOption] at hwrite

/-- **What is on disk after a store was written back**: the store, or what was there, or nothing. -/
theorem writeBack_cases :
    (∃ text, s.toText fmt.store = .ok text ∧ (Saved fmt o s ∨ o.removed = false) ∧
        writeBack fmt o storePath s disk = Function.update disk storePath (some text)) ∨
      (o.removed = false ∧ writeBack fmt o storePath s disk = disk) ∨
      (¬Saved fmt o s ∧ o.removed = true ∧ writeBack fmt o storePath s disk storePath = none) := by
  have hsaved := saved_iff fmt o storePath s disk
  unfold writeBack
  dsimp only
  split_ifs with hok hremoved
  · left
    have hdone := hsaved.2 hok
    rcases save_cases fmt storePath s disk o.write with ⟨text, htext, hdisk⟩ | hdisk
    · exact ⟨text, htext, .inl hdone, hdisk⟩
    · -- the new file is in place whenever the write is reported to be done
      obtain ⟨text, htext⟩ := hdone.encoded
      exact ⟨text, htext, .inl hdone, by simp [save, htext, hdone.write, writePrivate]⟩
  · exact .inr (.inr ⟨fun h => hok (hsaved.1 h), hremoved, Function.update_self _ _ _⟩)
  · have hkept : o.removed = false := by simpa using hremoved
    rcases save_cases fmt storePath s disk o.write with ⟨text, htext, hdisk⟩ | hdisk
    · exact .inl ⟨text, htext, .inr hkept, hdisk⟩
    · exact .inr (.inl ⟨hkept, hdisk⟩)

end Write

/-! ## Loads -/

section Load

variable (fmt : Formats) (o : LoadOutcome) (storePath : Text) (legacy : List (Slot × Text))
variable (disk : Disk) {s : Store}

/-- The store that a load builds from the stored one. -/
def repaired (s : Store) : Store :=
  (reconcileWithLegacy fmt disk s legacy).1.repair.1

/-- The store is still on disk and can be read, as it was or repaired, and nothing that it held is
lost. -/
def Survives (s : Store) (after : Disk) : Prop :=
  ∃ s', stored fmt after storePath = some s' ∧ Kept s s' ∧
    (after storePath = disk storePath ∨
      ∃ text, (repaired fmt legacy disk s).toText fmt.store = .ok text ∧
        after storePath = some text)

theorem repaired_kept (s : Store) : Kept s (repaired fmt legacy disk s).named :=
  ((reconcile_kept fmt.base64 _ (s, [])).trans (repair_kept _)).trans (named_kept _)

theorem load_of_stored (hstored : stored fmt disk storePath = some s) :
    (load fmt o storePath legacy disk).2 =
      if (reconcileWithLegacy fmt disk s legacy).1.repair.2.isEmpty = false ∨
          (reconcileWithLegacy fmt disk s legacy).2 ≠ [] then
        writeBack fmt o storePath (repaired fmt legacy disk s) disk
      else
        disk := by
  unfold load
  simp only [hstored, setAside_of_stored fmt o storePath disk hstored, gather, Option.isNone_some,
    Bool.false_eq_true, false_or, repaired]
  split_ifs <;> rfl

/-- There is nothing to write exactly when the store is in order. -/
theorem inOrder_iff : InOrder s (peekAll fmt disk legacy) ↔
    ¬((reconcileWithLegacy fmt disk s legacy).1.repair.2.isEmpty = false ∨
      (reconcileWithLegacy fmt disk s legacy).2 ≠ []) := by
  have hagrees := reconcile_agrees fmt.base64 s (peekAll fmt disk legacy) []
  have hself := reconcile_eq_self fmt.base64 s (peekAll fmt disk legacy) []
  simp only [reconcileWithLegacy, not_or, Bool.not_eq_false, not_ne_iff]
  constructor
  · rintro ⟨hfiles, hsettled⟩
    rw [hself hfiles, Store.repair_eq_self_iff]
    refine ⟨Store.ext_slots (by simp) (by simp) fun t => ?_, rfl⟩
    rw [Store.repair_slots, hsettled]
  · rintro ⟨hrepair, hadopted⟩
    have hfiles := hagrees.1 hadopted
    rw [hself hfiles, Store.repair_eq_self_iff] at hrepair
    refine ⟨hfiles, fun slot => ?_⟩
    rw [← Store.repair_slots]
    exact congrFun (congrArg Store.slots hrepair) slot

/-- A file that names a device for an empty slot is adopted. -/
theorem reconcileWithLegacy_adopts {slot : Slot} {path : Text} {identity : Identity}
    (hpeek : peek fmt disk path = some identity) (hslot : s.slots slot = none) :
    (reconcileWithLegacy fmt disk s [(slot, path)]).2 ≠ [] := by
  intro h
  have hagrees := (reconcile_agrees fmt.base64 s (peekAll fmt disk [(slot, path)]) []).1 h (slot, identity)
    (by simp [peekAll, hpeek])
  rw [hslot] at hagrees
  cases hagrees

/-- **A load keeps the store on disk exactly when there is nothing to write, or writing it and
reading it back go well, or the file cannot be taken away.** -/
theorem load_survives_iff (hstored : stored fmt disk storePath = some s) :
    Survives fmt storePath legacy disk s (load fmt o storePath legacy disk).2 ↔
      InOrder s (peekAll fmt disk legacy) ∨ Saved fmt o (repaired fmt legacy disk s) ∨
        o.removed = false := by
  rw [load_of_stored fmt o storePath legacy disk hstored, inOrder_iff]
  split_ifs with hwrite
  -- what a write can leave behind: the new text, the old file, or no file
  · rcases writeBack_cases fmt o storePath (repaired fmt legacy disk s) disk with
      ⟨text, htext, hok, hdisk⟩ | ⟨hremoved, hdisk⟩ | ⟨hnot, hremoved, hgone⟩
    · rw [hdisk]
      refine iff_of_true ⟨_, stored_update fmt storePath disk htext,
        repaired_kept fmt legacy disk s, .inr ⟨text, htext, Function.update_self _ _ _⟩⟩ (.inr hok)
    · rw [hdisk]
      exact iff_of_true ⟨s, hstored, .refl s, .inl rfl⟩ (.inr (.inr hremoved))
    -- the write failed and the file is gone: there is no store to read
    · refine iff_of_false ?_ ?_
      · rintro ⟨s', hread, -⟩
        simp [stored, hgone] at hread
      · rintro (h | h | h)
        · exact h hwrite
        · exact hnot h
        · rw [hremoved] at h
          cases h
  · exact iff_of_true ⟨s, hstored, .refl s, .inl rfl⟩ (.inl hwrite)

end Load

/-! ## A disk that is full -/

/-- A write that fails and leaves the old file, and a removal that works. -/
def diskFull : LoadOutcome where
  setAside := true
  write := .failed .other false
  readBack := true
  removed := true

theorem load_survives_iff_marked :
    stored (markedFormats oneDeviceToml markedToml) (markedDisk oneDeviceToml markedToml)
        "aether-store.toml".toList = some (Store.fromPersisted oneDevice) ∧
      (Survives (markedFormats oneDeviceToml markedToml) "aether-store.toml".toList
          [(.masque, "aether.toml".toList)] (markedDisk oneDeviceToml markedToml)
          (Store.fromPersisted oneDevice)
          (load (markedFormats oneDeviceToml markedToml) diskFull "aether-store.toml".toList
            [(.masque, "aether.toml".toList)] (markedDisk oneDeviceToml markedToml)).2 ↔
        InOrder (Store.fromPersisted oneDevice)
            (peekAll (markedFormats oneDeviceToml markedToml) (markedDisk oneDeviceToml markedToml)
              [(.masque, "aether.toml".toList)]) ∨
          Saved (markedFormats oneDeviceToml markedToml) diskFull
            (repaired (markedFormats oneDeviceToml markedToml) [(.masque, "aether.toml".toList)]
              (markedDisk oneDeviceToml markedToml) (Store.fromPersisted oneDevice)) ∨
          diskFull.removed = false) :=
  ⟨stored_marked _ _, load_survives_iff _ _ _ _ _ (stored_marked _ _)⟩

/-- A store that has a file to adopt is gone when the disk is full. -/
theorem load_destroys_store :
    stored (markedFormats oneDeviceToml markedToml) (markedDisk oneDeviceToml markedToml)
        "aether-store.toml".toList = some (Store.fromPersisted oneDevice) ∧
      ¬Survives (markedFormats oneDeviceToml markedToml) "aether-store.toml".toList
        [(.masque, "aether.toml".toList)] (markedDisk oneDeviceToml markedToml)
        (Store.fromPersisted oneDevice)
        (load (markedFormats oneDeviceToml markedToml) diskFull "aether-store.toml".toList
          [(.masque, "aether.toml".toList)] (markedDisk oneDeviceToml markedToml)).2 := by
  have hstored := stored_marked oneDeviceToml markedToml
  obtain ⟨identity, -, -, hpeek⟩ := peek_marked oneDeviceToml markedToml
  have hadopted : (reconcileWithLegacy (markedFormats oneDeviceToml markedToml)
      (markedDisk oneDeviceToml markedToml) (Store.fromPersisted oneDevice)
      [(.masque, "aether.toml".toList)]).2 ≠ [] :=
    reconcileWithLegacy_adopts _ _ hpeek (by decide)
  refine ⟨hstored, ?_⟩
  rw [load_of_stored _ _ _ _ _ hstored, if_pos (.inr hadopted)]
  rintro ⟨s', hread, -⟩
  rcases writeBack_cases (markedFormats oneDeviceToml markedToml) diskFull
      "aether-store.toml".toList _ (markedDisk oneDeviceToml markedToml) with
    ⟨text, -, hsaved | hremoved, -⟩ | ⟨hremoved, -⟩ | ⟨-, -, hgone⟩
  · cases hsaved.write
  · cases hremoved
  · cases hremoved
  · rw [stored, hgone] at hread
    cases hread

end Account
end AuroraVpn
