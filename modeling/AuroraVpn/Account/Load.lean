import AuroraVpn.Account.Config
import AuroraVpn.Account.Repair

/-!
# Load — the store, and the identity files that predate it

`migrate_from_legacy`, `reconcile_with_legacy`, `load` and `save` of `identity.rs`.  What the file
system answers inside one `load` is a `LoadOutcome`; a load itself never fails.

* `migrateFile_slots`, `reconcileFile_slots`: the slots after a file was read.
* `load_store`: what a load gives, by the store that was on disk and what the files show.
-/

namespace AuroraVpn
namespace Account

open Fallible

/-- What an identity file shows: the slot it is for, and the identity in it. -/
abbrev Shown := Slot × Identity

variable (fmt : Formats)

/-- The files that hold an identity, with what they show. -/
def peekAll (disk : Disk) (legacy : List (Slot × Text)) : List Shown :=
  legacy.filterMap fun file => (peek fmt disk file.2).map fun identity => (file.1, identity)

/-! ## Migration -/

/-- A record once another copy of its device was read: a certificate in any copy says that the
device was enrolled. -/
def mergeCopy (existing incoming : Device) : Device :=
  if incoming.tunnelType = TunnelType.masque then
    if existing.certPem = [] then
      { existing with
        tunnelType := .masque
        certPem := incoming.certPem
        keyPem := incoming.keyPem
        certIssuedAt := incoming.certIssuedAt }
    else
      { existing with tunnelType := .masque }
  else
    existing

def migrateFile (base64 : Base64) (s : Store) (file : Shown) : Store :=
  let id := file.2.deviceId
  let incoming := deviceFrom base64 file.2 0
  let device := (s.device id).elim incoming fun existing => mergeCopy existing incoming
  (s.put id device).setSlot file.1 (some id)

def migrateFromLegacy (disk : Disk) (legacy : List (Slot × Text)) : Store :=
  (peekAll fmt disk legacy).foldl (migrateFile fmt.base64) {}

/-! ## Reconciliation -/

/-- A record once a file for its device was adopted: only ever towards knowing more. -/
def adoptCopy (existing incoming : Device) : Device :=
  if incoming.tunnelType = TunnelType.masque then
    { existing with tunnelType := .masque }
  else
    existing

/-- One file of a reconciliation.  A file whose device the slot already holds is passed over. -/
def reconcileFile (base64 : Base64) (st : Store × List Slot) (file : Shown) : Store × List Slot :=
  let id := file.2.deviceId
  if st.1.slots file.1 = some id then
    st
  else
    let incoming := deviceFrom base64 file.2 0
    let device := (st.1.device id).elim incoming fun existing => adoptCopy existing incoming
    ((st.1.put id device).setSlot file.1 (some id), st.2 ++ [file.1])

/-- Adopts what the identity files say where they disagree with the store. -/
def reconcileWithLegacy (disk : Disk) (s : Store) (legacy : List (Slot × Text)) :
    Store × List Slot :=
  (peekAll fmt disk legacy).foldl (reconcileFile fmt.base64) (s, [])

/-! ## Loading and saving -/

def save (w : WriteOutcome) (storePath : Text) (s : Store) (disk : Disk) :
    Except AetherError Unit × Disk :=
  match s.toText fmt.store with
  | .error e => (.error e, disk)
  | .ok text => writePrivate w storePath text disk

/-- What the file system answers inside one load. -/
structure LoadOutcome where
  /-- The store that does not parse was moved aside. -/
  setAside : Bool
  write : WriteOutcome
  /-- The store that was written could be read again. -/
  readBack : Bool
  removed : Bool

structure Loaded where
  store : Store
  repairs : Repairs
  migrated : Bool

/-- The store that is on disk, if there is one that parses. -/
def stored (disk : Disk) (storePath : Text) : Option Store :=
  (disk storePath).bind fun text => (Store.parse fmt.store text).toOption

/-- Moves a store that does not parse out of the way. -/
def setAside (o : LoadOutcome) (storePath : Text) (disk : Disk) : Disk :=
  match disk storePath with
  | none => disk
  | some text =>
      match Store.parse fmt.store text with
      | .ok _ => disk
      | .error _ =>
          if o.setAside then
            Function.update (Function.update disk (storePath ++ ".corrupt".toList) (some text))
              storePath none
          else
            disk

/-- The store after the files were read, and whether they were news to it. -/
def gather (disk : Disk) (legacy : List (Slot × Text)) : Option Store → Store × List Slot
  | some s => reconcileWithLegacy fmt disk s legacy
  | none => (migrateFromLegacy fmt disk legacy, [])

/-- Writes a store and reads it back, and takes the file away when either fails. -/
def writeBack (o : LoadOutcome) (storePath : Text) (s : Store) (disk : Disk) : Disk :=
  let (outcome, written) := save fmt o.write storePath s disk
  if outcome.toOption.isSome ∧ o.readBack ∧ (stored fmt written storePath).isSome then
    written
  else if o.removed then
    Function.update written storePath none
  else
    written

def load (o : LoadOutcome) (storePath : Text) (legacy : List (Slot × Text)) (disk : Disk) :
    Loaded × Disk :=
  let existing := stored fmt disk storePath
  let disk := setAside fmt o storePath disk
  let (store, adopted) := gather fmt disk legacy existing
  let (store, repairs) := store.repair
  let loaded := { store := store, repairs := repairs, migrated := existing.isNone }
  if existing.isNone ∨ repairs.isEmpty = false ∨ adopted ≠ [] then
    (loaded, writeBack fmt o storePath store disk)
  else
    (loaded, disk)

section Files

variable (base64 : Base64) (s : Store) (st : Store × List Slot) (file : Shown)

@[simp] theorem Store.put_device (id d : Text) (device : Device) :
    (s.put id device).device d = if d = id then some device else s.device d := by
  by_cases hd : d = id
  · subst hd
    simp [Store.put, Store.device, Finmap.lookup_insert]
  · simp [Store.put, Store.device, hd, Finmap.lookup_insert_of_ne]

@[simp] theorem Store.setSlot_device (slot : Slot) (id : Option Text) (d : Text) :
    (s.setSlot slot id).device d = s.device d :=
  rfl

theorem migrateFile_slots (t : Slot) : (migrateFile base64 s file).slots t =
    if t = file.1 then some file.2.deviceId else s.slots t :=
  Store.setSlot_slots _ _ _ _

/-- Whether a file shows a certificate for a device. -/
def Certifies (file : Shown) (d : Text) : Prop :=
  file.2.deviceId = d ∧ file.2.certPem ≠ []

theorem migrateFile_deviceIsMasque (d : Text) : (migrateFile base64 s file).deviceIsMasque d = true ↔
    s.deviceIsMasque d = true ∨ Certifies file d := by
  by_cases hd : d = file.2.deviceId
  · subst hd
    cases hdevice : s.device file.2.deviceId with
    | none => simp [Store.deviceIsMasque, migrateFile, Certifies, hdevice]
    | some existing =>
        by_cases hcert : file.2.certPem = [] <;> by_cases hempty : existing.certPem = [] <;>
          simp [Store.deviceIsMasque, migrateFile, Certifies, hdevice, mergeCopy, hcert, hempty]
  · simp [Store.deviceIsMasque, migrateFile, Certifies, hd, Ne.symm hd]

theorem reconcileFile_deviceIsMasque (d : Text) :
    (reconcileFile base64 st file).1.deviceIsMasque d = true ↔ st.1.deviceIsMasque d = true ∨
      (Certifies file d ∧ st.1.slots file.1 ≠ some file.2.deviceId) := by
  unfold reconcileFile
  dsimp only
  split_ifs with hheld
  · simp [hheld]
  · by_cases hd : d = file.2.deviceId
    · subst hd
      cases hdevice : st.1.device file.2.deviceId with
      | none => simp [Store.deviceIsMasque, Certifies, hdevice, hheld]
      | some existing =>
          by_cases hcert : file.2.certPem = [] <;>
            simp [Store.deviceIsMasque, Certifies, hdevice, adoptCopy, hcert, hheld]
    · simp [Store.deviceIsMasque, Certifies, hd, Ne.symm hd]

theorem reconcileFile_slots (t : Slot) : (reconcileFile base64 st file).1.slots t =
    if t = file.1 then some file.2.deviceId else st.1.slots t := by
  unfold reconcileFile
  dsimp only
  split_ifs with hheld ht ht
  · rw [ht, hheld]
  · rfl
  · simp [Store.setSlot_slots, ht]
  · simp only [Store.setSlot_slots, ht, if_false]
    rfl

end Files

section Load

variable (o : LoadOutcome) (storePath : Text) (legacy : List (Slot × Text)) (disk : Disk)

/-- **What a load gives**: the repair of what is gathered from the store and the files. -/
theorem load_store : (load fmt o storePath legacy disk).1.store =
    (gather fmt (setAside fmt o storePath disk) legacy (stored fmt disk storePath)).1.repair.1 := by
  unfold load
  dsimp only
  split_ifs <;> rfl

end Load

end Account
end AuroraVpn
