import AuroraVpn.Account.Durable

/-!
# Reload — loading twice, and the order of the files

`load` of `identity.rs` run a second time over the store it wrote and the same identity files, each of
which is for a slot of its own.  A reconciliation passes over a file that names the device its slot
holds.  A repair may then clear that slot, and the second load adopts the file after all.

* `isSome_reconcile`, `isMasque_reconcile`: what a reconciliation makes of the files, whatever their order.
* `settled_between`: a repair that was carried out in part is carried out the same way.
* `reload_eq`: the second load finds what the first one left, if the files it takes up are no news.
* `load_twice_iff`: when that is so.
-/

namespace AuroraVpn
namespace Account

open Fallible

section Files

variable (base64 : Base64) (s : Store) {files : List Shown} {file : Shown} {slot : Slot} (d : Text)

theorem holder_of_mem (hnodup : (files.map Prod.fst).Nodup) (hfile : file ∈ files) :
    holder s files file.1 = some file.2.deviceId := by
  have hone : files.filter (fun f => f.1 = file.1) = [file] := by
    induction files with
    | nil => cases hfile
    | cons f files ih =>
        obtain ⟨hnew, hnodup⟩ := List.nodup_cons.1 hnodup
        rcases List.mem_cons.1 hfile with rfl | hmem
        · -- no later file is for the slot
          have hrest : files.filter (fun f => f.1 = file.1) = [] := by
            refine List.filter_eq_nil_iff.2 fun g hg hslot => hnew ?_
            rw [← of_decide_eq_true hslot]
            exact List.mem_map_of_mem hg
          rw [List.filter_cons_of_pos (by simp), hrest]
        · have hne : f.1 ≠ file.1 := fun heq => hnew (heq ▸ List.mem_map_of_mem hmem)
          rw [List.filter_cons_of_neg (by simpa using hne), ih hnodup hmem]
  rw [holder, hone]
  rfl

theorem holder_of_not_mem (hnone : ∀ f ∈ files, f.1 ≠ slot) : holder s files slot = s.slots slot := by
  have hempty : files.filter (fun f => f.1 = slot) = [] :=
    List.filter_eq_nil_iff.2 fun f hf hslot => hnone f hf (of_decide_eq_true hslot)
  rw [holder, hempty]
  rfl

/-- A file that a reconciliation takes up: its slot holds another device. -/
def Adopts (s : Store) (files : List Shown) (file : Shown) : Prop :=
  file ∈ files ∧ s.slots file.1 ≠ some file.2.deviceId

/-- The slots that later files are for are as they were. -/
theorem reconcileFile_slots_of_later {st : Store × List Slot} (hnodup : ((file :: files).map Prod.fst).Nodup)
    {later : Shown} (hlater : later ∈ files) :
    (reconcileFile base64 st file).1.slots later.1 = st.1.slots later.1 := by
  have hne : later.1 ≠ file.1 := fun heq =>
    (List.nodup_cons.1 hnodup).1 (heq ▸ List.mem_map_of_mem hlater)
  rw [reconcileFile_slots, if_neg hne]

theorem reconcileFile_isSome (st : Store × List Slot) (file : Shown) :
    ((reconcileFile base64 st file).1.device d).isSome ↔ (st.1.device d).isSome ∨
      (file.2.deviceId = d ∧ st.1.slots file.1 ≠ some file.2.deviceId) := by
  unfold reconcileFile
  dsimp only
  split_ifs with hheld
  · simp [hheld]
  · by_cases hd : d = file.2.deviceId
    · simp [hd, hheld]
    · simp [hd, Ne.symm hd]

/-- A property of a device that each file may give it is had after a reconciliation if it was had
before, or a file that is taken up gives it. -/
theorem reconcile_gains {P : Store → Prop} {G : Shown → Prop}
    (hfile : ∀ st file, P (reconcileFile base64 st file).1 ↔
      P st.1 ∨ (G file ∧ st.1.slots file.1 ≠ some file.2.deviceId))
    (hnodup : (files.map Prod.fst).Nodup) (st : Store × List Slot) :
    P (files.foldl (reconcileFile base64) st).1 ↔ P st.1 ∨ ∃ file, Adopts st.1 files file ∧ G file := by
  induction files generalizing st with
  | nil => simp [Adopts]
  | cons f files ih =>
      -- an earlier file leaves the slots of the later ones alone
      have hsame : ∀ file, Adopts (reconcileFile base64 st f).1 files file ↔ Adopts st.1 files file :=
        fun file => and_congr_right fun hmem => by
          rw [reconcileFile_slots_of_later base64 hnodup hmem]
      rw [List.foldl_cons, ih (List.nodup_cons.1 hnodup).2, hfile, or_assoc]
      refine or_congr_right ?_
      constructor
      · rintro (⟨hG, hother⟩ | ⟨file, hadopts, hG⟩)
        · exact ⟨f, ⟨List.mem_cons_self, hother⟩, hG⟩
        -- what is taken up behind it is taken up from the same slots as at the start
        · obtain ⟨hmem, hother⟩ := (hsame file).1 hadopts
          exact ⟨file, ⟨List.mem_cons_of_mem _ hmem, hother⟩, hG⟩
      · rintro ⟨file, ⟨hmem, hother⟩, hG⟩
        rcases List.mem_cons.1 hmem with rfl | hmem
        · exact .inl ⟨hG, hother⟩
        · exact .inr ⟨file, (hsame file).2 ⟨hmem, hother⟩, hG⟩

theorem isSome_reconcile (hnodup : (files.map Prod.fst).Nodup) (st : Store × List Slot) :
    ((files.foldl (reconcileFile base64) st).1.device d).isSome ↔
      (st.1.device d).isSome ∨ ∃ file, Adopts st.1 files file ∧ file.2.deviceId = d :=
  reconcile_gains base64 (P := fun s => (s.device d).isSome = true) (G := fun file => file.2.deviceId = d)
    (reconcileFile_isSome base64 d) hnodup st

theorem isMasque_reconcile (hnodup : (files.map Prod.fst).Nodup) (st : Store × List Slot) :
    (files.foldl (reconcileFile base64) st).1.deviceIsMasque d = true ↔
      st.1.deviceIsMasque d = true ∨ ∃ file, Adopts st.1 files file ∧ Certifies file d :=
  reconcile_gains base64 (P := fun s => s.deviceIsMasque d = true) (G := fun file => Certifies file d)
    (fun st file => reconcileFile_deviceIsMasque base64 st file d) hnodup st

theorem isSome_migrate (s : Store) : ((files.foldl (migrateFile base64) s).device d).isSome ↔
    (s.device d).isSome ∨ ∃ file ∈ files, file.2.deviceId = d := by
  induction files generalizing s with
  | nil => simp
  | cons f files ih =>
      have hfile : ((migrateFile base64 s f).device d).isSome ↔ (s.device d).isSome ∨ f.2.deviceId = d := by
        by_cases hd : d = f.2.deviceId
        · simp [migrateFile, hd]
        · simp [migrateFile, hd, Ne.symm hd]
      rw [List.foldl_cons, ih, hfile, or_assoc]
      simp

end Files

/-! ## The order of the files -/

section Order

variable (base64 : Base64) {s s' : Store} {files files' : List Shown}

/-- Two stores with the same slots, whose devices have the same types. -/
structure Alike (s s' : Store) : Prop where
  slots : s'.slots = s.slots
  tunnel : ∀ d, (s'.device d).map Device.tunnelType = (s.device d).map Device.tunnelType

theorem alike_of_gains (hslots : ∀ t, s'.slots t = s.slots t)
    (hsome : ∀ d, (s'.device d).isSome = true ↔ (s.device d).isSome = true)
    (hmasque : ∀ d, s'.deviceIsMasque d = true ↔ s.deviceIsMasque d = true) : Alike s s' where
  slots := funext hslots
  tunnel d := by
    have hsome := hsome d
    have hmasque := hmasque d
    unfold Store.deviceIsMasque at hmasque
    -- the devices are those of before, so only their kinds are left to compare
    cases hdevice : s.device d with
    | none =>
        rw [hdevice] at hsome
        cases hdevice' : s'.device d with
        | none => rfl
        | some device' => simp [hdevice'] at hsome
    | some device =>
        rw [hdevice] at hsome hmasque
        cases hdevice' : s'.device d with
        | none => simp [hdevice'] at hsome
        | some device' =>
            rw [hdevice'] at hmasque
            simp only [Option.any_some, decide_eq_true_eq] at hmasque
            refine congrArg some ?_
            cases htunnel : device.tunnelType with
            | masque => exact hmasque.2 htunnel
            | wireguard =>
                cases htunnel' : device'.tunnelType with
                | wireguard => rfl
                | masque => exact absurd ((hmasque.1 htunnel').symm.trans htunnel) (by decide)

theorem Alike.any_device (h : Alike s s') (id : Text) {p : Device → Bool}
    (hp : ∀ device device' : Device, device'.tunnelType = device.tunnelType → p device' = p device) :
    (s'.device id).any p = (s.device id).any p := by
  have htunnel := h.tunnel id
  cases hdevice : s.device id with
  | none =>
      cases hdevice' : s'.device id with
      | none => rfl
      | some device' => simp [hdevice, hdevice'] at htunnel
  | some device =>
      cases hdevice' : s'.device id with
      | none => simp [hdevice, hdevice'] at htunnel
      | some device' =>
          have hsame : device'.tunnelType = device.tunnelType := by
            simpa [hdevice, hdevice'] using htunnel
          exact hp device device' hsame

/-- A repair looks at no more than that. -/
theorem Alike.repair (h : Alike s s') : Alike s.repair.1 s'.repair.1 where
  slots := by
    funext t
    rw [Store.repair_slots, Store.repair_slots]
    unfold Store.settled
    rw [h.slots]
    refine congrArg (fun p => (s.slots t).filter p) (funext fun id => ?_)
    -- what fits a slot is seen from the type of the tunnel
    exact h.any_device id fun device device' hsame => by rw [hsame]
  tunnel d := by
    rw [Store.repair_device, Store.repair_device]
    exact h.tunnel d

theorem holder_perm (hperm : files.Perm files') (hnodup : (files.map Prod.fst).Nodup) (s : Store) (t : Slot) :
    holder s files' t = holder s files t := by
  have hnodup' : (files'.map Prod.fst).Nodup := (hperm.map Prod.fst).nodup_iff.1 hnodup
  by_cases hfile : ∃ file ∈ files, file.1 = t
  · obtain ⟨file, hmem, rfl⟩ := hfile
    rw [holder_of_mem s hnodup hmem, holder_of_mem s hnodup' (hperm.mem_iff.1 hmem)]
  · have hnone : ∀ f ∈ files, f.1 ≠ t := fun f hf heq => hfile ⟨f, hf, heq⟩
    rw [holder_of_not_mem s hnone, holder_of_not_mem s fun f hf => hnone f (hperm.mem_iff.2 hf)]

theorem adopts_perm (hperm : files.Perm files') (s : Store) (file : Shown) :
    Adopts s files' file ↔ Adopts s files file :=
  and_congr_left fun _ => hperm.mem_iff.symm

/-- **The order of the files makes no difference to a reconciliation.** -/
theorem reconcile_alike (hperm : files.Perm files') (hnodup : (files.map Prod.fst).Nodup) (s : Store) :
    Alike (files.foldl (reconcileFile base64) (s, [])).1
      (files'.foldl (reconcileFile base64) (s, [])).1 := by
  have hnodup' : (files'.map Prod.fst).Nodup := (hperm.map Prod.fst).nodup_iff.1 hnodup
  refine alike_of_gains (fun t => ?_) (fun d => ?_) fun d => ?_
  · rw [slots_reconcile, slots_reconcile, holder_perm hperm hnodup]
  · simp only [isSome_reconcile base64 d hnodup, isSome_reconcile base64 d hnodup', adopts_perm hperm]
  · simp only [isMasque_reconcile base64 d hnodup, isMasque_reconcile base64 d hnodup', adopts_perm hperm]

/-- **The order of the files makes no difference to a migration.** -/
theorem migrate_alike (hperm : files.Perm files') (hnodup : (files.map Prod.fst).Nodup) (s : Store) :
    Alike (files.foldl (migrateFile base64) s) (files'.foldl (migrateFile base64) s) := by
  refine alike_of_gains (fun t => ?_) (fun d => ?_) fun d => ?_
  · rw [slots_migrate, slots_migrate, holder_perm hperm hnodup]
  · simp only [isSome_migrate, hperm.mem_iff]
  · simp only [deviceIsMasque_migrate, hperm.mem_iff]

end Order

/-! ## The second load -/

section Reload

variable (base64 : Base64) {s s' : Store} {files : List Shown} {file : Shown}

/-- A repair that was carried out in some slots is carried out the same way in the others. -/
theorem settled_between (hdevices : s'.devices = s.devices)
    (hslots : ∀ t, s'.slots t = s.slots t ∨ s'.slots t = s.settled t) (t : Slot) :
    s'.settled t = s.settled t := by
  have hdevice : ∀ id, s'.device id = s.device id := fun id => by
    simp only [Store.device, hdevices]
  have hdown : ∀ t id, s'.slots t = some id → s.slots t = some id := by
    intro t id hid
    rcases hslots t with heq | heq
    · exact heq ▸ hid
    · exact ((Store.settled_eq_some s t).1 (heq ▸ hid)).1
  have hup : ∀ t id, s.settled t = some id → s'.slots t = some id := by
    intro t id hid
    rcases hslots t with heq | heq
    · exact heq.trans ((Store.settled_eq_some s t).1 hid).1
    · exact heq.trans hid
  -- a WireGuard slot keeps a device that was never enrolled
  have hheld : ∀ t id device, t.family = .wireguard → s.device id = some device →
      device.tunnelType = .wireguard → (s'.slots t = some id ↔ s.slots t = some id) := by
    intro t id device hfamily hfound htunnel
    refine ⟨hdown t id, fun hid => hup t id ((Store.settled_eq_some s t).2 ⟨hid, device, hfound, ?_⟩)⟩
    rw [hfamily]
    exact htunnel
  refine Option.ext fun id => ?_
  rw [Store.settled_eq_some, Store.settled_eq_some, hdevice]
  constructor
  · rintro ⟨hid, device, hfound, hfits⟩
    refine ⟨hdown t id hid, device, hfound, ?_⟩
    revert hfits
    cases t.family <;> cases htunnel : device.tunnelType <;> simp only [imp_self]
    rintro ⟨houter, hinner⟩
    exact ⟨fun h => houter ((hheld .wireguard id device rfl hfound htunnel).2 h),
      fun h => hinner ((hheld .wireguardInner id device rfl hfound htunnel).2 h)⟩
  · rintro ⟨hid, device, hfound, hfits⟩
    refine ⟨hup t id ((Store.settled_eq_some s t).2 ⟨hid, device, hfound, hfits⟩), device, hfound, ?_⟩
    revert hfits
    cases t.family <;> cases htunnel : device.tunnelType <;> simp only [imp_self]
    rintro ⟨houter, hinner⟩
    exact ⟨fun h => houter ((hheld .wireguard id device rfl hfound htunnel).1 h),
      fun h => hinner ((hheld .wireguardInner id device rfl hfound htunnel).1 h)⟩

/-- A file that is no news to a store: its device is there, and marked as enrolled if the file shows a
certificate. -/
def NoNews (s : Store) (file : Shown) : Prop :=
  ∃ device, s.device file.2.deviceId = some device ∧
    (file.2.certPem ≠ [] → device.tunnelType = .masque)

theorem reconcileFile_devices (st : Store × List Slot) (h : NoNews st.1 file) :
    (reconcileFile base64 st file).1.devices = st.1.devices := by
  obtain ⟨device, hdevice, htold⟩ := h
  unfold reconcileFile
  dsimp only
  split_ifs
  · rfl
  · have hcopy : adoptCopy device (deviceFrom base64 file.2 0) = device := by
      by_cases hcert : file.2.certPem = []
      · simp [adoptCopy, hcert]
      · rw [adoptCopy, deviceFrom_tunnelType, if_neg hcert, if_pos rfl]
        exact htold hcert ▸ rfl
    rw [hdevice, Option.elim_some, hcopy]
    refine Finmap.ext_lookup fun id => ?_
    show Finmap.lookup id (st.1.devices.insert file.2.deviceId device) = _
    by_cases hid : id = file.2.deviceId
    · subst hid
      rw [Finmap.lookup_insert]
      exact hdevice.symm
    · rw [Finmap.lookup_insert_of_ne _ hid]

/-- Files that are no news leave the records alone. -/
theorem reconcile_devices (hnodup : (files.map Prod.fst).Nodup) (st : Store × List Slot)
    (hdevices : st.1.devices = s.devices) (h : ∀ file, Adopts st.1 files file → NoNews s file) :
    (files.foldl (reconcileFile base64) st).1.devices = s.devices := by
  induction files generalizing st with
  | nil => exact hdevices
  | cons f files ih =>
      have hfirst : (reconcileFile base64 st f).1.devices = s.devices := by
        by_cases hheld : st.1.slots f.1 = some f.2.deviceId
        · rw [reconcileFile, if_pos hheld, hdevices]
        · have hnews : NoNews st.1 f := by
            obtain ⟨device, hdevice, htold⟩ := h f ⟨List.mem_cons_self, hheld⟩
            exact ⟨device, by rw [Store.device, hdevices]; exact hdevice, htold⟩
          rw [reconcileFile_devices base64 st hnews, hdevices]
      refine ih (List.nodup_cons.1 hnodup).2 _ hfirst fun file hfile => h file ?_
      rw [Adopts, reconcileFile_slots_of_later base64 hnodup hfile.1] at hfile
      exact ⟨List.mem_cons_of_mem _ hfile.1, hfile.2⟩

/-- **A second load finds what the first one left**, if the files that it takes up are no news. -/
theorem reload_eq (hnodup : (files.map Prod.fst).Nodup)
    (hheld : ∀ file ∈ files, s.slots file.1 = some file.2.deviceId)
    (hnamed : ∀ t, (∀ file ∈ files, file.1 ≠ t) → s.slots t ≠ some [])
    (hnews : ∀ file, Adopts s.repair.1.named files file → NoNews s file) :
    (files.foldl (reconcileFile base64) (s.repair.1.named, [])).1.repair.1 = s.repair.1 := by
  have hdevices : (files.foldl (reconcileFile base64) (s.repair.1.named, [])).1.devices = s.devices :=
    reconcile_devices base64 hnodup _ (Store.repair_devices s) hnews
  refine Store.ext_slots ?_ ?_ fun t => ?_
  · rw [Store.repair_devices, Store.repair_devices, hdevices]
  · rw [Store.repair_registration]
    exact (reconcile_kept base64 files (s.repair.1.named, [])).registration
  -- slot by slot: either a file names the device, or none does
  · rw [Store.repair_slots, Store.repair_slots]
    refine settled_between hdevices (fun t => ?_) t
    rw [slots_reconcile]
    by_cases hfile : ∃ file ∈ files, file.1 = t
    · obtain ⟨file, hmem, rfl⟩ := hfile
      -- a file names it: it names what the slot held
      exact .inl ((holder_of_mem _ hnodup hmem).trans (hheld file hmem).symm)
    · have hnone : ∀ f ∈ files, f.1 ≠ t := fun f hf heq => hfile ⟨f, hf, heq⟩
      -- none does: the slot keeps what the repair left
      right
      rw [holder_of_not_mem _ hnone]
      show (s.repair.1.slots t).filter _ = _
      rw [Store.repair_slots]
      -- no slot holds an empty identifier unless a file put it there
      cases hid : s.settled t with
      | none => rfl
      | some id =>
          have hne : id ≠ [] := by
            rintro rfl
            exact hnamed t hnone ((Store.settled_eq_some s t).1 hid).1
          simp [hne]

/-- The files are no news, or their slots will take them up as they are. -/
structure Settles (s : Store) (files : List Shown) : Prop where
  /-- A file that is passed over is for a device that is on record, or that another file brings. -/
  there : ∀ file ∈ files, s.slots file.1 = some file.2.deviceId →
    (s.device file.2.deviceId).isSome ∨
      ∃ other, Adopts s files other ∧ other.2.deviceId = file.2.deviceId
  /-- A file that is passed over and shows a certificate is for a device that is marked as enrolled, or
  that another file marks, where its slot is a MASQUE one and a WireGuard slot names the device. -/
  told : ∀ file ∈ files, s.slots file.1 = some file.2.deviceId → file.1.family = .masque →
    file.2.certPem ≠ [] → (∃ t : Slot, t.family = .wireguard ∧ holder s files t = some file.2.deviceId) →
    s.deviceIsMasque file.2.deviceId = true ∨
      ∃ other, Adopts s files other ∧ Certifies other file.2.deviceId

theorem adopts_named {t : Store} (hfile : file ∈ files) (hcleared : t.slots file.1 ≠ some file.2.deviceId) :
    Adopts t.named files file := by
  refine ⟨hfile, fun hid => hcleared ?_⟩
  exact ((Option.filter_eq_some_iff).1 hid).1

theorem repair_isMasque (s : Store) (d : Text) : s.repair.1.deviceIsMasque d = s.deviceIsMasque d := by
  unfold Store.deviceIsMasque
  rw [Store.repair_device]

/-- **What a reconciliation left is found again exactly when the files settle.** -/
theorem reload_iff (hnodup : (files.map Prod.fst).Nodup) (hs : ∀ t, s.slots t ≠ some []) :
    (files.foldl (reconcileFile base64)
        ((files.foldl (reconcileFile base64) (s, [])).1.repair.1.named, [])).1.repair.1 =
      (files.foldl (reconcileFile base64) (s, [])).1.repair.1 ↔ Settles s files := by
  have hsome := fun d => isSome_reconcile base64 d hnodup (s, [])
  have hmasque := fun d => isMasque_reconcile base64 d hnodup (s, [])
  have hslots : ∀ t, (files.foldl (reconcileFile base64) (s, [])).1.slots t = holder s files t :=
    slots_reconcile base64 s files
  have hheld : ∀ file ∈ files,
      (files.foldl (reconcileFile base64) (s, [])).1.slots file.1 = some file.2.deviceId :=
    fun file hfile => (hslots file.1).trans (holder_of_mem s hnodup hfile)
  generalize (files.foldl (reconcileFile base64) (s, [])).1 = r at hsome hmasque hslots hheld ⊢
  constructor
  · intro hsame
    have hsome' := fun d => isSome_reconcile base64 d hnodup (r.repair.1.named, [])
    have hmasque' := fun d => isMasque_reconcile base64 d hnodup (r.repair.1.named, [])
    -- a file whose slot was cleared tells the second load what it shows, and so it told the first one
    have hback : ∀ file ∈ files, r.repair.1.slots file.1 ≠ some file.2.deviceId →
        (r.device file.2.deviceId).isSome ∧ (file.2.certPem ≠ [] → r.deviceIsMasque file.2.deviceId = true) := by
      intro file hfile hcleared
      have hadopts := adopts_named hfile hcleared
      constructor
      · have hnow := (hsome' file.2.deviceId).2 (.inr ⟨file, hadopts, rfl⟩)
        rw [← Store.repair_device, hsame, Store.repair_device] at hnow
        exact hnow
      · intro hcert
        have hnow := (hmasque' file.2.deviceId).2 (.inr ⟨file, hadopts, rfl, hcert⟩)
        rw [← repair_isMasque, hsame, repair_isMasque] at hnow
        exact hnow
    constructor
    · intro file hfile _
      refine (hsome _).1 ?_
      by_cases hcleared : r.repair.1.slots file.1 = some file.2.deviceId
      · rw [Store.repair_slots, Store.settled_eq_some] at hcleared
        obtain ⟨-, device, hdevice, -⟩ := hcleared
        rw [hdevice]
        rfl
      · exact (hback file hfile hcleared).1
    · rintro file hfile - hfamily hcert ⟨t, ht, hnamed⟩
      refine (hmasque _).1 ?_
      by_cases hcleared : r.repair.1.slots file.1 = some file.2.deviceId
      · rw [Store.repair_slots, Store.settled_eq_some, hfamily] at hcleared
        obtain ⟨-, device, hdevice, hfits⟩ := hcleared
        cases htunnel : device.tunnelType with
        | masque => exact (deviceIsMasque_eq_true _).2 ⟨device, hdevice, htunnel⟩
        | wireguard =>
            rw [htunnel] at hfits
            rw [← hslots] at hnamed
            cases t with
            | wireguard => exact absurd hnamed hfits.1
            | wireguardInner => exact absurd hnamed hfits.2
            | masque => cases ht
            | masqueInner => cases ht
      · exact (hback file hfile hcleared).2 hcert
  · intro hsettles
    refine reload_eq base64 hnodup hheld (fun t hnone => ?_) fun file hadopts => ?_
    · rw [hslots, holder_of_not_mem s hnone]
      exact hs t
    · have hfile := hadopts.1
      by_cases hpassed : s.slots file.1 = some file.2.deviceId
      · obtain ⟨device, hdevice⟩ := Option.isSome_iff_exists.1 ((hsome _).2 (hsettles.there file hfile hpassed))
        refine ⟨device, hdevice, fun hcert => ?_⟩
        by_contra htunnel
        have hwireguard : device.tunnelType = .wireguard := by
          cases h : device.tunnelType with
          | wireguard => rfl
          | masque => exact absurd h htunnel
        -- the slot was cleared, so it is a MASQUE one that shares the device
        have hcleared : ¬r.settled file.1 = some file.2.deviceId := by
          intro hid
          refine hadopts.2 ?_
          have hne : file.2.deviceId ≠ [] := fun hnil => hs file.1 (hpassed.trans (congrArg some hnil))
          show (r.repair.1.slots file.1).filter _ = _
          rw [Store.repair_slots, hid]
          simp [hne]
        have hshared : file.1.family = .masque ∧
            ∃ t : Slot, t.family = .wireguard ∧ holder s files t = some file.2.deviceId := by
          rw [Store.settled_eq_some] at hcleared
          cases hfamily : file.1.family with
          | wireguard =>
              refine absurd ⟨hheld file hfile, device, hdevice, ?_⟩ hcleared
              rw [hfamily]
              exact hwireguard
          | masque =>
              refine ⟨rfl, ?_⟩
              by_contra hnone
              refine hcleared ⟨hheld file hfile, device, hdevice, ?_⟩
              rw [hfamily, hwireguard]
              exact ⟨fun h => hnone ⟨.wireguard, rfl, hslots .wireguard ▸ h⟩,
                fun h => hnone ⟨.wireguardInner, rfl, hslots .wireguardInner ▸ h⟩⟩
        have hknown := (hmasque _).2 (hsettles.told file hfile hpassed hshared.1 hcert hshared.2)
        obtain ⟨device', hdevice', htunnel'⟩ := (deviceIsMasque_eq_true _).1 hknown
        obtain rfl : device = device' := Option.some.inj (hdevice.symm.trans hdevice')
        exact htunnel htunnel'
      · obtain ⟨device, hdevice⟩ :=
          Option.isSome_iff_exists.1 ((hsome _).2 (.inr ⟨file, ⟨hfile, hpassed⟩, rfl⟩))
        refine ⟨device, hdevice, fun hcert => ?_⟩
        have hknown := (hmasque _).2 (.inr ⟨file, ⟨hfile, hpassed⟩, rfl, hcert⟩)
        obtain ⟨device', hdevice', htunnel⟩ := (deviceIsMasque_eq_true _).1 hknown
        obtain rfl : device = device' := Option.some.inj (hdevice.symm.trans hdevice')
        exact htunnel

/-- **What a migration left is found again.** -/
theorem reload_migrated (hnodup : (files.map Prod.fst).Nodup) :
    (files.foldl (reconcileFile base64)
        ((files.foldl (migrateFile base64) {}).repair.1.named, [])).1.repair.1 =
      (files.foldl (migrateFile base64) {}).repair.1 := by
  refine reload_eq base64 hnodup (fun file hfile => ?_) (fun t hnone => ?_) fun file hadopts => ?_
  · rw [slots_migrate, holder_of_mem _ hnodup hfile]
  · rw [slots_migrate, holder_of_not_mem _ hnone]
    exact nofun
  · obtain ⟨device, hdevice⟩ := Option.isSome_iff_exists.1
      ((isSome_migrate base64 file.2.deviceId ({} : Store)).2 (.inr ⟨file, hadopts.1, rfl⟩))
    refine ⟨device, hdevice, fun hcert => ?_⟩
    obtain ⟨device', hdevice', htunnel⟩ := (deviceIsMasque_eq_true _).1
      ((deviceIsMasque_migrate base64 {} files file.2.deviceId).2 (.inr ⟨file, hadopts.1, rfl, hcert⟩))
    obtain rfl : device = device' := Option.some.inj (hdevice.symm.trans hdevice')
    exact htunnel

end Reload

/-! ## Loads -/

section Load

variable (fmt : Formats) (o : LoadOutcome) (storePath : Text) (legacy : List (Slot × Text))
variable (disk : Disk)

/-- The identity files are neither the store nor what becomes of one that does not parse. -/
def Beside (storePath : Text) (legacy : List (Slot × Text)) : Prop :=
  ∀ file ∈ legacy, file.2 ≠ storePath ∧ file.2 ≠ storePath ++ ".corrupt".toList

theorem peekAll_congr {disk' : Disk} (h : ∀ file ∈ legacy, disk' file.2 = disk file.2) :
    peekAll fmt disk' legacy = peekAll fmt disk legacy := by
  refine List.filterMap_congr fun file hfile => ?_
  simp only [peek, h file hfile]

theorem nodup_peekAll (hnodup : (legacy.map Prod.fst).Nodup) :
    ((peekAll fmt disk legacy).map Prod.fst).Nodup := by
  refine hnodup.sublist ?_
  unfold peekAll
  induction legacy with
  | nil => exact .slnil
  | cons file legacy ih =>
      have ih := ih (List.nodup_cons.1 hnodup).2
      cases hpeek : peek fmt disk file.2 with
      | none =>
          rw [List.filterMap_cons_none (by rw [hpeek]; rfl)]
          exact ih.cons _
      | some identity =>
          rw [List.filterMap_cons_some (by rw [hpeek]; rfl)]
          exact ih.cons_cons _

theorem setAside_other {path : Text} (hstore : path ≠ storePath)
    (haside : path ≠ storePath ++ ".corrupt".toList) : setAside fmt o storePath disk path = disk path := by
  unfold setAside
  cases disk storePath with
  | none => rfl
  | some text =>
      cases hparse : Store.parse fmt.store text with
      | ok s => simp only [hparse]
      | error e =>
          simp only [hparse]
          split_ifs
          · rw [Function.update_of_ne hstore, Function.update_of_ne haside]
          · rfl

theorem save_other (w : WriteOutcome) (s : Store) {path : Text} (hstore : path ≠ storePath) :
    (save fmt w storePath s disk).2 path = disk path := by
  rcases save_cases fmt storePath s disk w with ⟨text, -, hdisk⟩ | hdisk
  · rw [hdisk, Function.update_of_ne hstore]
  · rw [hdisk]

theorem load_other {path : Text} (hstore : path ≠ storePath)
    (haside : path ≠ storePath ++ ".corrupt".toList) :
    (load fmt o storePath legacy disk).2 path = disk path := by
  have hbefore := setAside_other fmt o storePath disk hstore haside
  unfold load
  dsimp only
  split_ifs
  · unfold writeBack
    dsimp only
    split_ifs
    · rw [save_other fmt storePath _ _ _ hstore, hbefore]
    · rw [Function.update_of_ne hstore, save_other fmt storePath _ _ _ hstore, hbefore]
    · rw [save_other fmt storePath _ _ _ hstore, hbefore]
  · exact hbefore

theorem slots_stored {s : Store} (h : stored fmt disk storePath = some s) (t : Slot) : s.slots t ≠ some [] := by
  obtain ⟨text, -, hparse⟩ := Option.bind_eq_some_iff.1 h
  obtain ⟨persisted, -, -, rfl⟩ := (Store.parse_eq_ok _).1 (toOption_eq_some.1 hparse)
  intro hid
  exact absurd (Option.filter_eq_some_iff.1 hid).2 (by decide)

theorem named_of_slots {s : Store} (h : ∀ t, s.slots t ≠ some []) : s.named = s := by
  refine Store.ext_slots rfl rfl fun t => ?_
  show (s.slots t).filter _ = _
  cases hid : s.slots t with
  | none => rfl
  | some id =>
      have hne : id ≠ [] := fun hnil => h t (hid.trans (congrArg some hnil))
      simp [hne]

/-- What a load leaves on disk when its writes succeed. -/
theorem stored_load (hsaved : Saved fmt o (load fmt o storePath legacy disk).1.store) :
    stored fmt (load fmt o storePath legacy disk).2 storePath =
      some (load fmt o storePath legacy disk).1.store.named := by
  have hwritten : ∀ before, stored fmt (writeBack fmt o storePath
      (load fmt o storePath legacy disk).1.store before) storePath =
        some (load fmt o storePath legacy disk).1.store.named := by
    intro before
    obtain ⟨text, htext⟩ := hsaved.encoded
    unfold writeBack
    dsimp only
    rw [if_pos ((saved_iff fmt o storePath _ before).1 hsaved), save, htext, hsaved.write]
    exact stored_update fmt storePath before htext
  rw [load_store] at hwritten hsaved ⊢
  unfold load
  dsimp only
  split_ifs with hwrite
  · exact hwritten _
  · -- nothing was written: the store on disk is the one that was loaded
    obtain ⟨s, hstored⟩ : ∃ s, stored fmt disk storePath = some s := by
      cases hstored : stored fmt disk storePath with
      | none => simp [hstored] at hwrite
      | some s => exact ⟨s, rfl⟩
    rw [setAside_of_stored fmt o storePath disk hstored] at hwrite ⊢
    rw [hstored] at hwrite ⊢
    -- the write was left out: there is a store, and neither a repair nor a file changes it
    simp only [gather, Option.isNone_some, Bool.false_eq_true, false_or] at hwrite ⊢
    have horder := (inOrder_iff fmt legacy disk).2 hwrite
    have hself := reconcile_eq_self fmt.base64 s (peekAll fmt disk legacy) [] horder.agrees
    have hsame : s.repair.1 = s := Store.ext_slots (by simp) (by simp) fun t => by
      rw [Store.repair_slots, horder.settled]
    rw [reconcileWithLegacy, hself, hsame, named_of_slots (slots_stored fmt storePath disk hstored)]

/-- The second load. -/
theorem load_load (o' : LoadOutcome) (hfiles : Beside storePath legacy)
    (hsaved : Saved fmt o (load fmt o storePath legacy disk).1.store) :
    (load fmt o' storePath legacy (load fmt o storePath legacy disk).2).1.store =
      ((peekAll fmt disk legacy).foldl (reconcileFile fmt.base64)
        ((load fmt o storePath legacy disk).1.store.named, [])).1.repair.1 := by
  have hstored := stored_load fmt o storePath legacy disk hsaved
  rw [load_store, setAside_of_stored fmt o' storePath _ hstored, hstored]
  simp only [gather, reconcileWithLegacy]
  rw [peekAll_congr fmt legacy disk fun file hfile =>
    load_other fmt o storePath legacy disk (hfiles file hfile).1 (hfiles file hfile).2]

/-- **A second load finds the store of the first one exactly when the files settle.** -/
theorem load_twice (o' : LoadOutcome) (hnodup : (legacy.map Prod.fst).Nodup) (hfiles : Beside storePath legacy)
    (hsaved : Saved fmt o (load fmt o storePath legacy disk).1.store) :
    (load fmt o' storePath legacy (load fmt o storePath legacy disk).2).1.store =
        (load fmt o storePath legacy disk).1.store ↔
      ∀ s, stored fmt disk storePath = some s → Settles s (peekAll fmt disk legacy) := by
  have hnodup := nodup_peekAll fmt legacy disk hnodup
  rw [load_load fmt o storePath legacy disk o' hfiles hsaved, load_store]
  cases hstored : stored fmt disk storePath with
  | none =>
      have hsame : peekAll fmt (setAside fmt o storePath disk) legacy = peekAll fmt disk legacy :=
        peekAll_congr fmt legacy disk fun file hfile =>
          setAside_other fmt o storePath disk (hfiles file hfile).1 (hfiles file hfile).2
      simp only [gather, migrateFromLegacy, hsame]
      exact iff_of_true (reload_migrated fmt.base64 hnodup) fun s hs => absurd hs (Option.some_ne_none s).symm
  | some s =>
      rw [setAside_of_stored fmt o storePath disk hstored]
      simp only [gather, reconcileWithLegacy]
      rw [reload_iff fmt.base64 hnodup (slots_stored fmt storePath disk hstored)]
      exact ⟨fun h _ hs => Option.some.inj hs ▸ h, fun h => h s rfl⟩

/-- **The order of the files makes no difference to the slots and the types that a load finds.** -/
theorem load_alike (hnodup : (legacy.map Prod.fst).Nodup) {legacy' : List (Slot × Text)}
    (hperm : legacy.Perm legacy') :
    Alike (load fmt o storePath legacy disk).1.store (load fmt o storePath legacy' disk).1.store := by
  have hnodup := nodup_peekAll fmt legacy (setAside fmt o storePath disk) hnodup
  have hfiles : (peekAll fmt (setAside fmt o storePath disk) legacy).Perm
      (peekAll fmt (setAside fmt o storePath disk) legacy') := hperm.filterMap _
  rw [load_store, load_store]
  cases stored fmt disk storePath with
  | none => exact (migrate_alike fmt.base64 hfiles hnodup {}).repair
  | some s => exact (reconcile_alike fmt.base64 hfiles hnodup s).repair

/-- **Loading is a fixed point, and the order of the files does not matter, exactly when the files settle
over the store that is there.** -/
theorem load_twice_iff (o' : LoadOutcome) (hnodup : (legacy.map Prod.fst).Nodup)
    (hfiles : Beside storePath legacy) (hsaved : Saved fmt o (load fmt o storePath legacy disk).1.store) :
    ((load fmt o' storePath legacy (load fmt o storePath legacy disk).2).1.store =
        (load fmt o storePath legacy disk).1.store ∧
      ∀ legacy', legacy.Perm legacy' →
        Alike (migrateFromLegacy fmt disk legacy) (migrateFromLegacy fmt disk legacy') ∧
        Alike (load fmt o storePath legacy disk).1.store (load fmt o storePath legacy' disk).1.store) ↔
      ∀ s, stored fmt disk storePath = some s → Settles s (peekAll fmt disk legacy) := by
  rw [← load_twice fmt o storePath legacy disk o' hnodup hfiles hsaved]
  refine ⟨fun h => h.1, fun h => ⟨h, fun legacy' hperm => ⟨?_, ?_⟩⟩⟩
  · exact migrate_alike fmt.base64 (hperm.filterMap _) (nodup_peekAll fmt legacy disk hnodup) {}
  · exact load_alike fmt o storePath legacy disk hnodup hperm

end Load

/-- Nothing goes wrong with the files. -/
def allWritten : LoadOutcome :=
  ⟨true, .written, true, true⟩

/-! ## A file that is taken up, and one that is passed over -/

/-- The file of a device that was enrolled. -/
def adoptedFile : PersistedIdentity :=
  { markedFile with deviceId := "dev-b".toList }

/-- The file of the device that is on record. -/
def passedFile : PersistedIdentity :=
  { markedFile with certPem := [], certIssuedAt := 0 }

/-- What the two files show. -/
def shownFiles : List Shown :=
  [(Slot.masque, adoptedFile), (Slot.wireguard, passedFile)].filterMap fun file =>
    (file.2.toIdentity Base64.zeros).toOption.map fun identity => (file.1, identity)

/-- The store behind the first load. -/
def adoptedStore : Store :=
  (shownFiles.foldl (reconcileFile Base64.zeros) (Store.fromPersisted oneDevice, [])).1.repair.1

def adoptedFormats : Formats where
  store := Codec.ofTable [(oneDevice, ['o']), (adoptedStore.toPersisted, ['a'])]
  identity := Codec.ofTable [(adoptedFile, ['m']), (passedFile, ['w'])]
  base64 := Base64.zeros

def adoptedLegacy : List (Slot × Text) :=
  [(.masque, "aether.toml".toList), (.wireguard, "aether-wg.toml".toList)]

def adoptedDisk : Disk := fun path =>
  [("aether-store.toml".toList, ['o']), ("aether.toml".toList, ['m']),
    ("aether-wg.toml".toList, ['w'])].lookup path

def adoptedLoad : Loaded × Disk :=
  load adoptedFormats allWritten "aether-store.toml".toList adoptedLegacy adoptedDisk

theorem stored_adopted : stored adoptedFormats adoptedDisk "aether-store.toml".toList =
    some (Store.fromPersisted oneDevice) :=
  rfl

theorem peekAll_adopted : peekAll adoptedFormats adoptedDisk adoptedLegacy = shownFiles :=
  rfl

theorem load_adopted : adoptedLoad.1.store = adoptedStore := by
  unfold adoptedLoad
  rw [load_store, setAside_of_stored _ _ _ _ stored_adopted, stored_adopted]
  rfl

theorem saved_adopted : Saved adoptedFormats allWritten adoptedLoad.1.store where
  encoded := by
    rw [load_adopted]
    exact ⟨['a'], (Store.toText_eq_ok _).2 (by decide)⟩
  write := rfl
  readBack := rfl

theorem settles_adopted : Settles (Store.fromPersisted oneDevice) shownFiles where
  there file hfile hslot := by
    have hrecord : ∀ file ∈ shownFiles, (Store.fromPersisted oneDevice).slots file.1 = some file.2.deviceId →
        ((Store.fromPersisted oneDevice).device file.2.deviceId).isSome := by decide
    exact .inl (hrecord file hfile hslot)
  told file hfile hslot hfamily := by
    have hwireguard : ∀ file ∈ shownFiles, (Store.fromPersisted oneDevice).slots file.1 = some file.2.deviceId →
        file.1.family ≠ .masque := by decide
    exact absurd hfamily (hwireguard file hfile hslot)

/-- The store that was there is loaded with one file more, a second load leaves it as it is, and the files may
stand in either order. -/
theorem load_twice_iff_adopted : adoptedLoad.1.store.slots .masque = some "dev-b".toList ∧
    (load adoptedFormats allWritten "aether-store.toml".toList adoptedLegacy adoptedLoad.2).1.store =
      adoptedLoad.1.store ∧
    Alike adoptedLoad.1.store
      (load adoptedFormats allWritten "aether-store.toml".toList adoptedLegacy.reverse adoptedDisk).1.store := by
  have hbeside : Beside "aether-store.toml".toList adoptedLegacy := by
    unfold Beside
    decide
  have hsettles : ∀ s, stored adoptedFormats adoptedDisk "aether-store.toml".toList = some s →
      Settles s (peekAll adoptedFormats adoptedDisk adoptedLegacy) := by
    intro s hs
    cases stored_adopted.symm.trans hs
    exact settles_adopted
  obtain ⟨hagain, horder⟩ := (load_twice_iff adoptedFormats allWritten "aether-store.toml".toList adoptedLegacy
    adoptedDisk allWritten (by decide) hbeside saved_adopted).2 hsettles
  refine ⟨?_, hagain, (horder adoptedLegacy.reverse (List.reverse_perm _).symm).2⟩
  rw [load_adopted]
  decide

/-! ## A slot that comes back -/

/-- A store whose MASQUE slot names a device that is not on record. -/
def slotOnly : Persisted where
  version := 1
  devices := ∅
  slots := (∅ : Finmap fun _ : Text => Text).insert Slot.masque.key "dev-a".toList
  registration := {}

def nothing : Persisted where
  version := 1
  devices := ∅
  slots := ∅
  registration := {}

/-- The text of either store, by its slots. -/
def tomlOfSlots (slots : Text) : Text :=
  "version = 1\n\n[devices]\n\n[slots]\n".toList ++ (slots ++
    ("\n[registration]\nattempts = 0\nlast_attempt_at = 0\n" ++
      "next_attempt_at = 0\nlast_reason = \"\"\n").toList)

def slotOnlyToml : Text :=
  tomlOfSlots "masque = \"dev-a\"\n".toList

def nothingToml : Text :=
  tomlOfSlots []

section SlotOnly

variable (storeToml emptyToml fileToml : Text)

def slotOnlyFormats : Formats where
  store := Codec.ofTable [(slotOnly, storeToml), (nothing, emptyToml)]
  identity := Codec.ofTable [(markedFile, fileToml)]
  base64 := Base64.zeros

theorem stored_slotOnly : stored (slotOnlyFormats storeToml emptyToml fileToml)
    (markedDisk storeToml fileToml) "aether-store.toml".toList = some (Store.fromPersisted slotOnly) := by
  have hread : markedDisk storeToml fileToml "aether-store.toml".toList = some storeToml := by
    have hne : "aether-store.toml".toList ≠ "aether.toml".toList := by decide
    rw [markedDisk, Function.update_of_ne hne, Function.update_self]
  have hparse : Store.parse (slotOnlyFormats storeToml emptyToml fileToml).store storeToml =
      .ok (Store.fromPersisted slotOnly) :=
    (Store.parse_eq_ok _).2 ⟨slotOnly, Codec.ofTable_decode_head _ _ _, by decide, rfl⟩
  simp only [stored, hread, Option.bind_some, hparse, Except.toOption]

theorem peekAll_slotOnly : ∃ identity : Identity, identity.deviceId = "dev-a".toList ∧
    peekAll (slotOnlyFormats storeToml emptyToml fileToml) (markedDisk storeToml fileToml)
      [(.masque, "aether.toml".toList)] = [(.masque, identity)] := by
  obtain ⟨identity, hid, -, hpeek⟩ := peek_marked storeToml fileToml
  refine ⟨identity, hid, ?_⟩
  have hsame : peek (slotOnlyFormats storeToml emptyToml fileToml) (markedDisk storeToml fileToml)
      "aether.toml".toList = some identity := hpeek
  simp only [peekAll, List.filterMap_cons, hsame, Option.map_some, List.filterMap_nil]

theorem slots_slotOnly : (Store.fromPersisted slotOnly).slots .masque = some "dev-a".toList := by
  decide

/-- The first load clears the slot. -/
theorem load_slotOnly (o : LoadOutcome) :
    (load (slotOnlyFormats storeToml emptyToml fileToml) o "aether-store.toml".toList
      [(.masque, "aether.toml".toList)] (markedDisk storeToml fileToml)).1.store = {} := by
  obtain ⟨identity, hid, hpeekAll⟩ := peekAll_slotOnly storeToml emptyToml fileToml
  have hstored := stored_slotOnly storeToml emptyToml fileToml
  rw [load_store, setAside_of_stored _ o _ _ hstored, hstored]
  simp only [gather, reconcileWithLegacy, hpeekAll, List.foldl_cons, List.foldl_nil, reconcileFile, hid,
    slots_slotOnly, if_true]
  refine Store.ext_slots rfl rfl fun t => ?_
  rw [Store.repair_slots]
  cases t <;> decide

theorem saved_slotOnly (hne : storeToml ≠ emptyToml) :
    Saved (slotOnlyFormats storeToml emptyToml fileToml) ⟨true, .written, true, true⟩ {} where
  encoded := by
    refine ⟨emptyToml, (Store.toText_eq_ok _).2 ?_⟩
    have hother : slotOnly ≠ nothing := fun h =>
      absurd (congrArg (fun p => p.slots.lookup Slot.masque.key) h) (by decide)
    have hempty : ({} : Store).toPersisted = nothing := rfl
    rw [hempty]
    simp [slotOnlyFormats, Codec.ofTable, Codec.written, Codec.find, hother, hne]
  write := rfl
  readBack := rfl

theorem not_settles_slotOnly : ¬ Settles (Store.fromPersisted slotOnly)
    (peekAll (slotOnlyFormats storeToml emptyToml fileToml) (markedDisk storeToml fileToml)
      [(.masque, "aether.toml".toList)]) := by
  obtain ⟨identity, hid, hpeekAll⟩ := peekAll_slotOnly storeToml emptyToml fileToml
  rw [hpeekAll]
  intro hsettles
  have hheld : (Store.fromPersisted slotOnly).slots .masque = some identity.deviceId :=
    slots_slotOnly.trans (congrArg some hid.symm)
  rcases hsettles.there (.masque, identity) (List.mem_singleton_self _) hheld with hthere | ⟨other, hadopts, -⟩
  · rw [hid] at hthere
    exact absurd hthere (by decide)
  · obtain ⟨hmem, hother⟩ := hadopts
    rw [List.mem_singleton.1 hmem] at hother
    exact hother hheld

end SlotOnly

theorem slotOnlyToml_ne : slotOnlyToml ≠ nothingToml := fun h =>
  absurd (List.append_cancel_right (List.append_cancel_left h)) (by decide)

def slotOnlyLoad : Loaded × Disk :=
  load (slotOnlyFormats slotOnlyToml nothingToml markedToml) allWritten "aether-store.toml".toList
    [(.masque, "aether.toml".toList)] (markedDisk slotOnlyToml markedToml)

def slotOnlyAgain : Loaded × Disk :=
  load (slotOnlyFormats slotOnlyToml nothingToml markedToml) allWritten "aether-store.toml".toList
    [(.masque, "aether.toml".toList)] slotOnlyLoad.2

theorem beside_slotOnly : Beside "aether-store.toml".toList [(.masque, "aether.toml".toList)] := by
  intro file hfile
  rw [List.mem_singleton.1 hfile]
  decide

/-- The slot of a device that is not on record is cleared by one load, and filled again by the next, from
the file that shows the device. -/
theorem load_drifts :
    Beside "aether-store.toml".toList [(.masque, "aether.toml".toList)] ∧
      Saved (slotOnlyFormats slotOnlyToml nothingToml markedToml) allWritten slotOnlyLoad.1.store ∧
      slotOnlyAgain.1.store ≠ slotOnlyLoad.1.store := by
  have hne := slotOnlyToml_ne
  unfold slotOnlyAgain slotOnlyLoad
  generalize slotOnlyToml = storeToml, nothingToml = emptyToml, markedToml = fileToml at *
  have hsaved := (load_slotOnly storeToml emptyToml fileToml allWritten) ▸
    saved_slotOnly storeToml emptyToml fileToml hne
  refine ⟨beside_slotOnly, hsaved, fun hsame => ?_⟩
  exact not_settles_slotOnly _ _ _
    ((load_twice _ _ _ _ _ _ (by decide) beside_slotOnly hsaved).1 hsame _
      (stored_slotOnly _ _ _))

end Account
end AuroraVpn
