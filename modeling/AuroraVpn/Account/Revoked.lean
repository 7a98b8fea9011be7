import AuroraVpn.Account.Load

/-!
# Revoked — no key that an enrolment overwrote is offered after a load

A load is told of an enrolment by the stored record of a device, or by an identity file that shows a
certificate for it.  A reconciliation passes over a file that names the device its slot already
holds, so a certificate in such a file is not noticed.

* `deviceIsMasque_migrate`, `deviceIsMasque_reconcile`: the enrolments a store knows of after the
  files were read.
* `load_withdraws_iff`: a load withdraws a device exactly when it notices the enrolment.
-/

namespace AuroraVpn
namespace Account

open Fallible

/-- The device a slot holds once `before` was read into a store: that of the last file for the
slot, or else the one the slot held already. -/
def holder (s : Store) (before : List Shown) (slot : Slot) : Option Text :=
  ((before.filter fun file => file.1 = slot).getLast?.map fun file => file.2.deviceId).or
    (s.slots slot)

/-- A file of `files` that shows a certificate for `d`, while its slot holds another device. -/
def News (s : Store) (files : List Shown) (d : Text) : Prop :=
  ∃ before file after, files = before ++ file :: after ∧ Certifies file d ∧
    holder s before file.1 ≠ some d

section Read

variable (base64 : Base64) (s : Store) (files : List Shown) (d : Text)

theorem holder_append (file : Shown) (slot : Slot) : holder s (files ++ [file]) slot =
    if slot = file.1 then some file.2.deviceId else holder s files slot := by
  by_cases hslot : slot = file.1
  · subst hslot
    simp [holder]
  · have hne : ¬file.1 = slot := fun h => hslot h.symm
    simp [holder, hslot, hne]

theorem slots_reconcile (slot : Slot) :
    (files.foldl (reconcileFile base64) (s, [])).1.slots slot = holder s files slot := by
  induction files using List.reverseRecOn generalizing slot with
  | nil => rfl
  | append_singleton files file ih =>
      rw [List.foldl_append, List.foldl_cons, List.foldl_nil, reconcileFile_slots, holder_append, ih]

theorem slots_migrate (slot : Slot) :
    (files.foldl (migrateFile base64) s).slots slot = holder s files slot := by
  induction files using List.reverseRecOn generalizing slot with
  | nil => rfl
  | append_singleton files file ih =>
      rw [List.foldl_append, List.foldl_cons, List.foldl_nil, migrateFile_slots, holder_append, ih]

theorem news_append (file : Shown) : News s (files ++ [file]) d ↔
    News s files d ∨ (Certifies file d ∧ holder s files file.1 ≠ some d) := by
  constructor
  · rintro ⟨before, file', after, hsplit, hcert, hholder⟩
    rcases List.eq_nil_or_concat after with rfl | ⟨after, last, rfl⟩
    · obtain ⟨rfl, hlast⟩ := List.append_inj' hsplit rfl
      obtain rfl : file = file' := by simpa using hlast
      exact .inr ⟨hcert, hholder⟩
    · rw [List.concat_eq_append, ← List.cons_append, ← List.append_assoc] at hsplit
      obtain ⟨rfl, -⟩ := List.append_inj' hsplit rfl
      exact .inl ⟨before, file', after, rfl, hcert, hholder⟩
  · rintro (⟨before, file', after, rfl, hcert, hholder⟩ | ⟨hcert, hholder⟩)
    · exact ⟨before, file', after ++ [file], by simp, hcert, hholder⟩
    · exact ⟨files, file, [], rfl, hcert, hholder⟩

/-- **A reconciliation knows of the enrolments the store knew of, and of those that are news.** -/
theorem deviceIsMasque_reconcile :
    (files.foldl (reconcileFile base64) (s, [])).1.deviceIsMasque d = true ↔
      s.deviceIsMasque d = true ∨ News s files d := by
  induction files using List.reverseRecOn with
  | nil =>
      have hnone : ¬News s [] d := by
        rintro ⟨before, file, after, h, -⟩
        simp at h
      simp [hnone]
  | append_singleton files file ih =>
      rw [List.foldl_append, List.foldl_cons, List.foldl_nil, reconcileFile_deviceIsMasque, ih,
        slots_reconcile, news_append, or_assoc]
      refine or_congr_right (or_congr_right (and_congr_right fun hcert => ?_))
      rw [hcert.1]

/-- **A migration knows of every enrolment that a file shows.** -/
theorem deviceIsMasque_migrate : (files.foldl (migrateFile base64) s).deviceIsMasque d = true ↔
    s.deviceIsMasque d = true ∨ ∃ file ∈ files, Certifies file d := by
  induction files using List.reverseRecOn with
  | nil => simp
  | append_singleton files file ih =>
      rw [List.foldl_append, List.foldl_cons, List.foldl_nil, migrateFile_deviceIsMasque, ih]
      simp [or_assoc, or_and_right, exists_or]

end Read

/-! ## Loads -/

section Load

variable (fmt : Formats) (o : LoadOutcome) (storePath : Text) (legacy : List (Slot × Text))
variable (disk : Disk) (d : Text)

/-- What a load is told of an enrolment of `d`. -/
def Enrolled : Prop :=
  (∃ s, stored fmt disk storePath = some s ∧ s.deviceIsMasque d = true) ∨
    ∃ file ∈ peekAll fmt disk legacy, Certifies file d

/-- The store already says so, or there is none, or the file is for a slot that holds another
device by then. -/
def Noticed : Prop :=
  match stored fmt disk storePath with
  | some s => s.deviceIsMasque d = true ∨ News s (peekAll fmt disk legacy) d
  | none => ∃ file ∈ peekAll fmt (setAside fmt o storePath disk) legacy, Certifies file d

/-- The record of `d` says it was enrolled, and no WireGuard slot names it. -/
def Withdrawn (s : Store) (d : Text) : Prop :=
  (∃ device, s.device d = some device ∧ device.tunnelType = .masque) ∧
    ∀ slot : Slot, slot.family = .wireguard → s.deviceId slot ≠ some d

theorem deviceIsMasque_eq_true {s : Store} : s.deviceIsMasque d = true ↔
    ∃ device, s.device d = some device ∧ device.tunnelType = .masque := by
  simp [Store.deviceIsMasque, Option.any_eq_true]

theorem repair_withdrawn {s : Store} : Withdrawn s.repair.1 d ↔ s.deviceIsMasque d = true := by
  rw [deviceIsMasque_eq_true]
  constructor
  · rintro ⟨⟨device, hdevice, htunnel⟩, -⟩
    exact ⟨device, by simpa using hdevice, htunnel⟩
  · rintro ⟨device, hdevice, htunnel⟩
    exact ⟨⟨device, by simpa using hdevice, htunnel⟩,
      fun slot hslot => s.repair_revokes slot hslot hdevice htunnel⟩

theorem setAside_of_stored {s : Store} (h : stored fmt disk storePath = some s) :
    setAside fmt o storePath disk = disk := by
  unfold stored at h
  unfold setAside
  cases htext : disk storePath with
  | none => rfl
  | some text =>
      simp only [htext, Option.bind_some, toOption_eq_some] at h
      simp only [h]

theorem load_withdrawn_iff :
    Withdrawn (load fmt o storePath legacy disk).1.store d ↔
      Noticed fmt o storePath legacy disk d := by
  rw [load_store, repair_withdrawn]
  unfold Noticed
  cases hstored : stored fmt disk storePath with
  | some s =>
      rw [setAside_of_stored fmt o storePath disk hstored]
      exact deviceIsMasque_reconcile fmt.base64 s _ d
  | none =>
      have hempty : ¬({} : Store).deviceIsMasque d = true := by
        simp [Store.deviceIsMasque, Store.device]
      refine (deviceIsMasque_migrate fmt.base64 {} _ d).trans ?_
      simp [hempty]

/-- **A load withdraws an enrolled device exactly when it notices the enrolment.** -/
theorem load_withdraws_iff :
    (Enrolled fmt storePath legacy disk d →
        Withdrawn (load fmt o storePath legacy disk).1.store d) ↔
      (Enrolled fmt storePath legacy disk d → Noticed fmt o storePath legacy disk d) := by
  rw [load_withdrawn_iff]

end Load

/-! ## A mark that is passed over -/

/-- An all-zero key. -/
def zeroKey : Text :=
  "AAAAAAAAAAAAAAAAAAAAAAAAAAAAAAAAAAAAAAAAAAA=".toList

/-- A store of an install that registered one device for WireGuard. -/
def oneDevice : Persisted where
  version := 1
  devices := (∅ : Devices).insert "dev-a".toList {
    accessToken := "token".toList
    ipv4 := "172.16.0.2".toList
    ipv6 := "2606:4700:110::2".toList
    wgPrivateKey := zeroKey
    wgPeerPublicKey := zeroKey
    clientId := "AAAA".toList
    registeredAt := 1700000000 }
  slots := (∅ : Finmap fun _ : Text => Text).insert Slot.wireguard.key "dev-a".toList
  registration := {}

def oneDeviceToml : Text :=
  ("version = 1\n\n" ++
    "[devices.dev-a]\n" ++
    "access_token = \"token\"\n" ++
    "ipv4 = \"172.16.0.2\"\n" ++
    "ipv6 = \"2606:4700:110::2\"\n" ++
    "wg_private_key = \"AAAAAAAAAAAAAAAAAAAAAAAAAAAAAAAAAAAAAAAAAAA=\"\n" ++
    "wg_peer_public_key = \"AAAAAAAAAAAAAAAAAAAAAAAAAAAAAAAAAAAAAAAAAAA=\"\n" ++
    "client_id = \"AAAA\"\n" ++
    "organization = \"\"\n" ++
    "gateway_proxy = \"\"\n" ++
    "assigned_endpoint = \"\"\n" ++
    "registered_at = 1700000000\n" ++
    "tunnel_type = \"wireguard\"\n" ++
    "enrolment_pending_since = 0\n" ++
    "cert_pem = \"\"\n" ++
    "key_pem = \"\"\n" ++
    "cert_issued_at = 0\n" ++
    "refused_at = 0\n\n" ++
    "[slots]\n" ++
    "wireguard = \"dev-a\"\n\n" ++
    "[registration]\n" ++
    "attempts = 0\n" ++
    "last_attempt_at = 0\n" ++
    "next_attempt_at = 0\n" ++
    "last_reason = \"\"\n").toList

/-- The file of that device, with the mark an earlier build leaves on one it enrolled for MASQUE. -/
def markedFile : PersistedIdentity where
  deviceId := "dev-a".toList
  accessToken := "token".toList
  certPem := "-----BEGIN CERTIFICATE-----".toList
  certIssuedAt := 1710000000
  ipv4 := "172.16.0.2".toList
  ipv6 := "2606:4700:110::2".toList
  wgPrivateKey := zeroKey
  wgPeerPublicKey := zeroKey
  clientId := "AAAA".toList

def markedToml : Text :=
  ("device_id = \"dev-a\"\n" ++
    "access_token = \"token\"\n" ++
    "cert_pem = \"-----BEGIN CERTIFICATE-----\"\n" ++
    "key_pem = \"\"\n" ++
    "cert_issued_at = 1710000000\n" ++
    "ipv4 = \"172.16.0.2\"\n" ++
    "ipv6 = \"2606:4700:110::2\"\n" ++
    "wg_private_key = \"AAAAAAAAAAAAAAAAAAAAAAAAAAAAAAAAAAAAAAAAAAA=\"\n" ++
    "wg_peer_public_key = \"AAAAAAAAAAAAAAAAAAAAAAAAAAAAAAAAAAAAAAAAAAA=\"\n" ++
    "client_id = \"AAAA\"\n" ++
    "organization = \"\"\n" ++
    "gateway_proxy = \"\"\n" ++
    "assigned_endpoint = \"\"\n").toList

section Marked

variable (storeToml fileToml : Text)

def markedFormats : Formats where
  store := Codec.ofTable [(oneDevice, storeToml)]
  identity := Codec.ofTable [(markedFile, fileToml)]
  base64 := Base64.zeros

def markedDisk : Disk :=
  Function.update (Function.update (fun _ => none) "aether-store.toml".toList (some storeToml))
    "aether.toml".toList (some fileToml)

theorem stored_marked : stored (markedFormats storeToml fileToml) (markedDisk storeToml fileToml)
    "aether-store.toml".toList = some (Store.fromPersisted oneDevice) := by
  have hread : markedDisk storeToml fileToml "aether-store.toml".toList = some storeToml := by
    have hne : "aether-store.toml".toList ≠ "aether.toml".toList := by decide
    rw [markedDisk, Function.update_of_ne hne, Function.update_self]
  have hparse : Store.parse (markedFormats storeToml fileToml).store storeToml =
      .ok (Store.fromPersisted oneDevice) :=
    (Store.parse_eq_ok _).2 ⟨oneDevice, Codec.ofTable_decode_head _ _ _, by decide, rfl⟩
  simp only [stored, hread, Option.bind_some, hparse, Except.toOption]

theorem peek_marked : ∃ identity : Identity, identity.deviceId = "dev-a".toList ∧
    identity.certPem ≠ [] ∧
    peek (markedFormats storeToml fileToml) (markedDisk storeToml fileToml) "aether.toml".toList =
      some identity := by
  obtain ⟨identity, hidentity, hid, hcert⟩ :
      ∃ identity, markedFile.toIdentity Base64.zeros = .ok identity ∧
        identity.deviceId = "dev-a".toList ∧ identity.certPem ≠ [] :=
    ⟨_, rfl, rfl, by decide⟩
  exact ⟨identity, hid, hcert, (peek_eq_some _).2 ⟨fileToml, Function.update_self _ _ _,
    (parse_eq_ok _).2 ⟨markedFile, Codec.ofTable_decode_head _ _ _, hidentity⟩⟩⟩

theorem peekAll_marked : ∃ identity : Identity, identity.deviceId = "dev-a".toList ∧
    identity.certPem ≠ [] ∧
    peekAll (markedFormats storeToml fileToml) (markedDisk storeToml fileToml)
      [(.wireguard, "aether.toml".toList)] = [(.wireguard, identity)] := by
  obtain ⟨identity, hid, hcert, hpeek⟩ := peek_marked storeToml fileToml
  refine ⟨identity, hid, hcert, ?_⟩
  simp only [peekAll, List.filterMap_cons, hpeek, Option.map_some, List.filterMap_nil]

theorem load_marked (o : LoadOutcome) :
    (load (markedFormats storeToml fileToml) o "aether-store.toml".toList
      [(.wireguard, "aether.toml".toList)] (markedDisk storeToml fileToml)).1.store =
        (Store.fromPersisted oneDevice).repair.1 := by
  obtain ⟨identity, hid, -, hpeekAll⟩ := peekAll_marked storeToml fileToml
  have hstored := stored_marked storeToml fileToml
  have hheld : (Store.fromPersisted oneDevice).slots .wireguard = some "dev-a".toList := by decide
  rw [load_store, setAside_of_stored _ o _ _ hstored, hstored]
  simp only [gather, reconcileWithLegacy, hpeekAll, List.foldl_cons, List.foldl_nil,
    reconcileFile, hid, hheld, if_true]

end Marked

/-- A device that its own file shows to be enrolled goes on filling the WireGuard slot. -/
theorem load_offers_revoked :
    ¬(Enrolled (markedFormats oneDeviceToml markedToml) "aether-store.toml".toList
          [(.wireguard, "aether.toml".toList)] (markedDisk oneDeviceToml markedToml) "dev-a".toList →
        Withdrawn (load (markedFormats oneDeviceToml markedToml) ⟨true, .written, true, true⟩
          "aether-store.toml".toList [(.wireguard, "aether.toml".toList)]
          (markedDisk oneDeviceToml markedToml)).1.store "dev-a".toList) := by
  intro h
  obtain ⟨identity, hid, hcert, hpeekAll⟩ := peekAll_marked oneDeviceToml markedToml
  have henrolled := h (.inr ⟨_, by rw [hpeekAll]; exact List.mem_singleton_self _, hid, hcert⟩)
  rw [load_marked] at henrolled
  exact henrolled.2 .wireguard rfl (by decide)

end Account
end AuroraVpn
