import AuroraVpn.Lib.Codec
import AuroraVpn.Lib.Except
import Mathlib.Data.Finmap

/-!
# Store — the devices of an install, and the slots that point at them

`identity.rs`: one record a device, and four slots each of which may name one.  Enrolling a device
for MASQUE overwrites its WireGuard key.

* `fromPersisted_toPersisted`, `parse_toText`: a store that was written is read back.
-/

namespace AuroraVpn
namespace Account

open Fallible

def STORE_VERSION : UInt32 := 1

/-- What Cloudflare holds in the `key` field of a device. -/
inductive TunnelType
  | wireguard
  | masque
  deriving DecidableEq, Repr

inductive Family
  | wireguard
  | masque
  deriving DecidableEq, Repr

inductive Slot
  | wireguard
  | wireguardInner
  | masque
  | masqueInner
  deriving DecidableEq, Repr

namespace Slot

def all : List Slot :=
  [.wireguard, .wireguardInner, .masque, .masqueInner]

def family : Slot → Family
  | .wireguard | .wireguardInner => .wireguard
  | .masque | .masqueInner => .masque

def key : Slot → Text
  | .wireguard => "wireguard".toList
  | .wireguardInner => "wireguard_inner".toList
  | .masque => "masque".toList
  | .masqueInner => "masque_inner".toList

theorem mem_all (slot : Slot) : slot ∈ all := by
  cases slot <;> decide

theorem key_injective {s t : Slot} (h : s.key = t.key) : s = t := by
  revert h
  cases s <;> cases t <;> decide

end Slot

structure Device where
  accessToken : Text := []
  ipv4 : Text := []
  ipv6 : Text := []
  wgPrivateKey : Text := []
  wgPeerPublicKey : Text := []
  clientId : Text := []
  organization : Text := []
  gatewayProxy : Text := []
  assignedEndpoint : Text := []
  registeredAt : UInt64 := 0
  tunnelType : TunnelType := .wireguard
  /-- Set before an enrolment is asked for, cleared when its answer is stored. -/
  enrolmentPendingSince : UInt64 := 0
  certPem : Text := []
  keyPem : Text := []
  certIssuedAt : UInt64 := 0
  refusedAt : UInt64 := 0
  deriving DecidableEq, Repr

namespace Device

/-- Whether Cloudflare would recognise the WireGuard key of the device. -/
def wireguardIsTrustworthy (d : Device) : Bool :=
  d.tunnelType = .wireguard ∧ d.enrolmentPendingSince = 0 ∧ d.refusedAt = 0

def hasCertificate (d : Device) : Bool :=
  d.certPem ≠ [] ∧ d.keyPem ≠ []

end Device

/-- What this address has spent, and when it may spend again. -/
structure RegistrationBudget where
  attempts : UInt32 := 0
  lastAttemptAt : UInt64 := 0
  nextAttemptAt : UInt64 := 0
  lastReason : String := ""
  deriving DecidableEq, Repr

abbrev Devices := Finmap fun _ : Text => Device

/-- The store as its file spells it. -/
structure Persisted where
  version : UInt32
  devices : Devices
  slots : Finmap fun _ : Text => Text
  registration : RegistrationBudget
  deriving DecidableEq

structure Store where
  devices : Devices := ∅
  slots : Slot → Option Text := fun _ => none
  registration : RegistrationBudget := {}

namespace Store

def device (s : Store) (id : Text) : Option Device :=
  s.devices.lookup id

def deviceId (s : Store) (slot : Slot) : Option Text :=
  s.slots slot

/-- The device filling a slot and its id, when it is usable there. -/
def takeUsable (s : Store) (slot : Slot) : Option (Text × Device) := do
  let id ← s.slots slot
  let device ← s.device id
  if slot.family = .wireguard ∧ !device.wireguardIsTrustworthy then
    none
  else
    some (id, device)

def put (s : Store) (id : Text) (device : Device) : Store :=
  { s with devices := s.devices.insert id device }

def setSlot (s : Store) (slot : Slot) (id : Option Text) : Store :=
  { s with slots := Function.update s.slots slot id }

/-- `device_mut`: changes the record of a device that is there. -/
def modify (s : Store) (id : Text) (f : Device → Device) : Store :=
  match s.device id with
  | none => s
  | some device => s.put id (f device)

/-! ## The file of the store -/

def fromPersisted (p : Persisted) : Store where
  devices := p.devices
  slots slot := (p.slots.lookup slot.key).filter fun id => id ≠ []
  registration := p.registration

def persistedSlots (s : Store) : Finmap fun _ : Text => Text :=
  Slot.all.foldl (fun m slot => (s.slots slot).elim m fun id => m.insert slot.key id) ∅

def toPersisted (s : Store) : Persisted where
  version := STORE_VERSION
  devices := s.devices
  slots := s.persistedSlots
  registration := s.registration

def otherVersion (version : UInt32) : AetherError :=
  .other ("this identity store was written by a different version of WhiteAesther (format " ++
    toString version ++ ", this build reads " ++ toString STORE_VERSION ++ ")")

def toText (toml : Codec Persisted) (s : Store) : Except AetherError Text :=
  (toml.encode s.toPersisted).mapError fun e => .other ("identity store encode: " ++ e)

def parse (toml : Codec Persisted) (text : Text) : Except AetherError Store := do
  let persisted ← (toml.decode text).mapError fun e => .other ("identity store parse: " ++ e)
  if persisted.version = 0 ∨ STORE_VERSION < persisted.version then
    throw (otherVersion persisted.version)
  return fromPersisted persisted

/-- A store as its file keeps it: a slot that names the empty id is left out. -/
def named (s : Store) : Store :=
  { s with slots := fun slot => (s.slots slot).filter fun id => id ≠ [] }

theorem persistedSlots_lookup (s : Store) (slot : Slot) :
    s.persistedSlots.lookup slot.key = s.slots slot := by
  have hstep : ∀ (m : Finmap fun _ : Text => Text) (t : Slot),
      ((s.slots t).elim m fun id => m.insert t.key id).lookup slot.key =
        if t = slot then (s.slots slot).or (m.lookup slot.key) else m.lookup slot.key := by
    intro m t
    by_cases ht : t = slot
    · subst ht
      cases s.slots t <;> simp [Finmap.lookup_insert]
    · have hkey : slot.key ≠ t.key := fun h => ht (Slot.key_injective h).symm
      cases s.slots t <;> simp [ht, Finmap.lookup_insert_of_ne, hkey]
  simp only [persistedSlots, Slot.all, List.foldl_cons, List.foldl_nil, hstep]
  cases slot <;> simp

theorem fromPersisted_toPersisted (s : Store) : fromPersisted s.toPersisted = s.named := by
  simp only [fromPersisted, toPersisted, persistedSlots_lookup]
  rfl

theorem toText_eq_ok (toml : Codec Persisted) {s : Store} {text : Text} :
    s.toText toml = .ok text ↔ toml.encode s.toPersisted = .ok text :=
  mapError_eq_ok

theorem parse_eq_ok (toml : Codec Persisted) {s : Store} {text : Text} :
    parse toml text = .ok s ↔ ∃ persisted, toml.decode text = .ok persisted ∧
      ¬(persisted.version = 0 ∨ STORE_VERSION < persisted.version) ∧
      fromPersisted persisted = s := by
  simp only [parse, bind_eq_ok, mapError_eq_ok]
  refine exists_congr fun persisted => and_congr_right fun _ => ?_
  split_ifs with hversion
  · simp [hversion, throw, throwThe, MonadExceptOf.throw]
  · simp [hversion, pure, Except.pure]

/-- **What was written is read back.** -/
theorem parse_toText (toml : Codec Persisted) {s : Store} {text : Text}
    (h : s.toText toml = .ok text) : parse toml text = .ok s.named :=
  (parse_eq_ok toml).2 ⟨s.toPersisted, toml.decode_encode _ _ ((toText_eq_ok toml).1 h), by
    simp only [toPersisted]
    decide, fromPersisted_toPersisted s⟩

end Store

end Account
end AuroraVpn
