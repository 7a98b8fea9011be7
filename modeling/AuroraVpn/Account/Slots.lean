import AuroraVpn.Account.Provision

/-!
# Slots — where an install keeps its identities

`derive_sibling_path`, `identity_slots`, `store_path` and `identity_site` of `lib.rs`.
-/

namespace AuroraVpn
namespace Account

/-- What the surroundings say of where the files are. -/
structure PathSettings where
  /-- `AETHER_WG_CONFIG`. -/
  wgConfig : Option Text
  /-- `AETHER_MASQUE_CONFIG`. -/
  masqueConfig : Option Text
  teamScope : Option Text

def isSeparator (c : Char) : Bool :=
  c = '/' ∨ c = '\\'

/-- What follows the last dot of the file name, when it has one. -/
def extension (base : Text) : Option Text :=
  let name := base.reverse.takeWhile fun c => !isSeparator c
  if '.' ∈ name then some (name.takeWhile (· ≠ '.')).reverse else none

def deriveSiblingPath (base suffix : Text) : Text :=
  match extension base with
  | some ext =>
      let dot := base.length - (ext.length + 1)
      base.take dot ++ '-' :: suffix ++ base.drop dot
  | none => base ++ '-' :: suffix

section Paths

variable (settings : PathSettings) (base : Text)

def warpConfigPath : Text :=
  settings.wgConfig.getD
    (settings.teamScope.elim base fun team => deriveSiblingPath base ("team-".toList ++ team))

def masqueConfigPath : Text :=
  settings.masqueConfig.getD (deriveSiblingPath (warpConfigPath settings base) "masque".toList)

/-- Every identity file an install can hold, and the slot each one fills. -/
def identitySlots : List (Slot × Text) :=
  let warp := warpConfigPath settings base
  let masque := masqueConfigPath settings base
  [(.wireguard, warp), (.wireguardInner, deriveSiblingPath warp "secondary".toList),
    (.masque, masque), (.masqueInner, deriveSiblingPath masque "secondary".toList)]

def storePath : Text :=
  deriveSiblingPath (warpConfigPath settings base) "store".toList

def identitySite (slot : Slot) : IdentitySite where
  slot := slot
  path := (((identitySlots settings base).find? fun file => file.1 = slot).map Prod.snd).getD
    (warpConfigPath settings base)
  storePath := storePath settings base
  legacy := identitySlots settings base

end Paths

/-- The files of a site are apart, each slot has one, and the site's own is among them. -/
structure IdentitySite.Apart (site : IdentitySite) : Prop where
  mem : (site.slot, site.path) ∈ site.legacy
  slots : (site.legacy.map Prod.fst).Nodup
  paths : (site.storePath :: site.legacy.map Prod.snd).Nodup

section Apart

variable {site : IdentitySite} (h : site.Apart) {slot : Slot} {path : Text}
include h

theorem IdentitySite.Apart.path_ne_store (hmem : (slot, path) ∈ site.legacy) :
    path ≠ site.storePath := by
  rintro rfl
  exact (List.nodup_cons.1 h.paths).1 (List.mem_map_of_mem (f := Prod.snd) hmem)

theorem IdentitySite.Apart.own_ne_store : site.path ≠ site.storePath :=
  h.path_ne_store h.mem

theorem IdentitySite.Apart.path_of_slot (hmem : (site.slot, path) ∈ site.legacy) :
    path = site.path :=
  congrArg Prod.snd (List.inj_on_of_nodup_map h.slots hmem h.mem rfl)

theorem IdentitySite.Apart.slot_of_path (hmem : (slot, site.path) ∈ site.legacy) :
    slot = site.slot :=
  congrArg Prod.fst (List.inj_on_of_nodup_map (List.nodup_cons.1 h.paths).2 hmem h.mem rfl)

end Apart

end Account
end AuroraVpn
