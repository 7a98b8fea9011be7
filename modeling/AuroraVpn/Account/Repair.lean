import AuroraVpn.Account.Store

/-!
# Repair — one device, one family

`Store.repair` of `identity.rs`: two passes over the slots, the first of which clears a slot whose
device is gone or has no WireGuard key left, and the second one that shares its device with the
other family.

* `repair_cleared`: a repair clears slots and does nothing else.
* `repair_slots`: what is left in each slot, by one look at the store before.
* `repair_revokes`: after a repair no WireGuard slot names an enrolled device.
* `repair_eq_self_iff`, `repair_repair`: a repair that notes nothing changes nothing, and a repaired
  store needs none.
-/

namespace AuroraVpn
namespace Account

/-- What a repair changed. -/
structure Repairs where
  dangling : List Slot := []
  revoked : List Slot := []
  shared : List Slot := []
  deriving DecidableEq, Repr

def Repairs.isEmpty (r : Repairs) : Bool :=
  r.dangling.isEmpty && r.revoked.isEmpty && r.shared.isEmpty

namespace Store

/-- Clears a slot whose device is gone, or is an enrolled one in a WireGuard slot. -/
def clearLost (st : Store × Repairs) (slot : Slot) : Store × Repairs :=
  match st.1.slots slot with
  | none => st
  | some id =>
      match st.1.device id with
      | none =>
          (st.1.setSlot slot none, { st.2 with dangling := st.2.dangling ++ [slot] })
      | some device =>
          if slot.family = .wireguard ∧ device.tunnelType = .masque then
            (st.1.setSlot slot none, { st.2 with revoked := st.2.revoked ++ [slot] })
          else
            st

/-- Whether a slot of the other family names the same device. -/
def clash (s : Store) (slot : Slot) (id : Text) : Bool :=
  Slot.all.any fun other =>
    other ≠ slot ∧ other.family ≠ slot.family ∧ s.slots other = some id

def deviceIsMasque (s : Store) (id : Text) : Bool :=
  (s.device id).any fun device => device.tunnelType = .masque

def keepsIt (s : Store) (slot : Slot) (id : Text) : Bool :=
  if s.deviceIsMasque id then slot.family = .masque else slot.family = .wireguard

/-- Clears a slot that shares its device with the other family, unless the device is of its own. -/
def clearShared (st : Store × Repairs) (slot : Slot) : Store × Repairs :=
  match st.1.slots slot with
  | none => st
  | some id =>
      if !st.1.clash slot id then
        st
      else if st.1.keepsIt slot id then
        st
      else
        (st.1.setSlot slot none, { st.2 with shared := st.2.shared ++ [slot] })

def repair (s : Store) : Store × Repairs :=
  Slot.all.foldl clearShared (Slot.all.foldl clearLost (s, {}))

/-- What a repair leaves in a slot: a device that is there and of its family, where a device that
was never enrolled may fill a MASQUE slot while no WireGuard slot names it. -/
def settled (s : Store) (slot : Slot) : Option Text :=
  (s.slots slot).filter fun id =>
    (s.device id).any fun device =>
      match slot.family, device.tunnelType with
      | .wireguard, tunnel => tunnel = .wireguard
      | .masque, .masque => true
      | .masque, .wireguard =>
          s.slots .wireguard ≠ some id ∧ s.slots .wireguardInner ≠ some id

section Repair

variable (s : Store) (st : Store × Repairs) (slot t : Slot)

@[simp] theorem setSlot_devices (id : Option Text) : (s.setSlot slot id).devices = s.devices := rfl

@[simp] theorem setSlot_registration (id : Option Text) :
    (s.setSlot slot id).registration = s.registration := rfl

theorem setSlot_slots (id : Option Text) :
    (s.setSlot slot id).slots t = if t = slot then id else s.slots t := by
  simp [setSlot, Function.update_apply]

/-- What a pass does to a slot it looks at: it stays, or it is cleared and that is noted. -/
structure Pass (f : Store × Repairs → Slot → Store × Repairs) : Prop where
  keeps_or_clears : ∀ st slot, f st slot = st ∨
    st.1.slots slot ≠ none ∧ (f st slot).1 = st.1.setSlot slot none ∧ (f st slot).2.isEmpty = false
  notes : ∀ st slot, st.2.isEmpty = false → (f st slot).2.isEmpty = false

theorem clearLost_pass : Pass clearLost where
  -- three ways out: no device in the slot, a device that is gone, a device of the other family
  keeps_or_clears st slot := by
    unfold clearLost
    cases hid : st.1.slots slot with
    | none => exact .inl rfl
    | some id =>
        dsimp only
        cases hdevice : st.1.device id with
        | none => exact .inr ⟨by simp, rfl, by simp [Repairs.isEmpty]⟩
        | some device =>
            dsimp only
            split_ifs
            · exact .inr ⟨by simp, rfl, by simp [Repairs.isEmpty]⟩
            · exact .inl rfl
  notes st slot h := by
    unfold clearLost
    cases hid : st.1.slots slot with
    -- where the pass does nothing, the notes are those of before
    | none => exact h
    | some id =>
        dsimp only
        cases hdevice : st.1.device id with
        | none => simp [Repairs.isEmpty]
        | some device =>
            dsimp only
            split_ifs
            · simp [Repairs.isEmpty]
            · exact h

theorem clearShared_pass : Pass clearShared where
  keeps_or_clears st slot := by
    unfold clearShared
    cases hid : st.1.slots slot with
    | none => exact .inl rfl
    | some id =>
        dsimp only
        split_ifs
        · exact .inl rfl
        · exact .inl rfl
        · exact .inr ⟨by simp, rfl, by simp [Repairs.isEmpty]⟩
  notes st slot h := by
    unfold clearShared
    cases hid : st.1.slots slot with
    | none => exact h
    | some id =>
        dsimp only
        split_ifs
        · exact h
        · exact h
        · simp [Repairs.isEmpty]

/-- `s'` is `s` with some of its slots cleared. -/
structure Cleared (s s' : Store) : Prop where
  devices : s'.devices = s.devices
  registration : s'.registration = s.registration
  slots : ∀ t, s'.slots t = s.slots t ∨ s'.slots t = none

theorem Cleared.refl : Cleared s s where
  devices := rfl
  registration := rfl
  slots _ := .inl rfl

theorem Cleared.trans {s s' s'' : Store} (h : Cleared s s') (h' : Cleared s' s'') :
    Cleared s s'' where
  devices := h'.devices.trans h.devices
  registration := h'.registration.trans h.registration
  slots t := by
    rcases h'.slots t with heq | hnone
    · rw [heq]
      exact h.slots t
    · exact .inr hnone

theorem cleared_setSlot : Cleared s (s.setSlot slot none) where
  devices := rfl
  registration := rfl
  slots t := by
    by_cases ht : t = slot
    · exact .inr (by simp [setSlot_slots, ht])
    · exact .inl (by simp [setSlot_slots, ht])

theorem Pass.cleared {f : Store × Repairs → Slot → Store × Repairs} (hf : Pass f) :
    Cleared st.1 (f st slot).1 := by
  rcases hf.keeps_or_clears st slot with heq | ⟨-, heq, -⟩
  · rw [heq]
    exact .refl _
  · rw [heq]
    exact cleared_setSlot _ _

/-- A run of a pass clears slots, and one that notes nothing or clears nothing does nothing. -/
theorem Pass.run {f : Store × Repairs → Slot → Store × Repairs} (hf : Pass f) (slots : List Slot)
    (st : Store × Repairs) :
    Cleared st.1 (slots.foldl f st).1 ∧
      (st.2.isEmpty = false → (slots.foldl f st).2.isEmpty = false) ∧
      ((slots.foldl f st).2.isEmpty = true → slots.foldl f st = st) ∧
      ((slots.foldl f st).1.slots = st.1.slots → slots.foldl f st = st) := by
  -- along the slots, with what the rest of the pass does to whatever this step leaves
  induction slots generalizing st with
  | nil => exact ⟨.refl _, fun h => h, fun _ => rfl, fun _ => rfl⟩
  | cons slot slots ih =>
      obtain ⟨hcleared, hnotes, hempty, hslots⟩ := ih (f st slot)
      have hstep := hf.cleared st slot
      refine ⟨hstep.trans hcleared, fun h => hnotes (hf.notes st slot h), fun h => ?_, fun h => ?_⟩
      · rcases hf.keeps_or_clears st slot with heq | ⟨-, -, hnoted⟩
        · rw [List.foldl_cons, hempty h, heq]
        · rw [List.foldl_cons, hnotes hnoted] at h
          cases h
      · rcases hf.keeps_or_clears st slot with heq | ⟨hsome, hclear, -⟩
        · rw [List.foldl_cons] at h ⊢
          rw [heq] at h hslots ⊢
          exact hslots h
        · -- a cleared slot stays cleared, so the slots are not what they were
          refine absurd ?_ hsome
          have hnone : (f st slot).1.slots slot = none := by
            simp [hclear, setSlot_slots]
          rw [← h, List.foldl_cons]
          rcases hcleared.slots slot with hsame | hgone
          · exact hsame.trans hnone
          · exact hgone

/-- **A repair clears slots and does nothing else.** -/
theorem repair_cleared : Cleared s s.repair.1 :=
  (clearLost_pass.run Slot.all (s, {})).1.trans (clearShared_pass.run Slot.all _).1

@[simp] theorem repair_devices : s.repair.1.devices = s.devices :=
  (repair_cleared s).devices

@[simp] theorem repair_device (id : Text) : s.repair.1.device id = s.device id :=
  congrArg (Finmap.lookup id) (repair_devices s)

@[simp] theorem repair_registration : s.repair.1.registration = s.registration :=
  (repair_cleared s).registration

/-- What the first pass leaves in a slot. -/
def standing (s : Store) (slot : Slot) : Option Text :=
  (s.slots slot).filter fun id =>
    (s.device id).any fun device => ¬(slot.family = .wireguard ∧ device.tunnelType = .masque)

/-- What the second pass leaves in a slot. -/
def unshared (s : Store) (slot : Slot) : Option Text :=
  (s.slots slot).filter fun id => !s.clash slot id || s.keepsIt slot id

theorem clearLost_slots :
    (clearLost st slot).1.slots t = if t = slot then st.1.standing slot else st.1.slots t := by
  unfold clearLost standing
  cases hid : st.1.slots slot with
  | none =>
      by_cases ht : t = slot
      · simp [ht, hid]
      · simp [ht]
  | some id =>
      -- a device in the slot: it stands unless it is gone, or a MASQUE device in a WireGuard slot
      dsimp only
      cases hdevice : st.1.device id with
      | none => simp [setSlot_slots, Option.filter, hdevice]
      | some device =>
          dsimp only
          split_ifs with hlost ht ht
          · simp [setSlot_slots, ht, Option.filter, hdevice, hlost]
          · simp [setSlot_slots, ht]
          · have hkeep : (fun device : Device =>
                decide (¬(slot.family = .wireguard ∧ device.tunnelType = .masque))) device = true := by
              simp only [decide_eq_true_eq]
              exact hlost
            rw [ht, hid]
            simp only [Option.filter, hdevice, Option.any_some, hkeep, if_true]
          · rfl

theorem clearShared_slots :
    (clearShared st slot).1.slots t = if t = slot then st.1.unshared slot else st.1.slots t := by
  unfold clearShared unshared
  cases hid : st.1.slots slot with
  | none =>
      by_cases ht : t = slot
      · simp [ht, hid]
      · simp [ht]
  | some id =>
      dsimp only
      by_cases ht : t = slot
      · cases hclash : st.1.clash slot id <;> cases hkeeps : st.1.keepsIt slot id <;>
          simp [ht, hid, setSlot_slots, Option.filter, hclash, hkeeps]
      · cases hclash : st.1.clash slot id <;> cases hkeeps : st.1.keepsIt slot id <;>
          simp [ht, setSlot_slots]

theorem standing_congr {s s' : Store} (hdevices : s'.devices = s.devices)
    (hslot : s'.slots slot = s.slots slot) : s'.standing slot = s.standing slot := by
  simp only [standing, hslot, device, hdevices]

theorem foldl_clearLost_slots {slots : List Slot} (hnodup : slots.Nodup) :
    (slots.foldl clearLost st).1.slots t = if t ∈ slots then st.1.standing t else st.1.slots t := by
  induction slots generalizing st with
  | nil => rfl
  | cons slot slots ih =>
      obtain ⟨hslot, hnodup⟩ := List.nodup_cons.1 hnodup
      rw [List.foldl_cons, ih _ hnodup]
      by_cases ht : t = slot
      · subst ht
        simp [hslot, clearLost_slots]
      · have hsame : (clearLost st slot).1.slots t = st.1.slots t := by
          simp [clearLost_slots, ht]
        rw [standing_congr t (clearLost_pass.cleared st slot).devices hsame, hsame]
        simp [ht]

/-- Whether a WireGuard slot names a device. -/
def heldByWireguard (s : Store) (id : Text) : Bool :=
  s.slots .wireguard = some id ∨ s.slots .wireguardInner = some id

theorem clash_masque {slot : Slot} (hslot : slot.family = .masque) (id : Text) :
    s.clash slot id = s.heldByWireguard id := by
  cases slot with
  | wireguard => cases hslot
  | wireguardInner => cases hslot
  | masque => simp [clash, Slot.all, Slot.family, heldByWireguard]
  | masqueInner => simp [clash, Slot.all, Slot.family, heldByWireguard]

/-- What the second pass leaves in a slot, once no WireGuard slot names an enrolled device. -/
def owned (s : Store) (slot : Slot) : Option Text :=
  (s.slots slot).filter fun id =>
    slot.family = .wireguard ∨ s.deviceIsMasque id ∨ !s.heldByWireguard id

theorem unshared_eq_owned {s s' : Store} (hdevices : s'.devices = s.devices)
    (hheld : ∀ t : Slot, t.family = .wireguard → s'.slots t = s.slots t)
    (hslot : s'.slots slot = s.slots slot)
    (hwireguard : ∀ id, slot.family = .wireguard → s.slots slot = some id →
      s.deviceIsMasque id = false) :
    s'.unshared slot = s.owned slot := by
  unfold unshared owned
  rw [hslot]
  cases hid : s.slots slot with
  | none => rfl
  | some id =>
      have hmasque : s'.deviceIsMasque id = s.deviceIsMasque id := by
        simp only [deviceIsMasque, device, hdevices]
      -- WireGuard keeps what it has; MASQUE only what is of MASQUE or in no WireGuard slot
      have hdecide : (!s'.clash slot id || s'.keepsIt slot id) =
          decide (slot.family = .wireguard ∨ s.deviceIsMasque id ∨ !s.heldByWireguard id) := by
        cases hfamily : slot.family with
        | wireguard => simp [keepsIt, hmasque, hwireguard id hfamily hid, hfamily]
        | masque =>
            have hboth : s'.heldByWireguard id = s.heldByWireguard id := by
              simp only [heldByWireguard, hheld .wireguard rfl, hheld .wireguardInner rfl]
            rw [clash_masque s' hfamily, hboth]
            cases hdevice : s.deviceIsMasque id <;> cases s.heldByWireguard id <;>
              simp [keepsIt, hmasque, hdevice, hfamily]
      simp only [Option.filter, hdecide]

theorem foldl_clearShared_slots {s : Store} {slots : List Slot} (hnodup : slots.Nodup)
    (hdevices : st.1.devices = s.devices)
    (hheld : ∀ t : Slot, t.family = .wireguard ∨ t ∈ slots → st.1.slots t = s.slots t)
    (hwireguard : ∀ t id, Slot.family t = .wireguard → s.slots t = some id →
      s.deviceIsMasque id = false) :
    (slots.foldl clearShared st).1.slots t = if t ∈ slots then s.owned t else st.1.slots t := by
  -- along the slots that are left to look at, each of them once
  induction slots generalizing st with
  | nil => rfl
  | cons slot slots ih =>
      obtain ⟨hslot, hnodup⟩ := List.nodup_cons.1 hnodup
      have hown : st.1.unshared slot = s.owned slot :=
        unshared_eq_owned slot hdevices (fun t ht => hheld t (.inl ht))
          (hheld slot (.inr (by simp))) (fun id => hwireguard slot id)
      have hstep : ∀ t, (clearShared st slot).1.slots t =
          if t = slot then s.owned slot else st.1.slots t := by
        intro t
        rw [clearShared_slots, hown]
      rw [List.foldl_cons, ih _ hnodup]
      · by_cases ht : t = slot
        · subst ht
          simp [hslot, hstep]
        · simp [ht, hstep]
      · exact (clearShared_pass.cleared st slot).devices.trans hdevices
      · intro t ht
        rw [hstep]
        split_ifs with heq
        · -- the slot just looked at is in no later turn, and is a WireGuard slot that stays
          subst heq
          have hfamily : t.family = .wireguard := ht.resolve_right hslot
          cases hid : s.slots t with
          | none => simp [owned, hid]
          | some id => simp [owned, hid, Option.filter, hfamily]
        · exact hheld t (ht.imp_right fun hmem => by simp [hmem])

theorem standing_eq_some {id : Text} : s.standing slot = some id ↔ s.slots slot = some id ∧
    ∃ device, s.device id = some device ∧
      ¬(slot.family = .wireguard ∧ device.tunnelType = .masque) := by
  simp [standing, Option.filter_eq_some_iff, Option.any_eq_true, imp_iff_not_or]

/-- The two passes as one look at the store they start from. -/
theorem owned_eq_settled {s s' : Store} (hdevices : s'.devices = s.devices)
    (hslots : ∀ t, s'.slots t = s.standing t) : s'.owned slot = s.settled slot := by
  unfold owned
  rw [hslots]
  unfold settled
  cases hid : s.slots slot with
  | none => simp [standing, hid]
  | some id =>
      cases hdevice : s.device id with
      | none => simp [standing, Option.filter, hid, hdevice]
      | some device =>
          -- a repair changes no device, so both stores say the same of the family
          have hmasque : s'.deviceIsMasque id = decide (device.tunnelType = .masque) := by
            have hsame : s'.device id = s.device id := by
              simp only [Store.device, hdevices]
            simp [deviceIsMasque, hsame, hdevice]
          cases htunnel : device.tunnelType with
          | masque =>
              cases hfamily : slot.family <;>
                simp [standing, Option.filter, hid, hdevice, htunnel, hfamily, hmasque]
          | wireguard =>
              -- a WireGuard device is lost from no slot in the first pass
              have hstands : ∀ t, s'.slots t = some id ↔ s.slots t = some id := by
                intro t
                rw [hslots, standing_eq_some]
                simp [hdevice, htunnel]
              cases hfamily : slot.family <;>
                simp [standing, Option.filter, hid, hdevice, htunnel, hfamily, hmasque,
                  heldByWireguard, hstands]

/-- **What a repair leaves in each slot.** -/
theorem repair_slots : s.repair.1.slots slot = s.settled slot := by
  have hnodup : Slot.all.Nodup := by decide
  set st := Slot.all.foldl clearLost (s, {}) with hst
  have hdevices : st.1.devices = s.devices := (clearLost_pass.run Slot.all (s, {})).1.devices
  -- the first pass leaves what stands, and then no WireGuard slot has a MASQUE device
  have hfirst : ∀ t, st.1.slots t = s.standing t := by
    intro t
    rw [hst, foldl_clearLost_slots _ _ hnodup]
    simp [Slot.mem_all]
  have hwireguard : ∀ t id, Slot.family t = .wireguard → st.1.slots t = some id →
      st.1.deviceIsMasque id = false := by
    intro t id hfamily hid
    rw [hfirst, standing_eq_some] at hid
    obtain ⟨-, device, hdevice, htunnel⟩ := hid
    have hsame : st.1.device id = some device := by
      simp only [Store.device, hdevices]
      exact hdevice
    simpa [deviceIsMasque, hsame, hfamily] using htunnel
  -- the second pass keeps what a slot owns in the store behind the first
  calc
    s.repair.1.slots slot = (Slot.all.foldl clearShared st).1.slots slot := rfl
    _ = st.1.owned slot := by
          rw [foldl_clearShared_slots st slot hnodup rfl (fun _ _ => rfl) hwireguard]
          simp [Slot.mem_all]
    _ = s.settled slot := owned_eq_settled slot hdevices hfirst

theorem settled_eq_some {id : Text} : s.settled slot = some id ↔ s.slots slot = some id ∧
    ∃ device, s.device id = some device ∧ match slot.family, device.tunnelType with
      | .wireguard, tunnel => tunnel = .wireguard
      | .masque, .masque => True
      | .masque, .wireguard => s.slots .wireguard ≠ some id ∧ s.slots .wireguardInner ≠ some id := by
  rw [settled, Option.filter_eq_some_iff, Option.any_eq_true]
  refine and_congr_right fun _ => exists_congr fun device => and_congr_right fun _ => ?_
  cases slot.family <;> cases device.tunnelType <;> simp

/-- **No WireGuard slot of a repaired store names an enrolled device.** -/
theorem repair_revokes {id : Text} {device : Device} (hfamily : slot.family = .wireguard)
    (hdevice : s.device id = some device) (htunnel : device.tunnelType = .masque) :
    s.repair.1.slots slot ≠ some id := by
  intro hid
  rw [repair_slots, settled_eq_some, hfamily] at hid
  obtain ⟨-, device', hdevice', htunnel'⟩ := hid
  obtain rfl : device = device' := Option.some.inj (hdevice.symm.trans hdevice')
  exact absurd (htunnel.symm.trans htunnel') (by decide)

theorem repair_eq_self_iff : s.repair.2.isEmpty = true ↔ s.repair.1 = s := by
  have hfirst := clearLost_pass.run Slot.all (s, {})
  have hsecond := clearShared_pass.run Slot.all (Slot.all.foldl clearLost (s, {}))
  unfold repair
  set st := Slot.all.foldl clearLost (s, {})
  constructor
  · intro h
    have hst : st = (s, {}) := by
      apply hfirst.2.2.1
      -- a note of the first pass stays in the notes of the second
      by_contra hne
      have hfalse := hsecond.2.1 (by simpa using hne)
      rw [hfalse] at h
      cases h
    rw [hsecond.2.2.1 h, hst]
  · intro h
    have hslots : ∀ t, st.1.slots t = s.slots t := by
      intro t
      have hlast : (Slot.all.foldl clearShared st).1.slots t = s.slots t :=
        congrFun (congrArg slots h) t
      -- the second pass gives nothing back, so what it left equal was equal before
      rcases hfirst.1.slots t with hsame | hnone
      · exact hsame
      · rcases hsecond.1.slots t with hsame | hgone
        · exact hsame.symm.trans hlast
        · exact hnone.trans (hgone.symm.trans hlast)
    have hst : st = (s, {}) := hfirst.2.2.2 (funext hslots)
    have hlast : (Slot.all.foldl clearShared st).1.slots = st.1.slots := by
      rw [h, hst]
    rw [hsecond.2.2.2 hlast, hst]
    rfl

theorem ext_slots {s s' : Store} (hdevices : s'.devices = s.devices)
    (hregistration : s'.registration = s.registration) (hslots : ∀ t, s'.slots t = s.slots t) :
    s' = s := by
  obtain ⟨devices, slots, registration⟩ := s
  obtain ⟨devices', slots', registration'⟩ := s'
  obtain rfl : devices' = devices := hdevices
  obtain rfl : registration' = registration := hregistration
  obtain rfl : slots' = slots := funext hslots
  rfl

/-- A repaired store needs no repair. -/
theorem repair_repair : s.repair.1.repair.1 = s.repair.1 := by
  refine ext_slots (by simp) (by simp) fun t => ?_
  rw [repair_slots]
  cases hid : s.repair.1.slots t with
  | none => simp [settled, hid]
  | some id =>
      rw [settled_eq_some]
      refine ⟨hid, ?_⟩
      rw [repair_slots, settled_eq_some] at hid
      obtain ⟨-, device, hdevice, hfits⟩ := hid
      refine ⟨device, by simpa using hdevice, ?_⟩
      revert hfits
      cases hfamily : t.family <;> cases htunnel : device.tunnelType <;>
        simp only [imp_self, repair_slots]
      rintro ⟨houter, hinner⟩
      exact ⟨fun h => houter (settled_eq_some _ _ |>.1 h).1,
        fun h => hinner (settled_eq_some _ _ |>.1 h).1⟩

end Repair

end Store

end Account
end AuroraVpn
