import AuroraVpn.Account.Repair

/-!
# Lawful — what a repair establishes, and that it does no more

The three invariants of the store, and the lists of `Repairs` that say which slots were cleared for
them.

* `lawful_repair`: a repaired store keeps the invariants.
* `count_noted_repair`: a slot is on one of the lists, once, where it was cleared.
* `not_lawful_restore`: putting a slot back breaks one of them.
* `repair_exact`: all of it, with what a repair leaves alone.
-/

namespace AuroraVpn
namespace Account

/-- All slots that a repair notes. -/
def Repairs.noted (r : Repairs) : List Slot :=
  r.dangling ++ r.revoked ++ r.shared

theorem Repairs.eq_empty {r : Repairs} (h : r.isEmpty = true) : r = {} := by
  obtain ⟨dangling, revoked, shared⟩ := r
  simp only [Repairs.isEmpty, Bool.and_eq_true, List.isEmpty_iff] at h
  obtain ⟨⟨rfl, rfl⟩, rfl⟩ := h
  rfl

namespace Store

/-- The invariants of the store. -/
structure Lawful (s : Store) : Prop where
  /-- A slot names a device that is there. -/
  there : ∀ slot id, s.slots slot = some id → ∃ device, s.device id = some device
  /-- A device that was enrolled has no WireGuard key any more. -/
  keyed : ∀ slot id device, slot.family = .wireguard → s.slots slot = some id →
    s.device id = some device → device.tunnelType ≠ .masque
  /-- One device, one family. -/
  apart : ∀ slot other id, s.slots slot = some id → s.slots other = some id →
    slot.family = other.family

section Notes

variable (s : Store) (st : Store × Repairs) (slot t : Slot)

/-- A pass notes the slot that it clears, once, and no other. -/
structure Notes (f : Store × Repairs → Slot → Store × Repairs) : Prop where
  keeps_or_clears : ∀ st slot, f st slot = st ∨
    st.1.slots slot ≠ none ∧ (f st slot).1 = st.1.setSlot slot none ∧
      ∀ t, (f st slot).2.noted.count t = st.2.noted.count t + if t = slot then 1 else 0

theorem clearLost_notes : Notes clearLost where
  keeps_or_clears st slot := by
    unfold clearLost
    cases hid : st.1.slots slot with
    | none => exact .inl rfl
    | some id =>
        dsimp only
        cases hdevice : st.1.device id with
        | none =>
            refine .inr ⟨by simp, rfl, fun t => ?_⟩
            simp only [Repairs.noted, List.count_append, List.count_singleton, beq_iff_eq, eq_comm (a := t)]
            omega
        | some device =>
            dsimp only
            split_ifs
            · refine .inr ⟨by simp, rfl, fun t => ?_⟩
              simp only [Repairs.noted, List.count_append, List.count_singleton, beq_iff_eq, eq_comm (a := t)]
              omega
            · exact .inl rfl

theorem clearShared_notes : Notes clearShared where
  keeps_or_clears st slot := by
    unfold clearShared
    cases hid : st.1.slots slot with
    | none => exact .inl rfl
    | some id =>
        dsimp only
        split_ifs
        · exact .inl rfl
        · exact .inl rfl
        · refine .inr ⟨by simp, rfl, fun t => ?_⟩
          simp only [Repairs.noted, List.count_append, List.count_singleton, beq_iff_eq, eq_comm (a := t)]
          omega

/-- The lists say which slots were cleared since the store was `s`. -/
def Accounted (s : Store) (st : Store × Repairs) : Prop :=
  ∀ t, st.2.noted.count t = if s.slots t ≠ none ∧ st.1.slots t = none then 1 else 0

theorem Notes.step {f : Store × Repairs → Slot → Store × Repairs} (hf : Notes f) {s : Store}
    (hcleared : Cleared s st.1) (h : Accounted s st) :
    Cleared s (f st slot).1 ∧ Accounted s (f st slot) := by
  rcases hf.keeps_or_clears st slot with heq | ⟨hsome, hclear, hcount⟩
  · rw [heq]
    exact ⟨hcleared, h⟩
  · refine ⟨hclear ▸ hcleared.trans (cleared_setSlot _ _), fun t => ?_⟩
    rw [hcount, h, hclear, setSlot_slots]
    by_cases ht : t = slot
    · -- the slot was filled up to here, and from the start
      subst ht
      have hstart : s.slots t ≠ none := fun hnone =>
        hsome ((hcleared.slots t).elim (fun heq => heq.trans hnone) id)
      simp [hsome, hstart]
    · simp [ht]

theorem Notes.run {f : Store × Repairs → Slot → Store × Repairs} (hf : Notes f) {s : Store}
    (slots : List Slot) (hcleared : Cleared s st.1) (h : Accounted s st) :
    Cleared s (slots.foldl f st).1 ∧ Accounted s (slots.foldl f st) := by
  induction slots generalizing st with
  | nil => exact ⟨hcleared, h⟩
  | cons slot slots ih =>
      obtain ⟨hcleared, h⟩ := hf.step st slot hcleared h
      exact ih (f st slot) hcleared h

/-- **A slot is noted once where it was cleared, and nowhere else.** -/
theorem count_noted_repair : s.repair.2.noted.count t =
    if s.slots t ≠ none ∧ s.repair.1.slots t = none then 1 else 0 := by
  have hstart : Accounted s (s, {}) := fun t => by
    rw [if_neg fun h => h.1 h.2]
    rfl
  obtain ⟨hcleared, hfirst⟩ := clearLost_notes.run (s, {}) Slot.all (.refl s) hstart
  exact (clearShared_notes.run _ Slot.all hcleared hfirst).2 t

end Notes

section Lawful

variable (s : Store) {slot : Slot} {id : Text}

/-- **A repaired store keeps the invariants.** -/
theorem lawful_repair : Lawful s.repair.1 where
  there slot id hid := by
    rw [repair_slots, settled_eq_some] at hid
    obtain ⟨-, device, hdevice, -⟩ := hid
    exact ⟨device, (repair_device s id).trans hdevice⟩
  keyed slot id device hfamily hid hdevice htunnel :=
    repair_revokes s slot hfamily ((repair_device s id).symm.trans hdevice) htunnel hid
  apart := by
    -- a WireGuard slot and a MASQUE slot that both keep the device
    have hcross : ∀ slot other id, slot.family = .wireguard → other.family = .masque →
        s.repair.1.slots slot = some id → s.repair.1.slots other = some id → False := by
      intro slot other id hslot hother hid hid'
      rw [repair_slots, settled_eq_some, hslot] at hid
      rw [repair_slots, settled_eq_some, hother] at hid'
      obtain ⟨hid, device, hdevice, htunnel⟩ := hid
      obtain ⟨-, device', hdevice', hfits⟩ := hid'
      obtain rfl : device = device' := Option.some.inj (hdevice.symm.trans hdevice')
      have hwireguard : device.tunnelType = .wireguard := htunnel
      rw [hwireguard] at hfits
      cases slot with
      | wireguard => exact hfits.1 hid
      | wireguardInner => exact hfits.2 hid
      | masque => cases hslot
      | masqueInner => cases hslot
    intro slot other id hid hid'
    cases hslot : slot.family <;> cases hother : other.family
    · rfl
    · exact (hcross slot other id hslot hother hid hid').elim
    · exact (hcross other slot id hother hslot hid' hid).elim
    · rfl

/-- **A slot that was cleared cannot be put back.** -/
theorem not_lawful_restore (hid : s.slots slot = some id) (hcleared : s.repair.1.slots slot = none) :
    ¬ Lawful (s.repair.1.setSlot slot (some id)) := by
  intro hlawful
  have hrestored : (s.repair.1.setSlot slot (some id)).slots slot = some id := by simp [setSlot_slots]
  obtain ⟨device, hdevice⟩ := hlawful.there slot id hrestored
  have hbefore : s.device id = some device := (repair_device s id).symm.trans hdevice
  have hnot : s.settled slot ≠ some id := by
    rw [← repair_slots, hcleared]
    exact nofun
  rw [Ne, settled_eq_some] at hnot
  cases hfamily : slot.family with
  | wireguard =>
      refine hlawful.keyed slot id device hfamily hrestored hdevice ?_
      cases htunnel : device.tunnelType with
      | masque => rfl
      | wireguard => exact absurd ⟨hid, device, hbefore, by rw [hfamily, htunnel]⟩ hnot
  | masque =>
      cases htunnel : device.tunnelType with
      | masque => exact absurd ⟨hid, device, hbefore, by rw [hfamily, htunnel]; trivial⟩ hnot
      | wireguard =>
          -- a WireGuard slot with this device is left as it was
          have hkept : ∀ other, other.family = .wireguard → s.slots other ≠ some id := by
            intro other hother hheld
            have hstays : s.repair.1.slots other = some id := by
              rw [repair_slots, settled_eq_some, hother]
              exact ⟨hheld, device, hbefore, htunnel⟩
            have hne : other ≠ slot := by
              rintro rfl
              exact absurd (hother.symm.trans hfamily) (by decide)
            have hlater : (s.repair.1.setSlot slot (some id)).slots other = some id := by
              rw [setSlot_slots, if_neg hne, hstays]
            exact absurd (hother.symm.trans ((hlawful.apart other slot id hlater hrestored).trans hfamily))
              (by decide)
          exact hnot ⟨hid, device, hbefore, by
            rw [hfamily, htunnel]
            exact ⟨hkept .wireguard rfl, hkept .wireguardInner rfl⟩⟩

/-- **What a repair does, and no more**: the invariants hold behind it; the devices and the budget are
as they were, and so is every slot that is not cleared; a slot that is cleared is noted once, and cannot
be put back; and a second repair notes nothing and changes nothing. -/
theorem repair_exact : Lawful s.repair.1 ∧
    s.repair.1.devices = s.devices ∧ s.repair.1.registration = s.registration ∧
    (∀ slot, s.repair.1.slots slot = s.slots slot ∨ s.repair.1.slots slot = none) ∧
    (∀ slot, s.repair.2.noted.count slot =
      if s.slots slot ≠ none ∧ s.repair.1.slots slot = none then 1 else 0) ∧
    (∀ slot id, s.slots slot = some id → s.repair.1.slots slot = none →
      ¬ Lawful (s.repair.1.setSlot slot (some id))) ∧
    s.repair.1.repair = (s.repair.1, {}) := by
  have hagain := (repair_eq_self_iff s.repair.1).2 (repair_repair s)
  exact ⟨lawful_repair s, repair_devices s, repair_registration s, (repair_cleared s).slots,
    count_noted_repair s, fun _ _ => not_lawful_restore s,
    Prod.ext (repair_repair s) (Repairs.eq_empty hagain)⟩

end Lawful

end Store

end Account
end AuroraVpn
