import Mathlib.Logic.Function.Basic
import Mathlib.Data.Option.Basic

/-!
# Ownership — tables that share a store of slots

Owners hold keys of a store.  `Owned` says that every key held is live and fits its owner, that no
key is held twice, and that no slot is left without an owner.  A key that has been given back may be
given out again.

* `Owned.insert`: a fresh owner and a free key.
* `Owned.remove`: an owner and its slot go together.
* `Owned.inPlace`: slots change in place.
* `Owned.other`: what is done at one owner's key is not done at another's.
-/

namespace AuroraVpn

section Ownership

variable {ι κ α : Type}

structure Owned (fits : ι → α → Prop) (own : ι → Option κ) (store : κ → Option α) : Prop where
  live : ∀ {i k}, own i = some k → ∃ a, store k = some a ∧ fits i a
  inj : ∀ {i j k}, own i = some k → own j = some k → i = j
  owner : ∀ {k a}, store k = some a → ∃ i, own i = some k

namespace Owned

variable {fits : ι → α → Prop} {own : ι → Option κ} {store store' : κ → Option α}
variable {i j : ι} {k k' : κ} {a : α}

theorem empty : Owned fits (fun _ : ι => (none : Option κ)) (fun _ => none) where
  live h := nomatch h
  inj h := nomatch h
  owner h := nomatch h

theorem other (h : Owned fits own store) (hi : own i = some k) (hj : own j = some k')
    (hne : j ≠ i) : k' ≠ k := by
  rintro rfl
  exact hne (h.inj hj hi)

/-- The store changes in place: no slot is made or freed, and what fits goes on fitting. -/
theorem inPlace (h : Owned fits own store) (hsome : ∀ k, (store' k).isSome = (store k).isSome)
    (hfits : ∀ {i k a b}, own i = some k → store k = some a → store' k = some b → fits i a →
      fits i b) : Owned fits own store' where
  live {i k} hi := by
    obtain ⟨a, ha, hfit⟩ := h.live hi
    have hb : (store' k).isSome = true := by rw [hsome, ha]; rfl
    obtain ⟨b, hb⟩ := Option.isSome_iff_exists.mp hb
    exact ⟨b, hb, hfits hi ha hb hfit⟩
  inj := h.inj
  owner {k b} hb := by
    have ha : (store k).isSome = true := by rw [← hsome, hb]; rfl
    obtain ⟨a, ha⟩ := Option.isSome_iff_exists.mp ha
    exact h.owner ha

variable [DecidableEq κ]

/-- One slot is written, by something that fits its owner. -/
theorem set (h : Owned fits own store) (hi : own i = some k) (ha : fits i a) :
    Owned fits own (Function.update store k (some a)) := by
  refine h.inPlace (fun k' => ?_) (fun {j k' b c} hj hb hc hfit => ?_)
  · by_cases hk : k' = k
    · subst hk
      obtain ⟨b, hb, -⟩ := h.live hi
      simp [hb]
    · rw [Function.update_of_ne hk]
  · by_cases hk : k' = k
    · subst hk
      obtain rfl := h.inj hi hj
      rw [Function.update_self] at hc
      exact Option.some.inj hc ▸ ha
    · rw [Function.update_of_ne hk, hb] at hc
      exact Option.some.inj hc ▸ hfit

variable [DecidableEq ι]

theorem insert (h : Owned fits own store) (hi : own i = none) (hk : store k = none)
    (ha : fits i a) :
    Owned fits (Function.update own i (some k)) (Function.update store k (some a)) where
  live {j k'} hj := by
    by_cases hji : j = i
    · subst hji
      rw [Function.update_self] at hj
      obtain rfl := Option.some.inj hj
      exact ⟨a, Function.update_self .., ha⟩
    · rw [Function.update_of_ne hji] at hj
      obtain ⟨b, hb, hfit⟩ := h.live hj
      -- the key of another owner is live, so it is not the free one
      have hne : k' ≠ k := by
        rintro rfl
        rw [hk] at hb
        cases hb
      exact ⟨b, by rw [Function.update_of_ne hne, hb], hfit⟩
  inj {j j' k'} hj hj' := by
    have fresh : ∀ {l}, own l ≠ some k := by
      intro l hl
      obtain ⟨b, hb, -⟩ := h.live hl
      rw [hk] at hb
      cases hb
    by_cases hji : j = i <;> by_cases hji' : j' = i
    · rw [hji, hji']
    · subst hji
      rw [Function.update_self] at hj
      rw [Function.update_of_ne hji', ← hj] at hj'
      exact (fresh hj').elim
    · subst hji'
      rw [Function.update_self] at hj'
      rw [Function.update_of_ne hji, ← hj'] at hj
      exact (fresh hj).elim
    · rw [Function.update_of_ne hji] at hj
      rw [Function.update_of_ne hji'] at hj'
      exact h.inj hj hj'
  owner {k' b} hb := by
    by_cases hkk : k' = k
    · exact ⟨i, by rw [Function.update_self, hkk]⟩
    · rw [Function.update_of_ne hkk] at hb
      obtain ⟨j, hj⟩ := h.owner hb
      have hji : j ≠ i := by
        rintro rfl
        rw [hi] at hj
        cases hj
      exact ⟨j, by rw [Function.update_of_ne hji, hj]⟩

theorem remove (h : Owned fits own store) (hi : own i = some k) :
    Owned fits (Function.update own i none) (Function.update store k none) where
  live {j k'} hj := by
    -- the owner of what was removed is `i` alone, so `j` keeps its own
    have hji : j ≠ i := by
      rintro rfl
      rw [Function.update_self] at hj
      cases hj
    rw [Function.update_of_ne hji] at hj
    obtain ⟨b, hb, hfit⟩ := h.live hj
    exact ⟨b, by rw [Function.update_of_ne (h.other hi hj hji), hb], hfit⟩
  inj {j j' k'} hj hj' := by
    have keep : ∀ {l}, Function.update own i none l = some k' → own l = some k' := by
      intro l hl
      by_cases hli : l = i
      · subst hli
        rw [Function.update_self] at hl
        cases hl
      · rwa [Function.update_of_ne hli] at hl
    exact h.inj (keep hj) (keep hj')
  owner {k' b} hb := by
    have hkk : k' ≠ k := by
      rintro rfl
      rw [Function.update_self] at hb
      cases hb
    rw [Function.update_of_ne hkk] at hb
    obtain ⟨j, hj⟩ := h.owner hb
    have hji : j ≠ i := by
      rintro rfl
      exact hkk (Option.some.inj (hj.symm.trans hi))
    exact ⟨j, by rw [Function.update_of_ne hji, hj]⟩

end Owned

end Ownership

end AuroraVpn
