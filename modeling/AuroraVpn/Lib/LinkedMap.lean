import Mathlib.Data.List.Induction
import Mathlib.Data.List.Nodup
import Mathlib.Data.List.Sort
import Mathlib.Data.List.Perm.Subperm

/-!
# LinkedMap — a map that keeps the order its keys came in

What is found behind a key, what a write changes, and what is left where only so many entries of the
highest rank are kept.

* `get_put`: a write changes what is found behind its key, and nothing else.
* `get_newest`: an entry is kept while fewer than so many others rank as high.

Nothing here depends on what the keys and the values are.
-/

namespace AuroraVpn

@[ext] structure LinkedMap (κ α : Type) where
  entries : List (κ × α)
  nodup : (entries.map Prod.fst).Nodup

namespace LinkedMap

variable {κ α ρ : Type} [DecidableEq κ] (m : LinkedMap κ α) (k k' : κ) (v w : α)

def empty : LinkedMap κ α := ⟨[], List.nodup_nil⟩

def get : Option α :=
  (m.entries.find? fun e => e.1 = k).map Prod.snd

/-- A key that is there keeps its place. -/
def write : List (κ × α) → List (κ × α)
  | [] => [(k, v)]
  | e :: es => if e.1 = k then (k, v) :: es else e :: write es

theorem keys_write (es : List (κ × α)) :
    (write k v es).map Prod.fst = if k ∈ es.map Prod.fst then es.map Prod.fst else es.map Prod.fst ++ [k] := by
  induction es with
  | nil => rfl
  | cons e es ih =>
      by_cases hkey : e.1 = k
      · simp [write, hkey]
      · have hne : ¬ k = e.1 := fun h => hkey h.symm
        simp only [write, if_neg hkey, List.map_cons, ih, List.mem_cons, hne, false_or]
        split
        · rfl
        · rfl

theorem nodup_write {es : List (κ × α)} (h : (es.map Prod.fst).Nodup) : ((write k v es).map Prod.fst).Nodup := by
  rw [keys_write]
  split
  · exact h
  · next hnew => exact List.nodup_append_comm.1 (List.nodup_cons.2 ⟨hnew, h⟩)

def put : LinkedMap κ α := ⟨write k v m.entries, nodup_write k v m.nodup⟩

def erase : LinkedMap κ α :=
  ⟨m.entries.filter fun e => e.1 ≠ k, m.nodup.sublist (List.filter_sublist.map Prod.fst)⟩

def ofList (es : List (κ × α)) : LinkedMap κ α :=
  es.foldl (fun m e => m.put e.1 e.2) empty

/-! ## What is found -/

variable {m k k' v w}

theorem get_eq_some_iff : m.get k = some v ↔ (k, v) ∈ m.entries := by
  obtain ⟨es, hnodup⟩ := m
  unfold get
  induction es with
  | nil => simp
  | cons e es ih =>
      obtain ⟨hnew, hnodup⟩ := List.nodup_cons.1 hnodup
      by_cases hkey : e.1 = k
      · subst hkey
        have hnone : (e.1, v) ∉ es := fun hmem => hnew (List.mem_map.2 ⟨_, hmem, rfl⟩)
        simp [hnone, Prod.ext_iff, eq_comm]
      · have hne : (k, v) ≠ e := fun h => hkey (congrArg Prod.fst h.symm)
        simpa [hkey, hne] using ih hnodup

theorem get_write (es : List (κ × α)) :
    ((write k v es).find? fun e => e.1 = k').map Prod.snd =
      if k' = k then some v else (es.find? fun e => e.1 = k').map Prod.snd := by
  induction es with
  | nil => by_cases hkey : k' = k <;> simp [write, hkey, eq_comm]
  | cons e es ih =>
      by_cases hkey : e.1 = k
      · by_cases hkey' : k' = k
        · simp [write, hkey, hkey']
        · have hne : ¬ k = k' := fun h => hkey' h.symm
          simp [write, hkey, hkey', hne]
      · rw [write, if_neg hkey]
        by_cases hfound : e.1 = k'
        · have hne : ¬ k' = k := fun h => hkey (hfound.trans h)
          simp [hfound, hne]
        · simpa [hfound] using ih

theorem get_put : (m.put k v).get k' = if k' = k then some v else m.get k' :=
  get_write m.entries

theorem get_erase : (m.erase k).get k' = if k' = k then none else m.get k' := by
  refine Option.ext fun v => ?_
  split
  next hkey =>
    subst hkey
    simp [get_eq_some_iff, erase]
  next hkey => simp [get_eq_some_iff, erase, hkey]

theorem get_empty : (empty : LinkedMap κ α).get k = none := rfl

theorem write_new {es : List (κ × α)} (hnew : k ∉ es.map Prod.fst) : write k v es = es ++ [(k, v)] := by
  induction es with
  | nil => rfl
  | cons e es ih =>
      rw [List.map_cons, List.mem_cons, not_or] at hnew
      rw [write, if_neg fun h => hnew.1 h.symm, ih hnew.2]
      rfl

/-- Entries with different keys are all kept. -/
theorem entries_ofList {es : List (κ × α)} (hnodup : (es.map Prod.fst).Nodup) : (ofList es).entries = es := by
  induction es using List.reverseRecOn with
  | nil => rfl
  | append_singleton es e ih =>
      rw [List.map_append, List.nodup_append] at hnodup
      obtain ⟨hfront, -, hnew⟩ := hnodup
      have hkeys : e.1 ∉ ((ofList es).entries.map Prod.fst) := by
        rw [ih hfront]
        exact fun hmem => hnew e.1 hmem e.1 (by simp) rfl
      rw [ofList, List.foldl_append]
      exact (write_new hkeys).trans (by rw [ih hfront])

omit [DecidableEq κ] in
/-- Where values are replaced or left out, no key is new. -/
theorem keys_filterMap {β : Type} (f : α → Option β) (es : List (κ × α)) :
    ((es.filterMap fun e => (f e.2).map fun w => (e.1, w)).map Prod.fst).Sublist (es.map Prod.fst) := by
  induction es with
  | nil => exact List.Sublist.refl _
  | cons e es ih =>
      cases hvalue : f e.2 with
      | none => simpa [hvalue] using ih.cons e.1
      | some w => simpa [hvalue] using ih.cons_cons e.1

/-- Every value replaced, or left out. -/
def filterMap {β : Type} (f : α → Option β) (m : LinkedMap κ α) : LinkedMap κ β :=
  ⟨m.entries.filterMap fun e => (f e.2).map fun w => (e.1, w), m.nodup.sublist (keys_filterMap f m.entries)⟩

theorem get_filterMap {β : Type} {f : α → Option β} {w : β} :
    (m.filterMap f).get k = some w ↔ ∃ v, m.get k = some v ∧ f v = some w := by
  simp only [get_eq_some_iff, filterMap, List.mem_filterMap]
  constructor
  · rintro ⟨⟨key, v⟩, hmem, hvalue⟩
    obtain ⟨u, hu, heq⟩ := Option.map_eq_some_iff.1 hvalue
    obtain ⟨rfl, rfl⟩ := Prod.mk.inj heq
    exact ⟨v, hmem, hu⟩
  · rintro ⟨v, hmem, hvalue⟩
    exact ⟨(k, v), hmem, Option.map_eq_some_iff.2 ⟨w, hvalue, rfl⟩⟩

/-! ## The entries of the highest rank -/

section Newest

variable [LinearOrder ρ] (rank : α → ρ)

/-- The order in which the entries are kept. -/
def Newer (a b : κ × α) : Prop := rank b.2 ≤ rank a.2

instance decidableNewer : DecidableRel (Newer (κ := κ) rank) := fun a b =>
  inferInstanceAs (Decidable (rank b.2 ≤ rank a.2))

instance totalNewer : Std.Total (Newer (κ := κ) rank) := ⟨fun a b => le_total (rank b.2) (rank a.2)⟩

instance transNewer : IsTrans (κ × α) (Newer rank) := ⟨fun _ _ _ hab hbc => le_trans hbc hab⟩

omit [DecidableEq κ] in
theorem nodup_newest (es : List (κ × α)) (n : Nat) (hnodup : (es.map Prod.fst).Nodup) :
    (((es.insertionSort (Newer rank)).take n).map Prod.fst).Nodup := by
  have hsorted : ((es.insertionSort (Newer rank)).map Prod.fst).Nodup :=
    (((List.perm_insertionSort (Newer rank) es).map Prod.fst).nodup_iff).2 hnodup
  exact hsorted.sublist ((List.take_sublist n _).map Prod.fst)

/-- The `n` entries of the highest rank, the highest first. -/
def newest (m : LinkedMap κ α) (n : Nat) : LinkedMap κ α :=
  ⟨(m.entries.insertionSort (Newer rank)).take n, nodup_newest rank m.entries n m.nodup⟩

omit [DecidableEq κ] in
theorem length_newest (n : Nat) : (newest rank m n).entries.length ≤ n :=
  List.length_take_le n _

theorem get_of_newest {n : Nat} (h : (newest rank m n).get k = some v) : m.get k = some v := by
  rw [get_eq_some_iff] at h ⊢
  exact (List.mem_insertionSort (Newer rank)).1 (List.mem_of_mem_take h)

/-- An entry is kept while fewer than `n` others rank as high. -/
theorem get_newest {n : Nat} (h : m.get k = some v)
    (hfew : (m.entries.filter fun e => e.1 ≠ k ∧ rank v ≤ rank e.2).length < n) :
    (newest rank m n).get k = some v := by
  rw [get_eq_some_iff] at h ⊢
  by_contra hgone
  have hperm := List.perm_insertionSort (Newer rank) m.entries
  have hsorted := List.pairwise_insertionSort (Newer rank) m.entries
  have hkeys : ((m.entries.insertionSort (Newer rank)).map Prod.fst).Nodup :=
    ((hperm.map Prod.fst).nodup_iff).2 m.nodup
  have hmem : (k, v) ∈ m.entries.insertionSort (Newer rank) := hperm.mem_iff.2 h
  have hgone : (k, v) ∉ (m.entries.insertionSort (Newer rank)).take n := hgone
  generalize m.entries.insertionSort (Newer rank) = sorted at *
  have hback : (k, v) ∈ sorted.drop n := by
    rw [← List.take_append_drop n sorted, List.mem_append] at hmem
    exact hmem.resolve_left hgone
  -- what is kept ranks as high and has another key
  have hkept : ∀ e ∈ sorted.take n, e.1 ≠ k ∧ rank v ≤ rank e.2 := by
    intro e he
    rw [← List.take_append_drop n sorted] at hsorted hkeys
    rw [List.map_append, List.nodup_append] at hkeys
    exact ⟨hkeys.2.2 e.1 (List.mem_map_of_mem he) k (List.mem_map.2 ⟨_, hback, rfl⟩),
      (List.pairwise_append.1 hsorted).2.2 e he (k, v) hback⟩
  have hlength : (sorted.take n).length = n := by
    have hpos : 0 < (sorted.drop n).length := List.length_pos_of_mem hback
    rw [List.length_drop] at hpos
    exact List.length_take_of_le (by omega)
  have hsub : (sorted.take n).Sublist (sorted.filter fun e => e.1 ≠ k ∧ rank v ≤ rank e.2) := by
    rw [← List.filter_eq_self.2 fun e he => decide_eq_true (hkept e he)]
    exact (List.take_sublist n sorted).filter _
  have hcount := (hperm.filter fun e => decide (e.1 ≠ k ∧ rank v ≤ rank e.2)).length_eq
  have hlong := hsub.length_le
  omega

end Newest

end LinkedMap
end AuroraVpn
