import AuroraVpn.WireGuard.Candidates

/-!
# Anchors — the documented endpoints, before any sampling

`hunt_wg_anchors` of `lib.rs` lays its probes out profile by profile, and `interleave_groups` reorders them
so that a deadline takes an even bite out of all profiles.

* `countP_take_flatten_le`: rows that each hold one item of either kind, cut anywhere.
* `interleaveGroups_perm`: nothing is dropped or tried twice.
* `interleaveGroups_fair`: what a deadline leaves, for any list and for the probes of the pass.
-/

namespace AuroraVpn
namespace WireGuard

open Engine (IpScan)

/-! ## The order of the probes -/

section Order

variable {T U : Type}

/-- `interleave_groups`. -/
def interleaveGroups (items : List T) (stride : Nat) : List T :=
  if stride = 0 then items
  else
    let groups := (items.length + stride - 1) / stride
    (List.range stride).flatMap fun offset =>
      (List.range groups).filterMap fun group => items[group * stride + offset]?

/-- The probes of the pass before they are reordered. -/
def layOut (candidates : List T) (ports : List UInt16) (anchors : List IpAddr) : List (SocketAddr × T) :=
  candidates.flatMap fun profile => ports.flatMap fun port =>
    anchors.map fun anchor => (.new anchor port, profile)

/-- The probes of the pass, in the order in which they are started. -/
def anchorProbes (candidates : List T) (ports : List UInt16) (anchors : List IpAddr) : List (SocketAddr × T) :=
  interleaveGroups (layOut candidates ports anchors) (ports.length * anchors.length)

def anchorPorts : List UInt16 :=
  WG_PORTS.take 4

/-- The places in which the items of a list come. -/
def places (n stride : Nat) : List Nat :=
  interleaveGroups (List.range n) stride

end Order

/-! ## Nothing is lost -/

section Permutation

variable {T : Type} {n stride : Nat}

/-- How many groups there are, the last of which may be ragged. -/
theorem lt_groups (hstride : 0 < stride) {i : Nat} (hi : i < n) : i / stride < (n + stride - 1) / stride := by
  rw [Nat.div_lt_iff_lt_mul hstride]
  have hround := Nat.div_add_mod (n + stride - 1) stride
  have hrest := Nat.mod_lt (n + stride - 1) hstride
  rw [Nat.mul_comm] at hround
  omega

theorem mem_places (hstride : 0 < stride) {i : Nat} : i ∈ places n stride ↔ i < n := by
  unfold places interleaveGroups
  rw [if_neg hstride.ne', List.length_range]
  constructor
  · intro h
    obtain ⟨offset, -, h⟩ := List.mem_flatMap.mp h
    obtain ⟨group, -, h⟩ := List.mem_filterMap.mp h
    exact List.mem_range.mp (List.mem_of_getElem? h)
  · intro hi
    refine List.mem_flatMap.mpr ⟨i % stride, List.mem_range.mpr (Nat.mod_lt i hstride), ?_⟩
    refine List.mem_filterMap.mpr ⟨i / stride, List.mem_range.mpr (lt_groups hstride hi), ?_⟩
    rw [Nat.div_add_mod', List.getElem?_range hi]

theorem nodup_places : (places n stride).Nodup := by
  unfold places interleaveGroups
  split
  · exact List.nodup_range
  case isFalse hstride =>
    have hpos : 0 < stride := Nat.pos_of_ne_zero hstride
    have hplace {k i : Nat} (h : (List.range n)[k]? = some i) : i = k := by
      obtain ⟨hlt, rfl⟩ := List.getElem?_eq_some_iff.mp h
      exact List.getElem_range hlt
    rw [List.nodup_flatMap]
    constructor
    · intro offset _
      refine List.Nodup.filterMap (fun group group' i h h' => ?_) List.nodup_range
      -- one offset: the items are of different groups
      have heq : group * stride + offset = group' * stride + offset := (hplace h).symm.trans (hplace h')
      exact Nat.eq_of_mul_eq_mul_right hpos (Nat.add_right_cancel heq)
    · refine List.Pairwise.imp_of_mem ?_ List.nodup_range
      intro offset offset' hoffset hoffset' hne i h h'
      obtain ⟨group, -, h⟩ := List.mem_filterMap.mp h
      obtain ⟨group', -, h'⟩ := List.mem_filterMap.mp h'
      -- two offsets: the places differ modulo the stride
      have heq : group * stride + offset = group' * stride + offset' := (hplace h).symm.trans (hplace h')
      have hmod : (group * stride + offset) % stride = (group' * stride + offset') % stride := by rw [heq]
      rw [Nat.mul_add_mod', Nat.mul_add_mod', Nat.mod_eq_of_lt (List.mem_range.mp hoffset),
        Nat.mod_eq_of_lt (List.mem_range.mp hoffset')] at hmod
      exact hne hmod

theorem perm_places : (places n stride).Perm (List.range n) := by
  rcases Nat.eq_zero_or_pos stride with rfl | hstride
  · exact List.Perm.refl _
  · refine (List.perm_ext_iff_of_nodup nodup_places List.nodup_range).mpr fun i => ?_
    rw [mem_places hstride, List.mem_range]

theorem filterMap_range_getElem (items : List T) :
    (List.range items.length).filterMap (fun i => items[i]?) = items := by
  induction items with
  | nil => rfl
  | cons item items ih =>
    rw [List.length_cons, List.range_succ_eq_map, List.filterMap_cons_some List.getElem?_cons_zero,
      List.filterMap_map]
    exact congrArg (item :: ·) ih

theorem interleaveGroups_eq_places (items : List T) (stride : Nat) :
    interleaveGroups items stride = (places items.length stride).filterMap fun i => items[i]? := by
  unfold places interleaveGroups
  split
  · exact (filterMap_range_getElem items).symm
  · dsimp only
    rw [List.length_range, List.filterMap_flatMap]
    refine List.flatMap_congr fun offset _ => ?_
    rw [List.filterMap_filterMap]
    refine List.filterMap_congr fun group _ => ?_
    rcases Nat.lt_or_ge (group * stride + offset) items.length with hlt | hge
    · rw [List.getElem?_range hlt, Option.bind_some]
    · rw [List.getElem?_eq_none hge, List.getElem?_eq_none (by rw [List.length_range]; exact hge)]
      rfl

theorem interleaveGroups_perm (items : List T) (stride : Nat) : (interleaveGroups items stride).Perm items := by
  have hperm := (perm_places : (places items.length stride).Perm _).filterMap fun i => items[i]?
  rwa [← interleaveGroups_eq_places, filterMap_range_getElem] at hperm

theorem map_interleaveGroups {U : Type} (f : T → U) (items : List T) (stride : Nat) :
    (interleaveGroups items stride).map f = interleaveGroups (items.map f) stride := by
  unfold interleaveGroups
  split
  · rfl
  · dsimp only
    rw [List.length_map, List.map_flatMap]
    refine List.flatMap_congr fun offset _ => ?_
    rw [List.map_filterMap]
    refine List.filterMap_congr fun group _ => ?_
    exact List.getElem?_map.symm

end Permutation

/-! ## Every cut is even -/

section Cuts

variable {T U : Type}

/-- Rows that each hold one item of either kind: a cut takes as many of both, but for one. -/
theorem countP_take_flatten_le {rows : List (List U)} {p q : U → Bool} (hp : ∀ row ∈ rows, row.countP p = 1)
    (hq : ∀ row ∈ rows, row.countP q = 1) (cut : Nat) :
    (rows.flatten.take cut).countP p ≤ (rows.flatten.take cut).countP q + 1 := by
  induction rows generalizing cut with
  | nil => simp
  | cons row rows ih =>
    have hrow := hp row List.mem_cons_self
    have hrow' := hq row List.mem_cons_self
    have hrest := ih (fun r hr => hp r (List.mem_cons_of_mem row hr))
      (fun r hr => hq r (List.mem_cons_of_mem row hr)) (cut - row.length)
    rw [List.flatten_cons, List.take_append, List.countP_append, List.countP_append]
    rcases Nat.le_total cut row.length with hle | hle
    · -- the cut is in the first row
      have hpart : (row.take cut).countP p ≤ 1 := hrow ▸ (List.take_sublist cut row).countP_le
      rw [Nat.sub_eq_zero_of_le hle, List.take_zero, List.countP_nil, List.countP_nil]
      omega
    · rw [List.take_of_length_le hle, hrow, hrow']
      omega

/-- One row of whole groups, each of which has a mark of its own. -/
theorem countP_row {items : List U} {groups stride offset g : Nat} {p : U → Bool}
    (hlength : items.length = groups * stride) (hoffset : offset < stride) (hg : g < groups)
    (hp : ∀ i x, items[i]? = some x → p x = decide (i / stride = g)) :
    ((List.range groups).filterMap fun group => items[group * stride + offset]?).countP p = 1 := by
  rw [List.countP_filterMap]
  calc
    (List.range groups).countP (fun group => ((items[group * stride + offset]?).map p).getD false)
        = (List.range groups).countP (· == g) := by
          refine List.countP_congr fun group hgroup => ?_
          have hlt : group * stride + offset < items.length := by
            have hle : group + 1 ≤ groups := List.mem_range.mp hgroup
            have hmul := Nat.mul_le_mul_right stride hle
            rw [Nat.add_mul, Nat.one_mul] at hmul
            omega
          have hdiv : (group * stride + offset) / stride = group := by
            rw [Nat.mul_comm, Nat.mul_add_div (Nat.zero_lt_of_lt hoffset), Nat.div_eq_of_lt hoffset, Nat.add_zero]
          have hitem := List.getElem?_eq_getElem hlt
          rw [hitem, Option.map_some, Option.getD_some, hp _ _ hitem, hdiv]
          simp
    _ = (List.range groups).count g := rfl
    _ = 1 := List.count_eq_one_of_mem List.nodup_range (List.mem_range.mpr hg)

/-- Whole groups with marks: every cut takes as many items of one group as of another, but for one. -/
theorem countP_take_interleaveGroups_le {items : List U} {groups stride g h : Nat} {p q : U → Bool}
    (hlength : items.length = groups * stride) (hg : g < groups) (hh : h < groups)
    (hp : ∀ i x, items[i]? = some x → p x = decide (i / stride = g))
    (hq : ∀ i x, items[i]? = some x → q x = decide (i / stride = h)) (cut : Nat) :
    ((interleaveGroups items stride).take cut).countP p ≤
      ((interleaveGroups items stride).take cut).countP q + 1 := by
  unfold interleaveGroups
  split
  case isTrue hzero =>
    have hnil : items = [] := by
      rw [hzero, Nat.mul_zero] at hlength
      exact List.eq_nil_of_length_eq_zero hlength
    rw [hnil]
    simp
  case isFalse hstride =>
    have hpos : 0 < stride := Nat.pos_of_ne_zero hstride
    -- whole groups: there are as many as the length says
    have hgroups : (items.length + stride - 1) / stride = groups := by
      rw [hlength, Nat.add_sub_assoc hpos, Nat.mul_comm, Nat.mul_add_div hpos,
        Nat.div_eq_of_lt (Nat.sub_lt hpos Nat.one_pos), Nat.add_zero]
    rw [hgroups]
    dsimp only
    rw [List.flatMap_def]
    refine countP_take_flatten_le (fun row hrow => ?_) (fun row hrow => ?_) cut
    -- a row has one item of each group
    · obtain ⟨offset, hoffset, rfl⟩ := List.mem_map.mp hrow
      exact countP_row hlength (List.mem_range.mp hoffset) hg hp
    · obtain ⟨offset, hoffset, rfl⟩ := List.mem_map.mp hrow
      exact countP_row hlength (List.mem_range.mp hoffset) hh hq

end Cuts

/-! ## What a deadline leaves -/

section Fair

variable {T : Type}

/-- How many items of one group are among these, which are marked with their places. -/
def taken (stride group : Nat) (items : List (T × Nat)) : Nat :=
  items.countP fun item => item.2 / stride = group

/-- How many of these probes are for one profile, which is marked with its place. -/
def tried (profile : Nat) (probes : List (SocketAddr × T × Nat)) : Nat :=
  probes.countP fun probe => probe.2.2 = profile

theorem length_layOut (candidates : List T) (ports : List UInt16) (anchors : List IpAddr) :
    (layOut candidates ports anchors).length = candidates.length * (ports.length * anchors.length) := by
  unfold layOut
  simp [List.length_flatMap]

/-- The probes are laid out profile by profile. -/
theorem mark_layOut {ports : List UInt16} {anchors : List IpAddr} (hstride : 0 < ports.length * anchors.length)
    (candidates : List T) (first : Nat) {i : Nat} {probe : SocketAddr × T × Nat}
    (h : (layOut (candidates.zipIdx first) ports anchors)[i]? = some probe) :
    probe.2.2 = first + i / (ports.length * anchors.length) := by
  induction candidates generalizing first i with
  | nil => cases h
  | cons candidate candidates ih =>
    have hsplit : layOut ((candidate :: candidates).zipIdx first) ports anchors =
        layOut [(candidate, first)] ports anchors ++ layOut (candidates.zipIdx (first + 1)) ports anchors := by
      unfold layOut
      rw [List.zipIdx_cons, List.flatMap_cons, List.flatMap_singleton]
    have hlength := length_layOut [(candidate, first)] ports anchors
    rw [List.length_singleton, Nat.one_mul] at hlength
    rw [hsplit] at h
    -- a probe of the first profile, or of those behind it
    rcases Nat.lt_or_ge i (ports.length * anchors.length) with hlt | hge
    · rw [List.getElem?_append_left (hlength ▸ hlt)] at h
      have hmem := List.mem_of_getElem? h
      unfold layOut at hmem
      rw [List.flatMap_singleton] at hmem
      obtain ⟨port, -, hmem⟩ := List.mem_flatMap.mp hmem
      obtain ⟨anchor, -, rfl⟩ := List.mem_map.mp hmem
      rw [Nat.div_eq_of_lt hlt]
      rfl
    · rw [List.getElem?_append_right (hlength ▸ hge), hlength] at h
      rw [ih (first + 1) h, Nat.add_assoc, Nat.div_eq_sub_div hstride hge, Nat.add_comm 1]

theorem map_layOut {U : Type} (f : T → U) (candidates : List T) (ports : List UInt16) (anchors : List IpAddr) :
    (layOut candidates ports anchors).map (fun probe => (probe.1, f probe.2)) =
      layOut (candidates.map f) ports anchors := by
  unfold layOut
  simp only [List.map_flatMap, List.flatMap_map, List.map_map]
  rfl

/-- Interleaving drops nothing and tries nothing twice; where the list is made of whole groups, every cut of it
has taken as many items of any group as of any other, but for one; and so the anchor pass has tried the
profiles evenly, wherever it is stopped. -/
theorem interleaveGroups_fair (items : List T) (stride : Nat) :
    (interleaveGroups items stride).Perm items ∧
      (interleaveGroups items.zipIdx stride).map Prod.fst = interleaveGroups items stride ∧
      (stride ∣ items.length → ∀ cut g h, g < items.length / stride → h < items.length / stride →
        taken stride g ((interleaveGroups items.zipIdx stride).take cut) ≤
          taken stride h ((interleaveGroups items.zipIdx stride).take cut) + 1) ∧
      ∀ (candidates : List T) (ports : List UInt16) (anchors : List IpAddr),
        (anchorProbes candidates.zipIdx ports anchors).map (fun probe => (probe.1, probe.2.1)) =
          anchorProbes candidates ports anchors ∧
        ∀ cut c d, c < candidates.length → d < candidates.length →
          tried c ((anchorProbes candidates.zipIdx ports anchors).take cut) ≤
            tried d ((anchorProbes candidates.zipIdx ports anchors).take cut) + 1 := by
  -- where an item stands tells its group, since each of them stands there once
  have hplace {group : Nat} (i : Nat) (x : T × Nat) (h : items.zipIdx[i]? = some x) :
      decide (x.2 / stride = group) = decide (i / stride = group) := by
    obtain ⟨hlt, rfl⟩ := List.getElem?_eq_some_iff.mp h
    rw [List.getElem_zipIdx, Nat.zero_add]
  -- the four halves: nothing dropped, nothing twice, fair at every cut, and so for the passes
  refine ⟨interleaveGroups_perm items stride, ?_, ?_, fun candidates ports anchors => ⟨?_, ?_⟩⟩
  · rw [map_interleaveGroups, List.zipIdx_map_fst]
  -- a list of whole groups has as many items of one as of another
  · intro hwhole cut g h hg hh
    refine countP_take_interleaveGroups_le ?_ hg hh hplace hplace cut
    rw [List.length_zipIdx, Nat.div_mul_cancel hwhole]
  · unfold anchorProbes
    rw [map_interleaveGroups, map_layOut, List.zipIdx_map_fst]
  · intro cut c d hc hd
    unfold anchorProbes
    -- the profile of a probe is the group that it is laid out in
    have hmark {profile : Nat} (i : Nat) (x : SocketAddr × T × Nat)
        (h : (layOut candidates.zipIdx ports anchors)[i]? = some x) :
        decide (x.2.2 = profile) = decide (i / (ports.length * anchors.length) = profile) := by
      have hlength := length_layOut candidates.zipIdx ports anchors
      have hstride : 0 < ports.length * anchors.length := by
        refine Nat.pos_of_ne_zero fun hzero => ?_
        rw [hzero, Nat.mul_zero] at hlength
        rw [List.eq_nil_of_length_eq_zero hlength] at h
        cases h
      rw [mark_layOut hstride candidates 0 h, Nat.zero_add]
    refine countP_take_interleaveGroups_le ?_ hc hd hmark hmark cut
    rw [length_layOut, List.length_zipIdx]

end Fair

end WireGuard
end AuroraVpn
