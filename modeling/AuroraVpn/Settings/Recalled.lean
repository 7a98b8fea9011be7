import AuroraVpn.Settings.RouteMemory

/-!
# Recalled — what the calls of `RouteMemory` tell

What is stored after any row of calls, from any text that was stored before.

* `held`: what is known about a network, by the calls about it.
* `recall_only`, `engineFailedRecently_only`: nothing else is.
* `memory_exact`: what is recalled.
-/

namespace AuroraVpn
namespace RouteMemory

/-! ## Calls -/

inductive Event
  | won (route : AutoRoute)
  | engineFailed

/-- A call of `remember` or of `rememberEngineFailure`. -/
structure Call where
  network : Text
  atMs : Int64
  event : Event

namespace Call

def apply (json : OrgJson) (stored : Option Text) (call : Call) : Text :=
  match call.event with
  | .won route => remember json stored call.network route call.atMs
  | .engineFailed => rememberEngineFailure json stored call.network call.atMs

/-- What a call makes of what was known about its network. -/
def touch (call : Call) (before : Option Entry) : Entry :=
  match call.event with
  | .won route =>
      ⟨some route.remembersAs, call.atMs,
        if route.remembersAs = .aether then 0 else (before.map Entry.engineFailedAtMs).getD 0⟩
  | .engineFailed => ⟨before.bind Entry.route, (before.map Entry.atMs).getD 0, call.atMs⟩

/-- What a call makes of the entries that it reads. -/
def entries (json : OrgJson) (stored : Option Text) (call : Call) : LinkedMap Text Entry :=
  (decode json stored).put call.network (call.touch ((decode json stored).get call.network))

theorem apply_eq (json : OrgJson) (stored : Option Text) (call : Call) :
    call.apply json stored = encode (call.entries json stored) := by
  obtain ⟨network, atMs, event⟩ := call
  cases event <;> rfl

end Call

/-- What is stored after some calls. -/
def after (json : OrgJson) (stored : Option Text) (calls : List Call) : Option Text :=
  calls.foldl (fun stored call => some (call.apply json stored)) stored

theorem after_append (json : OrgJson) (stored : Option Text) (calls : List Call) (call : Call) :
    after json stored (calls ++ [call]) = some (call.apply json (after json stored calls)) := by
  rw [after, List.foldl_append]
  rfl

/-- A call on the entries. -/
def Call.step (entries : LinkedMap Text Entry) (call : Call) : LinkedMap Text Entry :=
  settle (entries.put call.network (call.touch (entries.get call.network)))

theorem Call.decode_apply (json : OrgJson) (stored : Option Text) (call : Call) :
    decode json (some (call.apply json stored)) = call.step (decode json stored) := by
  rw [Call.apply_eq, decode_encode, Call.step, Call.entries]

/-- The entries that are read after some calls. -/
theorem decode_after (json : OrgJson) (stored : Option Text) (calls : List Call) :
    decode json (after json stored calls) = calls.foldl Call.step (decode json stored) := by
  induction calls using List.reverseRecOn with
  | nil => rfl
  | append_singleton calls call ih =>
      rw [after_append, Call.decode_apply, ih, List.foldl_append, List.foldl_cons, List.foldl_nil]

namespace Entry

theorem touchedMs_settled (entry : Entry) : entry.settled.touchedMs = max entry.touchedMs 0 := by
  unfold settled touchedMs
  by_cases hmark : 0 < entry.engineFailedAtMs
  · have hpos : 0 < entry.engineFailedAtMs.toInt := Int64.lt_iff_toInt_lt.1 hmark
    simp only [if_pos hmark]
    omega
  · have hpos : entry.engineFailedAtMs.toInt ≤ 0 := Int64.le_iff_toInt_le.1 (Int64.not_lt.1 hmark)
    simp only [if_neg hmark, Int64.toInt_zero]
    omega

end Entry

section Touch

variable {call : Call} {before : Option Entry}

theorem touch_meant (hpos : 0 < call.atMs) : (call.touch before).Meant := by
  obtain ⟨network, atMs, event⟩ := call
  cases event with
  | won route => exact .inl (Option.some_ne_none _)
  | engineFailed => exact .inr hpos

theorem touch_touchedMs (hpos : 0 < call.atMs)
    (hbefore : ∀ entry, before = some entry → entry.touchedMs ≤ call.atMs.toInt) :
    (call.touch before).touchedMs = call.atMs.toInt := by
  have hpos : 0 < call.atMs.toInt := Int64.lt_iff_toInt_lt.1 hpos
  -- neither the mark nor the time of before is later than the call
  have hmark : ((before.map Entry.engineFailedAtMs).getD 0).toInt ≤ call.atMs.toInt := by
    cases before with
    | none => exact hpos.le
    | some entry => exact (le_max_right _ _).trans (hbefore entry rfl)
  have hat : ((before.map Entry.atMs).getD 0).toInt ≤ call.atMs.toInt := by
    cases before with
    | none => exact hpos.le
    | some entry => exact (le_max_left _ _).trans (hbefore entry rfl)
  obtain ⟨network, atMs, event⟩ := call
  -- a failure sets the mark and a win the time, and each is the later of the two
  cases event with
  | engineFailed => exact max_eq_right hat
  | won route =>
      refine max_eq_left ?_
      change (if route.remembersAs = .aether then 0 else (before.map Entry.engineFailedAtMs).getD 0).toInt ≤ atMs.toInt
      by_cases haether : route.remembersAs = .aether
      · rw [if_pos haether]
        exact hpos.le
      · rw [if_neg haether]
        exact hmark

end Touch

section Histories

variable (json : OrgJson) {stored : Option Text} {calls pre post : List Call} {call : Call} {network : Text}
  {entry : Entry}

/-- What is known after a call comes from the call or was known before. -/
theorem get_of_apply (h : (decode json (some (call.apply json stored))).get network = some entry) :
    if network = call.network then entry = (call.touch ((decode json stored).get call.network)).settled
    else ∃ before, (decode json stored).get network = some before ∧ entry = before.settled := by
  rw [Call.decode_apply, Call.step, get_settle] at h
  obtain ⟨kept, hkept, -, rfl⟩ := h
  have hput := LinkedMap.get_of_newest _ hkept
  rw [LinkedMap.get_put] at hput
  split
  · next hsame =>
      rw [if_pos hsame] at hput
      rw [← Option.some.inj hput]
  · next hother =>
      rw [if_neg hother] at hput
      exact ⟨kept, hput, rfl⟩

/-- What a call keeps. -/
theorem get_apply (hput : (call.entries json stored).get network = some entry) (hmeant : entry.Meant)
    (hfew : ((call.entries json stored).entries.filter
      fun e => e.1 ≠ network ∧ entry.touchedMs ≤ e.2.touchedMs).length < MAX_NETWORKS) :
    (decode json (some (call.apply json stored))).get network = some entry.settled := by
  rw [Call.apply_eq, decode_encode, get_settle]
  exact ⟨entry, LinkedMap.get_newest _ hput hfew, hmeant, rfl⟩

/-- Calls at positive times, each later than the one before and than what was stored. -/
structure Orderly (stored : Option Text) (calls : List Call) : Prop where
  positive : ∀ call ∈ calls, 0 < call.atMs
  increasing : calls.Pairwise fun call later => call.atMs < later.atMs
  fresh : ∀ e ∈ (decode json stored).entries, ∀ call ∈ calls, e.2.touchedMs < call.atMs.toInt

variable {json}

theorem Orderly.front (h : Orderly json stored (calls ++ post)) : Orderly json stored calls where
  positive c hc := h.positive c (List.mem_append_left _ hc)
  increasing := (List.pairwise_append.1 h.increasing).1
  fresh e he c hc := h.fresh e he c (List.mem_append_left _ hc)

/-- An entry is dated by a call about its network, or was stored. -/
theorem dated (h : Orderly json stored calls)
    (hentry : (decode json (after json stored calls)).get network = some entry) :
    (∃ call ∈ calls, call.network = network ∧ entry.touchedMs = call.atMs.toInt) ∨
      ∃ e ∈ (decode json stored).entries, entry.touchedMs ≤ max e.2.touchedMs 0 := by
  induction calls using List.reverseRecOn generalizing network entry with
  | nil => exact .inr ⟨_, LinkedMap.get_eq_some_iff.1 hentry, le_max_left _ _⟩
  | append_singleton calls call ih =>
      have hpos := h.positive call (by simp)
      have hpos' : 0 < call.atMs.toInt := Int64.lt_iff_toInt_lt.1 hpos
      -- whatever was known is older than the call
      have holder : ∀ {network entry}, (decode json (after json stored calls)).get network = some entry →
          entry.touchedMs < call.atMs.toInt := by
        intro network entry hentry
        rcases ih h.front hentry with ⟨c, hc, -, hdate⟩ | ⟨e, he, hdate⟩
        · rw [hdate]
          exact Int64.lt_iff_toInt_lt.1 ((List.pairwise_append.1 h.increasing).2.2 c hc call (by simp))
        · have hfresh := h.fresh e he call (by simp)
          omega
      rw [after_append] at hentry
      have hcall := get_of_apply json hentry
      split at hcall
      · next hsame =>
          refine .inl ⟨call, by simp, hsame.symm, ?_⟩
          rw [hcall, Entry.touchedMs_settled, touch_touchedMs hpos fun before hbefore => (holder hbefore).le]
          exact max_eq_left hpos'.le
      · obtain ⟨before, hbefore, rfl⟩ := hcall
        rw [Entry.touchedMs_settled]
        rcases ih h.front hbefore with ⟨c, hc, hnetwork, hdate⟩ | ⟨e, he, hdate⟩
        · have hposc : 0 < c.atMs.toInt :=
            Int64.lt_iff_toInt_lt.1 (h.positive c (List.mem_append_left _ hc))
          exact .inl ⟨c, List.mem_append_left _ hc, hnetwork, by omega⟩
        · exact .inr ⟨e, he, by omega⟩

/-- What is known is older than the next call. -/
theorem touchedMs_lt (h : Orderly json stored (calls ++ [call]))
    (hentry : (decode json (after json stored calls)).get network = some entry) :
    entry.touchedMs < call.atMs.toInt := by
  have hpos : 0 < call.atMs.toInt := Int64.lt_iff_toInt_lt.1 (h.positive call (by simp))
  rcases dated h.front hentry with ⟨c, hc, -, hdate⟩ | ⟨e, he, hdate⟩
  · rw [hdate]
    exact Int64.lt_iff_toInt_lt.1 ((List.pairwise_append.1 h.increasing).2.2 c hc call (by simp))
  · have hfresh := h.fresh e he call (by simp)
    omega

/-- In no stretch of calls without the network are so many others touched that it is left out. -/
def Lasting (network : Text) (calls : List Call) : Prop :=
  ∀ stretch, stretch <:+: calls → (∀ call ∈ stretch, call.network ≠ network) →
    (stretch.map Call.network).dedup.length < MAX_NETWORKS

/-- What the calls about a network make of what is known about it. -/
def tale (network : Text) (calls : List Call) (entry : Entry) : Entry :=
  calls.foldl (fun entry call => if call.network = network then (call.touch (some entry)).settled else entry) entry

/-- A network that is touched is kept. -/
theorem get_touched (h : Orderly json stored (calls ++ [call])) :
    (decode json (after json stored (calls ++ [call]))).get call.network =
      some (call.touch ((decode json (after json stored calls)).get call.network)).settled := by
  have hpos := h.positive call (by simp)
  have hdate : (call.touch ((decode json (after json stored calls)).get call.network)).touchedMs = call.atMs.toInt :=
    touch_touchedMs hpos fun before hbefore => (touchedMs_lt h hbefore).le
  rw [after_append]
  refine get_apply json (by rw [Call.entries, LinkedMap.get_put, if_pos rfl]) (touch_meant hpos) ?_
  -- no other network is touched as late
  rw [List.filter_eq_nil_iff.2]
  · decide
  · rintro ⟨other, kept⟩ hmem hlate
    obtain ⟨hother, hlate⟩ := of_decide_eq_true hlate
    have hget := LinkedMap.get_eq_some_iff.2 hmem
    rw [Call.entries, LinkedMap.get_put, if_neg hother] at hget
    have hlt := touchedMs_lt h hget
    rw [hdate] at hlate
    exact absurd hlate (not_le.2 hlt)

/-- An entry that a call has dated, and the calls about other networks that are no older. -/
structure Since (calls back : List Call) (network : Text) (entry : Entry) : Prop where
  dated : ∃ call ∈ calls, entry.touchedMs = call.atMs.toInt
  elsewhere : ∀ call ∈ back, call.network ≠ network
  later : ∀ call ∈ calls, call.network ≠ network → entry.touchedMs ≤ call.atMs.toInt → call ∈ back

/-- A network is kept while others are touched, as long as they are few. -/
theorem get_other {back : List Call} (h : Orderly json stored (calls ++ [call]))
    (hentry : (decode json (after json stored calls)).get network = some entry) (hmeant : entry.Meant)
    (hother : call.network ≠ network) (hsince : Since calls back network entry)
    (hfew : ((back ++ [call]).map Call.network).dedup.length < MAX_NETWORKS) :
    (decode json (after json stored (calls ++ [call]))).get network = some entry.settled := by
  rw [after_append]
  refine get_apply json (by rw [Call.entries, LinkedMap.get_put, if_neg hother.symm, hentry]) hmeant
    (lt_of_le_of_lt ?_ hfew)
  -- the networks that the new entry has to make room for were all called for since
  generalize hput : call.entries json (after json stored calls) = entries
  have hnodup : ((entries.entries.filter fun e => e.1 ≠ network ∧ entry.touchedMs ≤ e.2.touchedMs).map
      Prod.fst).Nodup := entries.nodup.sublist (List.filter_sublist.map Prod.fst)
  have hsubset : (entries.entries.filter fun e => e.1 ≠ network ∧ entry.touchedMs ≤ e.2.touchedMs).map Prod.fst ⊆
      ((back ++ [call]).map Call.network).dedup := by
    intro other hmem
    obtain ⟨⟨other, kept⟩, hkept, rfl⟩ := List.mem_map.1 hmem
    obtain ⟨hkept, hlate⟩ := List.mem_filter.1 hkept
    obtain ⟨hne, hlate⟩ := of_decide_eq_true hlate
    rw [List.mem_dedup, List.map_append, List.mem_append]
    have hget := LinkedMap.get_eq_some_iff.2 hkept
    rw [← hput, Call.entries, LinkedMap.get_put] at hget
    -- the network of this call, or one of a call before
    by_cases hcall : other = call.network
    · exact .inr (by simp [hcall])
    · rw [if_neg hcall] at hget
      rcases dated h.front hget with ⟨c, hc, rfl, hdate⟩ | ⟨e, he, hdate⟩
      · exact .inl (List.mem_map_of_mem (hsince.later c hc hne (hdate ▸ hlate)))
      · -- what was stored is older than every call
        obtain ⟨c, hc, hdated⟩ := hsince.dated
        have hfresh := h.fresh e he c (List.mem_append_left _ hc)
        have hpos : 0 < c.atMs.toInt := Int64.lt_iff_toInt_lt.1 (h.positive c (List.mem_append_left _ hc))
        simp only at hlate
        omega
  rw [← List.length_map Prod.fst]
  exact (hnodup.subperm hsubset).length_le

/-- What a call has told of its network is what is known last. -/
theorem since_touched (h : Orderly json stored (calls ++ [call])) :
    Since (calls ++ [call]) [] call.network
      (call.touch ((decode json (after json stored calls)).get call.network)).settled := by
  have hpos := h.positive call (by simp)
  have hdate : (call.touch ((decode json (after json stored calls)).get call.network)).settled.touchedMs =
      call.atMs.toInt := by
    rw [Entry.touchedMs_settled, touch_touchedMs hpos fun before hbefore => (touchedMs_lt h hbefore).le]
    exact max_eq_left (Int64.lt_iff_toInt_lt.1 hpos).le
  refine ⟨⟨call, by simp, hdate⟩, nofun, fun c hc hother hlate => ?_⟩
  rw [hdate] at hlate
  rcases List.mem_append.1 hc with hc | hc
  · have hlt := (List.pairwise_append.1 h.increasing).2.2 c hc call (by simp)
    exact absurd hlate (not_le.2 (Int64.lt_iff_toInt_lt.1 hlt))
  · exact absurd (congrArg Call.network (List.mem_singleton.1 hc)) hother

/-- What is known about a network is what the calls about it since one of them tell. -/
theorem held (h : Orderly json stored (pre ++ call :: post)) (hlasting : Lasting call.network post) :
    ∃ entry, (decode json (after json stored (pre ++ call :: post))).get call.network = some entry ∧
      entry = tale call.network post (call.touch ((decode json (after json stored pre)).get call.network)).settled ∧
      entry.Meant ∧ entry.settled = entry ∧ ∃ back, back <:+ post ∧
        Since (pre ++ call :: post) back call.network entry := by
  induction post using List.reverseRecOn with
  | nil =>
      have hmeant : (call.touch ((decode json (after json stored pre)).get call.network)).Meant :=
        touch_meant (h.positive call (by simp))
      exact ⟨_, get_touched h, rfl, Entry.meant_settled hmeant, Entry.settled_settled _, [],
        List.suffix_refl _, since_touched h⟩
  | append_singleton post next ih =>
      have hlist : pre ++ call :: (post ++ [next]) = pre ++ call :: post ++ [next] := by simp
      rw [hlist] at h ⊢
      have hlasting' : Lasting call.network post := fun stretch hstretch =>
        hlasting stretch (hstretch.trans (List.prefix_append _ _).isInfix)
      obtain ⟨entry, hentry, htale, hmeant, hsettled, back, hback, hsince⟩ := ih h.front hlasting'
      have htale' : tale call.network (post ++ [next])
          (call.touch ((decode json (after json stored pre)).get call.network)).settled =
            if next.network = call.network then (next.touch (some entry)).settled else entry := by
        rw [htale, tale, List.foldl_append]
        rfl
      rw [htale']
      by_cases hsame : next.network = call.network
      · have hget := get_touched h
        have hsince' := since_touched h
        have hmeant' : (next.touch (some entry)).Meant := touch_meant (h.positive next (by simp))
        rw [hsame, hentry] at hget hsince'
        rw [if_pos hsame]
        exact ⟨_, hget, rfl, Entry.meant_settled hmeant', Entry.settled_settled _, [], List.nil_suffix, hsince'⟩
      · rw [if_neg hsame]
        -- the stretch since the last call about the network goes on
        have hstretch : back ++ [next] <:+ post ++ [next] := by
          obtain ⟨front, rfl⟩ := hback
          exact ⟨front, (List.append_assoc _ _ _).symm⟩
        have helsewhere : ∀ c ∈ back ++ [next], c.network ≠ call.network := by
          intro c hc
          rcases List.mem_append.1 hc with hc | hc
          · exact hsince.elsewhere c hc
          · rwa [List.mem_singleton.1 hc]
        have hfew := hlasting _ hstretch.isInfix helsewhere
        have hget := get_other h hentry hmeant hsame hsince hfew
        rw [hsettled] at hget
        obtain ⟨d, hd, hdated⟩ := hsince.dated
        refine ⟨entry, hget, rfl, hmeant, hsettled, back ++ [next], hstretch, ⟨d, List.mem_append_left _ hd, hdated⟩,
          helsewhere, fun c hc hother hlate => ?_⟩
        rcases List.mem_append.1 hc with hc | hc
        · exact List.mem_append_left _ (hsince.later c hc hother hlate)
        · exact List.mem_append_right _ hc

/-! ## What is recalled -/

def Call.WinsAether (call : Call) : Prop :=
  ∃ route, call.event = .won route ∧ route.carrier = .aether

theorem tale_cons (network : Text) (next : Call) (post : List Call) (entry : Entry) :
    tale network (next :: post) entry =
      tale network post (if next.network = network then (next.touch (some entry)).settled else entry) := rfl

/-- Failures leave the route that is known. -/
theorem tale_route (hfailed : ∀ c ∈ post, c.network = network → c.event = .engineFailed) (entry : Entry) :
    (tale network post entry).route = entry.route ∧ (tale network post entry).atMs = entry.atMs := by
  induction post generalizing entry with
  | nil => exact ⟨rfl, rfl⟩
  | cons next post ih =>
      obtain ⟨hnext, hpost⟩ := List.forall_mem_cons.1 hfailed
      rw [tale_cons]
      by_cases hsame : next.network = network
      · have htouch : (next.touch (some entry)).settled.route = entry.route ∧
            (next.touch (some entry)).settled.atMs = entry.atMs := by
          rw [Call.touch, hnext hsame]
          exact ⟨rfl, rfl⟩
        rw [if_pos hsame]
        exact ⟨(ih hpost _).1.trans htouch.1, (ih hpost _).2.trans htouch.2⟩
      · rw [if_neg hsame]
        exact ih hpost entry

theorem touch_wins {before : Option Entry} (hwins : call.WinsAether) :
    (call.touch before).settled.engineFailedAtMs = 0 := by
  obtain ⟨network, atMs, event⟩ := call
  obtain ⟨route, rfl, haether⟩ := hwins
  have hname := route.remembersAs_eq_aether.2 haether
  simp [Call.touch, Entry.settled, hname]

theorem touch_mark (entry : Entry) (hwon : call.event ≠ .engineFailed) :
    (call.WinsAether → (call.touch (some entry)).settled.engineFailedAtMs = 0) ∧
      (¬ call.WinsAether → (call.touch (some entry)).settled.engineFailedAtMs = entry.settled.engineFailedAtMs) := by
  obtain ⟨network, atMs, event⟩ := call
  cases event with
  | engineFailed => exact absurd rfl hwon
  | won route =>
      refine ⟨touch_wins, fun hother => ?_⟩
      have hname : route.remembersAs ≠ .aether := fun hname =>
        hother ⟨route, rfl, route.remembersAs_eq_aether.1 hname⟩
      simp [Call.touch, Entry.settled, hname]

/-- A win of the engine takes its mark away, and another win leaves it. -/
theorem tale_mark (hwon : ∀ c ∈ post, c.network = network → c.event ≠ .engineFailed)
    (hsettled : entry.settled = entry) :
    ((∀ c ∈ post, c.network = network → ¬ c.WinsAether) →
        (tale network post entry).engineFailedAtMs = entry.engineFailedAtMs) ∧
      ((∃ c ∈ post, c.network = network ∧ c.WinsAether) → (tale network post entry).engineFailedAtMs = 0) := by
  -- along the later calls
  induction post generalizing entry with
  | nil => exact ⟨fun _ => rfl, nofun⟩
  | cons next post ih =>
      obtain ⟨hnext, hpost⟩ := List.forall_mem_cons.1 hwon
      rw [tale_cons]
      -- a call for this network, or for another
      by_cases hsame : next.network = network
      · obtain ⟨hzero, hkept⟩ := touch_mark entry (hnext hsame)
        rw [if_pos hsame]
        obtain ⟨ihnone, ihsome⟩ := ih hpost (Entry.settled_settled (next.touch (some entry)))
        rw [hsettled] at hkept
        constructor
        · intro hnone
          obtain ⟨hnot, hnone⟩ := List.forall_mem_cons.1 hnone
          rw [ihnone hnone, hkept (hnot hsame)]
        · rintro ⟨c, hc, hcall, hwins⟩
          -- a later win takes the mark away again; if there is none, this one took it
          by_cases hlater : ∃ c ∈ post, c.network = network ∧ c.WinsAether
          · exact ihsome hlater
          · have hnone : ∀ c ∈ post, c.network = network → ¬ c.WinsAether := fun c hc hcall hwins =>
              hlater ⟨c, hc, hcall, hwins⟩
            rcases List.mem_cons.1 hc with rfl | hc
            · rw [ihnone hnone, hzero hwins]
            · exact absurd hwins (hnone c hc hcall)
      · rw [if_neg hsame]
        obtain ⟨ihnone, ihsome⟩ := ih hpost hsettled
        constructor
        · exact fun hnone => ihnone (List.forall_mem_cons.1 hnone).2
        · rintro ⟨c, hc, hcall, hwins⟩
          rcases List.mem_cons.1 hc with rfl | hc
          · exact absurd hcall hsame
          · exact ihsome ⟨c, hc, hcall, hwins⟩

/-- The time that has passed since a positive time before now. -/
theorem elapsed_iff {now at_ limit : Int64} (hpos : 0 < at_) (hlt : at_ < now) :
    now - at_ ≤ limit ↔ now.toInt - at_.toInt ≤ limit.toInt := by
  have hpos : 0 < at_.toInt := Int64.lt_iff_toInt_lt.1 hpos
  have hlt : at_.toInt < now.toInt := Int64.lt_iff_toInt_lt.1 hlt
  have hbound := now.toInt_lt
  have hsub : (now - at_).toInt = now.toInt - at_.toInt := by
    rw [Int64.toInt_sub]
    exact Int.bmod_eq_of_le (by omega) (by omega)
  rw [Int64.le_iff_toInt_le, hsub]

theorem recall_of_get {text : Option Text} (hget : (decode json text).get network = some entry) (now : Int64) :
    «recall» json text network now = entry.route.filter fun _ => now - entry.atMs ≤ FORGET_AFTER_MS := by
  rw [«recall», hget]
  rfl

theorem engineFailedRecently_of_get {text : Option Text} (hget : (decode json text).get network = some entry)
    (now : Int64) : engineFailedRecently json text network now = true ↔
      0 < entry.engineFailedAtMs ∧ now - entry.engineFailedAtMs ≤ ENGINE_RETRY_AFTER_MS := by
  rw [engineFailedRecently, hget]
  by_cases hmark : 0 < entry.engineFailedAtMs
  · simp [hmark, Int64.not_le.2 hmark]
  · simp [hmark, Int64.not_lt.1 hmark]

/-- What is read of a mark is not changed where it is written again. -/
theorem marked_settled_iff (entry : Entry) (now : Int64) :
    (0 < entry.settled.engineFailedAtMs ∧ now - entry.settled.engineFailedAtMs ≤ ENGINE_RETRY_AFTER_MS) ↔
      0 < entry.engineFailedAtMs ∧ now - entry.engineFailedAtMs ≤ ENGINE_RETRY_AFTER_MS := by
  by_cases hmark : 0 < entry.engineFailedAtMs
  · rw [Entry.settled, if_pos hmark]
  · rw [Entry.settled, if_neg hmark]
    exact iff_of_false (fun h => absurd (show (0 : Int64) < 0 from h.1) (by decide)) fun h => hmark h.1

/-- The route of the last win is recalled for a fortnight. -/
theorem recall_exact (h : Orderly json stored (pre ++ call :: post)) (hlasting : Lasting call.network post)
    {now : Int64} (hnow : ∀ c ∈ pre ++ call :: post, c.atMs < now) {route : AutoRoute} (hwon : call.event = .won route)
    (hlast : ∀ c ∈ post, c.network = call.network → c.event = .engineFailed) :
    «recall» json (after json stored (pre ++ call :: post)) call.network now =
      if now.toInt - call.atMs.toInt ≤ FORGET_AFTER_MS.toInt then some route.remembersAs else none := by
  obtain ⟨entry, hget, htale, -⟩ := held h hlasting
  obtain ⟨hroute, hat⟩ := tale_route hlast
    (call.touch ((decode json (after json stored pre)).get call.network)).settled
  rw [← htale, Call.touch, hwon] at hroute hat
  have hroute : entry.route = some route.remembersAs := hroute
  have hat : entry.atMs = call.atMs := hat
  have helapsed : now - call.atMs ≤ FORGET_AFTER_MS ↔ now.toInt - call.atMs.toInt ≤ FORGET_AFTER_MS.toInt :=
    elapsed_iff (h.positive call (by simp)) (hnow call (by simp))
  rw [recall_of_get hget, hroute, hat, Option.filter_some]
  simp only [decide_eq_true_eq, helapsed]

/-- The mark of the last failure stands for six hours, unless the engine has won since. -/
theorem engineFailedRecently_exact (h : Orderly json stored (pre ++ call :: post))
    (hlasting : Lasting call.network post)
    {now : Int64} (hnow : ∀ c ∈ pre ++ call :: post, c.atMs < now) (hfailed : call.event = .engineFailed)
    (hlast : ∀ c ∈ post, c.network = call.network → c.event ≠ .engineFailed) :
    engineFailedRecently json (after json stored (pre ++ call :: post)) call.network now = true ↔
      now.toInt - call.atMs.toInt ≤ ENGINE_RETRY_AFTER_MS.toInt ∧
        ∀ c ∈ post, c.network = call.network → ¬ c.WinsAether := by
  obtain ⟨entry, hget, htale, -⟩ := held h hlasting
  have hpos := h.positive call (by simp)
  -- the call itself sets the mark, to its own time
  have hmark : (call.touch ((decode json (after json stored pre)).get call.network)).settled.engineFailedAtMs =
      call.atMs := by
    rw [Call.touch, hfailed]
    exact if_pos hpos
  obtain ⟨hnone, hsome⟩ := tale_mark hlast
    (Entry.settled_settled (call.touch ((decode json (after json stored pre)).get call.network)))
  rw [← htale] at hnone hsome
  rw [hmark] at hnone
  rw [engineFailedRecently_of_get hget]
  by_cases hwins : ∃ c ∈ post, c.network = call.network ∧ c.WinsAether
  -- a win of the engine takes the mark back
  · obtain ⟨c, hc, hcall, hwon⟩ := hwins
    refine iff_of_false (fun hmarked => ?_) fun hquiet => hquiet.2 c hc hcall hwon
    rw [hsome ⟨c, hc, hcall, hwon⟩] at hmarked
    exact absurd hmarked.1 (by decide)
  -- without one the mark stands, and its age decides
  · have hquiet : ∀ c ∈ post, c.network = call.network → ¬ c.WinsAether := fun c hc hcall hwon =>
      hwins ⟨c, hc, hcall, hwon⟩
    rw [hnone hquiet, elapsed_iff hpos (hnow call (by simp))]
    exact ⟨fun hmarked => ⟨hmarked.2, hquiet⟩, fun hrecent => ⟨hpos, hrecent.1⟩⟩

/-- Noting a failure leaves what is recalled. -/
theorem recall_failure (h : Orderly json stored (calls ++ [call])) (hfailed : call.event = .engineFailed)
    (now : Int64) :
    «recall» json (after json stored (calls ++ [call])) call.network now =
      «recall» json (after json stored calls) call.network now := by
  have hget := get_touched h
  cases hbefore : (decode json (after json stored calls)).get call.network with
  | none =>
      rw [hbefore] at hget
      rw [recall_of_get hget, «recall», hbefore, Call.touch, hfailed]
      rfl
  | some before =>
      rw [hbefore] at hget
      rw [recall_of_get hget, recall_of_get hbefore, Call.touch, hfailed]
      rfl

/-- A win of another carrier leaves the mark of the engine. -/
theorem engineFailedRecently_won (h : Orderly json stored (calls ++ [call])) (hwon : call.event ≠ .engineFailed)
    (hother : ¬ call.WinsAether) (now : Int64) :
    engineFailedRecently json (after json stored (calls ++ [call])) call.network now =
      engineFailedRecently json (after json stored calls) call.network now := by
  have hget := get_touched h
  cases hbefore : (decode json (after json stored calls)).get call.network with
  | none =>
      rw [hbefore] at hget
      have hzero : (call.touch none).settled.engineFailedAtMs = 0 := by
        obtain ⟨network, atMs, event⟩ := call
        cases event with
        | engineFailed => exact absurd rfl hwon
        | won route => by_cases hname : route.remembersAs = .aether <;> simp [Call.touch, Entry.settled, hname]
      rw [Bool.eq_iff_iff, engineFailedRecently_of_get hget, hzero, engineFailedRecently, hbefore]
      exact iff_of_false (fun hmarked => absurd hmarked.1 (by decide)) Bool.false_ne_true
  | some before =>
      rw [hbefore] at hget
      rw [Bool.eq_iff_iff, engineFailedRecently_of_get hget, engineFailedRecently_of_get hbefore,
        (touch_mark _ hwon).2 hother, marked_settled_iff]

/-- A call about one network leaves what is known about another that is kept. -/
theorem other_kept (hother : network ≠ call.network)
    (hkept : ((decode json (after json stored (calls ++ [call]))).get network).isSome) (now : Int64) :
    «recall» json (after json stored (calls ++ [call])) network now =
      «recall» json (after json stored calls) network now ∧
      engineFailedRecently json (after json stored (calls ++ [call])) network now =
        engineFailedRecently json (after json stored calls) network now := by
  obtain ⟨entry, hget⟩ := Option.isSome_iff_exists.1 hkept
  have hcall := get_of_apply json (after_append json stored calls call ▸ hget)
  rw [if_neg hother] at hcall
  obtain ⟨before, hbefore, rfl⟩ := hcall
  constructor
  · rw [recall_of_get hget, recall_of_get hbefore]
    rfl
  · rw [Bool.eq_iff_iff, engineFailedRecently_of_get hget, engineFailedRecently_of_get hbefore, marked_settled_iff]

/-! ## Nothing else is recalled -/

/-- No call about the network that changes the route. -/
def NoWin (network : Text) (calls : List Call) : Prop :=
  ∀ call ∈ calls, call.network = network → call.event = .engineFailed

/-- No call about the network that changes the mark. -/
def Unmarked (network : Text) (calls : List Call) : Prop :=
  ∀ call ∈ calls, call.network = network → call.event ≠ .engineFailed ∧ ¬ call.WinsAether

/-- The last win on the network was of the route, within a fortnight. -/
def WonLast (calls : List Call) (network : Text) (now : Int64) (route : AutoRoute) : Prop :=
  ∃ pre call post won, calls = pre ++ call :: post ∧ call.network = network ∧ call.event = .won won ∧
    route = won.remembersAs ∧ now.toInt - call.atMs.toInt ≤ FORGET_AFTER_MS.toInt ∧ NoWin network post

/-- The last failure noted for the network was within six hours, and the engine has not won since. -/
def FailedLast (calls : List Call) (network : Text) (now : Int64) : Prop :=
  ∃ pre call post, calls = pre ++ call :: post ∧ call.network = network ∧ call.event = .engineFailed ∧
    now.toInt - call.atMs.toInt ≤ ENGINE_RETRY_AFTER_MS.toInt ∧ Unmarked network post

theorem WonLast.append {now : Int64} {route : AutoRoute} (h : WonLast calls network now route)
    (hcall : call.network = network → call.event = .engineFailed) : WonLast (calls ++ [call]) network now route := by
  obtain ⟨pre, win, post, won, rfl, hnetwork, hwon, hroute, hrecent, hpost⟩ := h
  refine ⟨pre, win, post ++ [call], won, by simp, hnetwork, hwon, hroute, hrecent, ?_⟩
  exact List.forall_mem_append.2 ⟨hpost, List.forall_mem_singleton.2 hcall⟩

theorem FailedLast.append {now : Int64} (h : FailedLast calls network now)
    (hcall : call.network = network → call.event ≠ .engineFailed ∧ ¬ call.WinsAether) :
    FailedLast (calls ++ [call]) network now := by
  obtain ⟨pre, failure, post, rfl, hnetwork, hfailed, hrecent, hpost⟩ := h
  refine ⟨pre, failure, post ++ [call], by simp, hnetwork, hfailed, hrecent, ?_⟩
  exact List.forall_mem_append.2 ⟨hpost, List.forall_mem_singleton.2 hcall⟩

theorem isSome_of_recall {text : Option Text} {now : Int64} {route : AutoRoute}
    (h : «recall» json text network now = some route) : ((decode json text).get network).isSome := by
  obtain ⟨entry, hget, -⟩ := Option.bind_eq_some_iff.1 h
  exact Option.isSome_of_eq_some hget

theorem isSome_of_engineFailedRecently {text : Option Text} {now : Int64}
    (h : engineFailedRecently json text network now = true) : ((decode json text).get network).isSome := by
  cases hget : (decode json text).get network with
  | none =>
      rw [engineFailedRecently, hget] at h
      cases h
  | some entry => rfl

/-- A call that is the last one leaves nothing out. -/
theorem lasting_nil (network : Text) : Lasting network [] := by
  intro stretch hstretch _
  rw [List.eq_nil_of_infix_nil hstretch]
  decide

/-- What is recalled is the route of the last win, or what was stored and no win has changed. -/
theorem recall_only (h : Orderly json stored calls) {now : Int64} (hnow : ∀ c ∈ calls, c.atMs < now)
    {route : AutoRoute} (hrecall : «recall» json (after json stored calls) network now = some route) :
    WonLast calls network now route ∨ NoWin network calls ∧ «recall» json stored network now = some route := by
  -- from the last call back
  induction calls using List.reverseRecOn with
  | nil => exact .inr ⟨nofun, hrecall⟩
  | append_singleton calls call ih =>
      obtain ⟨hnow', hlast⟩ := List.forall_mem_append.1 hnow
      -- a failure of the engine leaves the route that is remembered
      have hquiet : (call.network = network → call.event = .engineFailed) →
          «recall» json (after json stored calls) network now = some route →
          WonLast (calls ++ [call]) network now route ∨
            NoWin network (calls ++ [call]) ∧ «recall» json stored network now = some route := by
        intro hcall hbefore
        refine (ih h.front hnow' hbefore).imp (fun hwon => hwon.append hcall) fun ⟨hnone, hstored⟩ => ⟨?_, hstored⟩
        exact List.forall_mem_append.2 ⟨hnone, List.forall_mem_singleton.2 hcall⟩
      by_cases hsame : call.network = network
      · subst hsame
        cases hevent : call.event with
        -- the last call is a failure, or a win of its own
        | engineFailed =>
            rw [recall_failure h hevent] at hrecall
            exact hquiet (fun _ => hevent) hrecall
        | won won =>
            left
            have hexact := recall_exact h (lasting_nil _) hnow hevent nofun
            rw [hexact] at hrecall
            split_ifs at hrecall with hrecent
            exact ⟨calls, call, [], won, rfl, rfl, hevent, (Option.some.inj hrecall).symm, hrecent, nofun⟩
      -- a call for another network
      · rw [(other_kept (Ne.symm hsame) (isSome_of_recall hrecall) now).1] at hrecall
        exact hquiet (fun heq => absurd heq hsame) hrecall

/-- A failure is recent where one was noted, or was stored and no call has changed it. -/
theorem engineFailedRecently_only (h : Orderly json stored calls) {now : Int64} (hnow : ∀ c ∈ calls, c.atMs < now)
    (hmarked : engineFailedRecently json (after json stored calls) network now = true) :
    FailedLast calls network now ∨
      Unmarked network calls ∧ engineFailedRecently json stored network now = true := by
  -- from the last call back
  induction calls using List.reverseRecOn with
  | nil => exact .inr ⟨nofun, hmarked⟩
  | append_singleton calls call ih =>
      obtain ⟨hnow', hlast⟩ := List.forall_mem_append.1 hnow
      -- what neither notes a failure nor wins over the engine leaves the mark
      have hquiet : (call.network = network → call.event ≠ .engineFailed ∧ ¬ call.WinsAether) →
          engineFailedRecently json (after json stored calls) network now = true →
          FailedLast (calls ++ [call]) network now ∨
            Unmarked network (calls ++ [call]) ∧ engineFailedRecently json stored network now = true := by
        intro hcall hbefore
        refine (ih h.front hnow' hbefore).imp (fun hfailed => hfailed.append hcall) fun ⟨hnone, hstored⟩ =>
          ⟨?_, hstored⟩
        exact List.forall_mem_append.2 ⟨hnone, List.forall_mem_singleton.2 hcall⟩
      by_cases hsame : call.network = network
      · subst hsame
        -- the last call notes a failure, takes the mark away, or is a win of another route
        by_cases hevent : call.event = .engineFailed
        · left
          obtain ⟨hrecent, -⟩ := (engineFailedRecently_exact h (lasting_nil _) hnow hevent nofun).1 hmarked
          exact ⟨calls, call, [], rfl, rfl, hevent, hrecent, nofun⟩
        · by_cases hwins : call.WinsAether
          · -- the win has taken the mark away
            rw [engineFailedRecently_of_get (get_touched h), touch_wins hwins] at hmarked
            exact absurd hmarked.1 (by decide)
          · rw [engineFailedRecently_won h hevent hwins] at hmarked
            exact hquiet (fun _ => ⟨hevent, hwins⟩) hmarked
      · rw [(other_kept (Ne.symm hsame) (isSome_of_engineFailedRecently hmarked) now).2] at hmarked
        exact hquiet (fun heq => absurd heq hsame) hmarked

/-- The network has been kept by every call. -/
def KeptBy (json : OrgJson) (stored : Option Text) (calls : List Call) (network : Text) : Prop :=
  ∀ front, front <+: calls → ((decode json (after json stored front)).get network).isSome

theorem KeptBy.front (h : KeptBy json stored (calls ++ [call]) network) : KeptBy json stored calls network :=
  fun front hfront => h front (hfront.trans (List.prefix_append _ _))

/-- The route that was stored stands while the network is kept and nothing wins on it. -/
theorem recall_stored (h : Orderly json stored calls) (hkept : KeptBy json stored calls network)
    (hnone : NoWin network calls) (now : Int64) :
    «recall» json (after json stored calls) network now = «recall» json stored network now := by
  induction calls using List.reverseRecOn with
  | nil => rfl
  | append_singleton calls call ih =>
      obtain ⟨hnone, hcall⟩ := List.forall_mem_append.1 hnone
      rw [← ih h.front hkept.front hnone]
      by_cases hsame : call.network = network
      · subst hsame
        exact recall_failure h (hcall call (List.mem_singleton_self _) rfl) now
      · exact (other_kept (Ne.symm hsame) (hkept _ (List.prefix_refl _)) now).1

/-- And so does the mark, while nothing but another carrier wins on it. -/
theorem engineFailedRecently_stored (h : Orderly json stored calls) (hkept : KeptBy json stored calls network)
    (hnone : Unmarked network calls) (now : Int64) :
    engineFailedRecently json (after json stored calls) network now =
      engineFailedRecently json stored network now := by
  induction calls using List.reverseRecOn with
  | nil => rfl
  | append_singleton calls call ih =>
      obtain ⟨hnone, hcall⟩ := List.forall_mem_append.1 hnone
      rw [← ih h.front hkept.front hnone]
      by_cases hsame : call.network = network
      · subst hsame
        obtain ⟨hevent, hwins⟩ := hcall call (List.mem_singleton_self _) rfl
        exact engineFailedRecently_won h hevent hwins now
      · exact (other_kept (Ne.symm hsame) (hkept _ (List.prefix_refl _)) now).2

/-! ## What is read of a text that a call has stored -/

/-- The text keeps the entries: no more networks than there may be, each with all that is known about it, and
every network that fewer others were touched as late as. -/
structure Keeps (json : OrgJson) (entries : LinkedMap Text Entry) (text : Option Text) : Prop where
  few : (decode json text).entries.length ≤ MAX_NETWORKS
  faithful : ∀ network read, (decode json text).get network = some read →
    ∃ entry, entries.get network = some entry ∧ read = entry.settled
  lossless : ∀ network entry, entries.get network = some entry → entry.Meant →
    (entries.entries.filter fun e => e.1 ≠ network ∧ entry.touchedMs ≤ e.2.touchedMs).length < MAX_NETWORKS →
    (decode json text).get network = some entry.settled

theorem keeps_encode (entries : LinkedMap Text Entry) : Keeps json entries (some (encode entries)) where
  few := by
    rw [decode_encode]
    exact length_settle entries
  faithful network read hread := by
    rw [decode_encode, get_settle] at hread
    obtain ⟨entry, hentry, -, hread⟩ := hread
    exact ⟨entry, LinkedMap.get_of_newest _ hentry, hread⟩
  lossless network entry hentry hmeant hfew := by
    rw [decode_encode, get_settle]
    exact ⟨entry, LinkedMap.get_newest _ hentry hfew, hmeant, rfl⟩

/-- What is recalled of the networks, by the calls about them. -/
structure Recalls (json : OrgJson) (stored : Option Text) (calls : List Call) : Prop where
  won : ∀ pre call post, calls = pre ++ call :: post → Lasting call.network post →
    ∀ now, (∀ c ∈ calls, c.atMs < now) → ∀ route, call.event = .won route → NoWin call.network post →
      «recall» json (after json stored calls) call.network now =
        if now.toInt - call.atMs.toInt ≤ FORGET_AFTER_MS.toInt then some route.remembersAs else none
  won_only : ∀ network now, (∀ c ∈ calls, c.atMs < now) → ∀ route,
    «recall» json (after json stored calls) network now = some route →
      WonLast calls network now route ∨ NoWin network calls ∧ «recall» json stored network now = some route
  won_stored : ∀ network, KeptBy json stored calls network → NoWin network calls → ∀ now,
    «recall» json (after json stored calls) network now = «recall» json stored network now
  failed : ∀ pre call post, calls = pre ++ call :: post → Lasting call.network post →
    ∀ now, (∀ c ∈ calls, c.atMs < now) → call.event = .engineFailed →
      (∀ c ∈ post, c.network = call.network → c.event ≠ .engineFailed) →
      (engineFailedRecently json (after json stored calls) call.network now = true ↔
        now.toInt - call.atMs.toInt ≤ ENGINE_RETRY_AFTER_MS.toInt ∧
          ∀ c ∈ post, c.network = call.network → ¬ c.WinsAether)
  failed_only : ∀ network now, (∀ c ∈ calls, c.atMs < now) →
    engineFailedRecently json (after json stored calls) network now = true →
      FailedLast calls network now ∨
        Unmarked network calls ∧ engineFailedRecently json stored network now = true
  failed_stored : ∀ network, KeptBy json stored calls network → Unmarked network calls → ∀ now,
    engineFailedRecently json (after json stored calls) network now =
      engineFailedRecently json stored network now

/-- What one more call leaves. -/
structure Leaves (json : OrgJson) (stored : Option Text) (calls : List Call) (call : Call) : Prop where
  route : call.event = .engineFailed → ∀ now,
    «recall» json (after json stored (calls ++ [call])) call.network now =
      «recall» json (after json stored calls) call.network now
  mark : call.event ≠ .engineFailed → ¬ call.WinsAether → ∀ now,
    engineFailedRecently json (after json stored (calls ++ [call])) call.network now =
      engineFailedRecently json (after json stored calls) call.network now
  others : ∀ network, network ≠ call.network →
    ((decode json (after json stored (calls ++ [call]))).get network).isSome → ∀ now,
    «recall» json (after json stored (calls ++ [call])) network now =
        «recall» json (after json stored calls) network now ∧
      engineFailedRecently json (after json stored (calls ++ [call])) network now =
        engineFailedRecently json (after json stored calls) network now
  text : Keeps json (call.entries json (after json stored calls)) (after json stored (calls ++ [call]))

/-- **What is recalled of a network is what the calls about it tell**, as long as it is not left out: the route of the
last win for a fortnight, and the mark of the last failure for six hours or until the engine wins.  Nothing else is
recalled, and a call that is stored loses nothing of what it keeps. -/
theorem memory_exact (h : Orderly json stored calls) :
    Recalls json stored calls ∧
      ∀ call, Orderly json stored (calls ++ [call]) → Leaves json stored calls call := by
  refine ⟨⟨?_, ?_, ?_, ?_, ?_, ?_⟩, fun call horderly => ⟨?_, ?_, ?_, ?_⟩⟩
  · rintro pre call post rfl hlasting now hnow route hwon hlast
    exact recall_exact h hlasting hnow hwon hlast
  · exact fun network now hnow route hrecall => recall_only h hnow hrecall
  · exact fun network hkept hnone now => recall_stored h hkept hnone now
  · rintro pre call post rfl hlasting now hnow hfailed hlast
    exact engineFailedRecently_exact h hlasting hnow hfailed hlast
  · exact fun network now hnow hmarked => engineFailedRecently_only h hnow hmarked
  · exact fun network hkept hnone now => engineFailedRecently_stored h hkept hnone now
  · exact fun hfailed now => recall_failure horderly hfailed now
  · exact fun hwon hother now => engineFailedRecently_won horderly hwon hother now
  · exact fun network hother hkept now => other_kept hother hkept now
  · rw [after_append, Call.apply_eq]
    exact keeps_encode _

end Histories

section Strict

def readValue (t : Text) : Option (Value × Text) :=
  match Json.readNumber t with
  | some (n, rest) => some (.long n, rest)
  | none =>
      if t.head? = some Json.quote then (Json.readChars t.tail).map fun (t, rest) => (.text t, rest) else none

theorem reads_value : Json.Reads Value.display readValue Value.Plain := by
  intro value hplain rest hrest
  cases value with
  | text t =>
      have hnumber : Json.readNumber (Json.quoted t ++ rest) = none := rfl
      have htail : (Json.quoted t ++ rest).tail = t.flatMap Json.escapeChar ++ Json.quote :: rest := by
        simp [Json.quoted]
      rw [readValue, Value.display, hnumber, htail, Json.readChars_escape]
      rfl
  | long n =>
      rw [readValue, Value.display, Json.readNumber_display n hrest.ends]
  | other shown number => cases hplain

/-- A reader of what is written that takes no other text. -/
def OrgJson.strict : OrgJson where
  parse t :=
    match Json.readMembers (Json.readMembers readValue) t with
    | some (doc, []) => some (doc.map fun (key, item) => (key, some item))
    | _ => none
  longOf _ := 0
  parse_toText doc hwritten := by
    have hitems : Json.Reads (Json.printMembers Value.display) (Json.readMembers readValue)
        fun item => ∀ m ∈ item, m.2.Plain := fun item hplain rest _ => Json.readMembers_print reads_value hplain rest
    have hread := Json.readMembers_print hitems (fun item hitem => (hwritten.2 item hitem).2) []
    rw [List.append_nil] at hread
    rw [toText, hread]

/-- A win and a failure, and what is known of them later. -/
theorem memory_two :
    let home : Text := ['h']
    let calls : List Call := [⟨home, 5, .won .torObfs4⟩, ⟨home, 9, .engineFailed⟩]
    «recall» .strict (after .strict none calls) home 20 = some .torObfs4 ∧
      engineFailedRecently .strict (after .strict none calls) home 20 = true := by
  intro home calls
  have horderly : Orderly .strict none calls :=
    ⟨by decide, by decide, nofun⟩
  have hlasting : ∀ post : List Call, post.length < MAX_NETWORKS → Lasting home post := by
    intro post hlength stretch hstretch _
    refine lt_of_le_of_lt ?_ hlength
    exact (List.dedup_sublist _).length_le.trans (by rw [List.length_map]; exact hstretch.length_le)
  obtain ⟨hanswers, -⟩ := memory_exact horderly
  have hnow : ∀ c ∈ calls, c.atMs < 20 := by decide
  have hrecall := hanswers.won [] ⟨home, 5, .won .torObfs4⟩ [⟨home, 9, .engineFailed⟩] rfl (hlasting _ (by decide)) 20
    hnow .torObfs4 rfl (by simp [NoWin])
  have hmark := hanswers.failed [⟨home, 5, .won .torObfs4⟩] ⟨home, 9, .engineFailed⟩ [] rfl (hlasting _ (by decide)) 20
    hnow rfl (by simp)
  exact ⟨hrecall, hmark.2 ⟨by decide, by simp⟩⟩

/-- A win at home, wins on thirty-two other networks, and a failure at home. -/
def crowd : List Call :=
  ⟨['h'], 1, .won .psiphon⟩ ::
    ((List.range 32).map fun i => ⟨Nat.toDigits 10 i, Int64.ofNat (i + 2), .won .psiphon⟩) ++
      [⟨['h'], 34, .engineFailed⟩]

/-- Thirty-two networks, all dated later than what follows. -/
def ahead : LinkedMap Text Entry :=
  .ofList ((List.range 32).map fun i => (Nat.toDigits 10 i, ⟨some .psiphon, 1000, 0⟩))

/-- The win at home is forgotten by the time home is touched again, a win behind the dates of the clock is forgotten at
once, and a failure at the time zero is no failure. -/
theorem route_forgotten :
    (Orderly .strict none crowd ∧ «recall» .strict (after .strict none crowd) ['h'] 35 = none) ∧
      «recall» .strict (after .strict (some (encode ahead)) [⟨['h'], 1, .won .psiphon⟩]) ['h'] 2 = none ∧
      engineFailedRecently .strict (after .strict none [⟨['h'], 0, .engineFailed⟩]) ['h'] 1 = false := by
  refine ⟨⟨⟨by decide, by decide, nofun⟩, ?_⟩, ?_, ?_⟩
  · rw [«recall», decode_after]
    decide +kernel
  · rw [«recall», decode_after, decode_encode]
    decide
  · rw [engineFailedRecently, decode_after]
    decide

end Strict

end RouteMemory
end AuroraVpn
