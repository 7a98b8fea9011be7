import AuroraVpn.Lib.Record
import AuroraVpn.Lib.Runs
import AuroraVpn.Settings.Record

/-!
# Saves — the actions that save settings, interleaved

`MainViewModel` over `SettingsRepository`.  Every action gets the settings that the screen it comes
from last saw, and saves a copy of them with some fields set: the whole record, in a coroutine of
its own.  The store is written at once or much later, and what was written reaches the screens later
still; until anything does they see the placeholder.

* `inv_init`, `inv_step`: what an action begins with is a version of the stored record, or the placeholder.
* `current_iff`: when a version has the value that the store has.
* `kept_write_iff`: what one write leaves in the store.
* `preserved_iff`: the runs in which the store is what the actions made of it.
-/

namespace AuroraVpn
namespace Settings

open Record Runs

/-- The fields that an action sets. -/
abbrev Change :=
  Update Field.Value

/-- A value of the `settings` flow, and which version of the stored record it is: none is the placeholder. -/
structure Snapshot where
  settings : AppSettings
  version : Option Nat

def Snapshot.placeholder : Snapshot where
  settings := AppSettings.new
  version := none

/-- A save that was launched: `settings.copy(..)` of the settings the action began with. -/
structure Save where
  begun : Snapshot
  change : Change
  /-- Launched by `selectChainNode`, whose job goes on behind it. -/
  choice : Bool

/-- The record that is written. -/
def Save.record (save : Save) : AppSettings :=
  apply save.change save.begun.settings

def setting (f : Field) (v : f.Value) : Change :=
  Function.update (fun _ => none) f (some v)

/-- `withoutPinnedEndpoint`. -/
def withoutPinnedEndpoint : Change
  | .plain .endpointMode => some EndpointMode.automatic
  | .plain .customEndpoint => some ([] : Text)
  | .plain .customEndpointProtocol => some (none : Option TunnelProtocol)
  | _ => none

/-- What `fetchBridges` sets; the lines are joined. -/
def bridgesOf (lines : List Text) : Change
  | .plain .torBridge => some Carriers.TorBridge.custom
  | .plain .torBridges => some (List.intercalate "\n".toList lines : Text)
  | _ => none

structure State where
  /-- The record that was in the store at the beginning. -/
  initial : AppSettings
  stored : Preferences
  /-- The records that have been in the store, oldest first. -/
  versions : List AppSettings
  /-- The value of the `settings` flow. -/
  flow : Snapshot
  /-- The settings a screen last saw. -/
  shown : Nat → Snapshot
  pending : List Save
  /-- `chainJob` is not completed. -/
  choosing : Bool
  /-- The settings that an active `bridgeJob` began with. -/
  fetching : Option Snapshot
  /-- The changes whose saves have been written, oldest first. -/
  performed : List Change

inductive Label
  /-- A value of the store reaches the flow. -/
  | deliver (version : Nat)
  /-- A screen sees the value of the flow. -/
  | see (screen : Nat)
  | save (screen : Nat) (change : Change)
  | selectChainNode (screen : Nat) (node : Text)
  | resetEndpoint (screen : Nat)
  | fetchBridges (screen : Nat)
  /-- The network answers a bridge fetch. -/
  | bridges (lines : Option (List Text))
  /-- A launched save is written. -/
  | write (i : Nat)
  /-- `chainJob` completes. -/
  | chosen

def State.launch (s : State) (save : Save) : State :=
  { s with pending := s.pending ++ [save] }

def init (s : State) : Prop :=
  s.initial = settingsOf s.stored ∧ s.versions = [settingsOf s.stored] ∧ s.flow = .placeholder ∧
    (∀ screen, s.shown screen = .placeholder) ∧ s.pending = [] ∧ s.choosing = false ∧ s.fetching = none ∧
    s.performed = []

def step (l : Label) (s : State) : Option State :=
  match l with
  | .deliver version =>
      -- the flow may skip values, and does not go back
      if ∀ flowed ∈ s.flow.version, flowed ≤ version then
        s.versions[version]?.map fun settings => { s with flow := ⟨settings, some version⟩ }
      else none
  | .see screen => some { s with shown := Function.update s.shown screen s.flow }
  | .save screen change => some (s.launch ⟨s.shown screen, change, false⟩)
  | .selectChainNode screen node =>
      some (if s.choosing then s
        else
          { s.launch ⟨s.shown screen, setting (.chain .node) (some node : Option Text), true⟩ with
            choosing := true })
  | .resetEndpoint screen => some (s.launch ⟨s.shown screen, withoutPinnedEndpoint, false⟩)
  | .fetchBridges screen =>
      some (if s.fetching.isSome then s else { s with fetching := some (s.shown screen) })
  | .bridges lines =>
      s.fetching.map fun begun =>
        let s := { s with fetching := none }
        match lines with
        | some lines => s.launch ⟨begun, bridgesOf lines, false⟩
        | none => s
  | .write i =>
      s.pending[i]?.map fun save =>
        let stored := savePreferences save.record
        { s with
          stored
          versions := s.versions ++ [settingsOf stored]
          pending := s.pending.eraseIdx i
          performed := s.performed ++ [save.change] }
  | .chosen =>
      if s.choosing ∧ ∀ save ∈ s.pending, save.choice = false then some { s with choosing := false }
      else none

def machine : Machine State Label where
  init := init
  enabled _ _ := True
  step := step

/-! ## What actions begin with -/

/-- A snapshot is the version of the stored record that it says, or the placeholder. -/
def State.Tells (s : State) (snapshot : Snapshot) : Prop :=
  match snapshot.version with
  | none => snapshot.settings = AppSettings.new
  | some k => s.versions[k]? = some snapshot.settings

/-- The versions are the records that the store had, and every snapshot at hand is one of them. -/
structure Inv (s : State) : Prop where
  length_versions : s.versions.length = s.performed.length + 1
  latest : s.versions[s.performed.length]? = some (settingsOf s.stored)
  valid : ∀ settings ∈ s.versions, ∀ f, Valid f (settings f)
  flow : s.Tells s.flow
  shown : ∀ screen, s.Tells (s.shown screen)
  pending : ∀ save ∈ s.pending, s.Tells save.begun
  fetching : ∀ begun ∈ s.fetching, s.Tells begun

theorem inv_init {s : State} (h : init s) : Inv s := by
  obtain ⟨-, hversions, hflow, hshown, hpending, -, hfetching, hperformed⟩ := h
  refine ⟨?_, ?_, ?_, hflow ▸ rfl, fun screen => hshown screen ▸ rfl, ?_, ?_⟩
  · rw [hversions, hperformed]
    rfl
  · rw [hversions, hperformed]
    rfl
  · rw [hversions]
    exact List.forall_mem_singleton.2 (valid_settingsOf s.stored)
  · rw [hpending]
    exact List.forall_mem_nil _
  · rw [hfetching]
    exact fun _ h => (Option.not_mem_none _ h).elim

/-- A snapshot is made of values that the repository reads as it wrote them. -/
theorem Inv.valid_tells {s : State} (h : Inv s) {snapshot : Snapshot} (htells : s.Tells snapshot) (f : Field) :
    Valid f (snapshot.settings f) := by
  unfold State.Tells at htells
  split at htells
  · rw [htells]
    exact valid_new f
  · exact h.valid _ (List.mem_of_getElem? htells) f

theorem Inv.launch {s : State} (h : Inv s) {save : Save} (hsave : s.Tells save.begun) : Inv (s.launch save) :=
  { h with
    pending := fun other hin => by
      rcases List.mem_append.1 hin with hin | hin
      · exact h.pending other hin
      · rw [List.mem_singleton.1 hin]
        exact hsave }

/-- A version stays what it is when another record is stored. -/
theorem State.Tells.store {s s' : State} {snapshot : Snapshot} {stored : AppSettings} (h : s.Tells snapshot)
    (hversions : s'.versions = s.versions ++ [stored]) : s'.Tells snapshot := by
  unfold State.Tells at *
  split at h
  · exact h
  · rw [hversions]
    exact (List.getElem?_append_left (List.getElem?_eq_some_iff.1 h).1).trans h

theorem Inv.write {s : State} (h : Inv s) (i : Nat) (save : Save) :
    Inv
      { s with
        stored := savePreferences save.record
        versions := s.versions ++ [settingsOf (savePreferences save.record)]
        pending := s.pending.eraseIdx i
        performed := s.performed ++ [save.change] } where
  length_versions := by
    rw [List.length_append, List.length_append, h.length_versions]
    rfl
  latest := by
    -- one version more, made by the save that was performed last
    have hlength : (s.performed ++ [save.change]).length = s.versions.length := by
      rw [List.length_append, h.length_versions]
      rfl
    change (s.versions ++ [settingsOf (savePreferences save.record)])[(s.performed ++ [save.change]).length]? = _
    rw [hlength, List.getElem?_concat_length]
  valid := fun settings hin => by
    rcases List.mem_append.1 hin with hin | hin
    · exact h.valid settings hin
    · rw [List.mem_singleton.1 hin]
      exact valid_settingsOf _
  flow := h.flow.store rfl
  shown := fun screen => (h.shown screen).store rfl
  pending := fun other hin => (h.pending other (List.mem_of_mem_eraseIdx hin)).store rfl
  fetching := fun begun hin => (h.fetching begun hin).store rfl

theorem inv_step {s s' : State} {l : Label} (h : Inv s) (hstep : step l s = some s') : Inv s' := by
  -- by the label; what a screen shows and what is fetched is some version
  cases l with
  | deliver version =>
      unfold step at hstep
      dsimp only at hstep
      split_ifs at hstep
      obtain ⟨settings, hversion, rfl⟩ := Option.map_eq_some_iff.1 hstep
      exact { h with flow := hversion }
  | see screen =>
      cases hstep
      refine { h with shown := fun other => ?_ }
      -- this screen shows the last one, and every other what it showed before
      change s.Tells (Function.update s.shown screen s.flow other)
      by_cases hother : other = screen
      · rw [hother, Function.update_self]
        exact h.flow
      · rw [Function.update_of_ne hother]
        exact h.shown other
  | save screen change =>
      cases hstep
      exact h.launch (h.shown screen)
  | selectChainNode screen node =>
      cases hstep
      split_ifs
      · exact h
      -- the save of a node is made of what the screen shows
      · exact { @Inv.launch s h ⟨s.shown screen, _, true⟩ (h.shown screen) with }
  | resetEndpoint screen =>
      cases hstep
      exact h.launch (h.shown screen)
  | fetchBridges screen =>
      cases hstep
      split_ifs
      · exact h
      · refine { h with fetching := ?_ }
        rintro _ ⟨⟩
        -- what the bridges will be put into is what the screen shows now
        exact h.shown screen
  | bridges lines =>
      obtain ⟨begun, hfetching, rfl⟩ := Option.map_eq_some_iff.1 hstep
      have hdone : Inv { s with fetching := none } :=
        { h with fetching := fun _ h => (Option.not_mem_none _ h).elim }
      cases lines with
      | none => exact hdone
      -- the bridges have come: they are put into what was begun with
      | some lines => exact hdone.launch (h.fetching begun hfetching)
  | write i =>
      obtain ⟨save, -, rfl⟩ := Option.map_eq_some_iff.1 hstep
      exact h.write i save
  | chosen =>
      unfold step at hstep
      dsimp only at hstep
      split_ifs at hstep
      cases hstep
      exact { h with }

/-! ## What writes leave in the store -/

/-- The store is what the actions that were written made of what it was at the beginning. -/
def Kept (s : State) : Prop :=
  settingsOf s.stored = applyAll s.performed s.initial

/-- So is every version, by the actions that were written before it. -/
def Told (s : State) : Prop :=
  ∀ k settings, s.versions[k]? = some settings → settings = applyAll (s.performed.take k) s.initial

/-- What was written behind a snapshot left a field as the snapshot has it: no action set it since, or the last
one to set it gave it the same value.  Everything that was ever written is behind the placeholder. -/
def Snapshot.Current (s : State) (snapshot : Snapshot) (f : Field) : Prop :=
  match snapshot.version with
  | none => (lastSet s.performed f).getD (s.initial f) = AppSettings.new f
  | some k => ∀ v ∈ lastSet (s.performed.drop k) f, v = snapshot.settings f

/-- A write of a save that is up to date: its copy is current in every field that its action does not set, and
what the action does set is a value that is read as it was written. -/
def Fresh (s : State) (l : Label) : Prop :=
  match l with
  | .write i => ∀ save ∈ s.pending[i]?, ∀ f,
      match save.change f with
      | none => save.begun.Current s f
      | some v => Valid f v
  | _ => True

/-- After every step of the run the store is what the actions made of it. -/
def Preserved (ls : List Label) (s : State) : Prop :=
  machine.Along (fun s l => ∀ s' ∈ step l s, Kept s') ls s

/-- **A snapshot has the value that the store has** exactly if it is current. -/
theorem current_iff {s : State} (hinv : Inv s) (htold : Told s) {snapshot : Snapshot}
    (htells : s.Tells snapshot) (f : Field) :
    snapshot.Current s f ↔ snapshot.settings f = settingsOf s.stored f := by
  have hkept : settingsOf s.stored = applyAll s.performed s.initial := by
    rw [htold _ _ hinv.latest, List.take_length]
  unfold State.Tells at htells
  unfold Snapshot.Current
  cases hversion : snapshot.version with
  | none =>
      rw [hversion] at htells
      change snapshot.settings = AppSettings.new at htells
      rw [hkept, applyAll_field, htells]
      exact eq_comm
  | some k =>
      rw [hversion] at htells
      change s.versions[k]? = some snapshot.settings at htells
      -- what the store has now is what the later actions made of the version
      have hsince : settingsOf s.stored = applyAll (s.performed.drop k) snapshot.settings := by
        rw [htold k _ htells, ← applyAll_append, List.take_append_drop, hkept]
      rw [hsince]
      exact applyAll_field_eq_iff.symm.trans eq_comm

/-- Only writes touch the store. -/
theorem step_unchanged {s s' : State} {l : Label} (hl : ∀ i, l ≠ .write i) (hstep : step l s = some s') :
    s'.stored = s.stored ∧ s'.versions = s.versions ∧ s'.performed = s.performed ∧ s'.initial = s.initial := by
  -- by the label: only a write appends a version
  cases l with
  | write i => exact absurd rfl (hl i)
  | deliver version =>
      unfold step at hstep
      dsimp only at hstep
      split_ifs at hstep
      obtain ⟨settings, -, rfl⟩ := Option.map_eq_some_iff.1 hstep
      exact ⟨rfl, rfl, rfl, rfl⟩
  | bridges lines =>
      obtain ⟨begun, -, rfl⟩ := Option.map_eq_some_iff.1 hstep
      cases lines <;> exact ⟨rfl, rfl, rfl, rfl⟩
  | chosen =>
      unfold step at hstep
      dsimp only at hstep
      split_ifs at hstep
      cases hstep
      exact ⟨rfl, rfl, rfl, rfl⟩
  | selectChainNode screen node =>
      cases hstep
      split_ifs <;> exact ⟨rfl, rfl, rfl, rfl⟩
  | fetchBridges screen =>
      cases hstep
      split_ifs <;> exact ⟨rfl, rfl, rfl, rfl⟩
  | _ =>
      cases hstep
      exact ⟨rfl, rfl, rfl, rfl⟩

/-- **One write.**  It leaves in the store what the actions made of it exactly if the save is up to
date. -/
theorem kept_write_iff {s s' : State} {i : Nat} (hinv : Inv s) (htold : Told s)
    (hstep : step (.write i) s = some s') : Kept s' ↔ Fresh s (.write i) := by
  obtain ⟨save, hsave, rfl⟩ := Option.map_eq_some_iff.1 hstep
  have htells := hinv.pending save (List.mem_of_getElem? hsave)
  have hfield : ∀ f, settingsOf (savePreferences save.record) f = apply save.change (settingsOf s.stored) f ↔
      match save.change f with
      | none => save.begun.Current s f
      | some v => Valid f v := by
    intro f
    cases hf : save.change f with
    | none =>
        -- the copy of an untouched field is read back as it is
        have hcopy : save.record f = save.begun.settings f := apply_of_none hf
        have hread : settingsOf (savePreferences save.record) f = save.record f :=
          (savedField_iff _ f).2 (hcopy ▸ hinv.valid_tells htells f)
        rw [hread, hcopy, apply_of_none hf]
        exact (current_iff hinv htold htells f).symm
    | some v =>
        have hset : save.record f = v := apply_of_some hf
        rw [apply_of_some hf, ← hset]
        exact savedField_iff _ f
  have hfresh : Fresh s (.write i) ↔ ∀ f,
      match save.change f with
      | none => save.begun.Current s f
      | some v => Valid f v := by
    change (∀ other ∈ s.pending[i]?, _) ↔ _
    rw [hsave]
    simp only [Option.mem_some_iff, forall_eq']
  have hkept : settingsOf s.stored = applyAll s.performed s.initial := by
    rw [htold _ _ hinv.latest, List.take_length]
  rw [hfresh, ← forall_congr' hfield]
  unfold Kept
  dsimp only
  rw [applyAll_concat, ← hkept]
  exact funext_iff

theorem told_init {s : State} (h : init s) : Told s := by
  obtain ⟨hinitial, hversions, -, -, -, -, -, hperformed⟩ := h
  intro k settings hk
  rw [hversions] at hk
  obtain ⟨hlt, rfl⟩ := List.getElem?_eq_some_iff.1 hk
  rw [hperformed, List.take_nil, hinitial]
  exact List.getElem_singleton hlt

/-- **One step.**  The versions stay what the actions made of them as long as the store does. -/
theorem told_step {s s' : State} {l : Label} (hinv : Inv s) (htold : Told s) (hstep : step l s = some s')
    (hkept : Kept s') : Told s' := by
  by_cases hl : ∀ i, l ≠ .write i
  -- a step that writes nothing leaves the versions alone
  · obtain ⟨-, hversions, hperformed, hinitial⟩ := step_unchanged hl hstep
    unfold Told
    rw [hversions, hperformed, hinitial]
    exact htold
  · push Not at hl
    obtain ⟨i, rfl⟩ := hl
    obtain ⟨save, -, rfl⟩ := Option.map_eq_some_iff.1 hstep
    intro k settings hk
    change (s.versions ++ _)[k]? = _ at hk
    by_cases hold : k < s.versions.length
    · -- an older version
      rw [List.getElem?_append_left hold] at hk
      have hk' : k ≤ s.performed.length := by
        have hlength := hinv.length_versions
        omega
      rw [htold k settings hk]
      change _ = applyAll ((s.performed ++ [save.change]).take k) s.initial
      rw [List.take_append_of_le_length hk']
    · -- the one that was written just now
      have hnew := hinv.write i save
      have hlt := (List.getElem?_eq_some_iff.1 hk).1
      have hk' : k = (s.performed ++ [save.change]).length := by
        rw [List.length_append, List.length_singleton] at *
        have hlength := hinv.length_versions
        omega
      subst hk'
      have hlatest : settings = settingsOf (savePreferences save.record) :=
        Option.some.inj (hk.symm.trans hnew.latest)
      rw [hlatest, List.take_length]
      exact hkept

theorem kept_iff_fresh {s : State} {l : Label} (hinv : Inv s) (htold : Told s) :
    (∀ s' ∈ step l s, Kept s') ↔ Fresh s l := by
  cases l with
  | write i =>
      cases hsave : s.pending[i]? with
      | none => simp [step, Fresh, hsave]
      | some save =>
          have hstep : ∃ s', step (.write i) s = some s' := by simp [step, hsave]
          obtain ⟨s', hstep⟩ := hstep
          rw [hstep]
          simp only [Option.mem_some_iff, forall_eq']
          exact kept_write_iff hinv htold hstep
  | _ =>
      refine ⟨fun _ => trivial, fun _ s' hs' => ?_⟩
      obtain ⟨hstored, -, hperformed, hinitial⟩ := step_unchanged (fun _ h => by cases h) hs'
      unfold Kept
      rw [hstored, hperformed, hinitial, htold _ _ hinv.latest, List.take_length]

/-- **The runs that lose and undo nothing** are those whose writes are all of saves that are up to
date. -/
theorem preserved_iff {s : State} (h : init s) (ls : List Label) :
    Preserved ls s ↔ machine.Along Fresh ls s := by
  constructor
  · refine fun hruns => Along.imp (P := fun s => Inv s ∧ Told s) ?_ ?_ ⟨inv_init h, told_init h⟩ hruns
    · exact fun s l s' hs hl hstep => ⟨inv_step hs.1 hstep, told_step hs.1 hs.2 hstep (hl s' hstep)⟩
    · exact fun s l hs hl => (kept_iff_fresh hs.1 hs.2).1 hl
  · refine fun hruns => Along.imp (P := fun s => Inv s ∧ Told s) ?_ ?_ ⟨inv_init h, told_init h⟩ hruns
    · exact fun s l s' hs hl hstep =>
        ⟨inv_step hs.1 hstep, told_step hs.1 hs.2 hstep ((kept_iff_fresh hs.1 hs.2).2 hl s' hstep)⟩
    · exact fun s l hs hl => (kept_iff_fresh hs.1 hs.2).2 hl

/-! ## A screen that still sees the placeholder -/

/-- The state that the app begins in over these preferences. -/
def State.new (stored : Preferences) : State where
  initial := settingsOf stored
  stored := stored
  versions := [settingsOf stored]
  flow := .placeholder
  shown _ := .placeholder
  pending := []
  choosing := false
  fetching := none
  performed := []

theorem init_new (stored : Preferences) : init (.new stored) :=
  ⟨rfl, rfl, rfl, fun _ => rfl, rfl, rfl, rfl, rfl⟩

/-- Preferences in which only the language was ever set. -/
def inPersian : Preferences where
  plain
    | .language => some "PERSIAN".toList
    | _ => none
  chain := none
  splitTunnel := none

/-- A switch is flipped on a screen, and the save is written. -/
def flipped (screen : Nat) : List Label :=
  [.save screen (setting (.plain .showAdvanced) true), .write 0]

/-- Written from the placeholder, the save of a switch puts back the language. -/
theorem not_preserved_placeholder : ¬ Preserved (flipped 0) (.new inPersian) := by
  intro hpreserved
  obtain ⟨-, hwrite⟩ := hpreserved
  have hkept := (hwrite _ rfl).1 _ rfl
  have hlanguage : AppLanguage.system = AppLanguage.persian := congrFun hkept (.plain .language)
  cases hlanguage

/-- A switch is flipped, a bridge fetch begins, the bridges that were pasted before are cleared, and the answer of
the fetch comes: the copy it began with is older than two writes, but nothing else was set to another value. -/
theorem preserved_fetch :
    Preserved
      (.deliver 0 :: .see 0 :: (flipped 0 ++
        [.deliver 1, .see 0, .fetchBridges 0, .save 0 (setting (.plain .torBridges) ([] : Text)), .write 0,
          .bridges (some ["obfs4 192.0.2.1:443".toList]), .write 0]))
      (.new inPersian) := by
  refine (preserved_iff (init_new inPersian) _).2 ?_
  refine Along.cons trivial rfl <| Along.cons trivial rfl <| Along.cons trivial rfl <| Along.cons ?_ rfl <|
    Along.cons trivial rfl <| Along.cons trivial rfl <| Along.cons trivial rfl <| Along.cons trivial rfl <|
    Along.cons ?_ rfl <| Along.cons trivial rfl <| Along.cons ?_ rfl trivial
  -- no field but the fetch's own was set behind the snapshot of any of the three
  all_goals
    rintro _ ⟨⟩ f
    rcases f with f | f | f <;> cases f <;> first | trivial | exact fun v hv => by cases hv

end Settings
end AuroraVpn
