import AuroraVpn.Account.Durable
import AuroraVpn.Account.Waits
import AuroraVpn.Lib.Runs

/-!
# Histories — registrations attempted on one store, with restarts in between

Every attempt starts with a load, as the functions do that call `provision_within_budget`, and a
granted identity is put on record afterwards.

* `load_registration`: a load gives the waits that are on disk.
* `step_accounted`: what one attempt makes of the waits.
* `waits_observed`: in a history whose attempts meet `Smooth`, the waits that were asked for are
  served.
-/

namespace AuroraVpn
namespace Account

open Program

/-! ## The waits on disk -/

/-- What the store on disk says of registrations; where there is none, nothing was attempted. -/
def budgetOn (fmt : Formats) (disk : Disk) (storePath : Text) : RegistrationBudget :=
  ((stored fmt disk storePath).map Store.registration).getD {}

section Load

variable (fmt : Formats) (o : LoadOutcome) (storePath : Text) (legacy : List (Slot × Text))
variable (disk : Disk)

theorem migrate_registration (base64 : Base64) (files : List Shown) (s : Store) :
    (files.foldl (migrateFile base64) s).registration = s.registration := by
  induction files generalizing s with
  | nil => rfl
  | cons file files ih => exact ih _

/-- **A load gives the waits that are on disk.** -/
theorem load_registration :
    (load fmt o storePath legacy disk).1.store.registration = budgetOn fmt disk storePath := by
  rw [load_store, Store.repair_registration]
  unfold budgetOn
  cases hstored : stored fmt disk storePath with
  | none => exact migrate_registration _ _ _
  | some s => exact (reconcile_kept fmt.base64 _ (s, [])).registration

theorem budgetOn_text {s : Store} {text : Text} (htext : s.toText fmt.store = .ok text)
    (hon : disk storePath = some text) : budgetOn fmt disk storePath = s.registration := by
  simp only [budgetOn, stored, hon, Option.bind_some, Store.parse_toText fmt.store htext,
    Except.toOption, Option.map_some, Option.getD_some]
  rfl

theorem setAside_cases :
    setAside fmt o storePath disk = disk ∨ setAside fmt o storePath disk storePath = none := by
  unfold setAside
  cases htext : disk storePath with
  | none => exact .inl rfl
  | some text =>
      cases hparse : Store.parse fmt.store text with
      | ok s => simp only [hparse, true_or]
      | error e =>
          simp only [hparse]
          split_ifs
          · exact .inr (Function.update_self _ _ _)
          · exact .inl rfl

/-- Where there is no store that can be read, a load leaves none that says anything. -/
theorem load_budget_of_none (hstored : stored fmt disk storePath = none) :
    budgetOn fmt (load fmt o storePath legacy disk).2 storePath = {} := by
  have hmoved : budgetOn fmt (setAside fmt o storePath disk) storePath = {} := by
    rcases setAside_cases fmt o storePath disk with hsame | hgone
    · simp [budgetOn, hsame, hstored]
    · simp [budgetOn, stored, hgone]
  have hempty : ∀ d, (migrateFromLegacy fmt d legacy).repair.1.registration = {} := by
    intro d
    rw [Store.repair_registration]
    exact migrate_registration _ _ _
  unfold load
  simp only [hstored, gather, Option.isNone_none, true_or, if_true]
  rcases writeBack_cases fmt o storePath
      (migrateFromLegacy fmt (setAside fmt o storePath disk) legacy).repair.1
      (setAside fmt o storePath disk) with
    ⟨text, htext, -, hdisk⟩ | ⟨-, hdisk⟩ | ⟨-, -, hgone⟩
  · rw [hdisk, budgetOn_text fmt storePath _ htext (Function.update_self _ _ _), hempty]
  · rw [hdisk, hmoved]
  · simp [budgetOn, stored, hgone]

/-- **A load that does not destroy the store leaves the waits on disk.** -/
theorem load_budget (hsurvives : ∀ s, stored fmt disk storePath = some s →
      InOrder s (peekAll fmt disk legacy) ∨ Saved fmt o (repaired fmt legacy disk s) ∨
        o.removed = false) :
    budgetOn fmt (load fmt o storePath legacy disk).2 storePath = budgetOn fmt disk storePath := by
  cases hstored : stored fmt disk storePath with
  | none =>
      rw [load_budget_of_none fmt o storePath legacy disk hstored]
      simp [budgetOn, hstored]
  | some s =>
      obtain ⟨s', hread, hkept, -⟩ :=
        (load_survives_iff fmt o storePath legacy disk hstored).2 (hsurvives s hstored)
      simp [budgetOn, hstored, hread, hkept.registration]

end Load

/-! ## Histories -/

/-- A failed attempt: when it failed, the waits that its answers named, and how many failures in a
row it made. -/
structure Failure where
  time : UInt64
  waits : List UInt64
  count : Nat

/-- Whether an attempt at `now` is still to be refused. -/
def Failure.Owes (f : Failure) (now : UInt64) : Prop :=
  now.toNat < f.time.toNat + (ladder f.count).toNat ∨
    ∃ r ∈ f.waits, now.toNat < f.time.toNat + max r.toNat (ladder f.count).toNat

/-- The files and the clock after a number of attempts, and what the attempts came to. -/
structure History where
  disk : Disk
  clock : UInt64
  /-- The failures since the last registration that was granted. -/
  failures : Nat
  past : List Failure

/-- One attempt, from the load in front of it to what it leaves. -/
structure Attempt where
  load : LoadOutcome
  result : Except AetherError Identity
  finish : World
  after : Store
  /-- When a granted identity is put on record, and how its write ends. -/
  recordedAt : UInt64
  write : WriteOutcome

def namedWaits (heard : List (Request × HttpAnswer)) : List UInt64 :=
  heard.filterMap fun entry => namedWait entry.2

section Machine

variable (env : Env) (site : IdentitySite)

/-- The store that is to be on disk after an attempt. -/
def Attempt.leaves (a : Attempt) : Store :=
  match a.result with
  | .ok identity => recorded env a.after site.slot identity a.recordedAt
  | .error _ => a.after

/-- What the attempt leaves on disk, a granted identity being put on record. -/
def Attempt.disk (a : Attempt) : Disk :=
  match a.result with
  | .ok _ => (save env.fmt a.write site.storePath (a.leaves env site) a.finish.disk).2
  | .error _ => a.finish.disk

def Attempt.clock (a : Attempt) (before : UInt64) : UInt64 :=
  a.finish.times.getLast?.getD before

def Attempt.next (a : Attempt) (s : History) : History :=
  let disk := a.disk env site
  let clock := a.clock s.clock
  match a.result with
  | .ok _ => { disk := disk, clock := clock, failures := 0, past := s.past }
  | .error (.registrationOnHold _ _) => { s with disk := disk, clock := clock }
  | .error _ =>
      { disk := disk
        clock := clock
        failures := s.failures + 1
        past := ⟨clock, namedWaits a.finish.heard, s.failures + 1⟩ :: s.past }

/-- The store and the files that an attempt starts from. -/
def Attempt.loaded (a : Attempt) (s : History) : Loaded × Disk :=
  Account.load env.fmt a.load site.storePath site.legacy s.disk

/-- Attempts one after another on one store, each of which loads it. -/
def histories : Runs.Machine History Attempt where
  init s := budgetOn env.fmt s.disk site.storePath = {} ∧ s.failures = 0 ∧ s.past = []
  enabled a s := RunsM (effects env.fmt) { disk := (a.loaded env site s).2, times := [], heard := [] }
    (a.loaded env site s).1.store (provisionWithinBudget env site) a.result a.finish a.after
  step a s := some (a.next env site s)

/-- An attempt that does not fail after answers which name a wait beyond the ladder's, before which
the load does not destroy the store, whose own write lands, and during which the clock neither goes
back nor comes within an hour of its end. -/
structure Attempt.Smooth (s : History) (a : Attempt) : Prop where
  waits : ∀ e, a.result = .error e →
    ∀ r ∈ namedWaits a.finish.heard, r.toNat ≤ (ladder (s.failures + 1)).toNat
  survives : ∀ store, stored env.fmt s.disk site.storePath = some store →
    InOrder store (peekAll env.fmt s.disk site.legacy) ∨
      Saved env.fmt a.load (repaired env.fmt site.legacy s.disk store) ∨ a.load.removed = false
  landed : (∃ reason wait, a.result = .error (.registrationOnHold reason wait)) ∨
    ∃ text, (a.leaves env site).toText env.fmt.store = .ok text ∧
      a.disk env site site.storePath = some text
  clock : (s.clock :: a.finish.times).Pairwise (· ≤ ·)
  far : ∀ t ∈ a.finish.times, t.toNat + 3600 < 2 ^ 64

/-- What the waits on disk have to do with the attempts before. -/
structure Observed (s : History) (b : RegistrationBudget) : Prop where
  counts : b.attempts.toNat = min s.failures 4294967295
  /-- Until a wait is over every attempt is refused. -/
  refuses : ∀ f ∈ s.past, ∀ now, s.clock ≤ now → f.Owes now → ∃ wait, b.mayAttempt now = .error wait
  admits : ∀ f, s.past.head? = some f → s.failures ≠ 0 → f.waits = [] →
    ∀ now : UInt64, f.time.toNat + (ladder f.count).toNat ≤ now.toNat → b.mayAttempt now = .ok ()
  /-- No addition wraps. -/
  unwrapped : ∀ f, s.past.head? = some f → s.failures ≠ 0 →
    b.nextAttemptAt.toNat = f.time.toNat + (ladder f.count).toNat
  climbs : (ladder s.failures).toNat ≤ (ladder (s.failures + 1)).toNat
  /-- The index into the ladder does not underflow. -/
  index : 1 ≤ (RegistrationBudget.countFailure b.attempts).toNat

/-- How the budget comes to that: the last failure set it, and the earlier ones are over. -/
structure Accounted (s : History) (b : RegistrationBudget) : Prop where
  counts : b.attempts.toNat = min s.failures 4294967295
  waits : ∀ f ∈ s.past, ∀ r ∈ f.waits, r.toNat ≤ (ladder f.count).toNat
  due : ∀ f ∈ s.past, f.time.toNat + (ladder f.count).toNat ≤ max b.nextAttemptAt.toNat s.clock.toNat
  last : ∀ f, s.past.head? = some f → s.failures ≠ 0 →
    b.nextAttemptAt.toNat = f.time.toNat + (ladder f.count).toNat

variable {env site} {s : History} {a : Attempt} {b : RegistrationBudget}

theorem Accounted.observed (h : Accounted s b) : Observed s b where
  counts := h.counts
  refuses f hf now hclock howes := by
    rw [mayAttempt_error_iff]
    have hdue := h.due f hf
    have hclock' := UInt64.le_iff_toNat_le.1 hclock
    rcases howes with hladder | ⟨r, hr, hwait⟩
    · omega
    · have hshort := h.waits f hf r hr
      omega
  admits f hf hfailures _ now hnow := by
    rw [mayAttempt_ok_iff, h.last f hf hfailures]
    exact hnow
  unwrapped := h.last
  climbs := ladder_mono (Nat.le_succ _)
  index := by
    rw [countFailure_toNat]
    omega

/-- The clock goes on while the waits stay as they are. -/
theorem Accounted.held (h : Accounted s b) {now : UInt64} (hclock : s.clock ≤ now) (disk : Disk) :
    Accounted { s with disk := disk, clock := now } b where
  counts := h.counts
  waits := h.waits
  due f hf := by
    have hdue := h.due f hf
    have hclock' := UInt64.le_iff_toNat_le.1 hclock
    dsimp only
    omega
  last := h.last

theorem Accounted.granted (h : Accounted s b) {now later : UInt64}
    (hmay : b.mayAttempt now = .ok ()) (hnow : s.clock ≤ now) (hlater : now ≤ later) (disk : Disk) :
    Accounted { disk := disk, clock := later, failures := 0, past := s.past } (b.succeeded later) where
  counts := rfl
  waits := h.waits
  due f hf := by
    have hdue := h.due f hf
    have hfree := (mayAttempt_ok_iff b now).1 hmay
    have hnow' := UInt64.le_iff_toNat_le.1 hnow
    have hlater' := UInt64.le_iff_toNat_le.1 hlater
    dsimp only
    omega
  last _ _ hfailures := absurd rfl hfailures

theorem ladder_min_succ (n : Nat) : ladder (min n 4294967295 + 1) = ladder (n + 1) := by
  by_cases hn : n ≤ 4294967295
  · rw [Nat.min_eq_left hn]
  · rw [Nat.min_eq_right (by omega), ladder_of_le (by omega), ladder_of_le (by omega)]

theorem Accounted.failed (h : Accounted s b) {now later : UInt64}
    (hmay : b.mayAttempt now = .ok ()) (hnow : s.clock ≤ now) (hlater : now ≤ later)
    (hfar : later.toNat + 3600 < 2 ^ 64) {retryAfter : Option UInt64}
    (hwait : ∀ r, retryAfter = some r → r.toNat ≤ 30) {waits : List UInt64}
    (hwaits : ∀ r ∈ waits, r.toNat ≤ (ladder (s.failures + 1)).toNat) (disk : Disk)
    (reason : String) :
    Accounted { disk := disk
                clock := later
                failures := s.failures + 1
                past := ⟨later, waits, s.failures + 1⟩ :: s.past } (b.failed later reason retryAfter) := by
  -- the next attempt is due the ladder's wait after this failure
  have hnext : (b.failed later reason retryAfter).nextAttemptAt.toNat =
      later.toNat + (ladder (s.failures + 1)).toNat := by
    rw [failed_nextAttemptAt b later reason hfar hwait, h.counts, ladder_min_succ]
  refine ⟨?_, ?_, ?_, ?_⟩
  -- the counter has its limit, the history has none
  · have hcount := countFailure_toNat b.attempts
    have hbefore := h.counts
    change (RegistrationBudget.countFailure b.attempts).toNat = min (s.failures + 1) _
    omega
  -- the waits shown after this failure, and those of before
  · rintro f hf r hr
    rcases List.mem_cons.1 hf with rfl | hf
    · exact hwaits r hr
    · exact h.waits f hf r hr
  · rintro f hf
    rw [hnext]
    -- an earlier failure's wait is over already: the attempt was admitted
    rcases List.mem_cons.1 hf with rfl | hf
    · exact le_max_left _ _
    · have hdue := h.due f hf
      have hfree := (mayAttempt_ok_iff b now).1 hmay
      have hnow' := UInt64.le_iff_toNat_le.1 hnow
      have hlater' := UInt64.le_iff_toNat_le.1 hlater
      dsimp only
      omega
  · intro f hf _
    obtain rfl : _ = f := Option.some.inj hf
    exact hnext

theorem next_of_failed {e : AetherError} (hresult : a.result = .error e) (he : Brief e) :
    a.next env site s =
      { disk := a.finish.disk
        clock := a.clock s.clock
        failures := s.failures + 1
        past := ⟨a.clock s.clock, namedWaits a.finish.heard, s.failures + 1⟩ :: s.past } := by
  have hdisk : a.disk env site = a.finish.disk := by
    simp only [Attempt.disk, hresult]
  cases e with
  | registrationOnHold reason wait => exact absurd rfl (he.sent reason wait)
  | _ => simp only [Attempt.next, hresult, hdisk]

theorem clock_steps {clock now later : UInt64} {w : World}
    (h : (clock :: (w.tick later).times).Pairwise (· ≤ ·)) (htimes : w.times = [now]) :
    clock ≤ now ∧ now ≤ later := by
  simp only [World.tick, htimes, List.singleton_append, List.pairwise_cons, List.mem_cons,
    List.not_mem_nil, or_false, forall_eq_or_imp, forall_eq] at h
  exact ⟨h.1.1, h.2.1⟩

theorem accounted_start (hfailures : s.failures = 0) (hpast : s.past = []) :
    Accounted s {} where
  counts := by simp [hfailures]
  waits := by simp [hpast]
  due := by simp [hpast]
  last _ _ hne := absurd hfailures hne

/-- **One attempt keeps the account of the waits.** -/
theorem step_accounted (h : Accounted s (budgetOn env.fmt s.disk site.storePath))
    (hrun : (histories env site).enabled a s) (hok : a.Smooth env site s) :
    Accounted (a.next env site s) (budgetOn env.fmt (a.next env site s).disk site.storePath) := by
  have hstore : (a.loaded env site s).1.store.registration =
      budgetOn env.fmt s.disk site.storePath :=
    load_registration env.fmt a.load site.storePath site.legacy s.disk
  have hdisk : budgetOn env.fmt (a.loaded env site s).2 site.storePath =
      budgetOn env.fmt s.disk site.storePath :=
    load_budget env.fmt a.load site.storePath site.legacy s.disk hok.survives
  have hclock := hok.clock
  have hlanded := hok.landed
  -- by where the attempt went: held back, granted, or failed
  have hattempted := runs_provisionWithinBudget.1 hrun
  generalize hresult : a.result = result at hattempted hlanded
  generalize hfinish : a.finish = finish at hattempted hclock
  generalize hafter : a.after = after at hattempted
  cases hattempted with
  -- held back: only the clock goes on
  | held now wait hmay =>
      have hnow : s.clock ≤ now := (List.pairwise_cons.1 hclock).1 now (List.mem_singleton.2 rfl)
      have hnext : a.next env site s = { s with disk := (a.loaded env site s).2, clock := now } := by
        simp only [Attempt.next, Attempt.disk, Attempt.clock, hresult, hfinish]
        rfl
      rw [hnext, hdisk]
      exact h.held hnow _
  -- granted: the record starts afresh
  | granted now later hmay hrun =>
      obtain ⟨-, htimes⟩ := network_keeps (network_provisionAccount env) hrun
      obtain ⟨hnow, hlater⟩ := clock_steps hclock htimes
      obtain ⟨reason, wait, he⟩ | ⟨text, htext, hon⟩ := hlanded
      · cases he
      have hnext : a.next env site s =
          { disk := a.disk env site, clock := later, failures := 0, past := s.past } := by
        simp only [Attempt.next, Attempt.clock, hresult, hfinish, World.tick, List.getLast?_concat,
          Option.getD_some]
      have hbudget : (a.leaves env site).registration =
          (budgetOn env.fmt s.disk site.storePath).succeeded later := by
        simp only [Attempt.leaves, hresult, hafter]
        exact congrArg (RegistrationBudget.succeeded · later) hstore
      rw [hstore] at hmay
      rw [hnext]
      dsimp only
      rw [budgetOn_text env.fmt site.storePath _ htext hon, hbudget]
      exact h.granted hmay hnow hlater _
  -- failed: one failure more, at the time it was noted
  | @failed now later _ e _ _ hmay hrun hs =>
      obtain ⟨-, htimes⟩ := network_keeps (network_provisionAccount env) hrun
      obtain ⟨hnow, hlater⟩ := clock_steps hclock htimes
      have hbrief := provisionAccount_brief hrun
      obtain ⟨reason, wait, he⟩ | ⟨text, htext, hon⟩ := hlanded
      -- a failure that was to be retried later has no record on disk
      · exact absurd (Except.error.inj he) (hbrief.sent reason wait)
      have hlast : a.clock s.clock = later := by
        simp only [Attempt.clock, hfinish, World.tick, List.getLast?_concat, Option.getD_some]
      have hdisk' : a.disk env site = a.finish.disk := by
        simp only [Attempt.disk, hresult]
      have hbudget : (a.leaves env site).registration =
          (budgetOn env.fmt s.disk site.storePath).failed later e.display e.retryAfter := by
        simp only [Attempt.leaves, hresult, hafter, hs]
        exact congrArg (RegistrationBudget.failed · later e.display e.retryAfter) hstore
      rw [hstore] at hmay
      rw [next_of_failed hresult hbrief, hlast, ← hdisk']
      dsimp only
      rw [budgetOn_text env.fmt site.storePath _ htext hon, hbudget]
      refine h.failed hmay hnow hlater (hok.far later ?_) hbrief.wait (hok.waits _ hresult) _ _
      rw [hfinish]
      exact List.mem_append_right _ (List.mem_singleton.2 rfl)

/-- **In a history of smooth attempts every wait is served**, whatever becomes of the load in front
of the next one. -/
theorem waits_observed (env : Env) (site : IdentitySite) {s : History}
    (h : Runs.Reach (histories env site) (fun s a => a.Smooth env site s) s) (o : LoadOutcome) :
    Observed s (load env.fmt o site.storePath site.legacy s.disk).1.store.registration := by
  rw [load_registration]
  refine Accounted.observed ?_
  induction h with
  | init h =>
      obtain ⟨hbudget, hfailures, hpast⟩ := h
      rw [hbudget]
      exact accounted_start hfailures hpast
  | step _ hrun hok hnext ih =>
      cases hnext
      exact step_accounted ih hrun hok

end Machine

/-! ## Told to wait -/

/-- An answer that asks to wait. -/
def tooMany (header : Text) : HttpAnswer where
  status := 429
  retryAfter := some header
  body := []

def personal (fmt : Formats) : Env where
  fmt := fmt
  json _ := .error "EOF while parsing a value"
  describe _ _ := "HTTP 429"
  team := false
  keepSavedIdentity := true

/-- The error of a registration that was told to wait on every try. -/
def toldToWait : AetherError :=
  .rateLimited (bothRoutes .register (.rateLimited "registration: HTTP 429" (some 30))
    (.api "connection refused")) (some 30)

theorem refused_run (fmt : Formats) {header : Text}
    (h : header = "30".toList ∨ header = "3600".toList) (disk : Disk) (times : List UInt64) :
    Runs (effects fmt) { disk := disk, times := times, heard := [] }
      (provisionAccount (personal fmt)).run (.error toldToWait)
      { disk := disk, times := times, heard := List.replicate 5 (.register, tooMany header) } := by
  have hrun := exec_runs (surroundings_effects fmt 0 fun _ => .answered (tooMany header))
    (provisionAccount (personal fmt)).run
    { disk := disk, times := times, heard := [] }
  rcases h with rfl | rfl <;> exact hrun

/-- The store after one failed registration. -/
def refusedStore : Store where
  registration := ({} : RegistrationBudget).failed 1000 toldToWait.display toldToWait.retryAfter

/-- A fresh install. -/
def fresh : History where
  disk _ := none
  clock := 0
  failures := 0
  past := []

section Refused

variable (toml storePath : Text)

def refusedFormats : Formats where
  store := Codec.ofTable [(refusedStore.toPersisted, toml)]
  identity := Codec.ofTable []
  base64 := Base64.zeros

def refusedSite : IdentitySite where
  slot := .wireguard
  path := "aether.toml".toList
  storePath := storePath
  legacy := []

/-- A registration at 1000 that was told to wait, on a fresh install. -/
def refusedAttempt (header : Text) : Attempt where
  load := diskFull
  result := .error toldToWait
  finish :=
    { disk := Function.update (load (refusedFormats toml) diskFull storePath [] fresh.disk).2
        storePath (some toml)
      times := [1000, 1000]
      heard := List.replicate 5 (.register, tooMany header) }
  after := refusedStore
  recordedAt := 0
  write := .written

theorem refusedStore_toText : refusedStore.toText (refusedFormats toml).store = .ok toml :=
  (Store.toText_eq_ok _).2 (Codec.ofTable_encode_head _ _ _)

theorem load_fresh (o : LoadOutcome) (fmt : Formats) :
    (load fmt o storePath [] fresh.disk).1.store = {} := by
  refine (load_store fmt o storePath [] fresh.disk).trans ?_
  refine Store.ext_slots (by simp; rfl) (by simp; rfl) fun t => ?_
  rw [Store.repair_slots]
  cases t <;> rfl

theorem refusedAttempt_enabled {header : Text}
    (h : header = "30".toList ∨ header = "3600".toList) :
    (histories (personal (refusedFormats toml)) (refusedSite storePath)).enabled
      (refusedAttempt toml storePath header) fresh := by
  refine runs_provisionWithinBudget.2 ?_
  have hstore : ((refusedAttempt toml storePath header).loaded (personal (refusedFormats toml))
      (refusedSite storePath) fresh).1.store = {} := load_fresh _ _ _
  rw [hstore]
  have hfinish : (refusedAttempt toml storePath header).finish =
      { disk := (save (refusedFormats toml) .written storePath refusedStore
          (load (refusedFormats toml) diskFull storePath [] fresh.disk).2).2
        times := [1000, 1000]
        heard := List.replicate 5 (.register, tooMany header) } := by
    simp only [refusedAttempt, save, refusedStore_toText, writePrivate]
  have hmay : ({} : Store).registration.mayAttempt 1000 = .ok () := by decide
  rw [hfinish]
  exact @Attempted.failed (personal (refusedFormats toml)) (refusedSite storePath)
    { disk := _, times := [], heard := [] } {} 1000 1000 .written _ _ refusedStore hmay
    (refused_run (refusedFormats toml) h _ [1000]) rfl

theorem refusedAttempt_disk (header : Text) :
    ((refusedAttempt toml storePath header).disk (personal (refusedFormats toml))
      (refusedSite storePath)) storePath = some toml :=
  Function.update_self _ _ _

/-- What the next load gives after the registration was told to wait. -/
theorem refused_budget (header : Text) (o : LoadOutcome) :
    (load (refusedFormats toml) o storePath []
        ((refusedAttempt toml storePath header).next (personal (refusedFormats toml))
          (refusedSite storePath) fresh).disk).1.store.registration =
      refusedStore.registration := by
  rw [load_registration]
  exact budgetOn_text _ _ _ (refusedStore_toText toml) (refusedAttempt_disk toml storePath header)

theorem refusedAttempt_smooth : (refusedAttempt toml storePath "30".toList).Smooth
    (personal (refusedFormats toml)) (refusedSite storePath) fresh where
  waits _ _ := by
    change ∀ r ∈ List.replicate 5 (30 : UInt64), r.toNat ≤ (ladder 1).toNat
    intro r hr
    rw [List.eq_of_mem_replicate hr]
    decide
  survives _ h := by cases h
  landed := .inr ⟨toml, refusedStore_toText toml, refusedAttempt_disk _ _ _⟩
  clock := by
    change ([0, 1000, 1000] : List UInt64).Pairwise (· ≤ ·)
    decide
  far := by
    change ∀ t ∈ ([1000, 1000] : List UInt64), t.toNat + 3600 < 2 ^ 64
    intro t ht
    obtain rfl : t = 1000 := by simpa using ht
    decide

theorem refused_reaches {ok : History → Attempt → Prop} {header : Text}
    (h : header = "30".toList ∨ header = "3600".toList)
    (hok : ok fresh (refusedAttempt toml storePath header)) :
    Runs.Reach (histories (personal (refusedFormats toml)) (refusedSite storePath)) ok
      ((refusedAttempt toml storePath header).next (personal (refusedFormats toml))
        (refusedSite storePath) fresh) :=
  .step (.init ⟨rfl, rfl, rfl⟩) (refusedAttempt_enabled toml storePath h) hok rfl

/-- An hour that was asked for is over after half a minute. -/
theorem hour_owed (o : LoadOutcome) {s : History}
    (hs : s = (refusedAttempt toml storePath "3600".toList).next (personal (refusedFormats toml))
      (refusedSite storePath) fresh) :
    (load (refusedFormats toml) o storePath [] s.disk).1.store.registration.mayAttempt 1030 = .ok () ∧
      ¬Observed s (load (refusedFormats toml) o storePath [] s.disk).1.store.registration := by
  have hpast : s.past = [⟨1000, List.replicate 5 3600, 1⟩] ∧ s.clock = 1000 := by
    rw [hs]
    exact ⟨rfl, rfl⟩
  have hmay : refusedStore.registration.mayAttempt 1030 = .ok () := by decide
  rw [hs, refused_budget, ← hs]
  refine ⟨hmay, fun hobserved => ?_⟩
  obtain ⟨wait, hwait⟩ := hobserved.refuses ⟨1000, List.replicate 5 3600, 1⟩
    (by rw [hpast.1]; exact List.mem_singleton.2 rfl) 1030 (by rw [hpast.2]; decide)
    (.inr ⟨3600, by decide, by decide⟩)
  rw [hmay] at hwait
  cases hwait

end Refused

/-- Half a minute that was asked for is served. -/
theorem waits_observed_told :
    ∃ s, s.past = [⟨1000, List.replicate 5 30, 1⟩] ∧
      ∀ o, Observed s (load (refusedFormats "version = 1\n".toList) o
        "aether-store.toml".toList [] s.disk).1.store.registration :=
  ⟨_, rfl, waits_observed (personal (refusedFormats "version = 1\n".toList))
    (refusedSite "aether-store.toml".toList)
    (refused_reaches _ _ (.inl rfl) (refusedAttempt_smooth _ _))⟩

/-- An hour that Cloudflare asks for is cut to half a minute. -/
theorem hour_cut_short :
    ∃ s, Runs.Reachable (histories (personal (refusedFormats "version = 1\n".toList))
        (refusedSite "aether-store.toml".toList)) s ∧
      s.past = [⟨1000, List.replicate 5 3600, 1⟩] ∧
      ∀ o, (load (refusedFormats "version = 1\n".toList) o "aether-store.toml".toList []
          s.disk).1.store.registration.mayAttempt 1030 = .ok () ∧
        ¬Observed s (load (refusedFormats "version = 1\n".toList) o "aether-store.toml".toList []
          s.disk).1.store.registration :=
  ⟨_, refused_reaches _ _ (.inr rfl) trivial, rfl, fun o => hour_owed _ _ o rfl⟩

end Account
end AuroraVpn
