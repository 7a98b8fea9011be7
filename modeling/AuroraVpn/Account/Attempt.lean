import AuroraVpn.Account.Network

/-!
# Attempt — what the steps of a provisioning can do

One statement a function that works on the store: what a run of it answers and leaves.

* `runs_saveStore`: a save leaves the new file or the old one.
* `runs_provisionWithinBudget`: an attempt is held back, granted or failed.
-/

namespace AuroraVpn
namespace Account

open Program

variable {env : Env} {w w' : World}

/-! ## Saves -/

theorem runs_write {path contents : Text} {r : Except AetherError Unit} :
    Runs (effects env.fmt) w
        (ask (.writePrivate path contents) >>= fun outcome => liftExcept outcome : Task Unit).run
        r w' ↔
      ∃ o, (r, w'.disk) = writePrivate o path contents w.disk ∧ w'.times = w.times ∧
        w'.heard = w.heard := by
  constructor
  · intro h
    obtain ⟨x, w₁, ⟨o, hwrite, htimes, hheard⟩, h⟩ := runs_ask_bind.1 h
    obtain ⟨rfl, rfl⟩ := runs_mk_pure_iff.1 h
    exact ⟨o, hwrite, htimes, hheard⟩
  · rintro ⟨o, hwrite, htimes, hheard⟩
    exact runs_ask_bind.2 ⟨r, w', ⟨o, hwrite, htimes, hheard⟩, runs_mk_pure_iff.2 ⟨rfl, rfl⟩⟩

/-- **A save of the store is a save.** -/
theorem runs_saveStore {storePath : Text} {s : Store} {r : Except AetherError Unit} :
    Runs (effects env.fmt) w (saveStore env storePath s).run r w' ↔
      ∃ o, (r, w'.disk) = save env.fmt o storePath s w.disk ∧ w'.times = w.times ∧
        w'.heard = w.heard := by
  unfold saveStore save
  rw [runs_bind_except]
  cases htext : s.toText env.fmt.store with
  -- a store that cannot be written as text is not written at all
  | error e =>
      constructor
      · rintro (⟨e', h, rfl⟩ | ⟨text, w₁, h, -⟩)
        · obtain ⟨he, rfl⟩ := runs_mk_pure_iff.1 h
          cases he
          exact ⟨.written, rfl, rfl, rfl⟩
        · obtain ⟨he, -⟩ := runs_mk_pure_iff.1 h
          cases he
      · rintro ⟨o, hsaved, htimes, hheard⟩
        obtain ⟨rfl, hdisk⟩ := Prod.mk.inj hsaved
        obtain rfl : w' = w := World.ext hdisk htimes hheard
        exact .inl ⟨e, runs_mk_pure_iff.2 ⟨rfl, rfl⟩, rfl⟩
  -- the text is there: the rest is the write itself
  | ok text =>
      constructor
      · rintro (⟨e', h, -⟩ | ⟨text', w₁, h, hrest⟩)
        · obtain ⟨he, -⟩ := runs_mk_pure_iff.1 h
          cases he
        · obtain ⟨he, rfl⟩ := runs_mk_pure_iff.1 h
          cases he
          exact runs_write.1 hrest
      · intro h
        exact .inr ⟨text, w, runs_mk_pure_iff.2 ⟨rfl, rfl⟩, runs_write.2 h⟩

/-! ## Attempts -/

/-- What an attempt at a registration comes to, and what it leaves of the store. -/
inductive Attempted (env : Env) (site : IdentitySite) (w : World) (s : Store) :
    Except AetherError Identity → World → Store → Prop
  | held (now wait : UInt64) (h : s.registration.mayAttempt now = .error wait) :
      Attempted env site w s (.error (.registrationOnHold s.registration.lastReason wait))
        (w.tick now) s
  | granted (now later : UInt64) {identity : Identity} {w₁ : World}
      (h : s.registration.mayAttempt now = .ok ())
      (hrun : Runs (effects env.fmt) (w.tick now) (provisionAccount env).run (.ok identity) w₁) :
      Attempted env site w s (.ok identity) (w₁.tick later)
        { s with registration := s.registration.succeeded later }
  | failed (now later : UInt64) (o : WriteOutcome) {e : AetherError} {w₁ : World} {s' : Store}
      (h : s.registration.mayAttempt now = .ok ())
      (hrun : Runs (effects env.fmt) (w.tick now) (provisionAccount env).run (.error e) w₁)
      (hs : s' = { s with registration := s.registration.failed later e.display e.retryAfter }) :
      Attempted env site w s (.error e)
        { w₁.tick later with disk := (save env.fmt o site.storePath s' w₁.disk).2 } s'

/-- The clock in front of a program that works on the store. -/
theorem runsM_now_bind {α : Type} {f : UInt64 → StoreTask α} {s s' : Store}
    {r : Except AetherError α} :
    RunsM (effects env.fmt) w s (plain (ask .now) >>= f) r w' s' ↔
      ∃ now, RunsM (effects env.fmt) (w.tick now) s (f now) r w' s' := by
  rw [runsM_plain_bind]
  constructor
  · rintro (⟨e, hrun, -⟩ | ⟨now, w₁, hrun, hrest⟩)
    · obtain ⟨x, -, he⟩ := runs_ask_iff.1 hrun
      cases he
    · obtain ⟨x, hx, he⟩ := runs_ask_iff.1 hrun
      cases he
      obtain rfl : w₁ = w.tick now := hx
      exact ⟨now, hrest⟩
  · rintro ⟨now, hrest⟩
    exact .inr ⟨now, w.tick now, runs_ask_iff.2 ⟨now, rfl, rfl⟩, hrest⟩

/-- A save whose failure is passed over. -/
theorem runsM_save_throw {storePath : Text} {s s' : Store} {e : AetherError}
    {r : Except AetherError Identity} :
    RunsM (effects env.fmt) w s
        (do
          tryCatch (plain (saveStore env storePath s)) fun _ => pure ()
          throw e : StoreTask Identity) r w' s' ↔
      r = .error e ∧ s' = s ∧ ∃ o, w' = { w with disk := (save env.fmt o storePath s w.disk).2 } := by
  -- whatever the write answers, the disk is what it has left
  have hsave : ∀ {r : Except AetherError Unit} {w₁ : World},
      Runs (effects env.fmt) w (saveStore env storePath s).run r w₁ →
        ∃ o, w₁ = { w with disk := (save env.fmt o storePath s w.disk).2 } := by
    intro r w₁ h
    obtain ⟨o, hdisk, htimes, hheard⟩ := runs_saveStore.1 h
    exact ⟨o, World.ext (congrArg Prod.snd hdisk) htimes hheard⟩
  rw [runsM_bind]
  constructor
  · rintro (⟨e', h, -⟩ | ⟨u, w₁, s₁, h, hthrow⟩)
    -- the failure of the write is caught, so this branch only ends with the error it throws
    · rcases runsM_tryCatch.1 h with ⟨a, -, he⟩ | ⟨e'', w₁, s₁, -, h⟩
      · cases he
      · cases (runsM_pure_iff.1 h).1
    · obtain ⟨rfl, rfl, rfl⟩ := runsM_throw_iff.1 hthrow
      rcases runsM_tryCatch.1 h with ⟨a, h, -⟩ | ⟨e'', w₂, s₂, h, hpure⟩
      · obtain ⟨hrun, rfl⟩ := runsM_plain_iff.1 h
        exact ⟨rfl, rfl, hsave hrun⟩
      · obtain ⟨-, rfl, rfl⟩ := runsM_pure_iff.1 hpure
        obtain ⟨hrun, rfl⟩ := runsM_plain_iff.1 h
        exact ⟨rfl, rfl, hsave hrun⟩
  · rintro ⟨rfl, rfl, o, rfl⟩
    refine .inr ⟨(), _, s', ?_, runsM_throw_iff.2 ⟨rfl, rfl, rfl⟩⟩
    have hrun : Runs (effects env.fmt) w (saveStore env storePath s').run
        (save env.fmt o storePath s' w.disk).1
        { w with disk := (save env.fmt o storePath s' w.disk).2 } :=
      runs_saveStore.2 ⟨o, rfl, rfl, rfl⟩
    rw [runsM_tryCatch]
    cases hout : (save env.fmt o storePath s' w.disk).1 with
    | ok a =>
        rw [hout] at hrun
        exact .inl ⟨a, runsM_plain_iff.2 ⟨hrun, rfl⟩, rfl⟩
    | error e' =>
        rw [hout] at hrun
        exact .inr ⟨e', _, s', runsM_plain_iff.2 ⟨hrun, rfl⟩, runsM_pure_iff.2 ⟨rfl, rfl, rfl⟩⟩

/-- **An attempt is held back, granted or failed.** -/
theorem runs_provisionWithinBudget {site : IdentitySite} {s s' : Store}
    {r : Except AetherError Identity} :
    RunsM (effects env.fmt) w s (provisionWithinBudget env site) r w' s' ↔
      Attempted env site w s r w' s' := by
  unfold provisionWithinBudget
  rw [runsM_now_bind]
  constructor
  · rintro ⟨now, h⟩
    replace h := runsM_get_bind.1 h
    -- the budget is asked before anything goes out
    cases hmay : s.registration.mayAttempt now with
    | error wait =>
        simp only [hmay] at h
        obtain ⟨rfl, rfl, rfl⟩ := runsM_throw_iff.1 h
        exact .held now wait hmay
    | ok _ =>
        simp only [hmay] at h
        -- the attempt succeeds, or fails and the failure is recorded and saved
        rcases runsM_tryCatch.1 h with ⟨identity, hok, rfl⟩ | ⟨e, w₁, s₁, herr, hfail⟩
        · rcases runsM_plain_bind.1 hok with ⟨e, -, he, -⟩ | ⟨identity', w₁, hrun, hok⟩
          · cases he
          · obtain ⟨later, hok⟩ := runsM_now_bind.1 hok
            replace hok := runsM_modify_bind.1 hok
            obtain ⟨hid, rfl, rfl⟩ := runsM_pure_iff.1 hok
            cases hid
            exact .granted now later hmay hrun
        -- what the catch gets is the failure of the attempt
        · rcases runsM_plain_bind.1 herr with ⟨e', hrun, he, rfl⟩ | ⟨identity', w₂, -, herr⟩
          · cases he
            obtain ⟨later, hfail⟩ := runsM_now_bind.1 hfail
            obtain ⟨rfl, rfl, o, rfl⟩ :=
              runsM_save_throw.1 (runsM_get_bind.1 (runsM_modify_bind.1 hfail))
            exact .failed now later o hmay hrun rfl
          · obtain ⟨later, herr⟩ := runsM_now_bind.1 herr
            replace herr := runsM_modify_bind.1 herr
            obtain ⟨he, -⟩ := runsM_pure_iff.1 herr
            cases he
  -- the three ways back
  · rintro (⟨now, wait, hmay⟩ | ⟨now, later, hmay, hrun⟩ | ⟨now, later, o, hmay, hrun, rfl⟩)
    · refine ⟨now, runsM_get_bind.2 ?_⟩
      simp only [hmay]
      exact runsM_throw_iff.2 ⟨rfl, rfl, rfl⟩
    · refine ⟨now, runsM_get_bind.2 ?_⟩
      simp only [hmay]
      exact runsM_tryCatch.2 (.inl ⟨_, runsM_plain_bind.2 (.inr ⟨_, _, hrun,
        runsM_now_bind.2 ⟨later, runsM_modify_bind.2 (runsM_pure_iff.2 ⟨rfl, rfl, rfl⟩)⟩⟩), rfl⟩)
    · refine ⟨now, runsM_get_bind.2 ?_⟩
      simp only [hmay]
      exact runsM_tryCatch.2 (.inr ⟨_, _, s, runsM_plain_bind.2 (.inl ⟨_, hrun, rfl, rfl⟩),
        runsM_now_bind.2 ⟨later, runsM_modify_bind.2 (runsM_get_bind.2
          (runsM_save_throw.2 ⟨rfl, rfl, o, rfl⟩))⟩⟩)

end Account
end AuroraVpn
