import AuroraVpn.Account.Attempt

/-!
# Waits — how long the next registration is held back

The wait that an answer names is taken as half a minute at most, which the shortest step of the
ladder already is.  So what holds the next registration back is the ladder alone.

* `provisionAccount_brief`: no error of a registration carries more than half a minute.
-/

namespace AuroraVpn
namespace Account

open Program

/-- An error of the network: it asks for half a minute at most, and holds nothing back itself. -/
structure Brief (e : AetherError) : Prop where
  wait : ∀ r, e.retryAfter = some r → r.toNat ≤ 30
  sent : ∀ reason wait, e ≠ .registrationOnHold reason wait

theorem brief_api (message : String) : Brief (.api message) where
  wait _ h := by cases h
  sent _ _ h := by cases h

theorem brief_other (message : String) : Brief (.other message) where
  wait _ h := by cases h
  sent _ _ h := by cases h

theorem brief_identityRefused (message : String) : Brief (.identityRefused message) where
  wait _ h := by cases h
  sent _ _ h := by cases h

theorem brief_rateLimited {reason : String} {asked : Option UInt64}
    (h : ∀ r, asked = some r → r.toNat ≤ 30) : Brief (.rateLimited reason asked) where
  wait := h
  sent _ _ h := by cases h

/-- **A wait is taken as half a minute at most.** -/
theorem retryAfter_le {answer : HttpAnswer} {r : UInt64} (h : retryAfter answer = some r) :
    r.toNat ≤ 30 := by
  obtain ⟨named, -, rfl⟩ := Option.map_eq_some_iff.1 h
  change (if named ≤ API_RETRY_AFTER_CAP_SECS then named else API_RETRY_AFTER_CAP_SECS).toNat ≤ 30
  split_ifs with hle
  · exact UInt64.le_iff_toNat_le.1 hle
  · exact le_refl _

section Errors

variable {env : Env} {w w' : World} {request : Request} {e : AetherError}

theorem rejection_brief (answer : HttpAnswer) : Brief (rejection env request answer) := by
  unfold rejection
  dsimp only
  split_ifs
  · exact brief_identityRefused _
  · exact brief_api _

theorem decodeAccount_brief {answer : HttpAnswer}
    (h : decodeAccount env request answer = .error e) : Brief e := by
  unfold decodeAccount at h
  cases hjson : env.json answer.body with
  | ok account =>
      rw [hjson] at h
      cases h
  | error message =>
      rw [hjson] at h
      cases h
      exact brief_api _

theorem sendOnce_brief (h : Runs (effects env.fmt) w (sendOnce request).run (.error e) w') :
    Brief e := by
  obtain ⟨x, w₁, -, hrest⟩ := runs_ask_bind.1 h
  -- no way out of a request that fails has a wait
  cases x with
  | proxyUnusable message =>
      obtain ⟨he, -⟩ := runs_throw_iff.1 hrest
      cases he
      exact brief_other _
  | notBuilt message =>
      obtain ⟨he, -⟩ := runs_throw_iff.1 hrest
      cases he
      exact brief_api _
  | notCompleted message =>
      obtain ⟨he, -⟩ := runs_throw_iff.1 hrest
      cases he
      exact brief_api _
  | cut answer message =>
      obtain ⟨he, -⟩ := runs_throw_iff.1 hrest
      cases he
      exact brief_api _
  | answered answer =>
      obtain ⟨he, -⟩ := runs_ok_iff.1 hrest
      cases he

theorem exhausted_brief {last : AetherError} {asked : Option UInt64} (hlast : Brief last)
    (hasked : ∀ r, asked = some r → r.toNat ≤ 30) : Brief (exhausted last asked) := by
  cases last with
  | api reason => exact brief_rateLimited hasked
  | _ => exact hlast

theorem backoff_ok {n : Nat} {r : Except AetherError Unit}
    (h : Runs (effects env.fmt) w (backoff n).run r w') : r = .ok () := by
  unfold backoff at h
  split_ifs at h
  · obtain ⟨x, -, rfl⟩ := runs_ask_iff.1 h
    rfl
  · exact (runs_ok_iff.1 h).1

theorem sendLoop_brief {n : Nat} {last : AetherError} {asked : Option UInt64} (hlast : Brief last)
    (hasked : ∀ r, asked = some r → r.toNat ≤ 30)
    (h : Runs (effects env.fmt) w (sendLoop env request n last asked).run (.error e) w') :
    Brief e := by
  -- on the tries that are left, with the failure of the last one
  induction n generalizing w last asked with
  | zero =>
      obtain ⟨he, -⟩ := runs_throw_iff.1 h
      cases he
      exact exhausted_brief hlast hasked
  | succ n ih =>
      -- the pause before a try fails in no way of its own
      rcases runs_bind_except.1 h with ⟨e', hback, -⟩ | ⟨-, w₁, -, h⟩
      · cases backoff_ok hback
      rcases runs_bind_except.1 h with ⟨e', honce, he⟩ | ⟨answer, w₂, -, h⟩
      · cases he
        exact sendOnce_brief honce
      split_ifs at h
      · obtain ⟨he, -⟩ := runs_mk_pure_iff.1 h
        exact decodeAccount_brief he.symm
      · obtain ⟨he, -⟩ := runs_throw_iff.1 h
        -- a status that is not tried again is told as it stands
        cases he
        exact rejection_brief answer
      · cases hwait : retryAfter answer with
        | none =>
            simp only [hwait] at h
            exact ih (rejection_brief answer) hasked h
        | some wait =>
            simp only [hwait] at h
            -- one that is: the wait it names is no more than thirty seconds
            obtain ⟨-, w₃, -, h⟩ := runs_ask_bind.1 h
            refine ih (rejection_brief answer) (fun r hr => ?_) h
            cases hr
            exact retryAfter_le hwait

theorem sendWithRetry_brief
    (h : Runs (effects env.fmt) w (sendWithRetry env request).run (.error e) w') : Brief e :=
  sendLoop_brief (brief_api _) (fun _ hr => by cases hr) h

theorem fetchLoop_brief {n : Nat} {kept : Option HttpAnswer} {failure : Option String}
    (h : Runs (effects env.fmt) w (fetchLoop request n kept failure).run (.error e) w') :
    Brief e := by
  induction n generalizing w kept failure with
  | zero =>
      cases kept with
      | some answer =>
          obtain ⟨he, -⟩ := runs_ok_iff.1 h
          cases he
      | none =>
          obtain ⟨he, -⟩ := runs_throw_iff.1 h
          cases he
          exact brief_api _
  | succ n ih =>
      -- each attempt either gives the answer or leads to the next one
      obtain ⟨x, w₁, -, h⟩ := runs_ask_bind.1 h
      cases x with
      | error message => exact ih h
      | ok answer =>
          dsimp only at h
          split_ifs at h
          · obtain ⟨he, -⟩ := runs_ok_iff.1 h
            cases he
          · exact ih h

theorem fallbackCall_brief
    (h : Runs (effects env.fmt) w (fallbackCall env request).run (.error e) w') : Brief e := by
  rcases runs_bind_except.1 h with ⟨e', hfetch, he⟩ | ⟨answer, w₁, -, h⟩
  · cases he
    obtain ⟨addresses, w₁, -, h⟩ := runs_ask_bind.1 hfetch
    split_ifs at h
    · obtain ⟨he, -⟩ := runs_throw_iff.1 h
      cases he
      exact brief_api _
    · exact fetchLoop_brief h
  · split_ifs at h
    · obtain ⟨he, -⟩ := runs_mk_pure_iff.1 h
      exact decodeAccount_brief he.symm
    · obtain ⟨he, -⟩ := runs_throw_iff.1 h
      cases he
      exact rejection_brief answer

theorem withFallback_brief {report : AetherError → AetherError → AetherError}
    (hreport : ∀ primary secondary, Brief primary → Brief secondary →
      Brief (report primary secondary))
    (h : Runs (effects env.fmt) w (withFallback env request report).run (.error e) w') :
    Brief e := by
  rcases runs_tryCatch.1 h with ⟨a, -, he⟩ | ⟨primary, w₁, hprimary, h⟩
  · cases he
  rcases runs_tryCatch.1 h with ⟨a, -, he⟩ | ⟨secondary, w₂, hsecondary, h⟩
  · cases he
  obtain ⟨he, -⟩ := runs_throw_iff.1 h
  cases he
  exact hreport _ _ (sendWithRetry_brief hprimary) (fallbackCall_brief hsecondary)

theorem reportRegister_brief {primary secondary : AetherError} (hprimary : Brief primary)
    (hsecondary : Brief secondary) : Brief (reportRegister primary secondary) := by
  unfold reportRegister
  cases hwait : primary.retryAfter.or secondary.retryAfter with
  | none => exact brief_api _
  | some wait =>
      refine brief_rateLimited fun r hr => ?_
      cases hr
      rcases Option.or_eq_some_iff.1 hwait with h | ⟨-, h⟩
      · exact hprimary.wait _ h
      · exact hsecondary.wait _ h

theorem extractWgPeer_brief {reg : AccountData} (h : extractWgPeer env reg = .error e) :
    Brief e := by
  unfold extractWgPeer at h
  cases hpeers : reg.peers with
  | nil =>
      simp only [hpeers, Except.error.injEq] at h
      subst h
      exact brief_api _
  | cons peer peers =>
      simp only [hpeers] at h
      cases hdecode : env.fmt.base64.decode peer.1 with
      | error message =>
          simp only [hdecode, Except.error.injEq] at h
          subst h
          exact brief_api _
      | ok decoded =>
          simp only [hdecode] at h
          split_ifs at h
          cases h
          exact brief_api _

theorem finishProvision_brief {reg : AccountData} {wgPrivate : List.Vector UInt8 32}
    (h : finishProvision env reg wgPrivate = .error e) : Brief e := by
  unfold finishProvision at h
  by_cases htoken : reg.token = []
  · rw [if_pos htoken] at h
    cases h
    exact brief_api _
  · rw [if_neg htoken] at h
    cases hpeer : extractWgPeer env reg with
    | error e' =>
        simp only [hpeer] at h
        cases h
        exact extractWgPeer_brief hpeer
    | ok peer =>
        simp only [hpeer] at h
        cases h

theorem provisionWg_brief
    (h : Runs (effects env.fmt) w (provisionWg env).run (.error e) w') : Brief e := by
  obtain ⟨wgPrivate, w₁, -, h⟩ := runs_ask_bind.1 h
  rcases runs_bind_except.1 h with ⟨e', hregister, he⟩ | ⟨reg, w₂, -, h⟩
  · cases he
    exact withFallback_brief (fun _ _ => reportRegister_brief) hregister
  · obtain ⟨he, -⟩ := runs_mk_pure_iff.1 h
    exact finishProvision_brief he.symm

theorem resolveToken_brief
    (h : Runs (effects env.fmt) w resolveToken.run (.error e) w') : Brief e := by
  obtain ⟨x, w₁, -, h⟩ := runs_ask_bind.1 h
  cases x with
  | ok token =>
      obtain ⟨he, -⟩ := runs_ok_iff.1 h
      cases he
  | error message =>
      obtain ⟨he, -⟩ := runs_throw_iff.1 h
      cases he
      exact brief_api _

theorem provisionTeam_brief
    (h : Runs (effects env.fmt) w (provisionTeam env).run (.error e) w') : Brief e := by
  rcases runs_bind_except.1 h with ⟨e', htoken, he⟩ | ⟨-, w₁, -, h⟩
  · cases he
    exact resolveToken_brief htoken
  obtain ⟨wgPrivate, w₂, -, h⟩ := runs_ask_bind.1 h
  rcases runs_bind_except.1 h with ⟨e', hregister, he⟩ | ⟨reg, w₃, -, h⟩
  · cases he
    exact withFallback_brief (fun _ _ _ _ => brief_api _) hregister
  · obtain ⟨he, -⟩ := runs_mk_pure_iff.1 h
    exact finishProvision_brief he.symm

theorem refreshProfile_ok {identity : Identity} {r : Except AetherError Identity}
    (h : Runs (effects env.fmt) w (refreshProfile env identity).run r w') :
    ∃ identity', r = .ok identity' := by
  rcases runs_tryCatch.1 h with ⟨a, -, hr⟩ | ⟨e, w₁, -, h⟩
  · exact ⟨a, hr⟩
  · exact ⟨_, (runs_ok_iff.1 h).1⟩

/-- **No error of a registration carries more than half a minute.** -/
theorem provisionAccount_brief
    (h : Runs (effects env.fmt) w (provisionAccount env).run (.error e) w') : Brief e := by
  unfold provisionAccount at h
  split_ifs at h
  · rcases runs_bind_except.1 h with ⟨e', hteam, he⟩ | ⟨identity, w₁, -, h⟩
    · cases he
      exact provisionTeam_brief hteam
    · obtain ⟨identity', hr⟩ := refreshProfile_ok h
      cases hr
  · exact provisionWg_brief h

end Errors

end Account
end AuroraVpn
