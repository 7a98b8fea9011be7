import AuroraVpn.Account.Store

/-!
# Budget — when a registration may be attempted again

`RegistrationBudget` of `identity.rs`: failures in a row climb a ladder of waits, and a wait that
Cloudflare asked for counts where it is longer.

* `ladder_mono`: the wait never decreases from one failure to the next.
* `failed_nextAttemptAt`: when the next attempt may go, while the clock is far from its end.
* `mayAttempt_error_iff`: which attempts are refused.
-/

namespace AuroraVpn
namespace Account

def BACKOFF_STEPS_SECS : List UInt64 :=
  [30, 60, 120, 300, 600, 1800, 3600]

/-- The wait after a number of failures in a row. -/
def ladder (failures : Nat) : UInt64 :=
  BACKOFF_STEPS_SECS.getD (min (failures - 1) (BACKOFF_STEPS_SECS.length - 1)) 0

namespace RegistrationBudget

/-- Whether a registration may be attempted now, and the wait if not. -/
def mayAttempt (b : RegistrationBudget) (now : UInt64) : Except UInt64 Unit :=
  if now < b.nextAttemptAt then .error (b.nextAttemptAt - now) else .ok ()

/-- `u32::saturating_add`. -/
def countFailure (attempts : UInt32) : UInt32 :=
  if attempts = 4294967295 then attempts else attempts + 1

def failed (b : RegistrationBudget) (now : UInt64) (reason : String) (retryAfter : Option UInt64) :
    RegistrationBudget :=
  let attempts := countFailure b.attempts
  let step := ladder attempts.toNat
  { attempts := attempts
    lastAttemptAt := now
    lastReason := reason
    nextAttemptAt := now + max (retryAfter.getD step) step }

def succeeded (_ : RegistrationBudget) (now : UInt64) : RegistrationBudget where
  attempts := 0
  lastAttemptAt := now
  nextAttemptAt := 0
  lastReason := ""

end RegistrationBudget

theorem ladder_bounds (n : Nat) : 30 ≤ (ladder n).toNat ∧ (ladder n).toNat ≤ 3600 := by
  have hstep : ∀ i < 7, 30 ≤ (BACKOFF_STEPS_SECS.getD i 0).toNat ∧
      (BACKOFF_STEPS_SECS.getD i 0).toNat ≤ 3600 := by
    decide
  exact hstep _ (Nat.lt_of_le_of_lt (Nat.min_le_right _ _) (by decide))

/-- **The wait never decreases from one failure to the next.** -/
theorem ladder_mono {m n : Nat} (h : m ≤ n) : (ladder m).toNat ≤ (ladder n).toNat := by
  have hstep : ∀ i < 7, ∀ j < 7, i ≤ j →
      (BACKOFF_STEPS_SECS.getD i 0).toNat ≤ (BACKOFF_STEPS_SECS.getD j 0).toNat := by
    decide
  refine hstep _ ?_ _ ?_ ?_
  · exact Nat.lt_of_le_of_lt (Nat.min_le_right _ _) (by decide)
  · exact Nat.lt_of_le_of_lt (Nat.min_le_right _ _) (by decide)
  · exact min_le_min_right _ (by omega)

/-- From the seventh failure on the wait is the last of the ladder. -/
theorem ladder_of_le {n : Nat} (h : 7 ≤ n) : ladder n = 3600 := by
  have hmin : min (n - 1) (BACKOFF_STEPS_SECS.length - 1) = 6 := by
    have hlen : BACKOFF_STEPS_SECS.length = 7 := rfl
    omega
  rw [ladder, hmin]
  rfl

theorem countFailure_toNat (attempts : UInt32) :
    (RegistrationBudget.countFailure attempts).toNat = min (attempts.toNat + 1) 4294967295 := by
  have hlt := attempts.toNat_lt
  unfold RegistrationBudget.countFailure
  split_ifs with hmax
  · subst hmax
    rfl
  · have hne : attempts.toNat ≠ 4294967295 := fun h => hmax (UInt32.toNat_inj.1 h)
    rw [UInt32.toNat_add]
    have hone : (1 : UInt32).toNat = 1 := rfl
    omega

/-- The ladder does not see that the count of failures stops at its end. -/
theorem ladder_min (n : Nat) : ladder (min n 4294967295) = ladder n := by
  by_cases hn : n ≤ 4294967295
  · rw [Nat.min_eq_left hn]
  · rw [Nat.min_eq_right (by omega), ladder_of_le (by omega), ladder_of_le (by omega)]

theorem max_eq_of_le {a b : UInt64} (h : a.toNat ≤ b.toNat) : max a b = b :=
  if_pos (UInt64.le_iff_toNat_le.2 h)

section Budget

variable (b : RegistrationBudget) (now : UInt64) (reason : String)

/-- **When the next attempt may go.**  A wait of at most half a minute is never longer than the
ladder's, and nothing wraps while the clock is an hour from its end. -/
theorem failed_nextAttemptAt {retryAfter : Option UInt64} (hnow : now.toNat + 3600 < 2 ^ 64)
    (hwait : ∀ r, retryAfter = some r → r.toNat ≤ 30) :
    (b.failed now reason retryAfter).nextAttemptAt.toNat =
      now.toNat + (ladder (b.attempts.toNat + 1)).toNat := by
  have hladder : ladder (RegistrationBudget.countFailure b.attempts).toNat =
      ladder (b.attempts.toNat + 1) := by
    rw [countFailure_toNat, ladder_min]
  obtain ⟨hlow, hhigh⟩ := ladder_bounds (b.attempts.toNat + 1)
  have hmax : max (retryAfter.getD (ladder (b.attempts.toNat + 1)))
      (ladder (b.attempts.toNat + 1)) = ladder (b.attempts.toNat + 1) := by
    cases retryAfter with
    | none => exact max_eq_of_le (le_refl _)
    | some r => exact max_eq_of_le (le_trans (hwait r rfl) hlow)
  simp only [RegistrationBudget.failed, hladder, hmax, UInt64.toNat_add]
  exact Nat.mod_eq_of_lt (by omega)

/-- **Which attempts are refused.** -/
theorem mayAttempt_error_iff :
    (∃ wait, b.mayAttempt now = .error wait) ↔ now.toNat < b.nextAttemptAt.toNat := by
  rw [← UInt64.lt_iff_toNat_lt]
  unfold RegistrationBudget.mayAttempt
  split_ifs with h <;> simp [h]

theorem mayAttempt_ok_iff : b.mayAttempt now = .ok () ↔ b.nextAttemptAt.toNat ≤ now.toNat := by
  rw [← Nat.not_lt, ← UInt64.lt_iff_toNat_lt]
  unfold RegistrationBudget.mayAttempt
  split_ifs with h <;> simp [h]

end Budget

end Account
end AuroraVpn
