import AuroraVpn.Account.Writes

/-!
# Refusal — what becomes of the answer that an identity is not accepted

`enroll_key` puts the errors of both routes into one text, so its error never says that the identity
was refused.

* `withFallback_error`: what the error of a request is.
* `enrolAndRecord_unrefused`: an enrolment never ends in a refusal.
-/

namespace AuroraVpn
namespace Account

open Program

/-- A result that is not the refusal of an identity. -/
def Unrefused {α : Type} (r : Except AetherError α) : Prop :=
  ∀ message, r ≠ .error (.identityRefused message)

theorem Unrefused.error {α β : Type} {e : AetherError} (h : Unrefused (.error e : Except _ α)) :
    Unrefused (.error e : Except _ β) := by
  rintro message he
  cases he
  exact h message rfl

section Unrefused

variable {env : Env} {w : Traced}

/-- Any calls, with the result that is asked for. -/
abbrev Ends {α : Type} (env : Env) (Q : Except AetherError α → Prop) (p : Task α) (w : Traced) : Prop :=
  wp (traced (effects env.fmt)) (fun _ => True) (fun r _ => Q r) p.run w

/-- Whatever a program ends in. -/
theorem ends_any {α : Type} (p : Task α) : Ends env (fun _ => True) p w :=
  ((uses_all p.run).wp (fun _ _ _ _ _ _ _ => trivial) trivial)

/-- **The error of a request is what is made of the errors of both routes.** -/
theorem withFallback_error {request : Request} {report : AetherError → AetherError → AetherError} :
    Ends env (fun r => ∀ e, r = .error e → ∃ primary secondary, e = report primary secondary)
      (withFallback env request report) w := by
  refine wp_tryCatch (R := fun _ _ => True) (ends_any _) (fun a _ _ _ e he => by cases he) ?_
  rintro primary w₁ - -
  refine wp_tryCatch (R := fun _ _ => True) (ends_any _) (fun a _ _ _ e he => by cases he) ?_
  rintro secondary w₂ - -
  refine wp_throw trivial fun e he => ?_
  cases he
  exact ⟨primary, secondary, rfl⟩

theorem saveStore_unrefused {storePath : Text} {s : Store} :
    Ends env Unrefused (saveStore env storePath s) w := by
  refine wp_saveStore trivial (fun _ _ h => by cases h) fun text r w' _ hwrote => ⟨trivial, ?_⟩
  rcases hwrote.result with rfl | ⟨kind, rfl⟩ <;> exact fun _ h => by cases h

theorem saveFile_unrefused {path : Text} {identity : Identity} :
    Ends env Unrefused (saveFile env path identity) w := by
  refine wp_saveFile trivial (fun _ _ h => by cases h) fun text r w' _ hwrote => ⟨trivial, ?_⟩
  rcases hwrote.result with rfl | ⟨kind, rfl⟩ <;> exact fun _ h => by cases h

theorem ensureMasqueEnrolled_unrefused {identity : Identity} :
    Ends env Unrefused (ensureMasqueEnrolled env identity) w := by
  refine wp_bind_except (R := fun r _ => ∃ b, r = .ok b) ?_ (fun e _ _ h => by cases h.choose_spec) ?_
  · unfold hasMasqueCredentials
    split_ifs
    · exact wp_ask_bind trivial fun now w' _ => wp_ok trivial ⟨_, rfl⟩
    · exact wp_ok trivial ⟨_, rfl⟩
  -- only the server's refusal of the key is an `identityRefused`; no branch here throws one
  · rintro kept w₁ - -
    split_ifs
    · exact wp_ok trivial fun _ h => by cases h
    · refine wp_bind_except (R := fun r _ => Unrefused r) ?_ (fun e _ _ h => h.error) ?_
      · refine wp_ask_bind trivial fun x w' _ => ?_
        cases x with
        | ok keypair => exact wp_ok trivial fun _ h => by cases h
        | error e => exact wp_throw trivial fun _ h => by cases h
      · rintro ⟨certPem, keyPem⟩ w₂ - -
        refine wp_tryCatch (R := fun r _ => Unrefused r) ?_ (fun _ _ _ h => h) ?_
        · refine wp_bind_except withFallback_error ?_ ?_
          -- both ways out failed, which is a failure of another kind
          · rintro e w₃ - he m h
            obtain ⟨primary, secondary, rfl⟩ := he e rfl
            cases h
          · rintro account w₃ - -
            exact wp_ask_bind trivial fun now w' _ => wp_ok trivial fun _ h => by cases h
        · rintro e w₃ - he
          refine wp_ask_bind trivial fun now w' _ => ?_
          split_ifs
          · exact wp_ok trivial fun _ h => by cases h
          · exact wp_throw trivial he

theorem markAll_unrefused {identity : Identity} (paths : List Text) :
    Ends env Unrefused (markAll env identity paths) w := by
  induction paths generalizing w with
  | nil => exact wp_ok trivial fun _ h => by cases h
  | cons path paths ih =>
      refine wp_bind_except (R := fun r _ => ∃ u, r = .ok u) ?_ (fun _ _ _ h => by cases h.choose_spec)
        fun _ _ _ _ => ih
      exact wp_tryCatch (ends_any _) (fun u _ _ _ => ⟨u, rfl⟩) fun _ _ _ _ => wp_ok trivial ⟨(), rfl⟩

theorem recordEnrolmentBeside_unrefused {path : Text} {identity : Identity} :
    Ends env Unrefused (recordEnrolmentBeside env path identity) w := by
  unfold recordEnrolmentBeside
  split_ifs
  · exact wp_ok trivial fun _ h => by cases h
  · exact wp_ask_bind trivial fun found w' _ => markAll_unrefused _

theorem refreshProfile_ends {identity : Identity} :
    Ends env (fun r => ∃ refreshed, r = .ok refreshed) (refreshProfile env identity) w :=
  wp_tryCatch (ends_any _) (fun a _ _ _ => ⟨a, rfl⟩) fun _ _ _ _ => wp_ok trivial ⟨_, rfl⟩

theorem adoptTeamProfile_ends {identity : Identity} :
    Ends env (fun r => ∃ adopted, r = .ok adopted) (adoptTeamProfile env identity) w := by
  unfold adoptTeamProfile
  split_ifs
  · exact refreshProfile_ends
  · exact wp_ok trivial ⟨identity, rfl⟩

variable {site : IdentitySite} {s : Store}

theorem record_unrefused {identity : Identity} :
    wpM (traced (effects env.fmt)) (fun _ => True) (fun r _ _ => Unrefused r)
      (record env site identity) s w := by
  refine wpM_ask_bind trivial fun now w₁ _ => wpM_modify_bind (wpM_get_bind ?_)
  exact wpM_plain_bind saveStore_unrefused (fun _ _ _ h => h.error) fun _ _ _ _ =>
    wpM_plain saveFile_unrefused

/-- **An enrolment never ends in a refusal.** -/
theorem enrolAndRecord_unrefused {identity : Identity} :
    wpM (traced (effects env.fmt)) (fun _ => True) (fun r _ _ => Unrefused r)
      (enrolAndRecord env site identity) s w := by
  refine wpM_ask_bind trivial fun now w₁ _ => wpM_modify_bind (wpM_get_bind ?_)
  refine wpM_plain_bind saveStore_unrefused (fun _ _ _ h => h.error) fun _ w₂ _ _ => ?_
  refine wpM_plain_bind ensureMasqueEnrolled_unrefused (fun _ _ _ h => h.error) fun enrollment w₃ _ _ => ?_
  refine wpM_plain_bind adoptTeamProfile_ends (fun _ _ _ h => by cases h.choose_spec)
    fun identity' w₄ _ _ => ?_
  refine wpM_bind record_unrefused (fun _ _ _ _ h => h.error) fun _ s₁ w₅ _ _ => ?_
  exact wpM_plain_bind recordEnrolmentBeside_unrefused (fun _ _ _ h => h.error) fun _ _ _ _ =>
    wpM_ok trivial fun _ h => by cases h

end Unrefused

end Account
end AuroraVpn
