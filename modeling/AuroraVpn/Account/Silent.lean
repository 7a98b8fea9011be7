import AuroraVpn.Account.Purchase

/-!
# Silent — the programs that send no registration

* `silent_record`, `silent_enrolAndRecord`: neither does what puts an identity on record.
* `idle_ensureMasqueEnrolled`: an enrolment does not touch the files either.
-/

namespace AuroraVpn
namespace Account

open Program

variable {env : Env} {site : IdentitySite}

theorem silent_liftExcept {α : Type} (r : Except AetherError α) : Silent (liftExcept r).run :=
  uses_ok r

theorem silent_saveStore (storePath : Text) (s : Store) : Silent (saveStore env storePath s).run :=
  Uses.bind_except (silent_liftExcept _) fun _ =>
    Uses.bind_except (uses_ask rfl) fun _ => silent_liftExcept _

theorem silent_saveFile (path : Text) (identity : Identity) :
    Silent (saveFile env path identity).run :=
  Uses.bind_except (silent_liftExcept _) fun _ =>
    Uses.bind_except (uses_ask rfl) fun _ => silent_liftExcept _

theorem silent_record (identity : Identity) :
    UsesM (fun c : Call => c.registers = false) (record env site identity) :=
  UsesM.bind (usesM_plain (uses_ask rfl)) fun _ => UsesM.bind (usesM_modify _) fun _ =>
    usesM_get_bind fun _ => UsesM.bind (usesM_plain (silent_saveStore _ _)) fun _ =>
      usesM_plain (silent_saveFile _ _)

/-- A call that neither sends a registration nor changes a file. -/
structure Call.Idle (c : Call) : Prop where
  registers : c.registers = false
  writes : c.writes = false

theorem Call.Asks.idle {c : Call} {allowed : Request → Prop} (hc : c.Asks allowed)
    (h : ∀ request, allowed request → request.registers = false) : c.Idle where
  registers := by
    cases hrequest : c.request? with
    | none => simp [Call.registers, hrequest]
    | some request => simp [Call.registers, hrequest, h request (hc.request request hrequest)]
  writes := by
    have hnetwork := hc.network
    cases c with
    | load | writePrivate => cases hnetwork
    | _ => rfl

theorem idle_network {α : Type} {p : Task α} {allowed : Request → Prop} (hp : Network allowed p)
    (h : ∀ request, allowed request → request.registers = false) : Uses Call.Idle p.run :=
  hp.mono fun _ hc => hc.idle h

theorem silent_network {α : Type} {p : Task α} {allowed : Request → Prop}
    (hp : Network allowed p) (h : ∀ request, allowed request → request.registers = false) :
    Silent p.run :=
  (idle_network hp h).mono fun _ hc => hc.registers

theorem idle_adoptTeamProfile (identity : Identity) :
    Uses Call.Idle (adoptTeamProfile env identity).run :=
  have hnetwork : Network (· = .fetchDevice identity.deviceId) (adoptTeamProfile env identity) :=
    network_adoptTeamProfile env rfl
  idle_network hnetwork fun _ h => by rw [h]; rfl

theorem idle_hasMasqueCredentials (identity : Identity) :
    Uses Call.Idle (hasMasqueCredentials identity).run := by
  unfold hasMasqueCredentials
  split_ifs
  · exact Uses.bind_except (uses_ask ⟨rfl, rfl⟩) fun _ => trivial
  · exact trivial

theorem silent_adoptTeamProfile (identity : Identity) :
    Silent (adoptTeamProfile env identity).run :=
  (idle_adoptTeamProfile identity).mono fun _ hc => hc.registers

theorem silent_hasMasqueCredentials (identity : Identity) :
    Silent (hasMasqueCredentials identity).run :=
  (idle_hasMasqueCredentials identity).mono fun _ hc => hc.registers

theorem idle_ensureMasqueEnrolled (identity : Identity) :
    Uses Call.Idle (ensureMasqueEnrolled env identity).run := by
  have hnow : Uses Call.Idle (ask .now).run := uses_ask ⟨rfl, rfl⟩
  have hkeypair : Network (fun _ => False) masqueKeypair := network_masqueKeypair
  have hkey : Network (· = .enrollKey identity.deviceId) (enrollKey env identity.deviceId) :=
    network_enrollKey env rfl
  refine Uses.bind_except (idle_hasMasqueCredentials identity) fun kept => ?_
  split_ifs
  · exact trivial
  · refine Uses.bind_except (idle_network hkeypair fun _ h => h.elim) fun keypair =>
      Uses.tryCatch ?_ fun e => ?_
    · exact Uses.bind_except (idle_network hkey fun _ h => by rw [h]; rfl) fun _ =>
        Uses.bind_except hnow fun _ => trivial
    · refine Uses.bind_except hnow fun now => ?_
      split_ifs <;> exact trivial

theorem silent_markAll (identity : Identity) (paths : List Text) :
    Silent (markAll env identity paths).run := by
  induction paths with
  | nil => exact trivial
  | cons path paths ih =>
      refine Uses.bind_except (Uses.tryCatch ?_ fun _ => trivial) fun _ => ih
      refine Uses.bind_except (uses_ask rfl) fun text => ?_
      cases text with
      | none => exact trivial
      | some text =>
          exact Uses.bind_except (silent_liftExcept _) fun _ =>
            Uses.bind_except (silent_liftExcept _) fun _ =>
              Uses.bind_except (uses_ask rfl) fun _ => silent_liftExcept _

theorem silent_recordEnrolmentBeside (path : Text) (identity : Identity) :
    Silent (recordEnrolmentBeside env path identity).run := by
  unfold recordEnrolmentBeside
  split_ifs
  · exact trivial
  · exact Uses.bind_except (uses_ask rfl) fun _ => silent_markAll _ _

theorem silent_enrolAndRecord (identity : Identity) :
    UsesM (fun c : Call => c.registers = false) (enrolAndRecord env site identity) :=
  UsesM.bind (usesM_plain (uses_ask rfl)) fun _ => UsesM.bind (usesM_modify _) fun _ =>
    usesM_get_bind fun _ => UsesM.bind (usesM_plain (silent_saveStore _ _)) fun _ =>
      UsesM.bind (usesM_plain ((idle_ensureMasqueEnrolled _).mono fun _ hc => hc.registers)) fun _ =>
        UsesM.bind (usesM_plain (silent_adoptTeamProfile _)) fun _ =>
          UsesM.bind (silent_record _) fun _ =>
            UsesM.bind (usesM_plain (silent_recordEnrolmentBeside _ _)) fun _ => usesM_pure _

end Account
end AuroraVpn
