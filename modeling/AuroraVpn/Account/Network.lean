import AuroraVpn.Account.Provision

/-!
# Network — what the requests to the account api leave alone

The programs of `account.rs` ask the network and nothing else, so their runs leave the files and
what the clock was asked as they are.

* `Network`: a program that only asks the network, and what for.
* `network_keeps`: what its runs keep.
-/

namespace AuroraVpn
namespace Account

open Program

/-- The calls that are put to the network, or to nothing outside the process. -/
def Call.isNetwork : Call → Bool
  | .lock | .sleep | .send _ | .candidates | .exchange _ | .resolveToken | .wgKeypair
  | .masqueKeypair => true
  | _ => false

/-- The request that a call sends. -/
def Call.request? : Call → Option Request
  | .send request | .exchange request => some request
  | _ => none

/-- A call to the network that sends a request of some kind, if it sends one. -/
structure Call.Asks (allowed : Request → Prop) (c : Call) : Prop where
  network : c.isNetwork = true
  request : ∀ request, c.request? = some request → allowed request

/-- A program that only asks the network, and only for what is allowed. -/
abbrev Network {α : Type} (allowed : Request → Prop) (p : Task α) : Prop :=
  Uses (Call.Asks allowed) p.run

/-- A call to the network leaves the files alone. -/
theorem network_effect {fmt : Formats} {c : Call} {w w' : World} {x : c.Answer}
    (hc : c.isNetwork = true) (heff : effects fmt c w x w') :
    w'.disk = w.disk ∧ w'.times = w.times := by
  cases c with
  | lock | sleep | resolveToken | wgKeypair | masqueKeypair =>
      obtain rfl : w' = w := heff
      exact ⟨rfl, rfl⟩
  | send request =>
      obtain rfl : w' = w.hear request x.heard := heff
      exact ⟨rfl, rfl⟩
  | exchange request =>
      obtain rfl : w' = w.hear request x.toOption.toList := heff
      exact ⟨rfl, rfl⟩
  | candidates =>
      obtain ⟨-, -, rfl⟩ : 3 ≤ x ∧ x ≤ 5 ∧ w' = w := heff
      exact ⟨rfl, rfl⟩
  | _ => cases hc

/-- **A program that only asks the network leaves the files alone.** -/
theorem network_keeps {fmt : Formats} {α : Type} {allowed : Request → Prop} {p : Task α}
    (hp : Network allowed p) {w w' : World} {r : Except AetherError α}
    (h : Runs (effects fmt) w p.run r w') : w'.disk = w.disk ∧ w'.times = w.times :=
  hp.keeps (P := fun w w' : World => w'.disk = w.disk ∧ w'.times = w.times)
    (fun _ => ⟨rfl, rfl⟩) (fun h h' => ⟨h'.1.trans h.1, h'.2.trans h.2⟩)
    (fun _ _ _ _ hc heff => network_effect hc.network heff) h

section Requests

variable {allowed : Request → Prop} (env : Env) {request : Request}

theorem network_ask {c : Call} (hc : c.isNetwork = true) (hnone : c.request? = none) :
    Network allowed (ask c) :=
  uses_ask ⟨hc, fun _ h => by rw [hnone] at h; cases h⟩

theorem asks_send (h : allowed request) : (Call.send request).Asks allowed where
  network := rfl
  request _ hr := by cases hr; exact h

theorem asks_exchange (h : allowed request) : (Call.exchange request).Asks allowed where
  network := rfl
  request _ hr := by cases hr; exact h

theorem network_throw {α : Type} (e : AetherError) : Network allowed (throw e : Task α) :=
  trivial

theorem network_pure {α : Type} (a : α) : Network allowed (pure a : Task α) :=
  trivial

theorem network_backoff (n : Nat) : Network allowed (backoff n) := by
  unfold backoff
  split_ifs
  · exact network_ask rfl rfl
  · exact network_pure _

theorem network_sendOnce (h : allowed request) : Network allowed (sendOnce request) := by
  refine Uses.bind_except (uses_ask (asks_send h)) fun x => ?_
  cases x <;> exact trivial

theorem network_sendLoop (h : allowed request) (n : Nat) (last : AetherError)
    (asked : Option UInt64) : Network allowed (sendLoop env request n last asked) := by
  induction n generalizing last asked with
  | zero => exact network_throw _
  | succ n ih =>
      refine Uses.bind_except (network_backoff n) fun _ => ?_
      refine Uses.bind_except (network_sendOnce h) fun answer => ?_
      split_ifs
      · exact uses_ok _
      · exact network_throw _
      · cases retryAfter answer with
        | none => exact ih _ _
        | some wait => exact Uses.bind_except (network_ask rfl rfl) fun _ => ih _ _

theorem network_fetchLoop (h : allowed request) (n : Nat) (kept : Option HttpAnswer)
    (failure : Option String) : Network allowed (fetchLoop request n kept failure) := by
  induction n generalizing kept failure with
  | zero => cases kept <;> exact trivial
  | succ n ih =>
      refine Uses.bind_except (uses_ask (asks_exchange h)) fun x => ?_
      cases x with
      | error e => exact ih _ _
      | ok answer =>
          dsimp only
          split_ifs
          · exact network_pure _
          · exact ih _ _

theorem network_fallbackCall (h : allowed request) : Network allowed (fallbackCall env request) := by
  refine Uses.bind_except
    (Uses.bind_except (network_ask rfl rfl) fun addresses => ?_) fun answer => ?_
  · split_ifs
    · exact network_throw _
    · exact network_fetchLoop h _ _ _
  · split_ifs
    · exact uses_ok _
    · exact network_throw _

theorem network_withFallback (h : allowed request)
    (report : AetherError → AetherError → AetherError) :
    Network allowed (withFallback env request report) :=
  Uses.tryCatch (network_sendLoop env h _ _ _) fun _ =>
    Uses.tryCatch (network_fallbackCall env h) fun _ => network_throw _

theorem network_resolveToken : Network allowed resolveToken := by
  refine Uses.bind_except (network_ask rfl rfl) fun x => ?_
  cases x <;> exact trivial

theorem network_provisionWg (h : allowed .register) : Network allowed (provisionWg env) :=
  Uses.bind_except (network_ask rfl rfl) fun _ =>
    Uses.bind_except (network_withFallback env h _) fun _ => uses_ok _

theorem network_provisionTeam (h : allowed .registerTeam) : Network allowed (provisionTeam env) :=
  Uses.bind_except network_resolveToken fun _ =>
    Uses.bind_except (network_ask rfl rfl) fun _ =>
      Uses.bind_except (network_withFallback env h _) fun _ => uses_ok _

theorem network_refreshProfile {identity : Identity}
    (h : allowed (.fetchDevice identity.deviceId)) : Network allowed (refreshProfile env identity) :=
  Uses.tryCatch
    (Uses.bind_except (network_withFallback env h _) fun _ => network_pure _) fun _ =>
      network_pure _

/-- A registration sends no enrolment. -/
theorem network_provisionAccount_of (hregister : allowed .register) (hteam : allowed .registerTeam)
    (hfetch : ∀ id, allowed (.fetchDevice id)) : Network allowed (provisionAccount env) := by
  unfold provisionAccount
  split_ifs
  · exact Uses.bind_except (network_provisionTeam env hteam) fun _ =>
      network_refreshProfile env (hfetch _)
  · exact network_provisionWg env hregister

theorem network_provisionAccount : Network (fun _ => True) (provisionAccount env) :=
  network_provisionAccount_of env trivial trivial fun _ => trivial

theorem network_adoptTeamProfile {identity : Identity}
    (h : allowed (.fetchDevice identity.deviceId)) :
    Network allowed (adoptTeamProfile env identity) := by
  unfold adoptTeamProfile
  split_ifs
  · exact network_refreshProfile env h
  · exact network_pure _

theorem network_enrollKey {id : Text} (h : allowed (.enrollKey id)) :
    Network allowed (enrollKey env id) :=
  network_withFallback env h _

theorem network_masqueKeypair : Network allowed masqueKeypair := by
  refine Uses.bind_except (network_ask rfl rfl) fun x => ?_
  cases x <;> exact trivial

end Requests

end Account
end AuroraVpn
