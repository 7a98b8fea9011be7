import AuroraVpn.Account.Network
import AuroraVpn.Account.Writes

/-!
# Purchase — how far a registration has come

What the calls made so far say of a registration: the account api answered with an account, and then
the store was saved.  Between the two nothing should be waited for.

* `register_purchase`: what `register` and `register_with_team` come to.
* `Quiet.wp`: a program that sends no registration.
-/

namespace AuroraVpn
namespace Account

open Program

def Request.registers : Request → Bool
  | .register | .registerTeam => true
  | .fetchDevice _ | .enrollKey _ => false

/-- Whether a call sends a registration. -/
def Call.registers (c : Call) : Bool :=
  c.request?.any Request.registers

/-- Whether a call may change a file. -/
def Call.writes : Call → Bool
  | .load _ _ | .writePrivate _ _ => true
  | _ => false

theorem effects_disk {fmt : Formats} {c : Call} {w w' : World} {x : c.Answer}
    (hc : c.writes = false) (heff : effects fmt c w x w') : w'.disk = w.disk := by
  cases c with
  | load | writePrivate => cases hc
  | now =>
      obtain rfl : w' = w.tick x := heff
      rfl
  | siblings path => exact congrArg World.disk heff.2
  | read path => exact congrArg World.disk heff.2
  | _ => exact (network_effect rfl heff).1

variable (env : Env) (storePath : Text)

/-- The account that an answer to a registration holds. -/
def grant (request : Request) (answer : HttpAnswer) : Option AccountData :=
  if request.registers ∧ isSuccess answer.status then (env.json answer.body).toOption else none

def granted : (c : Call) → c.Answer → Option AccountData
  | .send request, .answered answer => grant env request answer
  | .exchange request, .ok answer => grant env request answer
  | _, _ => none

/-- Whether a call saved the store. -/
def savesStore : (c : Call) → c.Answer → Bool
  | .writePrivate path _, .ok _ => path = storePath
  | _, _ => false

/-- How far a registration has come, and whether anything was waited for between its answer and the
save of the store. -/
inductive Purchase
  | none
  | answered (account : AccountData) (awaited : Bool)
  | saved (account : AccountData) (awaited : Bool)

namespace Purchase

def awaited : Purchase → Bool
  | .none => false
  | .answered _ awaited => awaited
  | .saved _ awaited => awaited

def after (p : Purchase) (e : Event) : Purchase :=
  match granted env e.1 e.2 with
  | some account => .answered account false
  | .none =>
      match p with
      | .none => .none
      | .answered account awaited =>
          if savesStore storePath e.1 e.2 then .saved account awaited
          else .answered account (awaited || e.1.isAwait)
      | .saved account awaited => .saved account awaited

end Purchase

/-- How far the registration of a run has come. -/
def progress (t : List Event) : Purchase :=
  t.foldl (Purchase.after env storePath) .none

section Progress

variable {env storePath} {t : List Event} {c : Call} {x : c.Answer} {account : AccountData} {awaited : Bool}

theorem progress_concat (e : Event) :
    progress env storePath (t ++ [e]) = (progress env storePath t).after env storePath e := by
  simp [progress]

theorem granted_of_not_registers (h : c.registers = false) : granted env c x = none := by
  cases c with
  | send request =>
      cases x with
      | answered answer =>
          have hrequest : request.registers = false := h
          simp [granted, grant, hrequest]
      | _ => rfl
  | exchange request =>
      cases x with
      | error message => rfl
      | ok answer =>
          have hrequest : request.registers = false := h
          simp [granted, grant, hrequest]
  | _ => rfl

theorem after_none (h : granted env c x = none) :
    Purchase.after env storePath .none ⟨c, x⟩ = .none := by
  simp [Purchase.after, h]

theorem after_granted (h : granted env c x = some account) (p : Purchase) :
    p.after env storePath ⟨c, x⟩ = .answered account false := by
  simp [Purchase.after, h]

theorem after_saved (h : granted env c x = none) :
    Purchase.after env storePath (.saved account awaited) ⟨c, x⟩ = .saved account awaited := by
  simp [Purchase.after, h]

/-- What is neither a save nor waited for leaves an answered registration as it is. -/
theorem after_answered (h : granted env c x = none) (hsave : savesStore storePath c x = false)
    (hawait : c.isAwait = false) :
    Purchase.after env storePath (.answered account awaited) ⟨c, x⟩ = .answered account awaited := by
  simp [Purchase.after, h, hsave, hawait]

end Progress

/-! ## Programs that send no registration -/

/-- No registration was answered yet. -/
def Quiet (w : Traced) : Prop :=
  progress env storePath w.2 = .none

/-- Nothing but calls that send no registration. -/
abbrev Silent {α : Type} (p : Prog Calls α) : Prop :=
  Uses (fun c : Call => c.registers = false) p

variable {env storePath}

theorem Quiet.step {c : Call} {x : c.Answer} {w w' : Traced} (h : Quiet env storePath w)
    (hc : c.registers = false) (heff : traced (effects env.fmt) c w x w') :
    Quiet env storePath w' := by
  unfold Quiet at *
  rw [heff.2, progress_concat, h]
  exact after_none (granted_of_not_registers hc)

/-- **A program that sends no registration gets none answered.** -/
theorem Quiet.wp {α : Type} {p : Prog Calls α} {w : Traced} (h : Quiet env storePath w)
    (hp : Silent p) :
    Program.wp (traced (effects env.fmt)) (Quiet env storePath) (fun _ _ => True) p w :=
  hp.wp (fun _ _ _ _ hc hw heff => hw.step hc heff) h

/-! ## Registrations -/

section Register

variable {request : Request} {disk : Disk} {w w' : Traced}

/-- The files are as they were, and an answered registration was not followed by anything yet. -/
def Asking (env : Env) (storePath : Text) (disk : Disk) (w : Traced) : Prop :=
  w.1.disk = disk ∧ (Quiet env storePath w ∨
    ∃ account, progress env storePath w.2 = .answered account false)

/-- The files are as they were, and no registration was answered. -/
def Unanswered (env : Env) (storePath : Text) (disk : Disk) (w : Traced) : Prop :=
  w.1.disk = disk ∧ Quiet env storePath w

/-- What was heard last is an answer to a registration. -/
def Told (env : Env) (storePath : Text) (disk : Disk) (request : Request) (answer : HttpAnswer)
    (w : Traced) : Prop :=
  w.1.disk = disk ∧
    progress env storePath w.2 = (grant env request answer).elim .none (.answered · false)

/-- What a registration comes to. -/
def Bargained (env : Env) (storePath : Text) (disk : Disk) :
    Except AetherError AccountData → Traced → Prop
  | .ok account, w => w.1.disk = disk ∧ progress env storePath w.2 = .answered account false
  | .error _, w => Unanswered env storePath disk w

theorem Unanswered.asking (h : Unanswered env storePath disk w) : Asking env storePath disk w :=
  ⟨h.1, .inl h.2⟩

theorem Unanswered.step {c : Call} {x : c.Answer} (h : Unanswered env storePath disk w)
    (hwrites : c.writes = false) (hc : granted env c x = none)
    (heff : traced (effects env.fmt) c w x w') : Unanswered env storePath disk w' := by
  refine ⟨(effects_disk hwrites heff.1).trans h.1, ?_⟩
  unfold Quiet
  rw [heff.2, progress_concat, h.2]
  exact after_none hc

theorem Unanswered.told {c : Call} {x : c.Answer} {answer : HttpAnswer}
    (h : Unanswered env storePath disk w) (hwrites : c.writes = false)
    (hc : granted env c x = grant env request answer)
    (heff : traced (effects env.fmt) c w x w') : Told env storePath disk request answer w' := by
  refine ⟨(effects_disk hwrites heff.1).trans h.1, ?_⟩
  rw [heff.2, progress_concat, h.2, ← hc]
  cases hgrant : granted env c x with
  | none => exact after_none hgrant
  | some account => exact after_granted hgrant _

theorem Told.asking {answer : HttpAnswer} (h : Told env storePath disk request answer w) :
    Asking env storePath disk w := by
  obtain ⟨hdisk, hprogress⟩ := h
  refine ⟨hdisk, ?_⟩
  cases hgrant : grant env request answer with
  | none =>
      rw [hgrant] at hprogress
      exact .inl hprogress
  | some account =>
      rw [hgrant] at hprogress
      exact .inr ⟨account, hprogress⟩

/-- An answer that is no success grants nothing. -/
theorem Told.unanswered {answer : HttpAnswer} (h : Told env storePath disk request answer w)
    (hstatus : isSuccess answer.status = false) : Unanswered env storePath disk w := by
  refine ⟨h.1, ?_⟩
  unfold Quiet
  rw [h.2]
  simp [grant, hstatus]

/-- An answer that is a success grants the account that its body holds. -/
theorem Told.bargained {answer : HttpAnswer} (h : Told env storePath disk request answer w)
    (hrequest : request.registers = true) (hstatus : isSuccess answer.status = true) :
    Bargained env storePath disk (decodeAccount env request answer) w := by
  obtain ⟨hdisk, hprogress⟩ := h
  have hgrant : grant env request answer = (env.json answer.body).toOption := by
    simp [grant, hrequest, hstatus]
  rw [hgrant] at hprogress
  unfold decodeAccount
  cases hjson : env.json answer.body with
  | error e =>
      rw [hjson] at hprogress
      exact ⟨hdisk, hprogress⟩
  | ok account =>
      rw [hjson] at hprogress
      exact ⟨hdisk, hprogress⟩

theorem backoff_purchase {n : Nat} (hw : Unanswered env storePath disk w) :
    wp (traced (effects env.fmt)) (Asking env storePath disk)
      (fun r w => r = .ok () ∧ Unanswered env storePath disk w) (backoff n).run w := by
  unfold backoff
  split_ifs
  · refine wp_ask hw.asking fun x w' heff => ?_
    have hw' := hw.step rfl rfl heff
    exact ⟨hw'.asking, rfl, hw'⟩
  · exact wp_ok hw.asking ⟨rfl, hw⟩

theorem sendOnce_purchase (hw : Unanswered env storePath disk w) :
    wp (traced (effects env.fmt)) (Asking env storePath disk)
      (fun r w => match r with
        | .ok answer => Told env storePath disk request answer w
        | .error _ => Unanswered env storePath disk w) (sendOnce request).run w := by
  refine wp_ask_bind hw.asking fun x w' heff => ?_
  cases x with
  | answered answer =>
      have htold : Told env storePath disk request answer w' := hw.told rfl rfl heff
      exact wp_ok htold.asking htold
  | _ =>
      have hw' := hw.step rfl rfl heff
      exact wp_throw hw'.asking hw'

/-- **The direct route**: an account that was granted ends it. -/
theorem sendLoop_purchase (hrequest : request.registers = true) (n : Nat) (last : AetherError)
    (asked : Option UInt64) (hw : Unanswered env storePath disk w) :
    wp (traced (effects env.fmt)) (Asking env storePath disk) (Bargained env storePath disk)
      (sendLoop env request n last asked).run w := by
  induction n generalizing w last asked with
  | zero => exact wp_throw hw.asking hw
  | succ n ih =>
      refine wp_bind_except (backoff_purchase hw) (fun e w _ h => by cases h.1) ?_
      rintro - w₁ - ⟨-, hw₁⟩
      refine wp_bind_except (sendOnce_purchase hw₁) (fun e w _ h => h) ?_
      rintro answer w₂ hasking htold
      split_ifs with hstatus
      · exact wp_result hasking (htold.bargained hrequest hstatus)
      · have hw₂ := htold.unanswered (by simpa using hstatus)
        exact wp_throw hasking hw₂
      · have hw₂ := htold.unanswered (by simpa using hstatus)
        cases retryAfter answer with
        | none => exact ih _ _ hw₂
        | some wait =>
            exact wp_ask_bind hw₂.asking fun x w' heff => ih _ _ (hw₂.step rfl rfl heff)

/-- **The camouflaged route**: an account that was granted ends it. -/
theorem fetchLoop_purchase (n : Nat) (kept : Option HttpAnswer) (failure : Option String)
    (hkept : ∀ answer, kept = some answer → isSuccess answer.status = false)
    (hw : Unanswered env storePath disk w) :
    wp (traced (effects env.fmt)) (Asking env storePath disk)
      (fun r w => match r with
        | .ok answer => Told env storePath disk request answer w
        | .error _ => Unanswered env storePath disk w)
      (fetchLoop request n kept failure).run w := by
  induction n generalizing w kept failure with
  | zero =>
      cases kept with
      | none => exact wp_throw hw.asking hw
      | some answer =>
          -- the answer that was kept is a rejection, so nothing was granted
          refine wp_ok hw.asking ⟨hw.1, ?_⟩
          have hgrant : grant env request answer = none := by
            simp [grant, hkept answer rfl]
          rw [hgrant]
          exact hw.2
  | succ n ih =>
      refine wp_ask_bind hw.asking fun x w' heff => ?_
      cases x with
      | error e => exact ih _ _ hkept (hw.step rfl rfl heff)
      | ok answer =>
          have htold : Told env storePath disk request answer w' := hw.told rfl rfl heff
          dsimp only
          split_ifs with hstatus
          -- a success ends the loop, and is told
          · exact wp_ok htold.asking htold
          · have hfail : isSuccess answer.status = false := by simpa using hstatus
            -- what is kept from here on is a rejection too
            refine ih _ _ (fun a ha => ?_) (htold.unanswered hfail)
            unfold keepRejection at ha
            split_ifs at ha
            · cases ha
              exact hfail
            · exact hkept a ha

theorem fallbackCall_purchase (hrequest : request.registers = true)
    (hw : Unanswered env storePath disk w) :
    wp (traced (effects env.fmt)) (Asking env storePath disk) (Bargained env storePath disk)
      (fallbackCall env request).run w := by
  refine wp_bind_except (R := fun r w => match r with
    | .ok answer => Told env storePath disk request answer w
    | .error _ => Unanswered env storePath disk w) ?_ (fun e w _ h => h) ?_
  · refine wp_ask_bind hw.asking fun addresses w' heff => ?_
    have hw' := hw.step rfl rfl heff
    split_ifs
    · exact wp_throw hw'.asking hw'
    · exact fetchLoop_purchase _ _ _ (fun _ h => by cases h) hw'
  · rintro answer w₁ hasking htold
    split_ifs with hstatus
    · exact wp_result hasking (htold.bargained hrequest hstatus)
    · exact wp_throw hasking (htold.unanswered (by simpa using hstatus))

/-- **A registration over both routes.** -/
theorem register_purchase (hrequest : request.registers = true)
    (report : AetherError → AetherError → AetherError) (hw : Unanswered env storePath disk w) :
    wp (traced (effects env.fmt)) (Asking env storePath disk) (Bargained env storePath disk)
      (withFallback env request report).run w := by
  refine wp_tryCatch (sendLoop_purchase hrequest _ _ _ hw) (fun a w _ h => h) ?_
  rintro primary w₁ - hw₁
  refine wp_tryCatch (fallbackCall_purchase hrequest hw₁) (fun a w _ h => h) ?_
  rintro secondary w₂ hasking hw₂
  exact wp_throw hasking hw₂

end Register

end Account
end AuroraVpn
