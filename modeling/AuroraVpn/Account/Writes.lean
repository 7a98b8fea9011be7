import AuroraVpn.Account.Provision
import AuroraVpn.Lib.Crash

/-!
# Writes — the saves of a run

A write leaves the new file or the old one, and the new one where it is reported to be done.

* `wp_saveStore`, `wp_saveFile`: what holds around a save, and wherever the program is cut off.
-/

namespace AuroraVpn
namespace Account

open Program

abbrev Event := Program.Event Calls

/-- A world with the calls that were made so far. -/
abbrev Traced := World × List Event

/-- The files at the start of a run. -/
def Traced.start (disk : Disk) : Traced :=
  ({ disk := disk, times := [], heard := [] }, [])

section Writes

variable {env : Env} {w : Traced} {J : Traced → Prop} {R : Except AetherError Unit → Traced → Prop}

/-- The world after a write that may or may not have landed, and did if it is reported to. -/
structure Wrote (path text : Text) (w : Traced) (r : Except AetherError Unit) (w' : Traced) :
    Prop where
  result : r = .ok () ∨ ∃ kind, r = .error (.io kind)
  disk : w'.1.disk = Function.update w.1.disk path (some text) ∨
    w'.1.disk = w.1.disk ∧ ∃ e, r = .error e
  trace : w'.2 = w.2 ++ [⟨.writePrivate path text, r⟩]

theorem wrote_of_effect {path text : Text} {r : Except AetherError Unit} {w' : Traced}
    (h : traced (effects env.fmt) (.writePrivate path text) w r w') : Wrote path text w r w' := by
  obtain ⟨⟨o, hwrite, -, -⟩, htrace⟩ := h
  rcases o with _ | ⟨kind, _ | _⟩ <;> obtain ⟨hr, hdisk⟩ := Prod.mk.inj hwrite
  · exact ⟨.inl hr, .inl hdisk, htrace⟩
  · exact ⟨.inr ⟨kind, hr⟩, .inr ⟨hdisk, _, hr⟩, htrace⟩
  · exact ⟨.inr ⟨kind, hr⟩, .inl hdisk, htrace⟩

theorem wp_write {path text : Text} (hJ : J w)
    (hwrite : ∀ r w', Wrote path text w r w' → J w' ∧ R r w') :
    wp (traced (effects env.fmt)) J R
      (ask (.writePrivate path text) >>= fun outcome => liftExcept outcome : Task Unit).run w := by
  refine wp_ask_bind hJ fun x w' heff => ?_
  obtain ⟨hJ', hR⟩ := hwrite x w' (wrote_of_effect heff)
  exact wp_result hJ' hR

/-- A text that could not be made. -/
theorem mapError_other {r : Except String Text} {f : String → String} {e : AetherError}
    (h : r.mapError (fun m => AetherError.other (f m)) = .error e) : ∃ message, e = .other message := by
  cases r with
  | ok text => cases h
  | error m =>
      cases h
      exact ⟨_, rfl⟩

/-- **A save of the store**, to its text or not at all. -/
theorem wp_saveStore {storePath : Text} {s : Store} (hJ : J w)
    (herr : ∀ message, R (.error (.other message)) w)
    (hwrite : ∀ text r w', s.toText env.fmt.store = .ok text → Wrote storePath text w r w' →
      J w' ∧ R r w') :
    wp (traced (effects env.fmt)) J R (saveStore env storePath s).run w := by
  refine wp_bind_except (R := fun r w' => w' = w ∧ r = s.toText env.fmt.store)
    (wp_result hJ ⟨rfl, rfl⟩) ?_ ?_
  · rintro e w' - ⟨rfl, htext⟩
    obtain ⟨message, rfl⟩ := mapError_other htext.symm
    exact herr message
  · rintro text w' - ⟨rfl, htext⟩
    exact wp_write hJ fun r w'' hwrote => hwrite text r w'' htext.symm hwrote

/-- **A save of an identity to its file.** -/
theorem wp_saveFile {path : Text} {identity : Identity} (hJ : J w)
    (herr : ∀ message, R (.error (.other message)) w)
    (hwrite : ∀ text r w', toText env.fmt identity = .ok text → Wrote path text w r w' →
      J w' ∧ R r w') :
    wp (traced (effects env.fmt)) J R (saveFile env path identity).run w := by
  refine wp_bind_except (R := fun r w' => w' = w ∧ r = toText env.fmt identity)
    (wp_result hJ ⟨rfl, rfl⟩) ?_ ?_
  · rintro e w' - ⟨rfl, htext⟩
    obtain ⟨message, rfl⟩ := mapError_other htext.symm
    exact herr message
  · rintro text w' - ⟨rfl, htext⟩
    exact wp_write hJ fun r w'' hwrote => hwrite text r w'' htext.symm hwrote

end Writes

end Account
end AuroraVpn
