import AuroraVpn.Lib.Program

/-!
# Crash — what holds wherever a program is cut off

`wp eff J Q p w`: started in `w`, the program `p` keeps `J` wherever it is cut off, and where it ends
`Q` holds of its result.

* `wp_bind`, `wp_bind_except`, `wpM_bind`: one program after another.
* `wp_ask_bind`: a program that starts with a call.
* `wp_tryCatch`, `wpM_tryCatch`: a program, and what is done about its error.
* `wp.reaches`, `wp.runs`: what it says of cuts and of runs.
* `traced`: worlds that keep the calls made so far, with their answers.

Nothing here depends on what the calls are.
-/

namespace AuroraVpn
namespace Program

variable {I : Interface} {α β ε W : Type} {eff : Effects I W}

/-- `J` holds wherever the program is cut off, and `Q` where it ends. -/
def wp (eff : Effects I W) (J : W → Prop) (Q : α → W → Prop) : Prog I α → W → Prop
  | .done a, w => J w ∧ Q a w
  | .call c next, w => J w ∧ ∀ x w', eff c w x w' → wp eff J Q (next x) w'

section Prog

variable {J J' : W → Prop} {Q Q' : α → W → Prop} {p : Prog I α} {w w' : W}

theorem wp.here (h : wp eff J Q p w) : J w := by
  cases p with
  | done a => exact h.1
  | call c next => exact h.1

/-- **A weaker crash condition and a weaker postcondition.** -/
theorem wp.mono (h : wp eff J Q p w) (hJ : ∀ w, J w → J' w)
    (hQ : ∀ a w, J w → Q a w → Q' a w) : wp eff J' Q' p w := by
  induction p generalizing w with
  | done a => exact ⟨hJ _ h.1, hQ _ _ h.1 h.2⟩
  | call c next ih => exact ⟨hJ _ h.1, fun x w' hc => ih x (h.2 x w' hc)⟩

theorem wp.post (h : wp eff J Q p w) (hQ : ∀ a w, J w → Q a w → Q' a w) : wp eff J Q' p w :=
  h.mono (fun _ h => h) hQ

/-- **One program after another.** -/
theorem wp_bind {R : β → W → Prop} {f : α → Prog I β}
    (h : wp eff J (fun a w => wp eff J R (f a) w) p w) : wp eff J R (p >>= f) w := by
  change wp eff J R (p.bind f) w
  induction p generalizing w with
  | done a => exact h.2
  | call c next ih => exact ⟨h.1, fun x w' hc => ih x (h.2 x w' hc)⟩

theorem wp.and (h : wp eff J Q p w) (h' : wp eff J' Q' p w) :
    wp eff (fun w => J w ∧ J' w) (fun a w => Q a w ∧ Q' a w) p w := by
  induction p generalizing w with
  | done a => exact ⟨⟨h.1, h'.1⟩, h.2, h'.2⟩
  | call c next ih => exact ⟨⟨h.1, h'.1⟩, fun x w' hc => ih x (h.2 x w' hc) (h'.2 x w' hc)⟩

/-- **Wherever the program is cut off the crash condition holds.** -/
theorem wp.reaches {q : Prog I α} (h : wp eff J Q p w) (hq : Reaches eff w p w' q) : J w' := by
  induction hq with
  | here => exact h.here
  | call hc _ ih => exact ih (h.2 _ _ hc)

/-- **Where the program ends the postcondition holds.** -/
theorem wp.runs {a : α} (h : wp eff J Q p w) (hp : Runs eff w p a w') : Q a w' := by
  induction hp with
  | done => exact h.2
  | call hc _ ih => exact ih (h.2 _ _ hc)

/-- What every call of a program keeps. -/
theorem Uses.wp {allowed : I.Call → Prop} (hp : Uses allowed p)
    (hJ : ∀ c w x w', allowed c → J w → eff c w x w' → J w') (hw : J w) :
    wp eff J (fun _ _ => True) p w := by
  induction p generalizing w with
  | done a => exact ⟨hw, trivial⟩
  | call c next ih => exact ⟨hw, fun x w' hc => ih x (hp.2 x) (hJ _ _ _ _ hp.1 hw hc)⟩

end Prog

/-! ## Programs that may fail -/

section Task

variable {J : W → Prop} {R : Except ε α → W → Prop} {p : Task I ε α} {w : W}

theorem wp_result {r : Except ε α} (hJ : J w) (hR : R r w) :
    wp eff J R (ExceptT.mk (pure r) : Task I ε α).run w :=
  ⟨hJ, hR⟩

theorem wp_ok {a : α} (hJ : J w) (hR : R (.ok a) w) : wp eff J R (pure a : Task I ε α).run w :=
  ⟨hJ, hR⟩

theorem wp_throw {e : ε} (hJ : J w) (hR : R (.error e) w) :
    wp eff J R (throw e : Task I ε α).run w :=
  ⟨hJ, hR⟩

theorem wp_ask {c : I.Call} {R : Except ε (I.Answer c) → W → Prop} (hJ : J w)
    (hc : ∀ x w', eff c w x w' → J w' ∧ R (.ok x) w') :
    wp eff J R (ask c : Task I ε (I.Answer c)).run w :=
  ⟨hJ, hc⟩

/-- **One program after another that may fail.** -/
theorem wp_bind_except {f : α → Task I ε β} {Q : Except ε β → W → Prop}
    (h : wp eff J R p.run w) (herr : ∀ e w, J w → R (.error e) w → Q (.error e) w)
    (hok : ∀ a w, J w → R (.ok a) w → wp eff J Q (f a).run w) :
    wp eff J Q (p >>= f : Task I ε β).run w := by
  rw [ExceptT.run_bind]
  refine wp_bind (h.post fun r w hJ hR => ?_)
  cases r with
  | error e => exact ⟨hJ, herr e w hJ hR⟩
  | ok a => exact hok a w hJ hR

/-- A call in front of a program that may fail. -/
theorem wp_ask_bind {c : I.Call} {f : I.Answer c → Task I ε β} {Q : Except ε β → W → Prop}
    (hJ : J w) (hc : ∀ x w', eff c w x w' → wp eff J Q (f x).run w') :
    wp eff J Q (ask c >>= f : Task I ε β).run w :=
  ⟨hJ, hc⟩

/-- **A program, and what is done about its error.** -/
theorem wp_tryCatch {g : ε → Task I ε α} {Q : Except ε α → W → Prop}
    (h : wp eff J R p.run w) (hok : ∀ a w, J w → R (.ok a) w → Q (.ok a) w)
    (herr : ∀ e w, J w → R (.error e) w → wp eff J Q (g e).run w) :
    wp eff J Q (tryCatch p g : Task I ε α).run w := by
  rw [ExceptT.run_tryCatch]
  refine wp_bind (h.post fun r w hJ hR => ?_)
  cases r with
  | error e => exact herr e w hJ hR
  | ok a => exact ⟨hJ, hok a w hJ hR⟩

end Task

/-! ## Programs with a value of their own -/

/-- `wp` for a program that starts with the value `s`. -/
def wpM {σ : Type} (eff : Effects I W) (J : W → Prop) (Q : Except ε α → σ → W → Prop)
    (p : Mut I σ ε α) (s : σ) (w : W) : Prop :=
  wp eff J (fun r w => Q r.1 r.2 w) (p.run.run s) w

section Mut

variable {σ : Type} {J : W → Prop} {R : Except ε α → σ → W → Prop} {p : Mut I σ ε α} {s : σ} {w : W}

theorem wpM_ok {a : α} (hJ : J w) (hR : R (.ok a) s w) :
    wpM eff J R (pure a : Mut I σ ε α) s w :=
  ⟨hJ, hR⟩

theorem wpM_throw {e : ε} (hJ : J w) (hR : R (.error e) s w) :
    wpM eff J R (throw e : Mut I σ ε α) s w :=
  ⟨hJ, hR⟩

theorem wpM.post {Q : Except ε α → σ → W → Prop} (h : wpM eff J R p s w)
    (hQ : ∀ r s w, J w → R r s w → Q r s w) : wpM eff J Q p s w :=
  wp.post h fun r w hJ hR => hQ r.1 r.2 w hJ hR

theorem wpM_bind {f : α → Mut I σ ε β} {Q : Except ε β → σ → W → Prop}
    (h : wpM eff J R p s w) (herr : ∀ e s w, J w → R (.error e) s w → Q (.error e) s w)
    (hok : ∀ a s w, J w → R (.ok a) s w → wpM eff J Q (f a) s w) :
    wpM eff J Q (p >>= f) s w := by
  unfold wpM
  rw [ExceptT.run_bind, StateT.run_bind]
  refine wp_bind (wp.post h fun r w hJ hR => ?_)
  rcases r with ⟨e | a, s'⟩
  · exact ⟨hJ, herr e s' w hJ hR⟩
  · exact hok a s' w hJ hR

theorem wpM_get_bind {f : σ → Mut I σ ε β} {Q : Except ε β → σ → W → Prop}
    (h : wpM eff J Q (f s) s w) : wpM eff J Q (get >>= f : Mut I σ ε β) s w :=
  h

theorem wpM_set_bind {t : σ} {f : PUnit → Mut I σ ε β} {Q : Except ε β → σ → W → Prop}
    (h : wpM eff J Q (f ⟨⟩) t w) : wpM eff J Q (set t >>= f : Mut I σ ε β) s w :=
  h

theorem wpM_modify_bind {g : σ → σ} {f : PUnit → Mut I σ ε β} {Q : Except ε β → σ → W → Prop}
    (h : wpM eff J Q (f ⟨⟩) (g s) w) : wpM eff J Q (modify g >>= f : Mut I σ ε β) s w :=
  h

theorem wpM_modify {g : σ → σ} {Q : Except ε PUnit → σ → W → Prop} (hJ : J w)
    (hQ : Q (.ok ⟨⟩) (g s) w) : wpM eff J Q (modify g : Mut I σ ε PUnit) s w :=
  ⟨hJ, hQ⟩

/-- A program that does not touch the value. -/
theorem wpM_plain {p : Task I ε α} (h : wp eff J (fun r w => R r s w) p.run w) :
    wpM eff J R (plain p) s w := by
  change wp eff J _ (p.run >>= fun r => pure (r, s)) w
  exact wp_bind (h.post fun r w hJ hR => ⟨hJ, hR⟩)

theorem wpM_plain_bind {p : Task I ε α} {f : α → Mut I σ ε β} {R : Except ε α → W → Prop}
    {Q : Except ε β → σ → W → Prop} (h : wp eff J R p.run w)
    (herr : ∀ e w, J w → R (.error e) w → Q (.error e) s w)
    (hok : ∀ a w, J w → R (.ok a) w → wpM eff J Q (f a) s w) :
    wpM eff J Q (plain p >>= f) s w := by
  refine wpM_bind (R := fun r s' w => s' = s ∧ R r w) (wpM_plain (h.post fun r w _ hR => ⟨rfl, hR⟩))
    ?_ ?_
  · rintro e s' w hJ ⟨rfl, hR⟩
    exact herr e w hJ hR
  · rintro a s' w hJ ⟨rfl, hR⟩
    exact hok a w hJ hR

/-- A call in front of a program that works on the value. -/
theorem wpM_ask_bind {c : I.Call} {f : I.Answer c → Mut I σ ε β}
    {Q : Except ε β → σ → W → Prop} (hJ : J w)
    (hc : ∀ x w', eff c w x w' → wpM eff J Q (f x) s w') :
    wpM eff J Q (plain (ask c) >>= f) s w :=
  ⟨hJ, hc⟩

theorem wpM_tryCatch {g : ε → Mut I σ ε α} {Q : Except ε α → σ → W → Prop}
    (h : wpM eff J R p s w) (hok : ∀ a s w, J w → R (.ok a) s w → Q (.ok a) s w)
    (herr : ∀ e s w, J w → R (.error e) s w → wpM eff J Q (g e) s w) :
    wpM eff J Q (tryCatch p g) s w := by
  unfold wpM
  rw [ExceptT.run_tryCatch, StateT.run_bind]
  refine wp_bind (wp.post h fun r w hJ hR => ?_)
  rcases r with ⟨e | a, s'⟩
  · exact herr e s' w hJ hR
  · exact ⟨hJ, hok a s' w hJ hR⟩

end Mut

/-! ## Worlds that keep what was called -/

/-- A call that was made, and its answer. -/
abbrev Event (I : Interface) := (c : I.Call) × I.Answer c

/-- Calls whose effects are those of `eff`, in worlds that keep them. -/
def traced (eff : Effects I W) : Effects I (W × List (Event I)) :=
  fun c w x w' => eff c w.1 x w'.1 ∧ w'.2 = w.2 ++ [⟨c, x⟩]

/-- Answers worked out from the world, in worlds that keep the calls. -/
def tracing (oracle : (c : I.Call) → W → I.Answer c × W) (c : I.Call) (w : W × List (Event I)) :
    I.Answer c × (W × List (Event I)) :=
  ((oracle c w.1).1, (oracle c w.1).2, w.2 ++ [⟨c, (oracle c w.1).1⟩])

theorem tracing_effects {oracle : (c : I.Call) → W → I.Answer c × W}
    (h : ∀ c w, eff c w (oracle c w).1 (oracle c w).2) (c : I.Call) (w : W × List (Event I)) :
    traced eff c w (tracing oracle c w).1 (tracing oracle c w).2 :=
  ⟨h c w.1, rfl⟩

end Program
end AuroraVpn
