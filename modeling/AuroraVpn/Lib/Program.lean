import Mathlib.Control.Basic

/-!
# Program — programs over calls that the surroundings answer

A program makes calls one after another, each of which is answered, and ends in a result.  What an
answer may be, and what a call does to the world, is a relation (`Effects`).

* `runs_bind`, `runs_bind_except`: a run of one program after another, also where the first may fail.
* `runs_ask_bind`: a run of a program that starts with a call.
* `Reaches.invariant`: what every call keeps holds wherever a program is cut off.
* `outcome_bind`: a program whose calls have one answer each is a program without calls.

Nothing here depends on what the calls are.
-/

namespace AuroraVpn
namespace Program

/-- The calls a program may make, and the answers each of them may get. -/
structure Interface where
  Call : Type
  Answer : Call → Type

inductive Prog (I : Interface) (α : Type) : Type
  | done (result : α)
  | call (c : I.Call) (next : I.Answer c → Prog I α)

variable {I : Interface} {α β γ ε W : Type}

namespace Prog

def bind : Prog I α → (α → Prog I β) → Prog I β
  | .done a, f => f a
  | .call c next, f => .call c fun x => (next x).bind f

instance : Monad (Prog I) where
  pure := .done
  bind := Prog.bind

theorem bind_assoc (p : Prog I α) (f : α → Prog I β) (g : β → Prog I γ) :
    (p.bind f).bind g = p.bind fun a => (f a).bind g := by
  induction p with
  | done a => rfl
  | call c next ih => simp [Prog.bind, ih]

theorem bind_done (p : Prog I α) : p.bind .done = p := by
  induction p with
  | done a => rfl
  | call c next ih => simp [Prog.bind, ih]

instance : LawfulMonad (Prog I) :=
  LawfulMonad.mk' _ bind_done (fun _ _ => rfl) bind_assoc

/-- Makes one call and ends in its answer. -/
def perform (c : I.Call) : Prog I (I.Answer c) :=
  .call c .done

end Prog

/-- A program that may fail. -/
abbrev Task (I : Interface) (ε α : Type) := ExceptT ε (Prog I) α

/-- Makes one call and ends in its answer. -/
def ask (c : I.Call) : Task I ε (I.Answer c) :=
  ExceptT.lift (Prog.perform c)

/-- A program that may fail and works on a value of its own, which a failure leaves as it is. -/
abbrev Mut (I : Interface) (σ ε α : Type) := ExceptT ε (StateT σ (Prog I)) α

/-- A program that may fail, where there is a value that it does not touch. -/
def plain {σ : Type} (p : Task I ε α) : Mut I σ ε α :=
  ExceptT.mk (StateT.lift p.run)

/-- What a call may be answered in a world, and the world it leaves. -/
abbrev Effects (I : Interface) (W : Type) := (c : I.Call) → W → I.Answer c → W → Prop

variable {eff : Effects I W}

/-- A run of a program to its end. -/
inductive Runs (eff : Effects I W) : W → Prog I α → α → W → Prop
  | done (w : W) (a : α) : Runs eff w (.done a) a w
  | call {w w' w'' : W} {c : I.Call} {next : I.Answer c → Prog I α} {x : I.Answer c} {a : α}
      (hc : eff c w x w') (h : Runs eff w' (next x) a w'') : Runs eff w (.call c next) a w''

/-- What is left of a program that was cut off somewhere, and the world by then. -/
inductive Reaches (eff : Effects I W) : W → Prog I α → W → Prog I α → Prop
  | here (w : W) (p : Prog I α) : Reaches eff w p w p
  | call {w w' w'' : W} {c : I.Call} {next : I.Answer c → Prog I α} {x : I.Answer c}
      {q : Prog I α} (hc : eff c w x w') (h : Reaches eff w' (next x) w'' q) :
      Reaches eff w (.call c next) w'' q

section Runs

variable {w w' : W} {p : Prog I α} {f : α → Prog I β} {a : α} {b : β}

@[simp] theorem runs_done : Runs eff w (.done a : Prog I α) a w :=
  .done w a

theorem runs_done_iff {a' : α} : Runs eff w (.done a) a' w' ↔ a' = a ∧ w' = w := by
  constructor
  · rintro ⟨⟩
    exact ⟨rfl, rfl⟩
  · rintro ⟨rfl, rfl⟩
    exact .done _ _

theorem runs_pure_iff {a' : α} : Runs eff w (pure a : Prog I α) a' w' ↔ a' = a ∧ w' = w :=
  runs_done_iff

theorem runs_call_iff {c : I.Call} {next : I.Answer c → Prog I α} :
    Runs eff w (.call c next) a w' ↔ ∃ x w₁, eff c w x w₁ ∧ Runs eff w₁ (next x) a w' := by
  constructor
  · rintro (_ | ⟨hc, h⟩)
    exact ⟨_, _, hc, h⟩
  · rintro ⟨x, w₁, hc, h⟩
    exact .call hc h

/-- **One program after another.** -/
theorem runs_bind : Runs eff w (p >>= f) b w' ↔
    ∃ a w₁, Runs eff w p a w₁ ∧ Runs eff w₁ (f a) b w' := by
  constructor
  · intro h
    change Runs eff w (p.bind f) b w' at h
    induction p generalizing w with
    | done a => exact ⟨a, w, .done _ _, h⟩
    | call c next ih =>
        obtain ⟨x, w₁, hc, hrest⟩ := runs_call_iff.1 h
        obtain ⟨a, w₂, hfirst, hsecond⟩ := ih x hrest
        exact ⟨a, w₂, .call hc hfirst, hsecond⟩
  · rintro ⟨a, w₁, hfirst, hsecond⟩
    change Runs eff w (p.bind f) b w'
    induction hfirst with
    | done w a => exact hsecond
    | call hc _ ih => exact .call hc (ih hsecond)

end Runs

/-! ## Programs that may fail -/

section Task

variable {w w' : W} {p : Task I ε α} {f : α → Task I ε β} {r : Except ε β}

theorem runs_ok_iff {a : α} {r : Except ε α} :
    Runs eff w (pure a : Task I ε α).run r w' ↔ r = .ok a ∧ w' = w :=
  runs_done_iff

theorem runs_throw_iff {e : ε} {r : Except ε α} :
    Runs eff w (throw e : Task I ε α).run r w' ↔ r = .error e ∧ w' = w :=
  runs_done_iff

theorem runs_ask_iff {c : I.Call} {r : Except ε (I.Answer c)} :
    Runs eff w (ask c : Task I ε (I.Answer c)).run r w' ↔ ∃ x, eff c w x w' ∧ r = .ok x := by
  constructor
  · intro h
    obtain ⟨x, w₁, hc, hdone⟩ := runs_call_iff.1 h
    obtain ⟨rfl, rfl⟩ := runs_done_iff.1 hdone
    exact ⟨x, hc, rfl⟩
  · rintro ⟨x, hc, rfl⟩
    exact .call hc (.done _ _)

/-- **One program after another that may fail.** -/
theorem runs_bind_except : Runs eff w (p >>= f : Task I ε β).run r w' ↔
    (∃ e, Runs eff w p.run (.error e) w' ∧ r = .error e) ∨
      ∃ a w₁, Runs eff w p.run (.ok a) w₁ ∧ Runs eff w₁ (f a).run r w' := by
  rw [ExceptT.run_bind, runs_bind]
  constructor
  · rintro ⟨e | a, w₁, hfirst, hsecond⟩
    · obtain ⟨rfl, rfl⟩ := runs_pure_iff.1 hsecond
      exact .inl ⟨e, hfirst, rfl⟩
    · exact .inr ⟨a, w₁, hfirst, hsecond⟩
  · rintro (⟨e, hfirst, rfl⟩ | ⟨a, w₁, hfirst, hsecond⟩)
    · exact ⟨.error e, w', hfirst, .done _ _⟩
    · exact ⟨.ok a, w₁, hfirst, hsecond⟩

/-- A call in front of a program that may fail. -/
theorem runs_ask_bind {c : I.Call} {f : I.Answer c → Task I ε β} :
    Runs eff w (ask c >>= f : Task I ε β).run r w' ↔
      ∃ x w₁, eff c w x w₁ ∧ Runs eff w₁ (f x).run r w' := by
  rw [runs_bind_except]
  constructor
  · rintro (⟨e, hfirst, -⟩ | ⟨x, w₁, hfirst, hsecond⟩)
    · obtain ⟨x, -, h⟩ := runs_ask_iff.1 hfirst
      cases h
    · obtain ⟨x', hc, h⟩ := runs_ask_iff.1 hfirst
      cases h
      exact ⟨x, w₁, hc, hsecond⟩
  · rintro ⟨x, w₁, hc, hsecond⟩
    exact .inr ⟨x, w₁, runs_ask_iff.2 ⟨x, hc, rfl⟩, hsecond⟩

theorem runs_mk_pure_iff {x r : Except ε α} :
    Runs eff w (ExceptT.mk (pure x) : Task I ε α).run r w' ↔ r = x ∧ w' = w :=
  runs_done_iff

/-- **A program, and what is done about its error.** -/
theorem runs_tryCatch {p : Task I ε α} {g : ε → Task I ε α} {r : Except ε α} :
    Runs eff w (tryCatch p g : Task I ε α).run r w' ↔
      (∃ a, Runs eff w p.run (.ok a) w' ∧ r = .ok a) ∨
        ∃ e w₁, Runs eff w p.run (.error e) w₁ ∧ Runs eff w₁ (g e).run r w' := by
  rw [ExceptT.run_tryCatch, runs_bind]
  constructor
  · rintro ⟨e | a, w₁, hfirst, hsecond⟩
    · exact .inr ⟨e, w₁, hfirst, hsecond⟩
    · obtain ⟨rfl, rfl⟩ := runs_pure_iff.1 hsecond
      exact .inl ⟨a, hfirst, rfl⟩
  · rintro (⟨a, hfirst, rfl⟩ | ⟨e, w₁, hfirst, hsecond⟩)
    · exact ⟨.ok a, w', hfirst, .done _ _⟩
    · exact ⟨.error e, w₁, hfirst, hsecond⟩

end Task

/-! ## Programs with a value of their own -/

/-- A run of a program from one value to another. -/
def RunsM {σ : Type} (eff : Effects I W) (w : W) (s : σ) (p : Mut I σ ε α) (r : Except ε α)
    (w' : W) (s' : σ) : Prop :=
  Runs eff w (p.run.run s) (r, s') w'

section Mut

variable {σ : Type} {w w' : W} {s s' : σ} {p : Mut I σ ε α} {f : α → Mut I σ ε β}

theorem runsM_pure_iff {a : α} {r : Except ε α} :
    RunsM eff w s (pure a : Mut I σ ε α) r w' s' ↔ r = .ok a ∧ w' = w ∧ s' = s := by
  refine Iff.trans runs_done_iff ?_
  rw [Prod.mk.injEq, and_assoc, and_comm (a := s' = s)]

theorem runsM_throw_iff {e : ε} {r : Except ε α} :
    RunsM eff w s (throw e : Mut I σ ε α) r w' s' ↔ r = .error e ∧ w' = w ∧ s' = s := by
  refine Iff.trans runs_done_iff ?_
  rw [Prod.mk.injEq, and_assoc, and_comm (a := s' = s)]

theorem runsM_plain_iff {p : Task I ε α} {r : Except ε α} :
    RunsM eff w s (plain p : Mut I σ ε α) r w' s' ↔ Runs eff w p.run r w' ∧ s' = s := by
  change Runs eff w (p.run >>= fun a => pure (a, s)) (r, s') w' ↔ _
  rw [runs_bind]
  constructor
  · rintro ⟨x, w₁, hfirst, hsecond⟩
    obtain ⟨hx, rfl⟩ := runs_pure_iff.1 hsecond
    cases hx
    exact ⟨hfirst, rfl⟩
  · rintro ⟨hfirst, rfl⟩
    exact ⟨r, w', hfirst, .done _ _⟩

theorem runsM_bind {r : Except ε β} : RunsM eff w s (p >>= f) r w' s' ↔
    (∃ e, RunsM eff w s p (.error e) w' s' ∧ r = .error e) ∨
      ∃ a w₁ s₁, RunsM eff w s p (.ok a) w₁ s₁ ∧ RunsM eff w₁ s₁ (f a) r w' s' := by
  unfold RunsM
  rw [ExceptT.run_bind, StateT.run_bind, runs_bind]
  constructor
  · rintro ⟨⟨e | a, s₁⟩, w₁, hfirst, hsecond⟩
    · obtain ⟨hr, rfl⟩ := runs_pure_iff.1 hsecond
      cases hr
      exact .inl ⟨e, hfirst, rfl⟩
    · exact .inr ⟨a, w₁, s₁, hfirst, hsecond⟩
  · rintro (⟨e, hfirst, rfl⟩ | ⟨a, w₁, s₁, hfirst, hsecond⟩)
    · exact ⟨(.error e, s'), w', hfirst, .done _ _⟩
    · exact ⟨(.ok a, s₁), w₁, hfirst, hsecond⟩

theorem runsM_get_bind {f : σ → Mut I σ ε β} {r : Except ε β} :
    RunsM eff w s (get >>= f : Mut I σ ε β) r w' s' ↔ RunsM eff w s (f s) r w' s' :=
  Iff.rfl

theorem runsM_modify_bind {g : σ → σ} {f : PUnit → Mut I σ ε β} {r : Except ε β} :
    RunsM eff w s (modify g >>= f : Mut I σ ε β) r w' s' ↔ RunsM eff w (g s) (f ⟨⟩) r w' s' :=
  Iff.rfl

/-- A program that does not touch the value, in front of one that may. -/
theorem runsM_plain_bind {p : Task I ε α} {r : Except ε β} :
    RunsM eff w s (plain p >>= f) r w' s' ↔
      (∃ e, Runs eff w p.run (.error e) w' ∧ r = .error e ∧ s' = s) ∨
        ∃ a w₁, Runs eff w p.run (.ok a) w₁ ∧ RunsM eff w₁ s (f a) r w' s' := by
  rw [runsM_bind]
  constructor
  · rintro (⟨e, h, rfl⟩ | ⟨a, w₁, s₁, h, hrest⟩)
    · obtain ⟨hrun, rfl⟩ := runsM_plain_iff.1 h
      exact .inl ⟨e, hrun, rfl, rfl⟩
    · obtain ⟨hrun, rfl⟩ := runsM_plain_iff.1 h
      exact .inr ⟨a, w₁, hrun, hrest⟩
  · rintro (⟨e, hrun, rfl, rfl⟩ | ⟨a, w₁, hrun, hrest⟩)
    · exact .inl ⟨e, runsM_plain_iff.2 ⟨hrun, rfl⟩, rfl⟩
    · exact .inr ⟨a, w₁, s, runsM_plain_iff.2 ⟨hrun, rfl⟩, hrest⟩

/-- A failure leaves the value as it is by then. -/
theorem runsM_tryCatch {g : ε → Mut I σ ε α} {r : Except ε α} :
    RunsM eff w s (tryCatch p g) r w' s' ↔
      (∃ a, RunsM eff w s p (.ok a) w' s' ∧ r = .ok a) ∨
        ∃ e w₁ s₁, RunsM eff w s p (.error e) w₁ s₁ ∧ RunsM eff w₁ s₁ (g e) r w' s' := by
  unfold RunsM
  rw [ExceptT.run_tryCatch, StateT.run_bind, runs_bind]
  constructor
  · rintro ⟨⟨e | a, s₁⟩, w₁, hfirst, hsecond⟩
    · exact .inr ⟨e, w₁, s₁, hfirst, hsecond⟩
    · obtain ⟨hr, rfl⟩ := runs_pure_iff.1 hsecond
      cases hr
      exact .inl ⟨a, hfirst, rfl⟩
  · rintro (⟨a, hfirst, rfl⟩ | ⟨e, w₁, s₁, hfirst, hsecond⟩)
    · exact ⟨(.ok a, s'), w', hfirst, .done _ _⟩
    · exact ⟨(.error e, s₁), w₁, hfirst, hsecond⟩

end Mut

section Reaches

variable {w w' : W} {p : Prog I α} {f : α → Prog I β}

theorem Runs.reaches {a : α} (h : Runs eff w p a w') : Reaches eff w p w' (.done a) := by
  induction h with
  | done w a => exact .here _ _
  | call hc _ ih => exact .call hc ih

end Reaches

/-! ## The calls a program uses -/

/-- Every call that a program may come to make meets `allowed`. -/
def Uses (allowed : I.Call → Prop) : Prog I α → Prop
  | .done _ => True
  | .call c next => allowed c ∧ ∀ x, Uses allowed (next x)

section Uses

variable {allowed : I.Call → Prop}

theorem Uses.bind {p : Prog I α} {f : α → Prog I β} (hp : Uses allowed p)
    (hf : ∀ a, Uses allowed (f a)) : Uses allowed (p >>= f) := by
  change Uses allowed (p.bind f)
  induction p with
  | done a => exact hf a
  | call c next ih => exact ⟨hp.1, fun x => ih x (hp.2 x)⟩

theorem uses_ask {c : I.Call} (h : allowed c) :
    Uses allowed (ask c : Task I ε (I.Answer c)).run :=
  ⟨h, fun _ => trivial⟩

theorem uses_ok (r : Except ε α) : Uses allowed (ExceptT.mk (pure r) : Task I ε α).run :=
  trivial

theorem Uses.bind_except {p : Task I ε α} {f : α → Task I ε β} (hp : Uses allowed p.run)
    (hf : ∀ a, Uses allowed (f a).run) : Uses allowed (p >>= f : Task I ε β).run := by
  rw [ExceptT.run_bind]
  refine hp.bind fun r => ?_
  cases r with
  | error e => exact trivial
  | ok a => exact hf a

theorem Uses.tryCatch {p : Task I ε α} {g : ε → Task I ε α} (hp : Uses allowed p.run)
    (hg : ∀ e, Uses allowed (g e).run) : Uses allowed (tryCatch p g : Task I ε α).run := by
  rw [ExceptT.run_tryCatch]
  refine hp.bind fun r => ?_
  cases r with
  | error e => exact hg e
  | ok a => exact trivial

theorem uses_all (p : Prog I α) : Uses (fun _ => True) p := by
  induction p with
  | done a => exact trivial
  | call c next ih => exact ⟨trivial, ih⟩

theorem Uses.mono {allowed' : I.Call → Prop} {p : Prog I α} (hp : Uses allowed p)
    (h : ∀ c, allowed c → allowed' c) : Uses allowed' p := by
  induction p with
  | done a => exact trivial
  | call c next ih => exact ⟨h c hp.1, fun x => ih x (hp.2 x)⟩

/-- What a program uses that works on a value, whatever the value is. -/
def UsesM {σ : Type} (allowed : I.Call → Prop) (p : Mut I σ ε α) : Prop :=
  ∀ s, Uses allowed (p.run.run s)

section UsesM

variable {σ : Type} {p : Mut I σ ε α} {f : α → Mut I σ ε β}

theorem usesM_pure (a : α) : UsesM allowed (pure a : Mut I σ ε α) :=
  fun _ => trivial

theorem usesM_plain {p : Task I ε α} (hp : Uses allowed p.run) :
    UsesM allowed (plain p : Mut I σ ε α) :=
  fun _ => hp.bind fun _ => trivial

theorem usesM_modify (g : σ → σ) : UsesM allowed (modify g : Mut I σ ε PUnit) :=
  fun _ => trivial

theorem usesM_get_bind {f : σ → Mut I σ ε β} (hf : ∀ s, UsesM allowed (f s)) :
    UsesM allowed (get >>= f : Mut I σ ε β) :=
  fun s => hf s s

theorem UsesM.bind (hp : UsesM allowed p) (hf : ∀ a, UsesM allowed (f a)) :
    UsesM allowed (p >>= f) := by
  intro s
  rw [ExceptT.run_bind, StateT.run_bind]
  refine (hp s).bind fun r => ?_
  rcases r with ⟨e | a, s'⟩
  · exact trivial
  · exact hf a s'

end UsesM

/-- **What the calls of a program keep, its runs keep.** -/
theorem Uses.keeps {P : W → W → Prop} (hrefl : ∀ w, P w w)
    (htrans : ∀ {w w' w''}, P w w' → P w' w'' → P w w'')
    (hcall : ∀ c w x w', allowed c → eff c w x w' → P w w') {p : Prog I α}
    (hp : Uses allowed p) {w w' : W} {a : α} (h : Runs eff w p a w') : P w w' := by
  induction h with
  | done w a => exact hrefl w
  | call hc _ ih => exact htrans (hcall _ _ _ _ hp.1 hc) (ih (hp.2 _))

end Uses

/-! ## Running where every call has one answer -/

/-- What becomes of a program where a call is answered the same whenever it is made. -/
def Prog.under (answers : (c : I.Call) → I.Answer c) : Prog I α → α
  | .done a => a
  | .call c next => (next (answers c)).under answers

/-- What becomes of a program that may fail. -/
def outcome (answers : (c : I.Call) → I.Answer c) (p : Task I ε α) : Except ε α :=
  p.run.under answers

section Under

variable {answers : (c : I.Call) → I.Answer c}

theorem under_bind (p : Prog I α) (f : α → Prog I β) :
    (p >>= f).under answers = (f (p.under answers)).under answers := by
  change (p.bind f).under answers = _
  induction p with
  | done a => rfl
  | call c next ih => exact ih _

@[simp] theorem outcome_pure (a : α) : outcome answers (pure a : Task I ε α) = .ok a :=
  rfl

@[simp] theorem outcome_throw (e : ε) : outcome answers (throw e : Task I ε α) = .error e :=
  rfl

@[simp] theorem outcome_ask (c : I.Call) :
    outcome answers (ask c : Task I ε (I.Answer c)) = .ok (answers c) :=
  rfl

/-- **One program after another**, as in a language that has no calls. -/
@[simp] theorem outcome_bind (p : Task I ε α) (f : α → Task I ε β) :
    outcome answers (p >>= f) = (outcome answers p).bind fun a => outcome answers (f a) := by
  unfold outcome
  rw [ExceptT.run_bind, under_bind]
  cases p.run.under answers with
  | error e => rfl
  | ok a => rfl

@[simp] theorem outcome_map (p : Task I ε α) (f : α → β) :
    outcome answers (f <$> p) = (outcome answers p).map f := by
  rw [← bind_pure_comp, outcome_bind]
  cases outcome answers p with
  | error e => rfl
  | ok a => rfl

theorem outcome_bind_ok {p : Task I ε α} {f : α → Task I ε β} {b : β} :
    outcome answers (p >>= f) = .ok b ↔
      ∃ a, outcome answers p = .ok a ∧ outcome answers (f a) = .ok b := by
  rw [outcome_bind]
  cases outcome answers p with
  | error e => exact iff_of_false nofun fun ⟨a, h, _⟩ => by cases h
  | ok a => exact ⟨fun h => ⟨a, rfl, h⟩, fun ⟨a', h, hb⟩ => by cases h; exact hb⟩

/-- The calls that a program makes. -/
def Prog.calls (answers : (c : I.Call) → I.Answer c) : Prog I α → List I.Call
  | .done _ => []
  | .call c next => c :: (next (answers c)).calls answers

def made (answers : (c : I.Call) → I.Answer c) (p : Task I ε α) : List I.Call :=
  p.run.calls answers

theorem calls_bind (p : Prog I α) (f : α → Prog I β) :
    (p >>= f).calls answers = p.calls answers ++ (f (p.under answers)).calls answers := by
  change (p.bind f).calls answers = _
  induction p with
  | done a => rfl
  | call c next ih => exact congrArg (c :: ·) (ih _)

@[simp] theorem made_pure (a : α) : made answers (pure a : Task I ε α) = [] :=
  rfl

@[simp] theorem made_throw (e : ε) : made answers (throw e : Task I ε α) = [] :=
  rfl

@[simp] theorem made_ask (c : I.Call) : made answers (ask c : Task I ε (I.Answer c)) = [c] :=
  rfl

/-- **What one program after another asks.** -/
@[simp] theorem mem_made_bind {c : I.Call} (p : Task I ε α) (f : α → Task I ε β) :
    c ∈ made answers (p >>= f) ↔
      c ∈ made answers p ∨ ∃ a, outcome answers p = .ok a ∧ c ∈ made answers (f a) := by
  unfold made outcome
  rw [ExceptT.run_bind, calls_bind, List.mem_append]
  refine or_congr_right ?_
  cases p.run.under answers with
  | error e => exact ⟨fun h => (List.not_mem_nil h).elim, fun ⟨a, h, _⟩ => by cases h⟩
  | ok a => exact ⟨fun h => ⟨a, rfl, h⟩, fun ⟨b, h, hc⟩ => by cases h; exact hc⟩

theorem made_bind_left {c : I.Call} {p : Task I ε α} {f : α → Task I ε β}
    (h : c ∈ made answers p) : c ∈ made answers (p >>= f) :=
  (mem_made_bind p f).2 (.inl h)

theorem made_bind_right {c : I.Call} {p : Task I ε α} {f : α → Task I ε β} {a : α}
    (hp : outcome answers p = .ok a) (h : c ∈ made answers (f a)) : c ∈ made answers (p >>= f) :=
  (mem_made_bind p f).2 (.inr ⟨a, hp, h⟩)

@[simp] theorem mem_made_map {c : I.Call} (p : Task I ε α) (f : α → β) :
    c ∈ made answers (f <$> p) ↔ c ∈ made answers p := by
  rw [← bind_pure_comp, mem_made_bind]
  exact or_iff_left fun ⟨_, _, h⟩ => List.not_mem_nil h

@[simp] theorem outcome_tryCatch (p : Task I ε α) (g : ε → Task I ε α) :
    outcome answers (tryCatch p g) =
      match outcome answers p with
      | .ok a => .ok a
      | .error e => outcome answers (g e) := by
  unfold outcome
  rw [ExceptT.run_tryCatch, under_bind]
  cases p.run.under answers with
  | error e => rfl
  | ok a => rfl

end Under

/-! ## Running against given answers -/

/-- Runs a program with answers that are worked out from the world. -/
def Prog.exec (oracle : (c : I.Call) → W → I.Answer c × W) : Prog I α → W → α × W
  | .done a, w => (a, w)
  | .call c next, w => (next (oracle c w).1).exec oracle (oracle c w).2

theorem exec_runs {oracle : (c : I.Call) → W → I.Answer c × W}
    (h : ∀ c w, eff c w (oracle c w).1 (oracle c w).2) (p : Prog I α) (w : W) :
    Runs eff w p (p.exec oracle w).1 (p.exec oracle w).2 := by
  induction p generalizing w with
  | done a => exact .done w a
  | call c next ih => exact .call (h c w) (ih _ _)

end Program
end AuroraVpn
