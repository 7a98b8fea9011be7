import Mathlib.Data.List.Induction
import Mathlib.Logic.Function.Basic

/-!
# EventLoop — a loop that takes events until one of them makes it return

A turn of the loop reads one input and either goes on in a new state or returns.  `drive` goes
through a list of inputs; what stands behind the input at which it returns is never read.

* `drive_history`: what relates the inputs read so far to the state, at the start and after every
  turn that goes on, does so as long as the loop is running.
* `await_eq_exited`: the wait for a signal that the loop raises along the way, cut short by its end.
* `await_unjustified`: such an end, where nobody has asked for it.
-/

namespace AuroraVpn
namespace EventLoop

inductive Outcome (S R : Type)
  | running (s : S)
  | returned (s : S) (r : R)

/-- The state a turn leaves, whether the loop goes on from it or returns in it. -/
def Outcome.state {S R : Type} : Outcome S R → S
  | .running s => s
  | .returned s _ => s

section Drive

variable {S T R : Type} {turn : T → S → Outcome S R} {s₀ s s' : S} {r : R}

def drive (turn : T → S → Outcome S R) : List T → S → Outcome S R
  | [], s => .running s
  | t :: ts, s =>
      match turn t s with
      | .running s' => drive turn ts s'
      | .returned s' r => .returned s' r

theorem drive_cons_running {t : T} (h : turn t s = .running s') (ts : List T) :
    drive turn (t :: ts) s = drive turn ts s' := by
  simp only [drive, h]

/-- The loop was running before its last turn. -/
theorem drive_concat_running {ts : List T} {t : T} (h : drive turn (ts ++ [t]) s₀ = .running s') :
    ∃ s, drive turn ts s₀ = .running s ∧ turn t s = .running s' := by
  induction ts generalizing s₀ with
  | nil =>
      cases ht : turn t s₀ with
      | running s₁ =>
          simp only [List.nil_append, drive, ht, Outcome.running.injEq] at h
          exact ⟨s₀, rfl, h ▸ ht⟩
      | returned s₁ r₁ => simp [drive, ht] at h
  | cons u ts ih =>
      cases hu : turn u s₀ with
      | running s₁ =>
          rw [List.cons_append, drive_cons_running hu] at h
          obtain ⟨s, hdrive, hturn⟩ := ih h
          exact ⟨s, by rw [drive_cons_running hu, hdrive], hturn⟩
      | returned s₁ r₁ => simp [drive, hu] at h

/-- **A relation between the inputs read so far and the state.** -/
theorem drive_history {I : List T → S → Prop} (hinit : I [] s₀)
    (hstep : ∀ before t s s', I before s → turn t s = .running s' → I (before ++ [t]) s')
    {ts : List T} (h : drive turn ts s₀ = .running s) : I ts s := by
  induction ts using List.reverseRecOn generalizing s with
  | nil =>
      cases h
      exact hinit
  | append_singleton ts t ih =>
      obtain ⟨s₁, hdrive, hturn⟩ := drive_concat_running h
      exact hstep ts t s₁ s (ih hdrive) hturn

end Drive

/-! ## Waiting for a signal -/

/-- How the wait for a signal of a loop ends: the signal, the end of the loop, or neither within
the inputs there is time for. -/
inductive Await (R : Type)
  | ready
  | exited (r : R)
  | timedOut

def Await.map {R R' : Type} (f : R → R') : Await R → Await R'
  | .ready => .ready
  | .exited r => .exited (f r)
  | .timedOut => .timedOut

theorem Await.map_eq_exited {R R' : Type} {f : R → R'} (hf : f.Injective) {a : Await R} {r : R} :
    a.map f = .exited (f r) ↔ a = .exited r := by
  cases a with
  | exited r' => simp [Await.map, hf.eq_iff]
  | ready => simp [Await.map]
  | timedOut => simp [Await.map]

section Await

variable {S T R : Type} {turn : T → S → Outcome S R} {ready : S → Bool} {s₀ s : S} {r : R}

/-- A signal raised in the turn that returns still arrives. -/
def await (turn : T → S → Outcome S R) (ready : S → Bool) : List T → S → Await R
  | [], s => if ready s then .ready else .timedOut
  | t :: ts, s =>
      if ready s then
        .ready
      else
        match turn t s with
        | .running s' => await turn ready ts s'
        | .returned s' r => if ready s' then .ready else .exited r

/-- **The loop exited before the signal**, where no turn takes the signal back. -/
theorem await_eq_exited (hkeeps : ∀ t s, ready s = true → ready (turn t s).state = true)
    {ts : List T} :
    await turn ready ts s₀ = .exited r ↔
      ∃ before t after s s', ts = before ++ t :: after ∧ drive turn before s₀ = .running s ∧
        turn t s = .returned s' r ∧ ready s' = false := by
  induction ts generalizing s₀ with
  | nil =>
      constructor
      · intro h
        unfold await at h
        split_ifs at h
      · rintro ⟨before, t, after, s, s', hts, -⟩
        exact absurd hts (by simp)
  | cons t ts ih =>
      cases hready : ready s₀ with
      | true =>
          simp only [await, hready, if_true, reduceCtorEq, false_iff, not_exists]
          rintro before u after s s' ⟨-, hdrive, hturn, hs'⟩
          -- the signal was up before the first turn, and stayed up to the last
          have hs : ready s = true :=
            @drive_history S T R turn s₀ s (fun _ s => ready s = true) hready
              (fun _ t s s' hs ht => by have := hkeeps t s hs; rwa [ht] at this) before hdrive
          have hkept := hkeeps u s hs
          rw [hturn] at hkept
          exact Bool.noConfusion (hs'.symm.trans hkept)
      | false =>
          constructor
          · intro h
            cases ht : turn t s₀ with
            | running s₁ =>
                simp only [await, hready, ht] at h
                obtain ⟨before, u, after, s, s', rfl, hdrive, hturn, hs'⟩ := ih.1 h
                exact ⟨t :: before, u, after, s, s', rfl, by rw [drive_cons_running ht, hdrive],
                  hturn, hs'⟩
            | returned s₁ r₁ =>
                cases hs₁ : ready s₁ with
                | true => simp [await, hready, ht, hs₁] at h
                | false =>
                    simp only [await, hready, ht, hs₁, Bool.false_eq_true, if_false,
                      Await.exited.injEq] at h
                    exact ⟨[], t, ts, s₀, s₁, rfl, rfl, h ▸ ht, hs₁⟩
          · rintro ⟨before, u, after, s, s', hts, hdrive, hturn, hs'⟩
            cases before with
            | nil =>
                obtain ⟨rfl, rfl⟩ := List.cons.inj hts
                cases hdrive
                simp [await, hready, hturn, hs']
            | cons v before =>
                obtain ⟨rfl, rfl⟩ := List.cons.inj hts
                cases ht : turn t s₀ with
                | running s₁ =>
                    rw [drive_cons_running ht] at hdrive
                    simp only [await, hready, ht]
                    exact ih.2 ⟨before, u, after, s, s', rfl, hdrive, hturn, hs'⟩
                | returned s₁ r₁ => simp [drive, ht] at hdrive

/-- A loop that is left before the signal, though nothing has asked it to end, has ended without a
reason. -/
theorem await_unjustified (hkeeps : ∀ t s, ready s = true → ready (turn t s).state = true)
    {asks : T → Bool} {ts : List T} (held : ts.any asks = false) :
    await turn ready ts s₀ = .exited r ↔
      ¬ ∀ before t after s s', ts = before ++ t :: after → drive turn before s₀ = .running s →
        turn t s = .returned s' r → ready s' = true ∨ (before ++ [t]).any asks = true := by
  rw [await_eq_exited hkeeps]
  constructor
  · rintro ⟨before, t, after, s, s', hts, hdrive, hturn, hready⟩ honest
    rcases honest before t after s s' hts hdrive hturn with h | h
    · exact Bool.noConfusion (hready.symm.trans h)
    · rw [hts, List.append_cons, List.any_append, h] at held
      cases held
  · intro dishonest
    by_contra hnone
    refine dishonest fun before t after s s' hts hdrive hturn => .inl ?_
    by_contra hready
    exact hnone ⟨before, t, after, s, s', hts, hdrive, hturn, Bool.eq_false_iff.2 hready⟩

end Await

end EventLoop
end AuroraVpn
