import Mathlib.Data.Vector.Basic

/-!
# Conversation — one side of a byte-stream protocol

A conversation reads an exact number of bytes, writes bytes, and ends in a result or an error.  It
is run against a source of input and a peer that takes only so many bytes before its end of the
connection is gone.

* `run_bind`: running one conversation after another.
* `run_refines`: two sources in step give runs in step, so what a conversation does over a list of
  chunks is what it does over their concatenation (`run_chunks`).

Nothing here depends on what is said.
-/

namespace AuroraVpn
namespace Conversation

/-- One side of a conversation, as the sequence of its calls on the socket. -/
inductive Talk (β ε α : Type) where
  | done (result : Except ε α)
  | read (n : Nat) (next : List.Vector β n → Talk β ε α)
  | write (bytes : List β) (next : Talk β ε α)

namespace Talk

variable {β ε α γ : Type}

def bind : Talk β ε α → (α → Talk β ε γ) → Talk β ε γ
  | .done (.ok a), f => f a
  | .done (.error e), _ => .done (.error e)
  | .read n next, f => .read n (fun v => (next v).bind f)
  | .write bytes next, f => .write bytes (next.bind f)

instance : Monad (Talk β ε) where
  pure a := .done (.ok a)
  bind := Talk.bind

theorem bind_assoc {δ : Type} (t : Talk β ε α) (f : α → Talk β ε γ) (g : γ → Talk β ε δ) :
    (t.bind f).bind g = t.bind (fun a => (f a).bind g) := by
  induction t with
  | done result =>
      cases result with
      | ok a => rfl
      | error e => rfl
  | read n next ih => simp [Talk.bind, ih]
  | write bytes next ih => simp [Talk.bind, ih]

theorem bind_pure (t : Talk β ε α) : t.bind (fun a => .done (.ok a)) = t := by
  induction t with
  | done result =>
      cases result with
      | ok a => rfl
      | error e => rfl
  | read n next ih => simp [Talk.bind, ih]
  | write bytes next ih => simp [Talk.bind, ih]

instance : LawfulMonad (Talk β ε) :=
  LawfulMonad.mk' _ bind_pure (fun _ _ => rfl) bind_assoc

/-- Ends the conversation with an error. -/
def fail (e : ε) : Talk β ε α :=
  .done (.error e)

/-- Reads exactly `n` bytes. -/
def readExact (n : Nat) : Talk β ε (List.Vector β n) :=
  .read n pure

/-- Writes all of `bytes`. -/
def writeAll (bytes : List β) : Talk β ε Unit :=
  .write bytes (pure ())

end Talk

/-! ## Input -/

/-- Where a conversation reads from: the next `n` items, or `none` when the input ends first. -/
structure Source (β σ : Type) where
  next : (n : Nat) → σ → Option (List.Vector β n × σ)
  ended : σ

section Source

variable {β : Type}

/-- A list of the length asked for. -/
def ofList {n : Nat} (l : List β) (h : l.length = n) : List.Vector β n :=
  ⟨l, h⟩

@[simp] theorem toList_ofList {n : Nat} (l : List β) (h : l.length = n) : (ofList l h).toList = l :=
  rfl

@[simp] theorem get_ofList {n : Nat} (l : List β) (h : l.length = n) (i : Fin n) :
    (ofList l h).get i = l.get (i.cast h.symm) :=
  rfl

/-- Input that has arrived as one string. -/
def stream : Source β (List β) where
  next n s := if h : n ≤ s.length then some (ofList (s.take n) (by simp [h]), s.drop n) else none
  ended := []

/-- The first `n` items of a list of chunks, or all there are, and the chunks left. -/
def pull : Nat → List (List β) → List β × List (List β)
  | _, [] => ([], [])
  | n, c :: cs =>
      if n ≤ c.length then
        (c.take n, c.drop n :: cs)
      else
        (c ++ (pull (n - c.length) cs).1, (pull (n - c.length) cs).2)

/-- Input that arrives in chunks, each of which a read may cut or run past. -/
def chunks : Source β (List (List β)) where
  next n cs :=
    if h : (pull n cs).1.length = n then some (ofList (pull n cs).1 h, (pull n cs).2) else none
  ended := []

theorem pull_flatten (n : Nat) (cs : List (List β)) :
    (pull n cs).1 = cs.flatten.take n ∧ (pull n cs).2.flatten = cs.flatten.drop n := by
  induction cs generalizing n with
  | nil => simp [pull]
  | cons c cs ih =>
      by_cases hn : n ≤ c.length
      · simp [pull, hn, List.take_append_of_le_length, List.drop_append_of_le_length]
      · have hc : c.length ≤ n := by omega
        obtain ⟨htake, hdrop⟩ := ih (n - c.length)
        simp [pull, hn, htake, hdrop, List.take_append, List.drop_append,
          List.take_of_length_le hc, List.drop_eq_nil_of_le hc]

theorem stream_next_append {n : Nat} (v : List.Vector β n) (rest : List β) :
    stream.next n (v.toList ++ rest) = some (v, rest) := by
  obtain ⟨l, rfl⟩ := v
  change (stream (β := β)).next l.length (l ++ rest) = some (ofList l rfl, rest)
  have htake : (l ++ rest).take l.length = l := by simp
  have hdrop : (l ++ rest).drop l.length = rest := by simp
  simp [stream, htake, hdrop]

theorem stream_next_eq_some {n : Nat} {s rest : List β} {v : List.Vector β n} :
    stream.next n s = some (v, rest) ↔ s = v.toList ++ rest := by
  constructor
  · intro h
    have hn : n ≤ s.length := by
      by_contra hlt
      simp [stream, hlt] at h
    simp only [stream, hn, dif_pos, Option.some.injEq] at h
    obtain ⟨rfl, rfl⟩ := h
    exact (List.take_append_drop n s).symm
  · rintro rfl
    exact stream_next_append v rest

theorem stream_next_eq_none {n : Nat} {s : List β} :
    stream.next n s = none ↔ s.length < n := by
  simp [stream]

/-- Reading from two sources in step gives the same items, and sources in step. -/
structure InStep {σ τ : Type} (src : Source β σ) (src' : Source β τ) (R : σ → τ → Prop) : Prop where
  next_some : ∀ {n s s' v t}, R s s' → src.next n s = some (v, t) →
    ∃ t', src'.next n s' = some (v, t') ∧ R t t'
  next_none : ∀ {n s s'}, R s s' → src.next n s = none → src'.next n s' = none
  ended : R src.ended src'.ended

/-- **Chunks are in step with their concatenation.** -/
theorem chunks_inStep :
    InStep (β := β) chunks stream (fun cs s => cs.flatten = s) := by
  refine ⟨?_, ?_, rfl⟩
  · rintro n cs _ v cs' rfl h
    obtain ⟨htake, hdrop⟩ := pull_flatten n cs
    by_cases hlen : (pull n cs).1.length = n
    · simp only [chunks, hlen, dif_pos, Option.some.injEq] at h
      obtain ⟨rfl, rfl⟩ := h
      refine ⟨_, stream_next_eq_some.2 ?_, rfl⟩
      simp [htake, hdrop]
    · simp [chunks, hlen] at h
  · rintro n cs _ rfl h
    rw [stream_next_eq_none]
    obtain ⟨htake, -⟩ := pull_flatten n cs
    by_contra hlen
    have hfull : (pull n cs).1.length = n := by
      rw [htake, List.length_take]
      omega
    simp [chunks, hfull] at h

end Source

/-! ## Running a conversation -/

/-- The errors of a socket: the input ended inside a read, or the peer takes no more bytes. -/
structure Faults (ε : Type) where
  unexpectedEof : ε
  brokenPipe : ε

/-- What a conversation comes to: its result, what the peer was sent, and the input left. -/
structure Outcome (β ε σ α : Type) where
  result : Except ε α
  written : List β
  left : σ

variable {β ε σ τ α γ : Type}

theorem outcome_of_result {o : Outcome β ε σ α} {r : Except ε α} (h : o.result = r) :
    o = ⟨r, o.written, o.left⟩ := by
  rw [← h]

/-- Runs a conversation against a peer that takes `room` bytes. -/
def run (src : Source β σ) (faults : Faults ε) : Talk β ε α → σ → Nat → Outcome β ε σ α
  | .done result, s, _ => ⟨result, [], s⟩
  | .read n next, s, room =>
      match src.next n s with
      | some (v, s') => run src faults (next v) s' room
      | none => ⟨.error faults.unexpectedEof, [], src.ended⟩
  | .write bytes next, s, room =>
      if bytes.length ≤ room then
        { run src faults next s (room - bytes.length) with
          written := bytes ++ (run src faults next s (room - bytes.length)).written }
      else
        ⟨.error faults.brokenPipe, bytes.take room, s⟩

attribute [simp] Talk.bind run

section Run

variable {src : Source β σ} {faults : Faults ε} {s : σ} {room : Nat}

/-- What a conversation comes to when `f` is to follow it. -/
def Outcome.andThen (o : Outcome β ε σ α) (f : α → σ → Nat → Outcome β ε σ γ) (room : Nat) :
    Outcome β ε σ γ :=
  match o.result with
  | .ok a =>
      { f a o.left (room - o.written.length) with
        written := o.written ++ (f a o.left (room - o.written.length)).written }
  | .error e => ⟨.error e, o.written, o.left⟩

/-- **Running one conversation after another.** -/
theorem run_bind (t : Talk β ε α) (f : α → Talk β ε γ) (s : σ) (room : Nat) :
    run src faults (t >>= f) s room =
      (run src faults t s room).andThen (fun a => run src faults (f a)) room := by
  change run src faults (t.bind f) s room = _
  induction t generalizing s room with
  | done result =>
      cases result with
      | ok a => simp [Talk.bind, run, Outcome.andThen]
      | error e => simp [Talk.bind, run, Outcome.andThen]
  | read n next ih =>
      cases h : src.next n s with
      | none => simp [Talk.bind, run, h, Outcome.andThen]
      | some vs => simp [Talk.bind, run, h, ih]
  | write bytes next ih =>
      by_cases hroom : bytes.length ≤ room
      -- the second conversation has the room that the first one's write has left
      · simp only [Talk.bind, run, hroom, if_true, ih]
        cases hres : (run src faults next s (room - bytes.length)).result with
        | ok a => simp [Outcome.andThen, hres, Nat.sub_sub]
        | error e => simp [Outcome.andThen, hres]
      · simp [Talk.bind, run, hroom, Outcome.andThen]

/-- What is to follow a conversation that fails does not matter. -/
theorem run_bind_failed {t : Talk β ε α} {e : ε} (h : (run src faults t s room).result = .error e)
    (f : α → Talk β ε γ) :
    run src faults (t >>= f) s room =
      ⟨.error e, (run src faults t s room).written, (run src faults t s room).left⟩ := by
  rw [run_bind, Outcome.andThen, h]

/-- A conversation of two parts succeeds just when the first does, and the second behind it. -/
theorem run_bind_ok {t : Talk β ε α} {f : α → Talk β ε γ} {c : γ} {w : List β} {s' : σ} :
    run src faults (t >>= f) s room = ⟨.ok c, w, s'⟩ ↔
      ∃ a w₁ s₁ w₂, run src faults t s room = ⟨.ok a, w₁, s₁⟩ ∧
        run src faults (f a) s₁ (room - w₁.length) = ⟨.ok c, w₂, s'⟩ ∧ w = w₁ ++ w₂ := by
  rw [run_bind]
  obtain ⟨result, w₁, s₁⟩ := run src faults t s room
  cases result with
  | error e => simp [Outcome.andThen]
  | ok a =>
      constructor
      · intro h
        simp only [Outcome.andThen, Outcome.mk.injEq] at h
        obtain ⟨hres, rfl, hleft⟩ := h
        refine ⟨a, w₁, s₁, _, rfl, ?_, rfl⟩
        rw [← hres, ← hleft]
      · rintro ⟨a', w₁', s₁', w₂, h₁, h₂, rfl⟩
        cases h₁
        simp [Outcome.andThen, h₂]

@[simp] theorem run_pure (a : α) : run src faults (pure a) s room = ⟨.ok a, [], s⟩ := rfl

@[simp] theorem run_fail (e : ε) :
    run src faults (Talk.fail e : Talk β ε α) s room = ⟨.error e, [], s⟩ := rfl

theorem run_read {n : Nat} {v : List.Vector β n} {s' : σ} (f : List.Vector β n → Talk β ε α)
    (h : src.next n s = some (v, s')) :
    run src faults (Talk.readExact n >>= f) s room = run src faults (f v) s' room := by
  change run src faults (.read n (fun v => f v)) s room = _
  simp [run, h]

theorem run_read_eof {n : Nat} (f : List.Vector β n → Talk β ε α) (h : src.next n s = none) :
    run src faults (Talk.readExact n >>= f) s room =
      ⟨.error faults.unexpectedEof, [], src.ended⟩ := by
  change run src faults (.read n (fun v => f v)) s room = _
  simp [run, h]

/-- A conversation that never writes. -/
def Talk.Listens : Talk β ε α → Prop
  | .done _ => True
  | .read _ next => ∀ v, (next v).Listens
  | .write _ _ => False

@[simp] theorem Talk.listens_pure (a : α) : (pure a : Talk β ε α).Listens := trivial

@[simp] theorem Talk.listens_fail (e : ε) : (Talk.fail e : Talk β ε α).Listens := trivial

@[simp] theorem Talk.listens_read {n : Nat} {f : List.Vector β n → Talk β ε α} :
    (Talk.readExact n >>= f).Listens ↔ ∀ v, (f v).Listens := Iff.rfl

theorem Talk.Listens.bind {t : Talk β ε α} {f : α → Talk β ε γ} (ht : t.Listens)
    (hf : ∀ a, (f a).Listens) : (t >>= f).Listens := by
  change (t.bind f).Listens
  induction t with
  | done result =>
      cases result with
      | ok a => exact hf a
      | error e => trivial
  | read n next ih => exact fun v => ih v (ht v)
  | write bytes next ih => exact ht.elim

theorem run_listens {t : Talk β ε α} (ht : t.Listens) (s : σ) (room : Nat) :
    (run src faults t s room).written = [] := by
  induction t generalizing s with
  | done result => rfl
  | read n next ih =>
      cases h : src.next n s with
      | none => simp [run, h]
      | some vs => simpa [run, h] using ih vs.1 (ht vs.1) vs.2
  | write bytes next ih => exact ht.elim

/-- A peer never takes more than it has room for. -/
theorem run_written_length (src : Source β σ) (faults : Faults ε) (t : Talk β ε α) (s : σ) (room : Nat) :
    (run src faults t s room).written.length ≤ room := by
  induction t generalizing s room with
  | done result => simp [run]
  | read n next ih =>
      cases h : src.next n s with
      | none => simp [run, h]
      | some vs => simpa [run, h] using ih vs.1 vs.2 room
  | write bytes next ih =>
      by_cases hroom : bytes.length ≤ room
      · have := ih s (room - bytes.length)
        simp only [run, hroom, if_true, List.length_append]
        omega
      · simp [run, hroom]

theorem take_append_take (l₁ l₂ : List β) (n : Nat) :
    (l₁ ++ l₂.take (n - l₁.length)).take n = (l₁ ++ l₂).take n := by
  simp [List.take_append, List.take_take]

/-- What the peer gets of a write and of what is written behind it. -/
theorem written_write (bytes : List β) (f : Unit → Talk β ε α) :
    (run src faults (Talk.writeAll bytes >>= f) s room).written =
      (bytes ++ (run src faults (f ()) s (room - bytes.length)).written).take room := by
  change (run src faults (.write bytes (f ())) s room).written = _
  by_cases hroom : bytes.length ≤ room
  · have hrest := run_written_length src faults (f ()) s (room - bytes.length)
    rw [List.take_append, List.take_of_length_le hroom, List.take_of_length_le hrest]
    simp [run, hroom]
  · rw [List.take_append_of_le_length (by omega)]
    simp [run, hroom]

theorem left_write (bytes : List β) (f : Unit → Talk β ε α) :
    (run src faults (Talk.writeAll bytes >>= f) s room).left =
      if bytes.length ≤ room then (run src faults (f ()) s (room - bytes.length)).left else s := by
  change (run src faults (.write bytes (f ())) s room).left = _
  rw [run]
  split_ifs <;> rfl

theorem run_write_ok {bytes : List β} {f : Unit → Talk β ε α} {a : α} {w : List β} {s' : σ} :
    run src faults (Talk.writeAll bytes >>= f) s room = ⟨.ok a, w, s'⟩ ↔
      bytes.length ≤ room ∧
        ∃ w', run src faults (f ()) s (room - bytes.length) = ⟨.ok a, w', s'⟩ ∧ w = bytes ++ w' := by
  change run src faults (.write bytes (f ())) s room = _ ↔ _
  by_cases hroom : bytes.length ≤ room
  · simp only [run, hroom, if_true, true_and]
    obtain ⟨result, w₁, s₁⟩ := run src faults (f ()) s (room - bytes.length)
    simp only [Outcome.mk.injEq]
    constructor
    · rintro ⟨hres, rfl, hleft⟩
      exact ⟨w₁, ⟨hres, rfl, hleft⟩, rfl⟩
    · rintro ⟨_, ⟨hres, rfl, hleft⟩, rfl⟩
      exact ⟨hres, rfl, hleft⟩
  · simp [run, hroom]

theorem run_writeAll_ok {bytes w : List β} {s' : σ} :
    run src faults (Talk.writeAll bytes) s room = ⟨.ok (), w, s'⟩ ↔
      bytes.length ≤ room ∧ w = bytes ∧ s' = s := by
  refine (run_write_ok (f := pure)).trans ?_
  simp only [run_pure, Outcome.mk.injEq, true_and]
  constructor
  · rintro ⟨hroom, _, ⟨rfl, rfl⟩, rfl⟩
    exact ⟨hroom, List.append_nil _, rfl⟩
  · rintro ⟨hroom, rfl, rfl⟩
    exact ⟨hroom, [], ⟨rfl, rfl⟩, (List.append_nil _).symm⟩

/-- **Runs over sources in step are in step.** -/
theorem run_refines {src' : Source β τ} {R : σ → τ → Prop} (hstep : InStep src src' R)
    (t : Talk β ε α) {s : σ} {s' : τ} (room : Nat) (hs : R s s') :
    (run src faults t s room).result = (run src' faults t s' room).result ∧
      (run src faults t s room).written = (run src' faults t s' room).written ∧
      R (run src faults t s room).left (run src' faults t s' room).left := by
  induction t generalizing s s' room with
  | done result => exact ⟨rfl, rfl, hs⟩
  | read n next ih =>
      cases h : src.next n s with
      | none =>
          -- where one source is at its end the other one is too, by the relation
          have h' := hstep.next_none hs h
          simp only [run, h, h', true_and]
          exact hstep.ended
      | some vs =>
          obtain ⟨t', h', hR⟩ := hstep.next_some hs h
          simpa only [run, h, h'] using ih vs.1 room hR
  | write bytes next ih =>
      by_cases hroom : bytes.length ≤ room
      · obtain ⟨hres, hwr, hleft⟩ := ih (room - bytes.length) hs
        simp [run, hroom, hres, hwr, hleft]
      · simp [run, hroom, hs]

end Run

section Stream

variable {faults : Faults ε} {s rest : List β} {room n : Nat}

theorem run_stream_read {l : List β} (h : l.length = n) (f : List.Vector β n → Talk β ε α) :
    run stream faults (Talk.readExact n >>= f) (l ++ rest) room =
      run stream faults (f (ofList l h)) rest room :=
  run_read f (stream_next_append (ofList l h) rest)

/-- A conversation that reads first goes on behind what it reads, or meets the end of the stream. -/
theorem run_stream_cases (faults : Faults ε) (s : List β) (room : Nat)
    (f : List.Vector β n → Talk β ε α) :
    (∃ v s', s = v.toList ++ s' ∧
      run stream faults (Talk.readExact n >>= f) s room = run stream faults (f v) s' room) ∨
    run stream faults (Talk.readExact n >>= f) s room =
      ⟨.error faults.unexpectedEof, [], []⟩ := by
  cases hnext : (stream (β := β)).next n s with
  | none => exact .inr (run_read_eof f hnext)
  | some vs => exact .inl ⟨vs.1, vs.2, stream_next_eq_some.1 hnext, run_read f hnext⟩

/-- A conversation that reads first succeeds just when the stream holds what it reads, and the rest
of the conversation succeeds behind that. -/
theorem run_stream_read_ok {f : List.Vector β n → Talk β ε α} {a : α} {w : List β} :
    run stream faults (Talk.readExact n >>= f) s room = ⟨.ok a, w, rest⟩ ↔
      ∃ v s', s = v.toList ++ s' ∧ run stream faults (f v) s' room = ⟨.ok a, w, rest⟩ := by
  constructor
  · intro h
    obtain ⟨v, s', hs, hrun⟩ | heof := run_stream_cases faults s room f
    · exact ⟨v, s', hs, hrun.symm.trans h⟩
    · rw [heof] at h
      cases h
  · rintro ⟨v, s', rfl, h⟩
    rw [run_read f (stream_next_append v s')]
    exact h

/-- The conversation fails without having written anything. -/
def FailsSilently {σ : Type} (o : Outcome β ε σ α) : Prop :=
  (∃ e, o.result = .error e) ∧ o.written = []

/-- A conversation that reads first fails silently when it does so behind whatever it reads. -/
theorem failsSilently_read {f : List.Vector β n → Talk β ε α}
    (h : ∀ v s', s = v.toList ++ s' → FailsSilently (run stream faults (f v) s' room)) :
    FailsSilently (run stream faults (Talk.readExact n >>= f) s room) := by
  obtain ⟨v, s', hs, hrun⟩ | heof := run_stream_cases faults s room f
  · rw [hrun]
    exact h v s' hs
  · rw [heof]
    exact ⟨⟨_, rfl⟩, rfl⟩

theorem failsSilently_fail (e : ε) :
    FailsSilently (run stream faults (Talk.fail e : Talk β ε α) s room) :=
  ⟨⟨e, rfl⟩, rfl⟩

end Stream

/-- What a conversation does over chunks is what it does over their concatenation. -/
theorem run_chunks (faults : Faults ε) (t : Talk β ε α) (cs : List (List β)) (room : Nat) :
    (run chunks faults t cs room).result = (run stream faults t cs.flatten room).result ∧
      (run chunks faults t cs room).written = (run stream faults t cs.flatten room).written ∧
      (run chunks faults t cs room).left.flatten = (run stream faults t cs.flatten room).left :=
  run_refines chunks_inStep t room rfl

end Conversation
end AuroraVpn
