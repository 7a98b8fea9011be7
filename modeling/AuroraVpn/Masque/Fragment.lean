import AuroraVpn.Basic
import AuroraVpn.Lib.Runs
import Mathlib.Order.Basic

/-!
# Fragment — the first bytes of a connection, in small writes

`FragmentConfig` and `FragmentingStream` of `fragment.rs`, over an inner stream that may accept any
part of what it is given, or nothing yet.  The caller offers a part of what it has still to write, and
offers again what was not accepted.

* `pickChunkLen_bounds`: a chunk is part of the buffer, not empty, and no larger than configured.
* `fragment_exact`: what the inner stream has accepted and what it was given, in every run.
* `not_fragment_sized`: a stream that does not fragment gives its inner stream all at once.
-/

namespace AuroraVpn
namespace Masque

open Runs

structure FragmentConfig where
  enabled : Bool
  sizeMin : Nat
  sizeMax : Nat
  delayMinMs : Nat
  delayMaxMs : Nat

/-- `random_range(lo..=hi)`, by any number that is drawn. -/
def randomRange (lo hi draw : Nat) : Nat :=
  lo + draw % (hi - lo + 1)

def FragmentConfig.pickChunkLen (cfg : FragmentConfig) (draw remaining : Nat) : Nat :=
  let hi := min (max cfg.sizeMax 1) remaining
  let lo := min (max cfg.sizeMin 1) hi
  if hi ≤ lo then hi else randomRange lo hi draw

/-- In milliseconds. -/
def FragmentConfig.pickDelay (cfg : FragmentConfig) (draw : Nat) : Nat :=
  if cfg.delayMaxMs = 0 then 0
  else if cfg.delayMaxMs ≤ cfg.delayMinMs then cfg.delayMinMs
  else randomRange cfg.delayMinMs cfg.delayMaxMs draw

/-- What a write answers. -/
inductive Poll
  | pending
  | error
  | ready (n : Nat)
  deriving DecidableEq

/-- `FragmentingStream` without its inner stream; of the delay only whether there is one. -/
structure FragmentingStream where
  cfg : FragmentConfig
  fragmenting : Bool
  pendingDelay : Bool

namespace FragmentingStream

def new (cfg : FragmentConfig) : FragmentingStream where
  cfg := cfg
  fragmenting := cfg.enabled
  pendingDelay := false

def pollRead (s : FragmentingStream) : FragmentingStream :=
  { s with fragmenting := false }

/-- What is drawn in a write, whether a delay is over, and what the inner stream answers. -/
structure Circumstances where
  slept : Bool
  chunk : Nat
  delay : Nat
  answer : Poll

/-- `poll_write`: the stream, what its inner stream was given, and the answer. -/
def pollWrite (s : FragmentingStream) (buf : Bytes) (c : Circumstances) :
    FragmentingStream × Option Bytes × Poll :=
  if buf = [] ∨ s.fragmenting = false then (s, some buf, c.answer)
  else if s.pendingDelay = true ∧ c.slept = false then (s, none, .pending)
  else
    let s := { s with pendingDelay := false }
    let given := buf.take (s.cfg.pickChunkLen c.chunk buf.length)
    match c.answer with
    | .ready n =>
        if 0 < n ∧ s.cfg.pickDelay c.delay ≠ 0 then ({ s with pendingDelay := true }, some given, .ready n)
        else (s, some given, .ready n)
    | other => (s, some given, other)

end FragmentingStream

/-! ## Runs -/

/-- A write to the inner stream: what the caller offered, what was given on, and whether the caller had
read before. -/
structure InnerWrite where
  buf : Bytes
  given : Bytes
  afterRead : Bool

structure Writing where
  stream : FragmentingStream
  read : Bool
  /-- What the caller has still to write. -/
  rest : Bytes
  /-- What the inner stream has accepted. -/
  accepted : Bytes
  /-- The prefixes that were reported as written. -/
  reported : List Bytes
  writes : List InnerWrite

def Writing.start (cfg : FragmentConfig) (data : Bytes) : Writing where
  stream := .new cfg
  read := false
  rest := data
  accepted := []
  reported := []
  writes := []

inductive Call
  /-- `poll_write` of so many bytes of what there is to write. -/
  | write (len : Nat) (c : FragmentingStream.Circumstances)
  | read
  | flush

namespace Writing

/-- What the inner stream answers with is no more than it was given. -/
def Answers (s : Writing) : Call → Prop
  | .write len c =>
      ∀ given ∈ (s.stream.pollWrite (s.rest.take len) c).2.1, ∀ n, c.answer = .ready n → n ≤ given.length
  | _ => True

def step (call : Call) (s : Writing) : Writing :=
  match call with
  | .write len c =>
      let buf := s.rest.take len
      match s.stream.pollWrite buf c with
      | (stream, none, _) => { s with stream }
      | (stream, some given, answer) =>
          let s := { s with stream, writes := s.writes ++ [⟨buf, given, s.read⟩] }
          match answer with
          | .ready n =>
              { s with
                accepted := s.accepted ++ given.take n
                reported := s.reported ++ [buf.take n]
                rest := s.rest.drop n }
          | _ => s
  | .read => { s with stream := s.stream.pollRead, read := true }
  | .flush => s

def machine (cfg : FragmentConfig) (data : Bytes) : Machine Writing Call where
  init s := s = .start cfg data
  enabled call s := s.Answers call
  step call s := some (s.step call)

end Writing

/-- What the inner stream has accepted is what was reported, and what there was to write begins with it;
nothing empty is written for a buffer that is not; and until the first read, writes are of the size that
is configured. -/
structure Fragmented (cfg : FragmentConfig) (data : Bytes) (s : Writing) : Prop where
  exact : s.accepted = s.reported.flatten
  order : s.accepted ++ s.rest = data
  given : ∀ w ∈ s.writes, w.given <+: w.buf
  nonempty : ∀ w ∈ s.writes, w.buf ≠ [] → w.given ≠ []
  sized : cfg.enabled = true → ∀ w ∈ s.writes, w.afterRead = false → w.given.length ≤ max 1 cfg.sizeMax

section Proofs

variable {cfg : FragmentConfig} {data : Bytes} {s : Writing}

theorem randomRange_bounds {lo hi : Nat} (h : lo ≤ hi) (draw : Nat) :
    lo ≤ randomRange lo hi draw ∧ randomRange lo hi draw ≤ hi := by
  have hmod : draw % (hi - lo + 1) < hi - lo + 1 := Nat.mod_lt _ (Nat.succ_pos _)
  unfold randomRange
  omega

/-- A chunk is part of the buffer, not empty, and no larger than configured. -/
theorem pickChunkLen_bounds (cfg : FragmentConfig) (draw : Nat) {remaining : Nat} (h : 0 < remaining) :
    0 < cfg.pickChunkLen draw remaining ∧ cfg.pickChunkLen draw remaining ≤ remaining ∧
      cfg.pickChunkLen draw remaining ≤ max 1 cfg.sizeMax := by
  unfold FragmentConfig.pickChunkLen
  dsimp only
  have hhi : 0 < min (max cfg.sizeMax 1) remaining := by omega
  split_ifs with hle
  · omega
  · obtain ⟨hlo, hup⟩ := randomRange_bounds (Nat.le_of_not_le hle) draw
    omega

/-- What a write can do: nothing while a delay is pending, and otherwise it gives on the buffer or a
chunk of it, and answers what the inner stream does. -/
theorem pollWrite_cases (stream : FragmentingStream) (buf : Bytes) (c : FragmentingStream.Circumstances) :
    (∃ stream', stream.pollWrite buf c = (stream', none, .pending) ∧ stream' = stream) ∨
      ∃ stream' given, stream.pollWrite buf c = (stream', some given, c.answer) ∧
        stream'.cfg = stream.cfg ∧ stream'.fragmenting = stream.fragmenting ∧
        given <+: buf ∧ (buf ≠ [] → given ≠ []) ∧
        (stream.fragmenting = true → given.length ≤ max 1 stream.cfg.sizeMax) := by
  unfold FragmentingStream.pollWrite
  -- an empty buffer, and everything behind the first read, goes through whole
  by_cases hwhole : buf = [] ∨ stream.fragmenting = false
  · rw [if_pos hwhole]
    refine .inr ⟨stream, buf, rfl, rfl, rfl, List.prefix_refl _, id, fun hfragmenting => ?_⟩
    rcases hwhole with rfl | hnot
    · exact Nat.zero_le _
    · rw [hnot] at hfragmenting
      cases hfragmenting
  · rw [if_neg hwhole]
    -- the delay is awaited without touching the inner stream
    by_cases hdelay : stream.pendingDelay = true ∧ c.slept = false
    · rw [if_pos hdelay]
      exact .inl ⟨stream, rfl, rfl⟩
    · rw [if_neg hdelay]
      have hne : buf ≠ [] := fun hnil => hwhole (.inl hnil)
      obtain ⟨hpos, hle, hsize⟩ :=
        pickChunkLen_bounds stream.cfg c.chunk (List.length_pos_iff.2 hne)
      -- a chunk is never longer than what is there, so `take` is exact
      have hlength : (buf.take (stream.cfg.pickChunkLen c.chunk buf.length)).length =
          stream.cfg.pickChunkLen c.chunk buf.length := List.length_take_of_le hle
      have hgiven : buf.take (stream.cfg.pickChunkLen c.chunk buf.length) <+: buf ∧
          (buf ≠ [] → buf.take (stream.cfg.pickChunkLen c.chunk buf.length) ≠ []) ∧
          (stream.fragmenting = true →
            (buf.take (stream.cfg.pickChunkLen c.chunk buf.length)).length ≤ max 1 stream.cfg.sizeMax) := by
        refine ⟨List.take_prefix _ _, fun _ => ?_, fun _ => ?_⟩
        · rw [← List.length_pos_iff, hlength]
          exact hpos
        · rw [hlength]
          exact hsize
      right
      dsimp only
      -- the state changes with the answer, the bytes that were given do not
      cases c.answer with
      | ready n =>
          dsimp only
          split_ifs
          · exact ⟨_, _, rfl, rfl, rfl, hgiven⟩
          · exact ⟨_, _, rfl, rfl, rfl, hgiven⟩
      | pending => exact ⟨_, _, rfl, rfl, rfl, hgiven⟩
      | error => exact ⟨_, _, rfl, rfl, rfl, hgiven⟩

/-- The stream fragments as configured until the first read. -/
structure Inv (cfg : FragmentConfig) (data : Bytes) (s : Writing) : Prop extends Fragmented cfg data s where
  config : s.stream.cfg = cfg
  fragmenting : s.stream.fragmenting = (cfg.enabled && !s.read)

theorem inv_start (cfg : FragmentConfig) (data : Bytes) : Inv cfg data (.start cfg data) where
  exact := rfl
  order := rfl
  given := nofun
  nonempty := nofun
  sized _ := nofun
  config := rfl
  fragmenting := by
    change cfg.enabled = (cfg.enabled && true)
    rw [Bool.and_true]

/-- A write that is recorded, before anything is accepted. -/
theorem Inv.write (h : Inv cfg data s) {stream : FragmentingStream} {buf given : Bytes}
    (hcfg : stream.cfg = s.stream.cfg) (hfragmenting : stream.fragmenting = s.stream.fragmenting)
    (hgiven : given <+: buf) (hne : buf ≠ [] → given ≠ [])
    (hsize : s.stream.fragmenting = true → given.length ≤ max 1 s.stream.cfg.sizeMax) :
    Inv cfg data { s with stream, writes := s.writes ++ [⟨buf, given, s.read⟩] } where
  exact := h.exact
  order := h.order
  config := hcfg.trans h.config
  fragmenting := hfragmenting.trans h.fragmenting
  given := by
    intro w hw
    rcases List.mem_append.1 hw with hw | hw
    · exact h.given w hw
    · rw [List.mem_singleton.1 hw]
      exact hgiven
  nonempty := by
    intro w hw
    rcases List.mem_append.1 hw with hw | hw
    · exact h.nonempty w hw
    · rw [List.mem_singleton.1 hw]
      exact hne
  -- only writes before the first read are bounded
  sized := by
    intro henabled w hw hread
    rcases List.mem_append.1 hw with hw | hw
    · exact h.sized henabled w hw hread
    · rw [List.mem_singleton.1 hw] at hread ⊢
      have hon : s.stream.fragmenting = true := by
        rw [h.fragmenting, henabled, show s.read = false from hread]
        rfl
      rw [← h.config]
      exact hsize hon

theorem take_front {given buf : Bytes} {n : Nat} (h : given <+: buf) (hn : n ≤ given.length) :
    given.take n = buf.take n := by
  obtain ⟨more, rfl⟩ := h
  exact (List.take_append_of_le_length hn).symm

/-- The inner stream accepts some of what it was given, which is what is reported. -/
theorem Inv.accept (h : Inv cfg data s) {buf given : Bytes} {len n : Nat} (hbuf : buf = s.rest.take len)
    (hgiven : given <+: buf) (hn : n ≤ given.length) :
    Inv cfg data { s with
      accepted := s.accepted ++ given.take n
      reported := s.reported ++ [buf.take n]
      rest := s.rest.drop n } where
  exact := by
    rw [List.flatten_append, ← h.exact, take_front hgiven hn, List.flatten_singleton]
  order := by
    subst hbuf
    have hrest : given <+: s.rest := hgiven.trans (List.take_prefix _ _)
    change s.accepted ++ given.take n ++ s.rest.drop n = data
    rw [take_front hrest hn, List.append_assoc, List.take_append_drop]
    exact h.order
  given := h.given
  nonempty := h.nonempty
  sized := h.sized
  config := h.config
  fragmenting := h.fragmenting

theorem Inv.step (h : Inv cfg data s) {call : Call} (hanswers : s.Answers call) : Inv cfg data (s.step call) := by
  cases call with
  | write len c =>
      change ∀ given ∈ (s.stream.pollWrite (s.rest.take len) c).2.1, ∀ n, c.answer = .ready n →
        n ≤ given.length at hanswers
      unfold Writing.step
      dsimp only
      -- a delay is pending and nothing goes on, or a piece of the buffer does
      rcases pollWrite_cases s.stream (s.rest.take len) c with
        ⟨_, heq, rfl⟩ | ⟨stream, given, heq, hcfg, hfragmenting, hgiven, hne, hsize⟩
      · rw [heq]
        exact h
      · rw [heq] at hanswers ⊢
        have hwrite := h.write hcfg hfragmenting hgiven hne hsize
        dsimp only
        cases hanswer : c.answer with
        | ready n => exact hwrite.accept rfl hgiven (hanswers given rfl n hanswer)
        | pending => exact hwrite
        | error => exact hwrite
  | read =>
      exact { h with
        -- behind the first read nothing is fragmented any more
        fragmenting := by
          change false = (cfg.enabled && false)
          rw [Bool.and_false] }
  | flush => exact h

/-- **Fragmenting alters nothing**, and gives writes of the configured size until the first read. -/
theorem fragment_exact (cfg : FragmentConfig) (data : Bytes) {s : Writing}
    (h : Reachable (Writing.machine cfg data) s) : Fragmented cfg data s := by
  have hinv : Invariant (Writing.machine cfg data) (Inv cfg data) := by
    refine ⟨?_, ?_⟩
    · rintro _ rfl
      exact inv_start cfg data
    · rintro s call _ hs hanswers ⟨⟩
      exact hs.step hanswers
  exact (hinv.reachable h).toFragmented

/-- Three bytes in chunks of one or two, of which the inner stream first takes one. -/
theorem fragment_exact_partial :
    Fragmented ⟨true, 1, 2, 0, 0⟩ [1, 2, 3]
      ((Writing.start ⟨true, 1, 2, 0, 0⟩ [1, 2, 3]).step (.write 3 ⟨false, 1, 0, .ready 1⟩)) := by
  refine fragment_exact _ _ (.step (.init rfl) (l := .write 3 ⟨false, 1, 0, .ready 1⟩) ?_ trivial rfl)
  rintro _ ⟨⟩ n ⟨⟩
  decide

/-- A stream that does not fragment gives its inner stream all at once. -/
theorem not_fragment_sized :
    ¬ ∀ cfg data s, Reachable (Writing.machine cfg data) s →
      ∀ w ∈ s.writes, w.afterRead = false → w.given ≠ [] ∧ w.given.length ≤ max 1 cfg.sizeMax := by
  intro h
  have hstep : Reachable (Writing.machine ⟨false, 1, 1, 0, 0⟩ [1, 2])
      ((Writing.start ⟨false, 1, 1, 0, 0⟩ [1, 2]).step (.write 2 ⟨false, 0, 0, .ready 2⟩)) := by
    refine .step (.init rfl) (l := .write 2 ⟨false, 0, 0, .ready 2⟩) ?_ trivial rfl
    rintro _ ⟨⟩ n ⟨⟩
    decide
  have hsized := (h _ _ _ hstep ⟨[1, 2], [1, 2], false⟩ List.mem_cons_self rfl).2
  exact absurd hsized (by decide)

end Proofs

end Masque
end AuroraVpn
