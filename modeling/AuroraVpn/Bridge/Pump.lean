import AuroraVpn.Basic
import Mathlib.Data.List.Basic

/-!
# Pump — the two loops between the TUN descriptor and the tunnel

`TunPump::start` of `tun.rs`, with `poll_fd` and `write_packet`: one loop reads packets off the descriptor
and passes them on, the other takes packets and writes them.  What the descriptor and the channels answer,
turn by turn, is a parameter, and so is the turn from which `stop` is seen.

* `reader_passed`: what was read is passed on, once and in order.
* `reader_good_iff`, `writer_good_iff`: when a loop does not spin and keeps its packets whole.
-/

namespace AuroraVpn
namespace Bridge
namespace Pump

/-- What `poll` answers: nothing in time, the event that is asked for, an error or a hang-up alone, or no
answer at all, as when it is interrupted. -/
inductive Polled
  | timeout
  | asked
  | errorOnly
  | failed
  deriving DecidableEq, Repr

/-- `poll_fd`. -/
def pollFd : Polled → Bool
  | .asked => true
  | .timeout | .errorOnly | .failed => false

/-- What `read` and `write` answer. -/
inductive IoAnswer (α : Type)
  | ok (value : α)
  | wouldBlock
  | interrupted
  | error
  deriving DecidableEq, Repr

/-- Whether `stop` is seen in a turn. -/
def cancelled (stopAt : Option Nat) (turn : Nat) : Bool :=
  stopAt.any fun moment => moment ≤ turn

/-- A turn that has waited, has moved bytes, or is the last one of its loop. -/
inductive Turn
  | waited
  | moved
  | ended
  | idle
  deriving DecidableEq, Repr

/-! ## The reader -/

/-- What a turn of the reader meets. -/
structure ReaderAnswer where
  poll : Polled
  /-- What is read; nothing where the descriptor is at its end. -/
  read : IoAnswer Bytes
  /-- Whether the tunnel still takes packets. -/
  taken : Bool

structure Reader where
  ended : Bool := false
  /-- The packets that were read. -/
  packets : List Bytes := []
  /-- The packets that were passed on. -/
  passed : List Bytes := []

section Reader

variable (stopAt : Option Nat) (answers : Nat → ReaderAnswer)

/-- One turn of the reader, and what it was. -/
def readerTurn (turn : Nat) (r : Reader) : Turn × Reader :=
  let a := answers turn
  if cancelled stopAt turn then (.ended, { r with ended := true })
  else if !pollFd a.poll then
    -- `continue`: only a timeout has taken its time
    (if a.poll = .timeout then .waited else .idle, r)
  else
    match a.read with
    | .ok [] => (.ended, { r with ended := true })
    | .ok packet =>
        if a.taken then (.moved, { r with packets := r.packets ++ [packet], passed := r.passed ++ [packet] })
        else (.ended, { r with ended := true, packets := r.packets ++ [packet] })
    | .wouldBlock => (.idle, r)
    | .interrupted | .error => (.ended, { r with ended := true })

/-- The reader after so many turns. -/
def reader : Nat → Reader
  | 0 => {}
  | turn + 1 =>
      let r := reader turn
      if r.ended then r else (readerTurn stopAt answers turn r).2

/-- A reader that does not spin, that ends where the descriptor has nothing but errors, and that passes on
what it reads. -/
structure ReaderGood : Prop where
  busy : ∀ turn, (reader stopAt answers turn).ended = false →
    (readerTurn stopAt answers turn (reader stopAt answers turn)).1 ≠ .idle
  ends : (∃ turn, ∀ later, turn ≤ later → (answers later).poll = .errorOnly) →
    ∃ turn, (reader stopAt answers turn).ended = true
  passed : ∀ turn, (reader stopAt answers turn).passed <+: (reader stopAt answers turn).packets ∧
    ((reader stopAt answers turn).ended = false →
      (reader stopAt answers turn).passed = (reader stopAt answers turn).packets)

/-- A turn that is answered by a timeout, or by the event that is asked for and something to read. -/
def ReaderAnswer.Fine (a : ReaderAnswer) : Prop :=
  a.poll = .timeout ∨ (a.poll = .asked ∧ a.read ≠ .wouldBlock)

variable {stopAt answers}

theorem readerTurn_idle_iff {turn : Nat} {r : Reader} :
    (readerTurn stopAt answers turn r).1 = .idle ↔ cancelled stopAt turn = false ∧ ¬ (answers turn).Fine := by
  unfold readerTurn ReaderAnswer.Fine
  cases hstop : cancelled stopAt turn with
  | true => simp
  | false =>
      cases hpoll : (answers turn).poll with
      | timeout => simp [pollFd, hpoll]
      | errorOnly => simp [pollFd, hpoll]
      | failed => simp [pollFd, hpoll]
      | asked =>
          cases hread : (answers turn).read with
          | ok packet =>
              cases packet with
              | nil => simp [pollFd, hpoll, hread]
              | cons b packet => cases htaken : (answers turn).taken <;> simp [pollFd, hpoll, hread, htaken]
          | wouldBlock => simp [pollFd, hpoll, hread]
          | interrupted => simp [pollFd, hpoll, hread]
          | error => simp [pollFd, hpoll, hread]

/-- What a turn reads it passes on, unless it is the last. -/
theorem readerTurn_passed {turn : Nat} {r : Reader} (hsame : r.passed = r.packets) :
    (readerTurn stopAt answers turn r).2.passed <+: (readerTurn stopAt answers turn r).2.packets ∧
      ((readerTurn stopAt answers turn r).2.ended = false →
        (readerTurn stopAt answers turn r).2.passed = (readerTurn stopAt answers turn r).2.packets) := by
  unfold readerTurn
  cases hstop : cancelled stopAt turn with
  | true => simp [hsame]
  | false =>
      cases hready : pollFd (answers turn).poll with
      | false => simp [hready, hsame]
      | true =>
          cases hread : (answers turn).read with
          | ok packet =>
              cases packet with
              | nil => simp [hready, hread, hsame]
              | cons b packet => cases htaken : (answers turn).taken <;> simp [hready, hread, htaken, hsame]
          | wouldBlock => simp [hready, hread, hsame]
          | interrupted => simp [hready, hread, hsame]
          | error => simp [hready, hread, hsame]

/-- **What was read is passed on**, once and in order, until the loop ends. -/
theorem reader_passed (turn : Nat) : (reader stopAt answers turn).passed <+: (reader stopAt answers turn).packets ∧
    ((reader stopAt answers turn).ended = false →
      (reader stopAt answers turn).passed = (reader stopAt answers turn).packets) := by
  induction turn with
  | zero => exact ⟨List.prefix_refl _, fun _ => rfl⟩
  | succ turn ih =>
      rw [reader]
      cases hended : (reader stopAt answers turn).ended with
      | true => simpa [hended] using ih.1
      | false => exact readerTurn_passed (ih.2 hended)

/-- What the answers have to be, turn by turn, until the reader ends. -/
def ReaderFine (stopAt : Option Nat) (answers : Nat → ReaderAnswer) : Prop :=
  ∀ turn, (reader stopAt answers turn).ended = false → cancelled stopAt turn = false → (answers turn).Fine

/-- **A reader does not spin exactly where every turn that it takes is answered by a timeout or by something to
read.** -/
theorem reader_good_iff : ReaderGood stopAt answers ↔ ReaderFine stopAt answers := by
  constructor
  · intro h turn hended hstop
    by_contra hfine
    exact h.busy turn hended (readerTurn_idle_iff.2 ⟨hstop, hfine⟩)
  · intro h
    have hbusy : ∀ turn, (reader stopAt answers turn).ended = false →
        (readerTurn stopAt answers turn (reader stopAt answers turn)).1 ≠ .idle := by
      intro turn hended hidle
      obtain ⟨hstop, hfine⟩ := readerTurn_idle_iff.1 hidle
      exact hfine (h turn hended hstop)
    refine ⟨hbusy, ?_, reader_passed⟩
    rintro ⟨turn, herrors⟩
    cases hended : (reader stopAt answers turn).ended with
    | true => exact ⟨turn, hended⟩
    | false =>
        cases hstop : cancelled stopAt turn with
        | true =>
            refine ⟨turn + 1, ?_⟩
            simp [reader, hended, readerTurn, hstop]
        | false =>
            -- an error alone is no answer that the condition allows
            rcases h turn hended hstop with hpoll | ⟨hpoll, -⟩
            all_goals exact absurd ((herrors turn (Nat.le_refl turn)).symm.trans hpoll) (by decide)

end Reader

/-! ## The writer -/

/-- What a turn of the writer meets. -/
structure WriterAnswer where
  /-- The next packet, or none where the tunnel is gone. -/
  packet : Option Bytes
  poll : Polled
  /-- How many bytes are taken of those that are offered. -/
  write : IoAnswer Nat

structure Writer where
  ended : Bool := false
  /-- The packet that is being written, and how much of it is. -/
  holding : Option (Bytes × Nat) := none
  /-- The packets that were taken, the last first, each with what was written of it, write by write. -/
  given : List (Bytes × List Bytes) := []

/-- A write for the packet that was taken last. -/
def addWrite (bytes : Bytes) : List (Bytes × List Bytes) → List (Bytes × List Bytes)
  | [] => []
  | (packet, writes) :: given => (packet, writes ++ [bytes]) :: given

section Writer

variable (stopAt : Option Nat) (answers : Nat → WriterAnswer)

/-- What is left of a packet, if there is anything. -/
def left (packet : Bytes) (offset : Nat) : Option (Bytes × Nat) :=
  if offset < packet.length then some (packet, offset) else none

/-- One turn of `write_packet`. -/
def writeTurn (turn : Nat) (packet : Bytes) (offset : Nat) (w : Writer) : Turn × Writer :=
  let a := answers turn
  -- a packet that is not written to its end is let go
  if cancelled stopAt turn then (.ended, { w with holding := none })
  else if !pollFd a.poll then (if a.poll = .timeout then .waited else .idle, w)
  else
    match a.write with
    | .ok length =>
        let bytes := (packet.drop offset).take length
        if bytes = [] then (.ended, { w with ended := true, holding := none })
        else (.moved, { w with holding := left packet (offset + bytes.length), given := addWrite bytes w.given })
    | .wouldBlock => (.idle, w)
    | .interrupted | .error => (.ended, { w with ended := true, holding := none })

/-- One turn of the writer, and what it was. -/
def writerTurn (turn : Nat) (w : Writer) : Turn × Writer :=
  match w.holding with
  | some (packet, offset) => writeTurn stopAt answers turn packet offset w
  | none =>
      match (answers turn).packet with
      | none => (.ended, { w with ended := true })
      | some packet =>
          if cancelled stopAt turn then (.ended, { w with ended := true, given := (packet, []) :: w.given })
          else (.moved, { w with holding := left packet 0, given := (packet, []) :: w.given })

/-- The writer after so many turns. -/
def writer : Nat → Writer
  | 0 => {}
  | turn + 1 =>
      let w := writer turn
      if w.ended then w else (writerTurn stopAt answers turn w).2

/-- A writer that does not spin, that ends where it holds a packet and the descriptor has nothing but errors,
and that writes every packet whole, if at all, and in the order in which they came. -/
structure WriterGood : Prop where
  busy : ∀ turn, (writer stopAt answers turn).ended = false →
    (writerTurn stopAt answers turn (writer stopAt answers turn)).1 ≠ .idle
  ends : ∀ turn, (writer stopAt answers turn).holding.isSome →
    (∀ later, turn ≤ later → (answers later).poll = .errorOnly) →
      ∃ turn, (writer stopAt answers turn).ended = true
  whole : ∀ turn, ∀ e ∈ (writer stopAt answers turn).given, e.2 = [] ∨ e.2 = [e.1]
  ordered : ∀ turn, ((writer stopAt answers turn).given.reverse.flatMap Prod.snd).Sublist
    ((writer stopAt answers turn).given.reverse.map Prod.fst)

/-- A turn that is answered by a timeout, or by the event that is asked for, where the packet is taken whole or
not at all. -/
def WriterAnswer.Fine (a : WriterAnswer) (packet : Bytes) : Prop :=
  a.poll = .timeout ∨
    (a.poll = .asked ∧ a.write ≠ .wouldBlock ∧
      ∀ length, a.write = .ok length → length = 0 ∨ packet.length ≤ length)

variable {stopAt answers}

theorem writerTurn_idle_iff {turn : Nat} {w : Writer} :
    (writerTurn stopAt answers turn w).1 = .idle ↔ w.holding.isSome ∧ cancelled stopAt turn = false ∧
      ¬ ((answers turn).poll = .timeout ∨ ((answers turn).poll = .asked ∧ (answers turn).write ≠ .wouldBlock)) := by
  unfold writerTurn
  -- nothing is held: a packet comes in, or the turn waits in the channel
  cases hholding : w.holding with
  | none =>
      cases hpacket : (answers turn).packet with
      | none => simp
      | some packet => cases hstop : cancelled stopAt turn <;> simp
  | some held =>
      obtain ⟨packet, offset⟩ := held
      simp only [writeTurn]
      cases hstop : cancelled stopAt turn with
      | true => simp
      -- the poll decides, and where it lets the writer on, what the write answers
      | false =>
          cases hpoll : (answers turn).poll with
          | timeout => simp [pollFd]
          | errorOnly => simp [pollFd]
          | failed => simp [pollFd]
          | asked =>
              cases hwrite : (answers turn).write with
              | ok length => by_cases hempty : (packet.drop offset).take length = [] <;> simp [pollFd, hempty]
              | wouldBlock => simp [pollFd]
              | interrupted => simp [pollFd]
              | error => simp [pollFd]

/-- What a turn does to a packet that is held. -/
theorem writer_succ_holding {turn : Nat} {packet : Bytes} {offset : Nat}
    (hended : (writer stopAt answers turn).ended = false)
    (hholding : (writer stopAt answers turn).holding = some (packet, offset)) :
    writer stopAt answers (turn + 1) =
      (writeTurn stopAt answers turn packet offset (writer stopAt answers turn)).2 := by
  simp [writer, hended, writerTurn, hholding]

theorem left_eq_some {packet held : Bytes} {offset start : Nat} (h : left packet offset = some (held, start)) :
    held = packet ∧ start = offset ∧ offset < packet.length := by
  unfold left at h
  split at h
  · cases h
    exact ⟨rfl, rfl, ‹_›⟩
  · exact nomatch h

/-- The packet that is held was taken last, and there is something left of it. -/
def Writer.Held (w : Writer) : Prop :=
  ∀ packet offset, w.holding = some (packet, offset) →
    offset < packet.length ∧ ∃ writes rest, w.given = (packet, writes) :: rest

theorem writeTurn_held {turn : Nat} {packet : Bytes} {offset : Nat} {w : Writer} (h : w.Held)
    (hholding : w.holding = some (packet, offset)) : (writeTurn stopAt answers turn packet offset w).2.Held := by
  obtain ⟨-, writes, rest, hgiven⟩ := h packet offset hholding
  unfold writeTurn
  cases hstop : cancelled stopAt turn with
  | true => simp [Writer.Held]
  | false =>
      cases hready : pollFd (answers turn).poll with
      | false => simpa [hready] using h
      | true =>
          cases hwrite : (answers turn).write with
          | ok length =>
              by_cases hempty : (packet.drop offset).take length = []
              · simp [hready, hwrite, hempty, Writer.Held]
              · intro held start heq
                simp only [hready, hwrite, hempty] at heq ⊢
                obtain ⟨rfl, rfl, hlt⟩ := left_eq_some heq
                exact ⟨hlt, writes ++ [(held.drop offset).take length], rest, by simp [addWrite, hgiven]⟩
          | wouldBlock => simpa [hready, hwrite] using h
          | interrupted => simp [hready, hwrite, Writer.Held]
          | error => simp [hready, hwrite, Writer.Held]

theorem writerTurn_held {turn : Nat} {w : Writer} (h : w.Held) : (writerTurn stopAt answers turn w).2.Held := by
  unfold writerTurn
  cases hholding : w.holding with
  | some held => exact writeTurn_held h hholding
  | none =>
      cases hpacket : (answers turn).packet with
      | none => simp [Writer.Held]
      | some packet =>
          cases hstop : cancelled stopAt turn with
          | true => simp [Writer.Held]
          | false =>
              intro held start heq
              obtain ⟨rfl, rfl, hlt⟩ := left_eq_some heq
              exact ⟨hlt, [], w.given, rfl⟩

theorem writer_held (turn : Nat) : (writer stopAt answers turn).Held := by
  induction turn with
  | zero => simp [Writer.Held, writer]
  | succ turn ih =>
      rw [writer]
      cases hended : (writer stopAt answers turn).ended with
      | true => simpa [hended] using ih
      | false => simpa [hended] using writerTurn_held ih

/-- What is held is whole and unwritten, and every packet was written whole or not at all. -/
def Writer.Tidy (w : Writer) : Prop :=
  (∀ packet offset, w.holding = some (packet, offset) → offset = 0 ∧ ∃ rest, w.given = (packet, []) :: rest) ∧
    ∀ e ∈ w.given, e.2 = [] ∨ e.2 = [e.1]

theorem writeTurn_tidy {turn : Nat} {packet : Bytes} {offset : Nat} {w : Writer} (h : w.Tidy)
    (hholding : w.holding = some (packet, offset))
    (hfine : cancelled stopAt turn = false → (answers turn).Fine packet) :
    (writeTurn stopAt answers turn packet offset w).2.Tidy := by
  -- nothing of a packet that is held has been written
  obtain ⟨rfl, rest, hgiven⟩ := h.1 packet offset hholding
  have hrest : ∀ e ∈ rest, e.2 = [] ∨ e.2 = [e.1] := fun e he => h.2 e (by simp [hgiven, he])
  -- by the guards of a turn in their order: the stop, the poll, the write
  unfold writeTurn
  cases hstop : cancelled stopAt turn with
  | true => exact ⟨by simp, h.2⟩
  | false =>
      cases hready : pollFd (answers turn).poll with
      | false => simpa [hready] using h
      | true =>
          cases hwrite : (answers turn).write with
          | ok length =>
              by_cases hempty : packet.take length = []
              · exact ⟨by simp [hready, hwrite, hempty], by simpa [hready, hwrite, hempty] using h.2⟩
              · -- what the descriptor takes of a packet is all of it
                have hwhole : packet.length ≤ length := by
                  rcases hfine hstop with hpoll | ⟨-, -, hlength⟩
                  · simp [hpoll, pollFd] at hready
                  · rcases hlength length hwrite with rfl | hle
                    · simp at hempty
                    · exact hle
                have htake : packet.take length = packet := List.take_of_length_le hwhole
                have hne : packet ≠ [] := fun hnil => hempty (by simp [hnil])
                simp only [hready, hwrite, List.drop_zero, htake, hne]
                refine ⟨by simp [left], ?_⟩
                intro e he
                simp only [hgiven, addWrite, Bool.not_true, Bool.false_eq_true, if_false, List.nil_append,
                  List.mem_cons] at he
                rcases he with rfl | he
                · exact .inr rfl
                -- the entry that is new is the whole packet; the others are as they were
                · exact hrest e he
          | wouldBlock => simpa [hready, hwrite] using h
          | interrupted => exact ⟨by simp [hready, hwrite], by simpa [hready, hwrite] using h.2⟩
          | error => exact ⟨by simp [hready, hwrite], by simpa [hready, hwrite] using h.2⟩

theorem writerTurn_tidy {turn : Nat} {w : Writer} (h : w.Tidy)
    (hfine : ∀ packet offset, w.holding = some (packet, offset) → cancelled stopAt turn = false →
      (answers turn).Fine packet) : (writerTurn stopAt answers turn w).2.Tidy := by
  unfold writerTurn
  cases hholding : w.holding with
  | some held => exact writeTurn_tidy h hholding (hfine held.1 held.2 hholding)
  | none =>
      cases hpacket : (answers turn).packet with
      -- no packet: the channel is empty or closed, and nothing is held
      | none => exact ⟨by simp, h.2⟩
      | some packet =>
          -- the packet in hand is the last that was given, and none of it is written yet
          have hgiven : ∀ e ∈ (packet, []) :: w.given, e.2 = [] ∨ e.2 = [e.1] := by
            intro e he
            rcases List.mem_cons.1 he with rfl | he
            · exact .inl rfl
            · exact h.2 e he
          cases hstop : cancelled stopAt turn with
          | true => exact ⟨by simp, hgiven⟩
          | false =>
              refine ⟨?_, hgiven⟩
              intro held start heq
              obtain ⟨rfl, rfl, -⟩ := left_eq_some heq
              exact ⟨rfl, w.given, rfl⟩

/-- What the answers have to be, turn by turn, where a packet is held. -/
def WriterFine (stopAt : Option Nat) (answers : Nat → WriterAnswer) : Prop :=
  ∀ turn packet offset, (writer stopAt answers turn).ended = false →
    (writer stopAt answers turn).holding = some (packet, offset) → cancelled stopAt turn = false →
    (answers turn).Fine packet

theorem writer_tidy (h : WriterFine stopAt answers) (turn : Nat) : (writer stopAt answers turn).Tidy := by
  induction turn with
  | zero => simp [Writer.Tidy, writer]
  | succ turn ih =>
      rw [writer]
      cases hended : (writer stopAt answers turn).ended with
      | true => simpa [hended] using ih
      | false =>
          simpa [hended] using writerTurn_tidy ih fun packet offset => h turn packet offset hended

/-- Packets that are written whole or not at all are written in their order. -/
theorem sublist_of_whole {given : List (Bytes × List Bytes)} (h : ∀ e ∈ given, e.2 = [] ∨ e.2 = [e.1]) :
    (given.flatMap Prod.snd).Sublist (given.map Prod.fst) := by
  induction given with
  | nil => exact .slnil
  | cons e given ih =>
      have hrest := ih fun e' he' => h e' (List.mem_cons_of_mem e he')
      simp only [List.flatMap_cons, List.map_cons]
      rcases h e List.mem_cons_self with hnone | hall
      · rw [hnone]
        exact hrest.cons e.1
      · rw [hall]
        exact hrest.cons_cons e.1

/-- After `stop`, a writer that holds a packet lets it go and ends. -/
theorem writer_ends_of_stop {turn : Nat} (hended : (writer stopAt answers turn).ended = false)
    (hholding : (writer stopAt answers turn).holding.isSome) (hstop : cancelled stopAt turn = true) :
    (writer stopAt answers (turn + 2)).ended = true := by
  obtain ⟨⟨packet, offset⟩, hheld⟩ := Option.isSome_iff_exists.1 hholding
  have hgone : writer stopAt answers (turn + 1) = { writer stopAt answers turn with holding := none } := by
    rw [writer_succ_holding hended hheld]
    simp [writeTurn, hstop]
  have hlater : cancelled stopAt (turn + 1) = true := by
    cases stopAt with
    | none => exact nomatch hstop
    | some moment =>
        simp only [cancelled, Option.any_some, decide_eq_true_eq] at hstop ⊢
        exact Nat.le_succ_of_le hstop
  cases hpacket : (answers (turn + 1)).packet with
  | none => simp [writer.eq_2 _ _ (turn + 1), hgone, hended, writerTurn, hpacket]
  | some next => simp [writer.eq_2 _ _ (turn + 1), hgone, hended, writerTurn, hpacket, hlater]

/-- **A writer is good exactly where every turn that holds a packet is answered by a timeout, or by the event that
is asked for and a write of the whole packet or of nothing.** -/
theorem writer_good_iff : WriterGood stopAt answers ↔ WriterFine stopAt answers := by
  constructor
  · intro h turn packet offset hended hholding hstop
    by_contra hfine
    have hready : (answers turn).poll = .timeout ∨
        ((answers turn).poll = .asked ∧ (answers turn).write ≠ .wouldBlock) := by
      by_contra hidle
      exact h.busy turn hended (writerTurn_idle_iff.2 ⟨by simp [hholding], hstop, hidle⟩)
    rcases hready with hpoll | ⟨hpoll, hwrite⟩
    · exact hfine (.inl hpoll)
    · obtain ⟨length, hlength, hpos, hshort⟩ :
          ∃ length, (answers turn).write = .ok length ∧ length ≠ 0 ∧ length < packet.length := by
        by_contra hnone
        refine hfine (.inr ⟨hpoll, hwrite, fun length hlength => ?_⟩)
        by_contra hpart
        exact hnone ⟨length, hlength, by omega, by omega⟩
      -- a part of the packet is written on its own
      obtain ⟨hlt, writes, rest, hgiven⟩ := writer_held turn packet offset hholding
      have hsome : (packet.drop offset).take length ≠ [] := by
        simp only [ne_eq, List.take_eq_nil_iff, List.drop_eq_nil_iff, not_or]
        omega
      have hnext : (writer stopAt answers (turn + 1)).given =
          (packet, writes ++ [(packet.drop offset).take length]) :: rest := by
        rw [writer_succ_holding hended hholding]
        simp [writeTurn, hstop, hpoll, pollFd, hlength, hsome, hgiven, addWrite]
      have hwhole := h.whole (turn + 1) _ (by rw [hnext]; exact List.mem_cons_self)
      rcases hwhole with hempty | hall
      · simp at hempty
      · have hbytes : (packet.drop offset).take length = packet := by
          cases writes with
          | nil => simpa using hall
          | cons first writes => simp at hall
        have hcount := congrArg List.length hbytes
        simp only [List.length_take, List.length_drop] at hcount
        omega
  · intro h
    refine ⟨?_, ?_, fun turn => (writer_tidy h turn).2, fun turn => ?_⟩
    · intro turn hended hidle
      obtain ⟨hheld, hstop, hnot⟩ := writerTurn_idle_iff.1 hidle
      obtain ⟨⟨packet, offset⟩, hholding⟩ := Option.isSome_iff_exists.1 hheld
      rcases h turn packet offset hended hholding hstop with hpoll | ⟨hpoll, hwrite, -⟩
      · exact hnot (.inl hpoll)
      · exact hnot (.inr ⟨hpoll, hwrite⟩)
    · intro turn hheld herrors
      cases hended : (writer stopAt answers turn).ended with
      | true => exact ⟨turn, hended⟩
      | false =>
          cases hstop : cancelled stopAt turn with
          | true => exact ⟨turn + 2, writer_ends_of_stop hended hheld hstop⟩
          | false =>
              obtain ⟨⟨packet, offset⟩, hholding⟩ := Option.isSome_iff_exists.1 hheld
              have herror := herrors turn (Nat.le_refl turn)
              rcases h turn packet offset hended hholding hstop with hpoll | ⟨hpoll, -⟩
              all_goals exact absurd (herror.symm.trans hpoll) (by decide)
    · exact sublist_of_whole fun e he => (writer_tidy h turn).2 e (List.mem_reverse.1 he)

end Writer

/-! ## Both loops -/

/-- **The pump is good exactly where no turn of a loop that runs meets an error alone, a failed poll or a write
that would block after all, and no packet is taken in part.** -/
theorem pump_good_iff (stopAt : Option Nat) (reads : Nat → ReaderAnswer) (writes : Nat → WriterAnswer) :
    (ReaderGood stopAt reads ∧ WriterGood stopAt writes) ↔
      (ReaderFine stopAt reads ∧ WriterFine stopAt writes) :=
  and_congr reader_good_iff writer_good_iff

/-- A descriptor that is hung up for good keeps a reader turning; one that takes a byte at a time gets a packet
of two bytes as two packets. -/
theorem hung_up_and_torn :
    ¬ ReaderGood none (fun _ => { poll := .errorOnly, read := .wouldBlock, taken := true }) ∧
      ¬ WriterGood none (fun _ => { packet := some [69, 0], poll := .asked, write := .ok 1 }) := by
  constructor
  · intro h
    exact h.busy 0 rfl rfl
  · intro h
    have htorn := h.whole 3 ([69, 0], [[69], [0]]) (by decide)
    exact absurd htorn (by decide)

end Pump
end Bridge
end AuroraVpn
