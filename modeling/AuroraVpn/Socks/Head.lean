import AuroraVpn.Basic
import Mathlib.Data.List.Infix
import Mathlib.Data.Nat.Find

/-!
# Head — the head of an HTTP request

`find_head_end` and `read_head` of `socks.rs`: the head ends with the first empty line.  `read_head`
looks for it as the bytes come in, from three bytes before those that are new.

* `position_eq_some`: the place that is found is the first one.
* `readHead_exact`: a stream is split where its head ends, however it is cut into reads.
-/

namespace AuroraVpn
namespace Socks

/-- `windows(w.len()).position(|window| window == w)`. -/
def position (w : Bytes) : Bytes → Option Nat
  | [] => none
  | b :: bs => if w.isPrefixOf (b :: bs) then some 0 else (position w bs).map (· + 1)

/-- `\r\n\r\n`. -/
def emptyLine : Bytes :=
  [0x0D, 0x0A, 0x0D, 0x0A]

def findHeadEnd (buffer : Bytes) : Option Nat :=
  (position emptyLine buffer).map (· + 4)

def HTTP_HEAD_LIMIT : Nat :=
  16 * 1024

/-- The loop of `read_head` over what the reads give, where nothing is the end of the stream: the head,
what was read beyond it, and the reads that were not made. -/
def readHeadFrom (buf : Bytes) : List Bytes → Except AetherError (Bytes × Bytes × List Bytes)
  | [] => .error (.other "the http client closed before sending a request")
  | chunk :: reads =>
      if chunk = [] then .error (.other "the http client closed before sending a request")
      else
        let searchFrom := buf.length - 3
        let buf := buf ++ chunk
        match position emptyLine (buf.drop searchFrom) with
        | some pos => .ok (buf.take (searchFrom + pos + 4), buf.drop (searchFrom + pos + 4), reads)
        | none =>
            if HTTP_HEAD_LIMIT < buf.length then .error (.other "http request head too large")
            else readHeadFrom buf reads

def readHead (reads : List Bytes) : Except AetherError (Bytes × Bytes × List Bytes) :=
  readHeadFrom [] reads

/-- The stream is cut into reads of a buffer of 2048 bytes. -/
def Cut (stream : Bytes) (reads : List Bytes) : Prop :=
  reads.flatten = stream ∧ ∀ chunk ∈ reads, chunk ≠ [] ∧ chunk.length ≤ 2048

section Proofs

variable {w buf stream : Bytes} {reads : List Bytes} {i n : Nat}

/-- The place that is found is the first one. -/
theorem position_eq_some (hw : w ≠ []) :
    position w buf = some i ↔ w <+: buf.drop i ∧ ∀ j < i, ¬ w <+: buf.drop j := by
  induction buf generalizing i with
  | nil =>
      refine ⟨nofun, ?_⟩
      rintro ⟨hbegins, -⟩
      rw [List.drop_nil] at hbegins
      exact absurd (List.prefix_nil.1 hbegins) hw
  | cons b bs ih =>
      unfold position
      by_cases hhere : w <+: b :: bs
      · rw [if_pos (List.isPrefixOf_iff_prefix.2 hhere)]
        -- here: no earlier place is left
        constructor
        · rintro ⟨⟩
          exact ⟨hhere, nofun⟩
        · rintro ⟨-, hfirst⟩
          cases i with
          | zero => rfl
          | succ i => exact absurd hhere (hfirst 0 (Nat.succ_pos i))
      · rw [if_neg fun h => hhere (List.isPrefixOf_iff_prefix.1 h), Option.map_eq_some_iff]
        -- later: the place in the tail, one further on
        constructor
        · rintro ⟨k, hk, rfl⟩
          obtain ⟨hbegins, hfirst⟩ := ih.1 hk
          refine ⟨hbegins, ?_⟩
          intro j hj
          cases j with
          | zero => exact hhere
          | succ j => exact hfirst j (Nat.lt_of_succ_lt_succ hj)
        · rintro ⟨hbegins, hfirst⟩
          cases i with
          | zero => exact absurd hbegins hhere
          | succ i =>
              exact ⟨i, ih.2 ⟨hbegins, fun j hj => hfirst (j + 1) (Nat.succ_lt_succ hj)⟩, rfl⟩

theorem position_eq_none (hw : w ≠ []) : position w buf = none ↔ ∀ i, ¬ w <+: buf.drop i := by
  constructor
  · intro hnone i hbegins
    -- the first place at which it stands would have been found
    have hex : ∃ i, w <+: buf.drop i := ⟨i, hbegins⟩
    classical
    have hfound := (position_eq_some hw).2 ⟨Nat.find_spec hex, fun j hj => Nat.find_min hex hj⟩
    rw [hnone] at hfound
    cases hfound
  · intro h
    cases hposition : position w buf with
    | none => rfl
    | some i => exact absurd ((position_eq_some hw).1 hposition).1 (h i)

/-- What stands in a part of the stream stands in the stream. -/
theorem drop_of_part {part : Bytes} (hpart : part <+: stream) {k : Nat} (h : w <+: part.drop k) :
    w <+: stream.drop k :=
  h.trans (hpart.drop k)

theorem emptyLine_ne_nil : emptyLine ≠ [] :=
  nofun

/-- The head ends behind the first empty line. -/
theorem findHeadEnd_eq_some : findHeadEnd stream = some n ↔
    4 ≤ n ∧ emptyLine <+: stream.drop (n - 4) ∧ ∀ j < n - 4, ¬ emptyLine <+: stream.drop j := by
  unfold findHeadEnd
  rw [Option.map_eq_some_iff]
  constructor
  · rintro ⟨i, hi, rfl⟩
    exact ⟨Nat.le_add_left 4 i, (position_eq_some emptyLine_ne_nil).1 hi⟩
  · rintro ⟨hn, hfound⟩
    exact ⟨n - 4, (position_eq_some emptyLine_ne_nil).2 hfound, Nat.sub_add_cancel hn⟩

/-- The head is found in the first read that completes it. -/
theorem readHeadFrom_exact (hend : findHeadEnd stream = some n) (hn : n ≤ HTTP_HEAD_LIMIT)
    (hread : buf ++ reads.flatten = stream) (hbuf : buf.length < n)
    (hreads : ∀ chunk ∈ reads, chunk ≠ []) :
    ∃ consumed unread early, reads = consumed ++ unread ∧
      readHeadFrom buf reads = .ok (stream.take n, early, unread) ∧
      early = (buf ++ consumed.flatten).drop n ∧
      n ≤ (buf ++ consumed.flatten).length ∧ (buf ++ consumed.dropLast.flatten).length < n := by
  obtain ⟨hfour, hfound, hfirst⟩ := findHeadEnd_eq_some.1 hend
  have hlength : n ≤ stream.length := by
    have hle := hfound.length_le
    rw [List.length_drop] at hle
    change 4 ≤ _ at hle
    omega
  induction reads generalizing buf with
  | nil =>
      rw [List.flatten_nil, List.append_nil] at hread
      subst hread
      omega
  | cons chunk reads ih =>
      have hpart : buf ++ chunk <+: stream := ⟨reads.flatten, by
        rw [← hread, List.flatten_cons, List.append_assoc]⟩
      unfold readHeadFrom
      rw [if_neg (hreads chunk List.mem_cons_self)]
      dsimp only
      by_cases henough : n ≤ (buf ++ chunk).length
      · have hhere : emptyLine <+: (buf ++ chunk).drop (n - 4) := by
          refine List.prefix_of_prefix_length_le hfound (hpart.drop (n - 4)) ?_
          rw [List.length_drop]
          change 4 ≤ _
          omega
        have hposition : position emptyLine ((buf ++ chunk).drop (buf.length - 3)) =
            some (n - 4 - (buf.length - 3)) := by
          refine (position_eq_some emptyLine_ne_nil).2 ⟨?_, fun j hj hbegins => ?_⟩
          · rw [List.drop_drop, show buf.length - 3 + (n - 4 - (buf.length - 3)) = n - 4 by omega]
            exact hhere
          · rw [List.drop_drop] at hbegins
            exact hfirst _ (by omega) (drop_of_part hpart hbegins)
        rw [hposition]
        dsimp only
        rw [show buf.length - 3 + (n - 4 - (buf.length - 3)) + 4 = n by omega]
        obtain ⟨more, hmore⟩ := hpart
        refine ⟨[chunk], reads, (buf ++ chunk).drop n, rfl, ?_, ?_, ?_, ?_⟩
        · rw [← hmore, List.take_append_of_le_length henough]
        · rw [List.flatten_singleton]
        · rw [List.flatten_singleton]
          exact henough
        · rw [List.dropLast_singleton, List.flatten_nil, List.append_nil]
          exact hbuf
      · have hnone : position emptyLine ((buf ++ chunk).drop (buf.length - 3)) = none := by
          refine (position_eq_none emptyLine_ne_nil).2 fun i hbegins => ?_
          rw [List.drop_drop] at hbegins
          -- it would end before the head does
          have hle := hbegins.length_le
          rw [List.length_drop] at hle
          change 4 ≤ _ at hle
          exact hfirst (buf.length - 3 + i) (by omega) (drop_of_part hpart hbegins)
        rw [hnone]
        dsimp only
        rw [if_neg (by omega)]
        obtain ⟨consumed, unread, early, rfl, hread', hearly, henough', hlate⟩ :=
          ih (show buf ++ chunk ++ reads.flatten = stream by
            rw [← hread, List.flatten_cons, List.append_assoc]) (by omega)
            fun chunk' hchunk' => hreads chunk' (List.mem_cons_of_mem _ hchunk')
        have hne : consumed ≠ [] := by
          rintro rfl
          rw [List.flatten_nil, List.append_nil] at henough'
          exact henough henough'
        refine ⟨chunk :: consumed, unread, early, rfl, hread', ?_, ?_, ?_⟩
        · rw [hearly, List.flatten_cons, List.append_assoc]
        · rw [List.flatten_cons, ← List.append_assoc]
          exact henough'
        · rw [List.dropLast_cons_of_ne_nil hne, List.flatten_cons, ← List.append_assoc]
          exact hlate

/-- **A stream is split where its head ends**, however it is cut into reads: nothing is lost, and the
read that completes the head is the last one that is made. -/
theorem readHead_exact (hend : findHeadEnd stream = some n) (hn : n ≤ HTTP_HEAD_LIMIT)
    (hcut : Cut stream reads) :
    ∃ consumed unread early, reads = consumed ++ unread ∧
      readHead reads = .ok (stream.take n, early, unread) ∧ early = consumed.flatten.drop n ∧
      stream.take n ++ early ++ unread.flatten = stream ∧
      n ≤ consumed.flatten.length ∧ consumed.dropLast.flatten.length < n := by
  obtain ⟨hread, hchunks⟩ := hcut
  have hpos : 0 < n := lt_of_lt_of_le (by decide) (findHeadEnd_eq_some.1 hend).1
  obtain ⟨consumed, unread, early, rfl, hok, hearly, henough, hlate⟩ :=
    readHeadFrom_exact hend hn (show [] ++ reads.flatten = stream from hread) hpos
      fun chunk hchunk => (hchunks chunk hchunk).1
  rw [List.nil_append] at hearly henough hlate
  refine ⟨consumed, unread, early, rfl, hok, hearly, ?_, henough, hlate⟩
  have hsplit : stream = consumed.flatten ++ unread.flatten := by
    rw [← hread, List.flatten_append]
  calc stream.take n ++ early ++ unread.flatten
      = consumed.flatten.take n ++ consumed.flatten.drop n ++ unread.flatten := by
        rw [hearly, hsplit, List.take_append_of_le_length henough]
    _ = stream := by
        rw [List.take_append_drop, hsplit]

/-- An empty line over three reads, and a byte beyond it. -/
theorem readHead_exact_straddled :
    ∃ consumed unread early, [[0x47, 0x0D], [0x0A], [0x0D, 0x0A, 0x2A], [0x2B]] = consumed ++ unread ∧
      readHead [[0x47, 0x0D], [0x0A], [0x0D, 0x0A, 0x2A], [0x2B]] =
        .ok ([0x47, 0x0D, 0x0A, 0x0D, 0x0A], early, unread) ∧
      early = consumed.flatten.drop 5 ∧
      [0x47, 0x0D, 0x0A, 0x0D, 0x0A] ++ early ++ unread.flatten =
        [0x47, 0x0D, 0x0A, 0x0D, 0x0A, 0x2A, 0x2B] ∧
      5 ≤ consumed.flatten.length ∧ consumed.dropLast.flatten.length < 5 :=
  readHead_exact (by decide : findHeadEnd [0x47, 0x0D, 0x0A, 0x0D, 0x0A, 0x2A, 0x2B] = some 5) (by decide)
    ⟨rfl, by decide⟩

end Proofs

end Socks
end AuroraVpn
