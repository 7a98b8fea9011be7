import AuroraVpn.Account.Chunked

/-!
# Decoded — a chunked answer that is counted in characters

`parseAnswer` has the answer as a string, whose units are fewer than its bytes where they are not ASCII, and the
sizes of the chunks count bytes.

* `unitsExact_of_ascii`: the answer is put together again, where its chunks are ASCII.
* `ascii_of_unitsExact`: it is not, where the only chunk is something else.
* `readable_of_answers`, `Readable.answers`: which bodies are read to their end at all.
-/

namespace AuroraVpn
namespace Account
namespace Chunked

open IpAddr Radix Search Utf8 Utf16 Socks

variable (jvm : Jvm)

/-! ## Lines -/

theorem not_mem_unit {c : Char} {t : Text} {u : UInt16} (hu : u = UInt16.ofNat c.toNat) (hc : c.toNat < 128)
    (h : c ∉ t) : u ∉ utf16 t := by
  rw [hu]
  exact fun hmem => h ((mem_utf16_iff hc).1 hmem)

theorem lineSequence_cons {u : UInt16} (t : Units) (hcr : u ≠ 0x0D) (hlf : u ≠ 0x0A) :
    lineSequence (u :: t) = (lineSequence t).modifyHead (u :: ·) := by
  rw [lineSequence.eq_def]
  split
  next heq => exact absurd (List.cons.inj heq).1 hcr
  next heq => exact absurd (List.cons.inj heq).1 hcr
  next heq => exact absurd (List.cons.inj heq).1 hlf
  next heq =>
    obtain ⟨rfl, rfl⟩ := List.cons.inj heq
    rfl
  next heq => cases heq

theorem lineSequence_line {line : Units} (hcr : 0x0D ∉ line) (hlf : 0x0A ∉ line) : lineSequence line = [line] := by
  induction line with
  | nil => rfl
  | cons u line ih =>
      simp only [List.mem_cons, not_or] at hcr hlf
      rw [lineSequence_cons line (Ne.symm hcr.1) (Ne.symm hlf.1), ih hcr.2 hlf.2]
      rfl

theorem lineSequence_append {line : Units} (hcr : 0x0D ∉ line) (hlf : 0x0A ∉ line) (rest : Units) :
    lineSequence (line ++ 0x0D :: 0x0A :: rest) = line :: lineSequence rest := by
  induction line with
  | nil => rfl
  | cons u line ih =>
      simp only [List.mem_cons, not_or] at hcr hlf
      rw [List.cons_append, lineSequence_cons _ (Ne.symm hcr.1) (Ne.symm hlf.1), ih hcr.2 hlf.2]
      rfl

theorem lineSequence_lines {first : Units} {lines : List Units} (hfirst : 0x0D ∉ first ∧ 0x0A ∉ first)
    (hlines : ∀ line ∈ lines, 0x0D ∉ line ∧ 0x0A ∉ line) :
    lineSequence (first ++ lines.flatMap fun line => 0x0D :: 0x0A :: line) = first :: lines := by
  induction lines generalizing first with
  | nil =>
      rw [List.flatMap_nil, List.append_nil]
      exact lineSequence_line hfirst.1 hfirst.2
  | cons line lines ih =>
      have hrest := ih (hlines line List.mem_cons_self) fun other h => hlines other (List.mem_cons_of_mem line h)
      rw [List.flatMap_cons, List.cons_append, List.cons_append, lineSequence_append hfirst.1 hfirst.2, hrest]

/-! ## Numbers -/

section Numbers

variable {size : Text} {radix n : Nat}

theorem ascii_of_digit {a : Char} (h : (toDigit radix a).isSome) : a.toNat < 128 := by
  obtain ⟨-, hhigh, -⟩ := digit_bounds h
  omega

theorem mapM_digit (h : ∀ a ∈ size, a.toNat < 128) :
    (utf16 size).mapM (jvm.digit radix) = size.mapM (toDigit radix) := by
  rw [utf16_ascii h]
  induction size with
  | nil => rfl
  | cons a size ih =>
      rw [List.map_cons, List.mapM_cons, List.mapM_cons, jvm.digit_ascii radix a (h a List.mem_cons_self),
        ih fun b hb => h b (List.mem_cons_of_mem a hb)]

/-- Digits in ASCII are read as the number that they stand for. -/
theorem toIntOrNull_digits (hsome : size ≠ []) (hsize : digitsValue radix size = some n) (hn : n < 2 ^ 31) :
    toIntOrNull jvm radix (utf16 size) = some (n : Int) := by
  have hdigit := toDigit_of_digitsValue hsize
  have hascii : ∀ a ∈ size, a.toNat < 128 := fun a ha => ascii_of_digit (hdigit a ha)
  have hread : ((utf16 size).mapM (jvm.digit radix)).map (valueOf radix) = some n := by
    rw [mapM_digit jvm hascii]
    exact hsize
  obtain ⟨a, s, rfl⟩ := List.exists_cons_of_ne_nil hsome
  have ha := hascii a List.mem_cons_self
  have hunits : utf16 (a :: s) = UInt16.ofNat a.toNat :: utf16 s := by
    rw [utf16_cons, utf16Char_ascii ha]
    rfl
  have hfirst : ¬ UInt16.ofNat a.toNat < 0x30 := by
    rw [UInt16.not_lt, UInt16.le_iff_toNat_le, UInt16.toNat_ofNat_of_lt' (lt_trans ha (by decide))]
    exact (digit_bounds (hdigit a List.mem_cons_self)).1
  rw [hunits] at hread ⊢
  unfold toIntOrNull
  simp only [hfirst, if_false, hread]
  simp [Option.filter, show n < 2147483648 from hn]

/-- The blanks and the extension are taken off the line of a chunk. -/
theorem chunkLength_line {ext : Text} (hsome : size ≠ []) (hsize : digitsValue 16 size = some n) (hn : n < 2 ^ 31)
    (hext : IsExtension ext) : chunkLength jvm (utf16 (size ++ ext)) = some (n : Int) := by
  obtain ⟨-, blanks, rest, rfl, hblanks, hrest⟩ := hext
  -- the digits of the size are ASCII, none of them blank and none the semicolon
  have hdigit : ∀ u ∈ utf16 size, u ≠ 0x3B ∧ isWhitespaceUnit u = false := by
    intro u hu
    have hascii : ∀ a ∈ size, a.toNat < 128 := fun a ha => ascii_of_digit (toDigit_of_digitsValue hsize a ha)
    rw [utf16_ascii hascii] at hu
    obtain ⟨a, ha, rfl⟩ := List.mem_map.1 hu
    have hunit : (UInt16.ofNat a.toNat).toNat = a.toNat :=
      UInt16.toNat_ofNat_of_lt' (lt_trans (hascii a ha) (by decide))
    obtain ⟨hlow, hhigh, hne⟩ := digit_bounds (toDigit_of_digitsValue hsize a ha)
    refine ⟨fun heq => hne (by rw [← hunit, heq]; rfl), ?_⟩
    unfold isWhitespaceUnit
    rw [hunit, Char.ofNat_toNat]
    simp only [isWhitespaceKotlin, Bool.or_eq_false_iff, Bool.and_eq_false_iff, decide_eq_false_iff_not]
    omega
  have hblank : ∀ u ∈ utf16 blanks, u ≠ 0x3B ∧ isWhitespaceUnit u = true := by
    intro u hu
    obtain ⟨a, ha, hmem⟩ := List.mem_flatMap.1 hu
    rcases hblanks a ha with rfl | rfl
    · rw [List.mem_singleton.1 hmem]
      decide
    · rw [List.mem_singleton.1 hmem]
      decide
  -- the extension begins with the semicolon, or there is none
  have htake : (utf16 (size ++ (blanks ++ rest))).takeWhile (· ≠ 0x3B) = utf16 size ++ utf16 blanks := by
    rw [utf16_append, utf16_append, ← List.append_assoc, List.takeWhile_append_of_pos]
    · cases rest with
      | nil => simp
      | cons a rest =>
          obtain rfl : a = ';' := by simpa using hrest
          rw [utf16_cons, utf16Char_ascii (by decide)]
          simp
    · intro u hu
      rcases List.mem_append.1 hu with hu | hu
      · simpa using (hdigit u hu).1
      · simpa using (hblank u hu).1
  have hunits : utf16 size ≠ [] := by
    obtain ⟨a, s, rfl⟩ := List.exists_cons_of_ne_nil hsome
    rw [utf16_cons, utf16Char_ascii (ascii_of_digit (toDigit_of_digitsValue hsize a List.mem_cons_self))]
    exact List.cons_ne_nil _ _
  unfold chunkLength
  rw [htake, trimWith_append (fun u hu => (hdigit u hu).2) hunits fun u hu => (hblank u hu).2]
  exact toIntOrNull_digits jvm hsome hsize hn

end Numbers

/-! ## The chunks -/

section Chunks

variable {cursor size : Nat} {line after rest : Units}

theorem dechunkUnits_end (hcursor : cursor < 2 ^ 31) (hend : splitAround crlf rest = none) :
    dechunkUnits jvm cursor rest = .ok [] := by
  rw [dechunkUnits.eq_def, if_neg (Nat.not_le.2 hcursor)]
  split
  next => rfl
  next _ _ hline => cases hend.symm.trans hline

theorem dechunkUnits_last (hcursor : cursor < 2 ^ 31) (hline : splitAround crlf rest = some (line, after))
    (hsize : chunkLength jvm line = none ∨ chunkLength jvm line = some 0) :
    dechunkUnits jvm cursor rest = .ok [] := by
  rw [dechunkUnits.eq_def, if_neg (Nat.not_le.2 hcursor)]
  split
  next => rfl
  next line' after' hline' =>
    cases hline.symm.trans hline'
    rcases hsize with hsize | hsize
    · rw [hsize]
    · rw [hsize]
      rfl

theorem dechunkUnits_piece (hcursor : cursor < 2 ^ 31) (hline : splitAround crlf rest = some (line, after))
    (hsize : chunkLength jvm line = some (size : Int)) (hpos : 0 < size)
    (hfits : cursor + line.length + 2 + size < 2 ^ 31) :
    dechunkUnits jvm cursor rest =
      (dechunkUnits jvm (cursor + line.length + 2 + (after.take size).length + 2) (after.drop (size + 2))).map
        (after.take size ++ ·) := by
  rw [dechunkUnits.eq_def, if_neg (Nat.not_le.2 hcursor)]
  split
  next hnone => cases hnone.symm.trans hline
  next line' after' hline' =>
    cases hline.symm.trans hline'
    rw [hsize]
    dsimp only
    rw [if_neg (by omega), if_neg (by omega), Int.toNat_natCast]

/-- What ends the reading with an exception. -/
theorem dechunkUnits_thrown {size : Int} (hline : splitAround crlf rest = some (line, after))
    (hsize : chunkLength jvm line = some size) (hzero : size ≠ 0)
    (hout : size < 0 ∨ 2 ^ 31 ≤ ((cursor + line.length + 2 : Nat) : Int) + size) :
    dechunkUnits jvm cursor rest = .error .outOfBounds := by
  rw [dechunkUnits.eq_def]
  split
  next => rfl
  next =>
    split
    next hnone => cases hnone.symm.trans hline
    next line' after' hline' =>
      cases hline.symm.trans hline'
      rw [hsize]
      dsimp only
      rw [if_neg hzero, if_pos (by omega)]

/-- A body that is read to its end: the sizes that are come to are positive, and no chunk ends behind the last
index. -/
inductive Readable : Nat → Units → Prop
  | unfinished {cursor : Nat} {rest : Units} (hcursor : cursor < 2 ^ 31) (hend : splitAround crlf rest = none) :
      Readable cursor rest
  | last {cursor : Nat} {rest line after : Units} (hcursor : cursor < 2 ^ 31)
      (hline : splitAround crlf rest = some (line, after))
      (hsize : chunkLength jvm line = none ∨ chunkLength jvm line = some 0) : Readable cursor rest
  | chunk {cursor size : Nat} {rest line after : Units} (hcursor : cursor < 2 ^ 31)
      (hline : splitAround crlf rest = some (line, after)) (hsize : chunkLength jvm line = some (size : Int))
      (hpos : 0 < size) (hfits : cursor + line.length + 2 + size < 2 ^ 31)
      (hmore : Readable (cursor + line.length + 2 + (after.take size).length + 2) (after.drop (size + 2))) :
      Readable cursor rest

theorem Readable.answers (h : Readable jvm cursor rest) : ∃ out, dechunkUnits jvm cursor rest = .ok out := by
  induction h with
  | unfinished hcursor hend => exact ⟨[], dechunkUnits_end jvm hcursor hend⟩
  | last hcursor hline hsize => exact ⟨[], dechunkUnits_last jvm hcursor hline hsize⟩
  | chunk hcursor hline hsize hpos hfits _ ih =>
      obtain ⟨out, hout⟩ := ih
      rw [dechunkUnits_piece jvm hcursor hline hsize hpos hfits, hout]
      exact ⟨_, rfl⟩

/-- What has been read of a body stands in it, piece behind piece. -/
theorem readable_of_answers {out : Units} (h : dechunkUnits jvm cursor rest = .ok out) :
    Readable jvm cursor rest ∧ out.Sublist rest := by
  induction hn : rest.length using Nat.strongRecOn generalizing cursor rest out with
  | ind n ih =>
      have hcursor : cursor < 2 ^ 31 := by
        refine Nat.lt_of_not_le fun hle => ?_
        rw [dechunkUnits.eq_def, if_pos hle] at h
        cases h
      cases hline : splitAround crlf rest with
      | none =>
          rw [dechunkUnits_end jvm hcursor hline] at h
          cases h
          exact ⟨.unfinished hcursor hline, List.nil_sublist rest⟩
      | some parts =>
          obtain ⟨line, after⟩ := parts
          by_cases hlast : chunkLength jvm line = none ∨ chunkLength jvm line = some 0
          · rw [dechunkUnits_last jvm hcursor hline hlast] at h
            cases h
            exact ⟨.last hcursor hline hlast, List.nil_sublist rest⟩
          · rw [not_or] at hlast
            obtain ⟨size, hsize⟩ := Option.ne_none_iff_exists'.1 hlast.1
            have hzero : size ≠ 0 := fun heq => hlast.2 (heq ▸ hsize)
            by_cases hout : size < 0 ∨ 2 ^ 31 ≤ ((cursor + line.length + 2 : Nat) : Int) + size
            · rw [dechunkUnits_thrown jvm hline hsize hzero hout] at h
              cases h
            · rw [not_or] at hout
              obtain ⟨m, rfl⟩ := Int.eq_ofNat_of_zero_le (Int.not_lt.1 hout.1)
              have hpos : 0 < m := Nat.pos_of_ne_zero fun heq => hzero (congrArg Int.ofNat heq)
              have hfits : cursor + line.length + 2 + m < 2 ^ 31 := by omega
              rw [dechunkUnits_piece jvm hcursor hline hsize hpos hfits] at h
              obtain ⟨more, hmore, rfl⟩ : ∃ more, dechunkUnits jvm
                  (cursor + line.length + 2 + (after.take m).length + 2) (after.drop (m + 2)) = .ok more ∧
                  after.take m ++ more = out := by
                cases hrest : dechunkUnits jvm (cursor + line.length + 2 + (after.take m).length + 2)
                    (after.drop (m + 2)) with
                | error e => rw [hrest] at h; cases h
                | ok more => rw [hrest] at h; exact ⟨more, rfl, Except.ok.inj h⟩
              have hlength := length_of_splitAround hline
              have hshorter : (after.drop (m + 2)).length < n := by
                rw [List.length_drop]
                rw [show crlf.length = 2 from rfl] at hlength
                omega
              obtain ⟨hreadable, hsub⟩ := ih _ hshorter hmore rfl
              refine ⟨.chunk hcursor hline hsize hpos hfits hreadable, ?_⟩
              -- the piece, what ends it, and what has been read behind that
              have hafter : (after.take m ++ more).Sublist after := by
                have htail : more.Sublist (after.drop m) :=
                  hsub.trans (by rw [← List.drop_drop]; exact List.drop_sublist 2 _)
                simpa using (List.Sublist.refl (after.take m)).append htail
              rw [eq_of_splitAround hline]
              exact hafter.trans (List.sublist_append_right _ _)

end Chunks

/-! ## The head -/

section Head

theorem ascii_of_toLower {c : Char} (h : c.toLower.toNat < 128) : c.toNat < 128 := by
  unfold Char.toLower at h
  split at h
  next hupper => exact lt_of_le_of_lt (UInt32.le_iff_toNat_le.1 hupper.2) (by decide)
  next => exact h

theorem startsIgnoringCase_append {w s : Text} (hw : ∀ c ∈ w, c.toNat < 128)
    (hs : s.map Char.toLower = w.map Char.toLower)
    (rest : Units) : startsIgnoringCase jvm (utf16 w) (utf16 s ++ rest) = true := by
  induction w generalizing s with
  | nil =>
      cases s with
      | nil => rfl
      | cons b s => cases hs
  | cons a w ih =>
      cases s with
      | nil => cases hs
      | cons b s =>
          obtain ⟨hhead, htail⟩ := List.cons.inj hs
          have ha : a.toNat < 128 := hw a List.mem_cons_self
          have hb : b.toNat < 128 := ascii_of_toLower (by rw [hhead]; exact (Routing.toLower_ascii ha).1)
          have hsame := (jvm.equalsIgnoreCase_ascii a b ha hb).2 hhead.symm
          have hmore := ih (fun c hc => hw c (List.mem_cons_of_mem a hc)) htail
          rw [utf16_cons, utf16_cons, utf16Char_ascii ha, utf16Char_ascii hb]
          simpa [startsIgnoringCase, hsame] using hmore

/-- The header that announces chunks is found. -/
theorem announced_units {headers : List Text} (h : ∃ header ∈ headers, Announces header) (first : Units) :
    ((first :: headers.map utf16).any fun line =>
      startsIgnoringCase jvm (utf16 "Transfer-Encoding:".toList) line &&
        containsIgnoringCase jvm (utf16 "chunked".toList) line) = true := by
  obtain ⟨header, hheader, name, front, token, back, rfl, hname, htoken⟩ := h
  refine List.any_eq_true.2 ⟨_, List.mem_cons_of_mem first (List.mem_map_of_mem hheader), ?_⟩
  rw [Bool.and_eq_true]
  constructor
  · rw [utf16_append]
    exact startsIgnoringCase_append jvm (by decide) hname _
  · refine List.any_eq_true.2 ⟨utf16 token ++ utf16 back, ?_, ?_⟩
    · rw [List.mem_tails]
      refine ⟨utf16 name ++ utf16 front, ?_⟩
      rw [utf16_append, utf16_append, utf16_append]
      simp
    · exact startsIgnoringCase_append jvm (by decide) htoken _

theorem splitOn_statusLine (r : Response) :
    ((utf16 r.statusLine).splitOn 0x20)[1]? = some (utf16 (Nat.toDigits 10 r.status.toNat)) := by
  have hblank : ∀ {t : Text}, ' ' ∉ t → ∀ u ∈ utf16 t, (u == 0x20) = false := by
    intro t ht u hu
    rw [beq_eq_false_iff_ne]
    rintro rfl
    exact not_mem_unit (c := ' ') rfl (by decide) ht hu
  -- neither the version nor the status has a blank, so the second piece is the status
  have hversion : ' ' ∉ r.version := fun h => absurd (r.version_solid.2 _ h) (by decide)
  have hdigits : ' ' ∉ Nat.toDigits 10 r.status.toNat := Upstream.not_mem_toDigits (by decide)
  have hunits : utf16 r.statusLine =
      utf16 r.version ++ 0x20 :: (utf16 (Nat.toDigits 10 r.status.toNat) ++ utf16 r.reason) := by
    rw [Response.statusLine, utf16_append, utf16_cons, utf16Char_ascii (by decide), utf16_append]
    rfl
  unfold List.splitOn
  rw [hunits, List.splitOnP_append_cons_of_forall_mem (hblank hversion) 0x20 rfl]
  -- behind the status there is nothing, or a blank and the reason
  rcases r.reason_line.2 with hnone | hreason
  · rw [hnone, utf16_nil, List.append_nil, List.splitOnP_eq_singleton (hblank hdigits)]
    rfl
  · obtain ⟨rest, hrest⟩ := List.head?_eq_some_iff.1 hreason
    rw [hrest, utf16_cons, utf16Char_ascii (by decide), List.singleton_append]
    rw [List.splitOnP_append_cons_of_forall_mem (hblank hdigits) _ rfl]
    rfl

theorem line_units {t : Text} (h : OneLine t) : 0x0D ∉ utf16 t ∧ 0x0A ∉ utf16 t :=
  ⟨not_mem_unit (c := '\r') rfl (by decide) h.1, not_mem_unit (c := '\n') rfl (by decide) h.2⟩

theorem utf16_head (r : Response) : utf16 r.head =
    utf16 r.statusLine ++ (r.headers.map utf16).flatMap fun line => 0x0D :: 0x0A :: line := by
  rw [Response.head, utf16_append, utf16_flatMap, List.flatMap_map]
  rfl

/-- The head is read as it is, whatever stands behind it. -/
theorem parseAnswer_head (r : Response) (rest : Units) :
    parseAnswer jvm (utf16 r.head ++ (crlf ++ crlf) ++ rest) =
      (dechunkUnits jvm 0 rest).map fun body => ((r.status.toNat : Int), body) := by
  -- no line of the head has a break, and none is empty
  have hheaders : ∀ line ∈ r.headers.map utf16, (0x0D ∉ line ∧ 0x0A ∉ line) ∧ line ≠ [] := by
    intro line hline
    obtain ⟨header, hheader, rfl⟩ := List.mem_map.1 hline
    obtain ⟨hfree, hsome⟩ := r.headers_lines header hheader
    refine ⟨line_units hfree, ?_⟩
    obtain ⟨c, t, rfl⟩ := List.exists_cons_of_ne_nil hsome
    unfold utf16 utf16Char
    rw [List.flatMap_cons]
    split <;> exact List.cons_ne_nil _ _
  have hstatusLine := line_units (cr_not_mem_statusLine r)
  -- so the head ends with the first empty line
  have hsplit : splitAround (crlf ++ crlf) (utf16 r.head ++ (crlf ++ crlf) ++ rest) = some (utf16 r.head, rest) := by
    have hshape : utf16 r.head ++ (crlf ++ crlf) ++ rest = utf16 r.statusLine ++
        ((r.headers.map utf16).flatMap fun line => 0x0D :: 0x0A :: line) ++ 0x0D :: 0x0A :: 0x0D :: 0x0A :: rest := by
      rw [utf16_head]
      simp [crlf]
    rw [hshape, utf16_head]
    exact splitAround_lines (by decide) hstatusLine.1 (fun line h => ⟨(hheaders line h).1.1, (hheaders line h).2⟩) rest
  have hlines : lineSequence (utf16 r.head) = utf16 r.statusLine :: r.headers.map utf16 := by
    rw [utf16_head]
    exact lineSequence_lines hstatusLine fun line h => (hheaders line h).1
  have hstatus : ((utf16 r.statusLine).splitOn 0x20)[1]?.bind (toIntOrNull jvm 10) = some (r.status.toNat : Int) := by
    rw [splitOn_statusLine]
    exact toIntOrNull_digits jvm (List.length_pos_iff.1 Nat.length_toDigits_pos) (digitsValue_toDigits _)
      (lt_trans r.status.toNat_lt (by decide))
  unfold parseAnswer
  rw [hsplit]
  simp only [hlines, List.headD_cons, hstatus]
  rw [if_pos (announced_units jvm r.announced _)]
  cases dechunkUnits jvm 0 rest <;> rfl

end Head

/-! ## The whole answer -/

namespace Chunk

/-- The chunk as a text, where its data is one. -/
def text (chunk : Chunk) (t : Text) : Text :=
  chunk.size ++ chunk.ext ++ ['\r', '\n'] ++ t ++ ['\r', '\n']

def Ascii (chunk : Chunk) : Prop :=
  ∀ b ∈ chunk.data, b < 0x80

def dataText (chunk : Chunk) : Text :=
  chunk.data.map fun b => Char.ofNat b.toNat

theorem bytes_eq {chunk : Chunk} {t : Text} (h : chunk.data = encode t) : chunk.bytes = encode (chunk.text t) := by
  unfold Chunk.bytes text
  simp only [h, encode_append]
  rfl

theorem toNat_dataText {chunk : Chunk} (h : chunk.Ascii) : ∀ c ∈ chunk.dataText, c.toNat < 128 := by
  intro c hc
  obtain ⟨b, hb, rfl⟩ := List.mem_map.1 hc
  have hlow : b.toNat < 128 := UInt8.lt_iff_toNat_lt.1 (h b hb)
  rwa [toNat_ofNat_ascii hlow]

theorem encode_dataText {chunk : Chunk} (h : chunk.Ascii) : encode chunk.dataText = chunk.data := by
  rw [encode_ascii (toNat_dataText h), asciiBytes, dataText, List.map_map]
  refine (List.map_congr_left fun b hb => ?_).trans (List.map_id _)
  rw [Function.comp_apply, toNat_ofNat_ascii (UInt8.lt_iff_toNat_lt.1 (h b hb)), UInt8.ofNat_toNat]
  rfl

end Chunk

section Whole

variable {jvm : Jvm}

/-- One chunk whose data is a text: as many units are taken as it has bytes. -/
theorem splitAround_text (chunk : Chunk) (t : Text) (rest : Units) :
    splitAround crlf (utf16 (chunk.text t) ++ rest) =
      some (utf16 (chunk.size ++ chunk.ext), utf16 t ++ crlf ++ rest) := by
  have hline := not_mem_unit (c := '\r') rfl (by decide) (cr_not_mem_line chunk.size_eq chunk.extension)
  have hshape : utf16 (chunk.text t) ++ rest =
      utf16 (chunk.size ++ chunk.ext) ++ 0x0D :: 0x0A :: (utf16 t ++ crlf ++ rest) := by
    rw [Chunk.text, utf16_append, utf16_append (_ ++ _ ++ _), utf16_append (_ ++ _)]
    simp [crlf, utf16, utf16Char]
  rw [hshape]
  exact splitAround_pair hline _

theorem dechunkUnits_chunks {chunks : List Chunk} (hascii : ∀ chunk ∈ chunks, chunk.Ascii) {cursor : Nat}
    {last : Units}
    (hlast : ∀ cursor < 2 ^ 31, dechunkUnits jvm cursor last = .ok [])
    (hfits : cursor + (utf16 (chunks.flatMap fun chunk => chunk.text chunk.dataText)).length < 2 ^ 31) :
    dechunkUnits jvm cursor (utf16 (chunks.flatMap fun chunk => chunk.text chunk.dataText) ++ last) =
      .ok (utf16 (chunks.flatMap Chunk.dataText)) := by
  induction chunks generalizing cursor with
  | nil => exact hlast cursor (by simpa using hfits)
  | cons chunk chunks ih =>
      have hchunk := hascii chunk List.mem_cons_self
      have hdata : (utf16 chunk.dataText).length = chunk.data.length := by
        rw [utf16_ascii (Chunk.toNat_dataText hchunk), List.length_map, Chunk.dataText, List.length_map]
      rw [List.flatMap_cons, utf16_append, List.length_append] at hfits
      have hlength := length_of_splitAround (splitAround_text chunk chunk.dataText [])
      simp only [List.append_nil, List.length_append, hdata, show crlf.length = 2 from rfl] at hlength
      have hsize := chunkLength_line jvm chunk.size_some chunk.size_eq (by omega) chunk.extension
      have hpos : 0 < chunk.data.length := List.length_pos_iff.2 chunk.data_some
      rw [List.flatMap_cons, List.flatMap_cons, utf16_append, utf16_append, List.append_assoc]
      rw [dechunkUnits_piece jvm (by omega) (splitAround_text chunk chunk.dataText _) hsize hpos (by omega)]
      -- the data is ASCII, so it has as many units as bytes
      have htake : ∀ rest : Units, (utf16 chunk.dataText ++ crlf ++ rest).take chunk.data.length =
          utf16 chunk.dataText := by
        intro rest
        rw [← hdata, List.append_assoc, List.take_left]
      have hdrop : ∀ rest : Units, (utf16 chunk.dataText ++ crlf ++ rest).drop (chunk.data.length + 2) = rest := by
        intro rest
        rw [show chunk.data.length + 2 = (utf16 chunk.dataText ++ crlf).length by simp [crlf, hdata], List.drop_left]
      rw [htake, hdrop, hdata, ih fun other h => hascii other (List.mem_cons_of_mem chunk h)]
      · rfl
      · omega

/-- The chunk that ends the body, with what follows it. -/
def Response.lastText (r : Response) : Text :=
  r.zeros ++ r.ext ++ ['\r', '\n'] ++ r.trailer

theorem dechunkUnits_lastText (jvm : Jvm) (r : Response) (cursor : Nat) (hcursor : cursor < 2 ^ 31) :
    dechunkUnits jvm cursor (utf16 r.lastText) = .ok [] := by
  have hline := not_mem_unit (c := '\r') rfl (by decide) (cr_not_mem_line r.zeros_eq.2 r.extension)
  have hshape : utf16 r.lastText = utf16 (r.zeros ++ r.ext) ++ 0x0D :: 0x0A :: utf16 r.trailer := by
    rw [Response.lastText, utf16_append, utf16_append (_ ++ _)]
    simp [utf16, utf16Char]
  rw [hshape]
  exact dechunkUnits_last jvm hcursor (splitAround_pair hline _)
    (.inr (chunkLength_line jvm r.zeros_eq.1 r.zeros_eq.2 (by decide) r.extension))

/-- An answer whose chunks are a text is decoded as one. -/
theorem utf16_decode_raw {r : Response} {t : Text} (h : r.chunks.flatMap Chunk.bytes = encode t) :
    utf16 (jvm.decode r.raw) = utf16 r.head ++ (crlf ++ crlf) ++ (utf16 t ++ utf16 r.lastText) := by
  have hraw : r.raw = encode (r.head ++ ['\r', '\n', '\r', '\n'] ++ (t ++ r.lastText)) := by
    unfold Response.raw Response.coded Response.lastText
    simp only [h, encode_append]
    rfl
  rw [hraw, jvm.decode_encode, utf16_append, utf16_append r.head, utf16_append t]
  rfl

/-- **The characters of a chunked answer are read as the answer**, where its chunks are ASCII. -/
theorem unitsExact_of_ascii {r : Response} (hfits : r.raw.length < 2 ^ 31) (h : ∀ chunk ∈ r.chunks, chunk.Ascii) :
    r.UnitsExact jvm := by
  have hbytes : r.chunks.flatMap Chunk.bytes = encode (r.chunks.flatMap fun chunk => chunk.text chunk.dataText) := by
    rw [encode, List.flatMap_assoc]
    exact List.flatMap_congr fun chunk hchunk => Chunk.bytes_eq (Chunk.encode_dataText (h chunk hchunk)).symm
  have hbody : r.chunks.flatMap Chunk.dataText = r.body := by
    have hencode : encode (r.chunks.flatMap Chunk.dataText) = encode r.body := by
      rw [← r.joined, encode, List.flatMap_assoc]
      exact List.flatMap_congr fun chunk hchunk => Chunk.encode_dataText (h chunk hchunk)
    rw [← fromUtf8Lossy_encode (r.chunks.flatMap Chunk.dataText), hencode, fromUtf8Lossy_encode]
  have hshort : (utf16 (r.chunks.flatMap fun chunk => chunk.text chunk.dataText)).length < 2 ^ 31 := by
    have hle := length_utf16_le (r.chunks.flatMap fun chunk => chunk.text chunk.dataText)
    rw [← hbytes] at hle
    unfold Response.raw Response.coded at hfits
    simp only [List.length_append] at hfits
    omega
  unfold Response.UnitsExact
  rw [utf16_decode_raw hbytes, parseAnswer_head,
    dechunkUnits_chunks h (dechunkUnits_lastText jvm r) (by omega), hbody]
  rfl

/-- One chunk that is not ASCII: its last units are those of the line that ends it. -/
theorem ascii_of_unitsExact {r : Response} (hfits : r.raw.length < 2 ^ 31) {chunk : Chunk}
    (hone : r.chunks = [chunk]) (h : r.UnitsExact jvm) : chunk.Ascii := by
  have hdata : chunk.data = encode r.body := by
    rw [← r.joined, hone, List.flatMap_singleton]
  by_contra hhigh
  -- a character beyond ASCII has fewer units than bytes
  have hlong : (utf16 r.body).length < chunk.data.length := by
    rw [hdata]
    refine length_utf16_lt ?_
    by_contra hlow
    refine hhigh fun b hb => ?_
    rw [hdata, encode_ascii fun c hc => Nat.lt_of_not_le fun hle => hlow ⟨c, hc, hle⟩] at hb
    obtain ⟨c, hc, rfl⟩ := List.mem_map.1 hb
    have hc128 : c.toNat < 128 := Nat.lt_of_not_le fun hle => hlow ⟨c, hc, hle⟩
    rw [UInt8.lt_iff_toNat_lt, UInt8.toNat_ofNat_of_lt' (lt_trans hc128 (by decide))]
    exact hc128
  have hbytes : r.chunks.flatMap Chunk.bytes = encode (chunk.text r.body) := by
    rw [hone, List.flatMap_singleton]
    exact Chunk.bytes_eq hdata
  have hshort : chunk.data.length < 2 ^ 31 := by
    unfold Response.raw Response.coded at hfits
    rw [hone, List.flatMap_singleton] at hfits
    unfold Chunk.bytes at hfits
    simp only [List.length_append] at hfits
    omega
  have hline := splitAround_text chunk r.body (utf16 r.lastText)
  have hsize := chunkLength_line jvm chunk.size_some chunk.size_eq hshort chunk.extension
  have hpos : 0 < chunk.data.length := List.length_pos_iff.2 chunk.data_some
  unfold Response.UnitsExact at h
  rw [utf16_decode_raw hbytes, parseAnswer_head] at h
  -- the size fits: more is taken than there is data, up to the line that ends it
  by_cases hin : 0 + (utf16 (chunk.size ++ chunk.ext)).length + 2 + chunk.data.length < 2 ^ 31
  · rw [dechunkUnits_piece jvm (by decide) hline hsize hpos hin] at h
    cases hmore : dechunkUnits jvm _ _ with
    | error e =>
        rw [hmore] at h
        cases h
    | ok more =>
        rw [hmore] at h
        have heq := congrArg (List.length ∘ Prod.snd) (Except.ok.inj h)
        simp only [Function.comp_apply, List.length_append, List.length_take, show crlf.length = 2 from rfl] at heq
        omega
  -- the size does not fit into an `Int`: nothing is read
  · have hout : 2 ^ 31 ≤ ((0 + (utf16 (chunk.size ++ chunk.ext)).length + 2 : Nat) : Int) + chunk.data.length := by
      omega
    rw [dechunkUnits_thrown jvm hline hsize (by omega) (.inr hout)] at h
    cases h

/-- **When a chunked answer is put together again.**  The bytes of it always are.  The characters are where the
chunks are ASCII, and an answer in one chunk is where that is; which bodies are read at all, whatever stands in
them, is said by the sizes that are come to, and what is read of one stands in it. -/
theorem chunked_exact_iff (jvm : Jvm) :
    (∀ r : Response, r.BytesExact) ∧
      (∀ r : Response, r.raw.length < 2 ^ 31 → (∀ chunk ∈ r.chunks, chunk.Ascii) → r.UnitsExact jvm) ∧
      (∀ (r : Response) (chunk : Chunk), r.raw.length < 2 ^ 31 → r.chunks = [chunk] →
        (r.UnitsExact jvm ↔ chunk.Ascii)) ∧
      (∀ rest : Bytes, (dechunk rest).Sublist rest) ∧
      ∀ rest : Units, (∃ out, dechunkUnits jvm 0 rest = .ok out ∧ out.Sublist rest) ↔ Readable jvm 0 rest := by
  refine ⟨parseResponse_exact, fun r => unitsExact_of_ascii, fun r chunk hfits hone => ⟨?_, ?_⟩, dechunk_sublist,
    fun rest => ⟨?_, ?_⟩⟩
  · exact ascii_of_unitsExact hfits hone
  · intro hascii
    refine unitsExact_of_ascii hfits fun other hother => ?_
    rw [hone, List.mem_singleton] at hother
    rwa [hother]
  · rintro ⟨out, hout, -⟩
    exact (readable_of_answers jvm hout).1
  · intro h
    obtain ⟨out, hout⟩ := h.answers
    exact ⟨out, hout, (readable_of_answers jvm hout).2⟩

/-- A machine that is what is documented, for ASCII and for what is well formed. -/
def plainJvm : Jvm where
  decode := fromUtf8Lossy
  decode_encode := fromUtf8Lossy_encode
  digit radix u := toDigit radix (Char.ofNat u.toNat)
  digit_ascii radix c hc := by
    rw [UInt16.toNat_ofNat_of_lt' (lt_trans hc (by decide)), Char.ofNat_toNat]
  equalsIgnoreCase a b := (Char.ofNat a.toNat).toLower == (Char.ofNat b.toNat).toLower
  equalsIgnoreCase_ascii a b ha hb := by
    rw [UInt16.toNat_ofNat_of_lt' (lt_trans ha (by decide)), UInt16.toNat_ofNat_of_lt' (lt_trans hb (by decide)),
      Char.ofNat_toNat, Char.ofNat_toNat, beq_iff_eq]

/-- One chunk of two bytes, which are one character. -/
def accented : Chunk where
  size := ['2']
  ext := []
  data := [0xC3, 0xA9]
  size_some := by decide
  size_eq := by decide
  data_some := by decide
  extension := ⟨by decide, [], [], rfl, by decide, .inl rfl⟩

def accentedAnswer : Response where
  version := "HTTP/1.1".toList
  status := 200
  reason := " OK".toList
  headers := ["Transfer-Encoding: chunked".toList]
  chunks := [accented]
  zeros := ['0']
  ext := []
  trailer := ['\r', '\n']
  body := [Char.ofNat 0xE9]
  version_solid := by decide
  reason_line := by unfold OneLine; decide
  headers_lines := by unfold OneLine; decide
  announced := ⟨_, List.mem_singleton_self _, "Transfer-Encoding:".toList, [' '], "chunked".toList, [],
    by decide, by decide, by decide⟩
  zeros_eq := by decide
  extension := ⟨by decide, [], [], rfl, by decide, .inl rfl⟩
  joined := by decide
  held := by decide

/-- A chunk of one accented character is read with the line that ends it, and a size below zero ends the reading
with an exception. -/
theorem accented_not_exact :
    (¬ ∀ (jvm : Jvm) (r : Response), r.raw.length < 2 ^ 31 → r.BytesExact ∧ r.UnitsExact jvm) ∧
      ¬ ∀ (jvm : Jvm) (rest : Units), ∃ out, dechunkUnits jvm 0 rest = .ok out := by
  constructor
  · intro h
    have hfits : accentedAnswer.raw.length < 2 ^ 31 := by decide
    have hascii : accented.Ascii := ascii_of_unitsExact hfits rfl (h plainJvm accentedAnswer hfits).2
    exact absurd (hascii 0xC3 List.mem_cons_self) (by decide)
  · intro h
    obtain ⟨out, hout⟩ := h plainJvm (utf16 "-5\r\nfive!\r\n".toList)
    have hthrown : dechunkUnits plainJvm 0 (utf16 "-5\r\nfive!\r\n".toList) = .error .outOfBounds :=
      have hline : splitAround crlf (utf16 "-5\r\nfive!\r\n".toList) =
          some (utf16 "-5".toList, utf16 "five!\r\n".toList) := by decide
      have hsize : chunkLength plainJvm (utf16 "-5".toList) = some (-5) := by decide
      dechunkUnits_thrown plainJvm hline hsize (by decide) (.inl (by decide))
    cases hthrown.symm.trans hout

end Whole

end Chunked
end Account
end AuroraVpn
