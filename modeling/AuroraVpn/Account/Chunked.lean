import AuroraVpn.Lib.Encode
import AuroraVpn.Lib.Radix
import AuroraVpn.Lib.Search
import AuroraVpn.Lib.Utf16
import AuroraVpn.Sniff.Cut
import AuroraVpn.Socks.RequestLine

/-!
# Chunked — a chunked answer, read as bytes and as characters

`parse_response` and `dechunk` of `apifront.rs`, and `parseAnswer` and `dechunk` of `CarriedSocket.kt`, which
counts the units of a string that is decoded already.

* `dechunk_coded`: the chunks of an answer are put together again, wherever they are cut.
* `parseResponse_exact`: the bytes of a chunked answer are read as the answer.
-/

namespace AuroraVpn
namespace Account
namespace Chunked

open IpAddr Radix Search Utf8 Utf16 Socks

/-! ## The bytes -/

def CRLF : Bytes := [0x0D, 0x0A]

/-- The size that a line announces; `usize` has 64 bits. -/
def chunkSize (line : Bytes) : Option Nat :=
  fromStrRadix (2 ^ 64) 16 (trim ((fromUtf8Lossy line).takeWhile (· ≠ ';')))

/-- `dechunk`, from a place of the body on. -/
def dechunk (rest : Bytes) : Bytes :=
  match h : splitAround CRLF rest with
  | none => []
  | some (line, after) =>
      match chunkSize line with
      | none | some 0 => []
      | some size =>
          if size ≤ after.length then
            have : after.length - (size + 2) < rest.length := by
              have hlength := length_of_splitAround h
              rw [show CRLF.length = 2 from rfl] at hlength
              omega
            after.take size ++ dechunk (after.drop (size + 2))
          else
            []
termination_by rest.length

/-- `parse_response`. -/
def parseResponse (raw : Bytes) : Except AetherError (UInt16 × Text) := do
  let some (headBytes, body) := splitAround (CRLF ++ CRLF) raw | throw (.api "truncated response head")
  match Sniff.splitCrlf (fromUtf8Lossy headBytes) with
  | [] => throw (.api "empty response")
  | statusLine :: lines =>
      let some status := (splitWhitespace statusLine)[1]?.bind Routing.parseU16
        | throw (.api ("bad status line: " ++ String.ofList statusLine))
      let chunked := lines.any fun line =>
        let lowered := Upstream.lowercase line
        "transfer-encoding:".toList.isPrefixOf lowered && decide ("chunked".toList <:+: lowered)
      let body := if chunked then dechunk body else body
      pure (status, fromUtf8Lossy body)

/-! ## The characters -/

/-- What is used of Java's characters, with what is documented of them for ASCII. -/
structure Jvm where
  /-- `String(bytes, UTF_8)`, which has a character for what is malformed. -/
  decode : Bytes → Text
  decode_encode : ∀ t, decode (encode t) = t
  /-- `Character.digit`. -/
  digit : Nat → UInt16 → Option Nat
  digit_ascii : ∀ radix c, c.toNat < 128 → digit radix (UInt16.ofNat c.toNat) = toDigit radix c
  equalsIgnoreCase : UInt16 → UInt16 → Bool
  equalsIgnoreCase_ascii : ∀ a b : Char, a.toNat < 128 → b.toNat < 128 →
    (equalsIgnoreCase (UInt16.ofNat a.toNat) (UInt16.ofNat b.toNat) = true ↔ a.toLower = b.toLower)

def crlf : Units := [0x0D, 0x0A]

/-- `Char.isWhitespace`, of a unit. -/
def isWhitespaceUnit (u : UInt16) : Bool :=
  isWhitespaceKotlin (Char.ofNat u.toNat)

/-- `lineSequence`. -/
def lineSequence : Units → List Units
  | 0x0D :: 0x0A :: t => [] :: lineSequence t
  | 0x0D :: t => [] :: lineSequence t
  | 0x0A :: t => [] :: lineSequence t
  | u :: t => (lineSequence t).modifyHead (u :: ·)
  | [] => [[]]

section Jvm

variable (jvm : Jvm)

/-- `toIntOrNull`. -/
def toIntOrNull (radix : Nat) (s : Units) : Option Int :=
  let magnitude (digits : Units) : Option Nat := (digits.mapM (jvm.digit radix)).map (valueOf radix)
  match s with
  | [] => none
  | first :: rest =>
      -- in front of the digits there is at most a sign
      if first < 0x30 then
        if rest = [] then none
        else if first = 0x2D then ((magnitude rest).filter (· ≤ 2 ^ 31)).map fun n => -(n : Int)
        else if first = 0x2B then ((magnitude rest).filter (· < 2 ^ 31)).map fun n => (n : Int)
        else none
      else ((magnitude s).filter (· < 2 ^ 31)).map fun n => (n : Int)

/-- The size that a line announces. -/
def chunkLength (line : Units) : Option Int :=
  toIntOrNull jvm 16 (trimWith isWhitespaceUnit (line.takeWhile (· ≠ 0x3B)))

/-- What ends the reading of a body: an index that does not fit. -/
inductive Thrown
  | outOfBounds
  | noHeader
  | noStatus
  deriving DecidableEq, Repr

/-- `dechunk`, from the index `cursor` on; `rest` stands there.  Indices have 32 bits: the end of a chunk that
does not come behind its beginning is refused by `append`, and a cursor that has gone negative by
`substring`. -/
def dechunkUnits (cursor : Nat) (rest : Units) : Except Thrown Units :=
  if 2 ^ 31 ≤ cursor then .error .outOfBounds
  else
    match h : splitAround crlf rest with
    | none => .ok []
    | some (line, after) =>
        match chunkLength jvm line with
        | none => .ok []
        | some size =>
            if size = 0 then .ok []
            else
              let start := cursor + line.length + 2
              if size < 0 ∨ 2 ^ 31 ≤ start + size then .error .outOfBounds
              else
                have : after.length - (size.toNat + 2) < rest.length := by
                  have hlength := length_of_splitAround h
                  rw [show crlf.length = 2 from rfl] at hlength
                  omega
                let piece := after.take size.toNat
                (dechunkUnits (start + piece.length + 2) (after.drop (size.toNat + 2))).map (piece ++ ·)
termination_by rest.length

/-- `startsWith`, whatever the case. -/
def startsIgnoringCase (w s : Units) : Bool :=
  w.length ≤ s.length && (w.zipWith jvm.equalsIgnoreCase s).all id

/-- `contains`, whatever the case. -/
def containsIgnoringCase (w s : Units) : Bool :=
  s.tails.any (startsIgnoringCase jvm w)

/-- `parseAnswer`. -/
def parseAnswer (raw : Units) : Except Thrown (Int × Units) := do
  let some (header, rest) := splitAround (crlf ++ crlf) raw | throw .noHeader
  let lines := lineSequence header
  let some status := ((lines.headD []).splitOn 0x20)[1]?.bind (toIntOrNull jvm 10) | throw .noStatus
  let chunked := lines.any fun line =>
    startsIgnoringCase jvm (utf16 "Transfer-Encoding:".toList) line &&
      containsIgnoringCase jvm (utf16 "chunked".toList) line
  let body ← if chunked then dechunkUnits jvm 0 rest else .ok rest
  pure (status, body)

end Jvm

/-! ## A chunked answer -/

/-- No line ends in a text. -/
def OneLine (t : Text) : Prop :=
  '\r' ∉ t ∧ '\n' ∉ t

/-- What may follow the size of a chunk in its line. -/
def IsExtension (ext : Text) : Prop :=
  '\r' ∉ ext ∧ ∃ blanks rest, ext = blanks ++ rest ∧ (∀ c ∈ blanks, c = ' ' ∨ c = '\t') ∧
    (rest = [] ∨ rest.head? = some ';')

/-- A chunk, with its size as it is written. -/
structure Chunk where
  size : Text
  ext : Text
  data : Bytes
  size_some : size ≠ []
  size_eq : digitsValue 16 size = some data.length
  data_some : data ≠ []
  extension : IsExtension ext

def Chunk.bytes (chunk : Chunk) : Bytes :=
  encode (chunk.size ++ chunk.ext) ++ CRLF ++ chunk.data ++ CRLF

/-- A header that announces chunked coding. -/
def Announces (header : Text) : Prop :=
  ∃ name front token back, header = name ++ (front ++ token ++ back) ∧
    name.map Char.toLower = "transfer-encoding:".toList ∧ token.map Char.toLower = "chunked".toList

/-- An answer in chunks, whose data is a text, wherever it is cut. -/
structure Response where
  version : Text
  status : UInt16
  reason : Text
  headers : List Text
  chunks : List Chunk
  /-- The line of the last chunk. -/
  zeros : Text
  ext : Text
  trailer : Text
  body : Text
  version_solid : version ≠ [] ∧ ∀ c ∈ version, isWhitespace c = false
  reason_line : OneLine reason ∧ (reason = [] ∨ reason.head? = some ' ')
  headers_lines : ∀ header ∈ headers, OneLine header ∧ header ≠ []
  announced : ∃ header ∈ headers, Announces header
  zeros_eq : zeros ≠ [] ∧ digitsValue 16 zeros = some 0
  extension : IsExtension ext
  joined : chunks.flatMap Chunk.data = encode body
  /-- It is held in memory. -/
  held : (encode body).length < 2 ^ 63

namespace Response

def statusLine (r : Response) : Text :=
  r.version ++ ' ' :: (Nat.toDigits 10 r.status.toNat ++ r.reason)

def head (r : Response) : Text :=
  r.statusLine ++ r.headers.flatMap fun header => '\r' :: '\n' :: header

/-- The body as it is sent. -/
def coded (r : Response) : Bytes :=
  r.chunks.flatMap Chunk.bytes ++ (encode (r.zeros ++ r.ext) ++ CRLF ++ encode r.trailer)

def raw (r : Response) : Bytes :=
  encode r.head ++ (CRLF ++ CRLF) ++ r.coded

/-- The bytes of the answer are put together again, and those of it are what is read. -/
def BytesExact (r : Response) : Prop :=
  parseResponse r.raw = .ok (r.status, r.body)

def UnitsExact (jvm : Jvm) (r : Response) : Prop :=
  parseAnswer jvm (utf16 (jvm.decode r.raw)) = .ok ((r.status.toNat : Int), utf16 r.body)

end Response

/-! ## The bytes are put together -/

section Bytes

/-- A digit is neither a blank nor the beginning of an extension. -/
theorem digit_solid {a : Char} (h : (toDigit 16 a).isSome) : a ≠ ';' ∧ isWhitespace a = false := by
  obtain ⟨hlow, hhigh, hne⟩ := digit_bounds h
  refine ⟨fun heq => hne (by rw [heq]; rfl), ?_⟩
  simp only [isWhitespace, Bool.or_eq_false_iff, Bool.and_eq_false_iff, decide_eq_false_iff_not]
  omega

/-- The blanks and the extension are taken off the line of a chunk. -/
theorem chunkSize_line {size ext : Text} {n : Nat} (hsome : size ≠ []) (hsize : digitsValue 16 size = some n)
    (hn : n < 2 ^ 64) (hext : IsExtension ext) : chunkSize (encode (size ++ ext)) = some n := by
  obtain ⟨-, blanks, rest, rfl, hblanks, hrest⟩ := hext
  -- a digit is neither the mark of an extension nor a blank
  have hdigit : ∀ a ∈ size, a ≠ ';' ∧ isWhitespace a = false := by
    intro a ha
    exact digit_solid (toDigit_of_digitsValue hsize a ha)
  have htake : (size ++ (blanks ++ rest)).takeWhile (· ≠ ';') = size ++ blanks := by
    rw [← List.append_assoc, List.takeWhile_append_of_pos]
    · cases rest with
      | nil => simp
      | cons a rest =>
          obtain rfl : a = ';' := by simpa using hrest
          simp
    · intro a ha
      rcases List.mem_append.1 ha with ha | ha
      · simpa using (hdigit a ha).1
      · rcases hblanks a ha with rfl | rfl <;> decide
  -- what stands in front of `;` ends in blanks, which `trim` takes off
  have htrim : trim (size ++ blanks) = size :=
    trimWith_append (fun a ha => (hdigit a ha).2) hsome fun a ha => by
      rcases hblanks a ha with rfl | rfl <;> decide
  unfold chunkSize
  rw [fromUtf8Lossy_encode, htake, htrim]
  exact fromStrRadix_of_digitsValue hsome hn hsize

theorem dechunk_chunk {line data rest : Bytes} (hline : 0x0D ∉ line) (hsome : data ≠ [])
    (hsize : chunkSize line = some data.length) :
    dechunk (line ++ CRLF ++ data ++ CRLF ++ rest) = data ++ dechunk rest := by
  -- the line of a size has no CR, so the first CRLF is the one behind it
  have hsplit : splitAround CRLF (line ++ CRLF ++ data ++ CRLF ++ rest) = some (line, data ++ CRLF ++ rest) := by
    have hshape : line ++ CRLF ++ data ++ CRLF ++ rest = line ++ 0x0D :: 0x0A :: (data ++ CRLF ++ rest) := by
      simp [CRLF]
    rw [hshape]
    exact splitAround_pair hline _
  rw [dechunk.eq_def]
  split
  next hnone => cases hsplit.symm.trans hnone
  next line' after hfound =>
    cases hsplit.symm.trans hfound
    rw [hsize]
    split
    next hnone => cases hnone
    next hzero => exact absurd (List.length_eq_zero_iff.1 (Option.some.inj hzero)) hsome
    next size _ heq =>
      cases heq
      have htake : (data ++ CRLF ++ rest).take data.length = data := by simp
      have hdrop : (data ++ CRLF ++ rest).drop (data.length + 2) = rest := by
        rw [show data.length + 2 = (data ++ CRLF).length by simp [CRLF], List.drop_left]
      rw [if_pos (by simp), htake, hdrop]

theorem dechunk_last {line : Bytes} (rest : Bytes) (hline : 0x0D ∉ line) (hsize : chunkSize line = some 0) :
    dechunk (line ++ CRLF ++ rest) = [] := by
  have hsplit : splitAround CRLF (line ++ CRLF ++ rest) = some (line, rest) := by
    have hshape : line ++ CRLF ++ rest = line ++ 0x0D :: 0x0A :: rest := by simp [CRLF]
    rw [hshape]
    exact splitAround_pair hline _
  rw [dechunk.eq_def]
  split
  next hnone => cases hsplit.symm.trans hnone
  next line' after hfound =>
    cases hsplit.symm.trans hfound
    rw [hsize]
    rfl

/-- What has been read of a body stands in it, piece behind piece. -/
theorem dechunk_sublist (rest : Bytes) : (dechunk rest).Sublist rest := by
  induction hn : rest.length using Nat.strongRecOn generalizing rest with
  | ind n ih =>
      rw [dechunk.eq_def]
      split
      next => exact List.nil_sublist rest
      next line after hfound =>
        split
        next => exact List.nil_sublist rest
        next => exact List.nil_sublist rest
        next size _ _ =>
          split
          next =>
            have hlength := length_of_splitAround hfound
            rw [show CRLF.length = 2 from rfl] at hlength
            -- the induction is on the length: behind the data and its CRLF less is left
            have hmore := ih (after.drop (size + 2)).length (by rw [List.length_drop]; omega) _ rfl
            have htail : (dechunk (after.drop (size + 2))).Sublist (after.drop size) :=
              hmore.trans (by rw [← List.drop_drop]; exact List.drop_sublist 2 _)
            have hafter := (List.Sublist.refl (after.take size)).append htail
            rw [List.take_append_drop] at hafter
            have hrest : after.Sublist rest := by
              rw [eq_of_splitAround hfound]
              exact List.sublist_append_right _ _
            exact hafter.trans hrest
          next => exact List.nil_sublist rest

theorem length_data_le {chunks : List Chunk} {chunk : Chunk} (h : chunk ∈ chunks) :
    chunk.data.length ≤ (chunks.flatMap Chunk.data).length := by
  have hsub : chunk.data.Sublist (chunks.flatMap Chunk.data) := by
    rw [List.flatMap_def]
    exact List.sublist_flatten_of_mem (List.mem_map_of_mem h)
  exact hsub.length_le

theorem cr_not_mem_line {size ext : Text} {n : Nat} (hsize : digitsValue 16 size = some n) (hext : IsExtension ext) :
    '\r' ∉ size ++ ext := by
  intro hmem
  rcases List.mem_append.1 hmem with hmem | hmem
  · exact absurd (toDigit_of_digitsValue hsize _ hmem) (by decide)
  · exact hext.1 hmem

theorem dechunk_chunks {chunks : List Chunk} (hshort : ∀ chunk ∈ chunks, chunk.data.length < 2 ^ 64)
    {last : Bytes} (hlast : dechunk last = []) :
    dechunk (chunks.flatMap Chunk.bytes ++ last) = chunks.flatMap Chunk.data := by
  induction chunks with
  | nil => exact hlast
  | cons chunk chunks ih =>
      have hline := cr_not_mem_encode fun c hc heq => cr_not_mem_line chunk.size_eq chunk.extension (heq ▸ hc)
      have hsize := chunkSize_line chunk.size_some chunk.size_eq (hshort chunk List.mem_cons_self) chunk.extension
      rw [List.flatMap_cons, List.flatMap_cons, List.append_assoc, Chunk.bytes,
        dechunk_chunk hline chunk.data_some hsize, ih fun other h => hshort other (List.mem_cons_of_mem chunk h)]

/-- **The chunks of an answer are put together**, wherever they are cut. -/
theorem dechunk_coded (r : Response) : dechunk r.coded = encode r.body := by
  have hshort : ∀ chunk ∈ r.chunks, chunk.data.length < 2 ^ 64 := by
    intro chunk hchunk
    have hle := length_data_le hchunk
    have hheld := r.held
    rw [r.joined] at hle
    omega
  have hline := cr_not_mem_encode fun c hc heq => cr_not_mem_line r.zeros_eq.2 r.extension (heq ▸ hc)
  have hlast := dechunk_last (encode r.trailer) hline
    (chunkSize_line r.zeros_eq.1 r.zeros_eq.2 (by decide) r.extension)
  rw [← r.joined]
  exact dechunk_chunks hshort hlast

theorem encode_flatMap (headers : List Text) : encode (headers.flatMap fun header => '\r' :: '\n' :: header) =
    (headers.map encode).flatMap fun line => 0x0D :: 0x0A :: line := by
  induction headers with
  | nil => rfl
  | cons header headers ih =>
      rw [List.flatMap_cons, encode_append, ih]
      rfl

theorem encode_ne_nil {t : Text} (h : t ≠ []) : encode t ≠ [] := by
  intro hempty
  have hback := fromUtf8Lossy_encode t
  rw [hempty] at hback
  exact h hback.symm

theorem cr_not_mem_statusLine (r : Response) : OneLine r.statusLine := by
  have hversion : ∀ c ∈ r.version, isWhitespace c = false := r.version_solid.2
  have hdigits : ∀ c ∈ Nat.toDigits 10 r.status.toNat, isWhitespace c = false :=
    fun c hc => Upstream.digit_not_whitespace hc
  unfold Response.statusLine OneLine
  simp only [List.mem_append, List.mem_cons, not_or]
  refine ⟨⟨fun h => ?_, by decide, fun h => ?_, r.reason_line.1.1⟩,
    fun h => ?_, by decide, fun h => ?_, r.reason_line.1.2⟩
  · exact absurd (hversion _ h) (by decide)
  · exact absurd (hdigits _ h) (by decide)
  · exact absurd (hversion _ h) (by decide)
  · exact absurd (hdigits _ h) (by decide)

theorem splitAround_raw (r : Response) : splitAround (CRLF ++ CRLF) r.raw = some (encode r.head, r.coded) := by
  have hhead : encode r.head =
      encode r.statusLine ++ (r.headers.map encode).flatMap fun line => 0x0D :: 0x0A :: line := by
    rw [Response.head, encode_append, encode_flatMap]
  have hshape : r.raw = encode r.statusLine ++ ((r.headers.map encode).flatMap fun line => 0x0D :: 0x0A :: line) ++
      0x0D :: 0x0A :: 0x0D :: 0x0A :: r.coded := by
    rw [Response.raw, hhead]
    simp [CRLF]
  rw [hshape, hhead]
  refine splitAround_lines (by decide) ?_ ?_ r.coded
  · exact cr_not_mem_encode fun c hc heq => (cr_not_mem_statusLine r).1 (heq ▸ hc)
  · intro line hline
    obtain ⟨header, hheader, rfl⟩ := List.mem_map.1 hline
    obtain ⟨hfree, hsome⟩ := r.headers_lines header hheader
    exact ⟨cr_not_mem_encode fun c hc heq => hfree.1 (heq ▸ hc), encode_ne_nil hsome⟩

theorem splitCrlf_line {t : Text} (h : '\r' ∉ t) : Sniff.splitCrlf t = [t] := by
  induction t with
  | nil => rfl
  | cons c t ih =>
      have hc : ¬ (c = '\r' ∧ t.head? = some '\n') := fun hand => h (hand.1 ▸ List.mem_cons_self)
      rw [Sniff.splitCrlf_cons hc, ih fun hmem => h (List.mem_cons_of_mem c hmem)]
      rfl

theorem splitCrlf_lines {first : Text} {lines : List Text} (hfirst : '\r' ∉ first)
    (hlines : ∀ line ∈ lines, '\r' ∉ line) :
    Sniff.splitCrlf (first ++ lines.flatMap fun line => '\r' :: '\n' :: line) = first :: lines := by
  induction lines generalizing first with
  | nil =>
      rw [List.flatMap_nil, List.append_nil]
      exact splitCrlf_line hfirst
  | cons line lines ih =>
      rw [List.flatMap_cons, List.cons_append, List.cons_append, Sniff.splitCrlf_append, splitCrlf_line hfirst,
        ih (hlines line List.mem_cons_self) fun other h => hlines other (List.mem_cons_of_mem line h)]
      rfl

theorem splitWhitespace_statusLine (r : Response) :
    (splitWhitespace r.statusLine)[1]? = some (Nat.toDigits 10 r.status.toNat) := by
  have hdigits : ∀ c ∈ Nat.toDigits 10 r.status.toNat, isWhitespace c = false :=
    fun c hc => Upstream.digit_not_whitespace hc
  have hsome : Nat.toDigits 10 r.status.toNat ≠ [] := List.length_pos_iff.1 Nat.length_toDigits_pos
  rw [Response.statusLine, splitWhitespace_cons r.version_solid.1 r.version_solid.2 (by decide)]
  rcases r.reason_line.2 with hnone | hblank
  · rw [hnone, List.append_nil, splitWhitespace_single hsome hdigits]
    rfl
  · obtain ⟨rest, hrest⟩ := List.head?_eq_some_iff.1 hblank
    rw [hrest, splitWhitespace_cons hsome hdigits (by decide)]
    rfl

/-- A text that is another in ASCII, whatever the case. -/
theorem lowercase_of_map {s w : Text} (hw : ∀ c ∈ w, c.toNat < 128) (h : s.map Char.toLower = w) :
    Upstream.lowercase s = w := by
  rw [← h]
  refine List.map_congr_left fun c hc => ?_
  have hne : c ≠ '\u212A' := by
    rintro rfl
    exact absurd (hw _ (h ▸ List.mem_map_of_mem hc)) (by decide)
  exact if_neg hne

/-- The header that announces chunks is found. -/
theorem any_announced {headers : List Text} (h : ∃ header ∈ headers, Announces header) :
    (headers.any fun line =>
      let lowered := Upstream.lowercase line
      "transfer-encoding:".toList.isPrefixOf lowered && decide ("chunked".toList <:+: lowered)) = true := by
  obtain ⟨header, hheader, name, front, token, back, rfl, hname, htoken⟩ := h
  refine List.any_eq_true.2 ⟨_, hheader, ?_⟩
  have hlower : Upstream.lowercase (name ++ (front ++ token ++ back)) = "transfer-encoding:".toList ++
      (Upstream.lowercase front ++ "chunked".toList ++ Upstream.lowercase back) := by
    rw [← lowercase_of_map (by decide) hname, ← lowercase_of_map (by decide) htoken]
    simp [Upstream.lowercase]
  dsimp only
  rw [hlower, Bool.and_eq_true, decide_eq_true_eq]
  exact ⟨List.isPrefixOf_iff_prefix.2 (List.prefix_append _ _),
    ⟨"transfer-encoding:".toList ++ Upstream.lowercase front, Upstream.lowercase back, by simp⟩⟩

/-- **The bytes of a chunked answer are read as the answer.** -/
theorem parseResponse_exact (r : Response) : r.BytesExact := by
  have hlines : Sniff.splitCrlf r.head = r.statusLine :: r.headers :=
    splitCrlf_lines (cr_not_mem_statusLine r).1 fun line hline => (r.headers_lines line hline).1.1
  have hstatus : ((splitWhitespace r.statusLine)[1]?.bind Routing.parseU16) = some r.status := by
    rw [splitWhitespace_statusLine]
    exact Upstream.parseU16_toDigits r.status
  unfold Response.BytesExact parseResponse
  rw [splitAround_raw]
  simp only [fromUtf8Lossy_encode, hlines, hstatus]
  rw [if_pos (any_announced r.announced), dechunk_coded, fromUtf8Lossy_encode]
  rfl

end Bytes

end Chunked
end Account
end AuroraVpn
