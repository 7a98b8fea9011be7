import AuroraVpn.Lib.BigEndian
import AuroraVpn.Lib.Draws
import AuroraVpn.Lib.Radix
import AuroraVpn.Lib.Text
import Mathlib.Tactic.IntervalCases

/-!
# Cps — the language that decoy packets are written in

`parse_range` and `parse_cps` of `aethernoize.rs`.  A specification is a row of tags; the clock and the random
generator are both drawn from (`Draws`).

* `captures_texts`: the tags of a specification are found as they were written.
* `specification_exact`: a specification yields what its tags mean, one after the other.
-/

namespace AuroraVpn
namespace WireGuard
namespace Noise

open BigEndian Draws IpAddr Radix

/-! ## Reading a specification -/

/-- `str::parse::<usize>` with `unwrap_or(0)`. -/
def parseUsize (t : Text) : Nat :=
  (fromStrRadix (2 ^ 64) 10 t).getD 0

def parseRange (data : Text) : Drawing Nat :=
  match data.splitOn '-' with
  | minStr :: maxStr :: _ =>
      let min := parseUsize (trim minStr)
      let max := parseUsize (trim maxStr)
      if min < max ∧ 0 < min then do
        let n ← between min max
        pure (Nat.min n 2048)
      else pure (Nat.min (parseUsize (trim data)) 2048)
  | _ => pure (Nat.min (parseUsize (trim data)) 2048)

/-- `[a-z]`. -/
def isTagLetter (c : Char) : Bool :=
  'a' ≤ c && c ≤ 'z'

/-- The two groups of a match, from what stands between its brackets. -/
def groups (inside : Text) : Text × Text :=
  (inside.takeWhile isTagLetter, trim (inside.dropWhile isTagLetter))

/-- `captures_iter` of `<([a-z]+)\s*([^>]*)>`: a match begins at a bracket that a letter follows and that is
closed somewhere.  The first argument is what has been seen of a match. -/
def captures : Option Text → Text → List (Text × Text)
  | _, [] => []
  | some inside, c :: rest =>
      if c = '>' then groups inside :: captures none rest else captures (some (inside ++ [c])) rest
  | none, c :: rest =>
      if c = '<' ∧ rest.head?.any isTagLetter ∧ '>' ∈ rest then captures (some []) rest
      else captures none rest

/-- `hex::decode`. -/
def decodeHex : Text → Option Bytes
  | [] => some []
  | [_] => none
  | high :: low :: rest => do
      let high ← toDigit 16 high
      let low ← toDigit 16 low
      let bytes ← decodeHex rest
      pure (UInt8.ofNat (high * 16 + low) :: bytes)

/-- The digits behind `0x`, if it is there. -/
def cleanHex (t : Text) : Text :=
  match t with
  | '0' :: 'x' :: rest => rest
  | '0' :: 'X' :: rest => rest
  | _ => t

/-- What the bytes of a random piece are taken from. -/
inductive Alphabet
  | any
  | letters
  | digits
  deriving DecidableEq

def Alphabet.chars : Alphabet → Text
  | .any => []
  | .letters => "abcdefghijklmnopqrstuvwxyzABCDEFGHIJKLMNOPQRSTUVWXYZ".toList
  | .digits => "0123456789".toList

/-- One byte of a random piece. -/
def Alphabet.byte : Alphabet → Drawing UInt8
  | .any => do
      let n ← draw
      pure (UInt8.ofNat n)
  | alphabet => do
      let i ← between 0 (alphabet.chars.length - 1)
      pure (UInt8.ofNat (alphabet.chars.getD i '0').toNat)

/-- The seconds since the epoch. -/
def unixSecs : Drawing Nat := do
  let secs ← draw
  pure (secs % 2 ^ 64)

/-- A random piece whose length the data tells. -/
def piece (alphabet : Alphabet) (data : Text) : Drawing Bytes := do
  let len ← parseRange data
  times alphabet.byte len

def tagBytes : Text → Text → Drawing Bytes
  | ['b'], data => pure ((decodeHex (cleanHex (data.filter fun c => !isWhitespace c))).getD [])
  | ['t'], _ => do
      let ts ← unixSecs
      pure (toBe 4 ts)
  | ['c'], _ => do
      let secs ← unixSecs
      pure (toBe 4 (secs % 0xFFFFFFFF))
  | ['r'], data => piece .any data
  | ['r', 'c'], data => piece .letters data
  | ['r', 'd'], data => piece .digits data
  | _, _ => pure []

def parseCps (spec : Text) : Drawing Bytes := do
  let pieces ← each (fun tag => tagBytes tag.1 tag.2) (captures none spec)
  pure pieces.flatten

/-! ## What a specification says -/

inductive Tag
  | bytes (literal : Bytes)
  | time
  | counter
  | random (alphabet : Alphabet) (lo hi : Nat)
  deriving DecidableEq

def Tag.name : Tag → Text
  | .bytes _ => ['b']
  | .time => ['t']
  | .counter => ['c']
  | .random .any _ _ => ['r']
  | .random .letters _ _ => ['r', 'c']
  | .random .digits _ _ => ['r', 'd']

def hexByte (b : UInt8) : Text :=
  [(b.toNat / 16).digitChar, (b.toNat % 16).digitChar]

def Tag.data : Tag → Text
  | .bytes literal => literal.flatMap hexByte
  | .random _ lo hi => Nat.toDigits 10 lo ++ '-' :: Nat.toDigits 10 hi
  | _ => []

/-- How a tag is written. -/
def Tag.text (tag : Tag) : Text :=
  '<' :: (tag.name ++ (if tag.data = [] then [] else ' ' :: tag.data)) ++ ['>']

/-- A random piece has a length to choose. -/
def Tag.Valid : Tag → Prop
  | .random _ lo hi => 0 < lo ∧ lo < hi ∧ hi < 2 ^ 64
  | _ => True

instance decidableValid (tag : Tag) : Decidable tag.Valid := by
  cases tag <;> unfold Tag.Valid <;> infer_instance

/-- What a tag means. -/
def Tag.yield : Tag → Drawing Bytes
  | .bytes literal => pure literal
  | .time => do
      let ts ← unixSecs
      pure (toBe 4 ts)
  | .counter => do
      let secs ← unixSecs
      pure (toBe 4 (secs % 0xFFFFFFFF))
  | .random alphabet lo hi => do
      let n ← between lo hi
      times alphabet.byte (Nat.min n 2048)

/-- The bounds of the length of what a tag means. -/
def Tag.least : Tag → Nat
  | .bytes literal => literal.length
  | .time => 4
  | .counter => 4
  | .random _ lo _ => Nat.min lo 2048

def Tag.most : Tag → Nat
  | .random _ _ hi => Nat.min hi 2048
  | tag => tag.least

section Proofs

variable {c : Char} {tag : Tag} {tags : List Tag} {inside rest : Text}

/-! ## Digits -/

theorem digit_bounds_of_mem {n radix : Nat} (hlow : 1 < radix) (hradix : radix ≤ 16)
    (hc : c ∈ Nat.toDigits radix n) : ∃ d < 16, c = d.digitChar := by
  induction n using Nat.strong_induction_on with
  | _ n ih =>
      rw [Nat.toDigits_eq_if hlow] at hc
      split_ifs at hc with hn
      · exact ⟨n, hn.trans_le hradix, List.mem_singleton.1 hc⟩
      · rcases List.mem_append.1 hc with hc | hc
        · exact ih _ (Nat.div_lt_self (by omega) hlow) hc
        · exact ⟨_, (Nat.mod_lt _ (by omega)).trans_le hradix, List.mem_singleton.1 hc⟩

/-- What the data of a tag is written with. -/
def IsDataChar (c : Char) : Prop :=
  isWhitespace c = false ∧ c ≠ '>' ∧ (c = '-' ∨ ∃ d < 16, c = d.digitChar)

theorem isDataChar_digit {d : Nat} (hd : d < 16) : IsDataChar d.digitChar := by
  refine ⟨?_, ?_, .inr ⟨d, hd, rfl⟩⟩
  · interval_cases d <;> decide
  · interval_cases d <;> decide

theorem isDataChar_data (hc : c ∈ tag.data) : IsDataChar c := by
  cases tag with
  | bytes literal =>
      obtain ⟨b, -, hb⟩ := List.mem_flatMap.1 hc
      have hlt : b.toNat < 256 := b.toNat_lt
      rcases List.mem_pair.1 hb with rfl | rfl
      · exact isDataChar_digit (by omega)
      · exact isDataChar_digit (Nat.mod_lt _ (by decide))
  | time => cases hc
  | counter => cases hc
  | random alphabet lo hi =>
      rcases List.mem_append.1 hc with hc | hc
      · obtain ⟨d, hd, rfl⟩ := digit_bounds_of_mem (by decide) (by decide) hc
        exact isDataChar_digit hd
      · rcases List.mem_cons.1 hc with rfl | hc
        · exact ⟨by decide, by decide, .inl rfl⟩
        · obtain ⟨d, hd, rfl⟩ := digit_bounds_of_mem (by decide) (by decide) hc
          exact isDataChar_digit hd

/-! ## Finding the tags -/

theorem captures_inside {seen : Text} (hinside : '>' ∉ inside) :
    captures (some seen) (inside ++ '>' :: rest) = groups (seen ++ inside) :: captures none rest := by
  induction inside generalizing seen with
  | nil => simp [captures]
  | cons c inside ih =>
      have hc : c ≠ '>' := fun heq => hinside (heq ▸ List.mem_cons_self)
      have hrest : '>' ∉ inside := fun hmem => hinside (List.mem_cons_of_mem c hmem)
      rw [List.cons_append, captures, if_neg hc, ih hrest, List.append_assoc, List.singleton_append]

theorem name_letters (tag : Tag) : ∀ c ∈ tag.name, isTagLetter c = true := by
  rcases tag with _ | _ | _ | ⟨_ | _ | _, _, _⟩ <;> simp only [Tag.name] <;> decide

theorem name_head (tag : Tag) : tag.name.head?.any isTagLetter = true := by
  rcases tag with _ | _ | _ | ⟨_ | _ | _, _, _⟩ <;> rfl

theorem name_ne_nil (tag : Tag) : tag.name ≠ [] := by
  rcases tag with _ | _ | _ | ⟨_ | _ | _, _, _⟩ <;> exact List.cons_ne_nil _ _

theorem trim_data (tag : Tag) : trim tag.data = tag.data :=
  trim_eq_self fun _ hc => (isDataChar_data hc).1

theorem groups_tag (tag : Tag) :
    groups (tag.name ++ if tag.data = [] then [] else ' ' :: tag.data) = (tag.name, tag.data) := by
  have htake : tag.name.takeWhile isTagLetter = tag.name := List.takeWhile_eq_self_iff.2 (name_letters tag)
  have hdrop : tag.name.dropWhile isTagLetter = [] := List.dropWhile_eq_nil_iff.2 (name_letters tag)
  split_ifs with hdata
  · rw [List.append_nil, groups, htake, hdrop, hdata]
    rfl
  · have hblank : isTagLetter ' ' = false := rfl
    have htrim : trim (' ' :: tag.data) = tag.data := by
      have hcut : trim (' ' :: tag.data) = trim tag.data := rfl
      rw [hcut, trim_data]
    rw [groups, List.takeWhile_append_of_pos (name_letters tag), List.dropWhile_append_of_pos (name_letters tag),
      List.takeWhile_cons_of_neg (by simp [hblank]), List.dropWhile_cons_of_neg (by simp [hblank]), htrim,
      List.append_nil]

theorem not_mem_inside (tag : Tag) : '>' ∉ tag.name ++ if tag.data = [] then [] else ' ' :: tag.data := by
  intro hmem
  rcases List.mem_append.1 hmem with hname | hdata
  · exact absurd (name_letters tag _ hname) (by decide)
  · split_ifs at hdata
    · cases hdata
    · rcases List.mem_cons.1 hdata with heq | hdata
      · exact absurd heq (by decide)
      · exact (isDataChar_data hdata).2.1 rfl

theorem captures_text (tag : Tag) (rest : Text) :
    captures none (tag.text ++ rest) = (tag.name, tag.data) :: captures none rest := by
  have hhead : ((tag.name ++ if tag.data = [] then [] else ' ' :: tag.data) ++ '>' :: rest).head?.any
      isTagLetter = true := by
    obtain ⟨c, name, hname⟩ := List.exists_cons_of_ne_nil (name_ne_nil tag)
    have hletter := name_head tag
    rw [hname] at hletter ⊢
    exact hletter
  have hclosed : '>' ∈ (tag.name ++ if tag.data = [] then [] else ' ' :: tag.data) ++ '>' :: rest :=
    List.mem_append_right _ List.mem_cons_self
  have hshape : tag.text ++ rest =
      '<' :: ((tag.name ++ if tag.data = [] then [] else ' ' :: tag.data) ++ '>' :: rest) := by
    simp [Tag.text]
  rw [hshape, captures, if_pos ⟨rfl, hhead, hclosed⟩, captures_inside (not_mem_inside tag), List.nil_append,
    groups_tag]

/-- The tags are found one after the other. -/
theorem captures_texts (tags : List Tag) :
    captures none (tags.flatMap Tag.text) = tags.map fun tag => (tag.name, tag.data) := by
  induction tags with
  | nil => rfl
  | cons tag tags ih => rw [List.flatMap_cons, captures_text, ih, List.map_cons]

/-! ## What the tags yield -/

theorem decodeHex_hexBytes (literal : Bytes) : decodeHex (literal.flatMap hexByte) = some literal := by
  induction literal with
  | nil => rfl
  | cons b literal ih =>
      have hlt : b.toNat < 256 := b.toNat_lt
      have hbyte : UInt8.ofNat (b.toNat / 16 * 16 + b.toNat % 16) = b := by
        rw [Nat.div_add_mod', UInt8.ofNat_toNat]
      have hshape : (b :: literal).flatMap hexByte =
          (b.toNat / 16).digitChar :: (b.toNat % 16).digitChar :: literal.flatMap hexByte := rfl
      have hhigh := toDigit_hexDigit (d := b.toNat / 16) (by omega)
      have hlow := toDigit_hexDigit (d := b.toNat % 16) (Nat.mod_lt _ (by decide))
      rw [hshape, decodeHex, hhigh, hlow, ih]
      exact congrArg (fun first => some (first :: literal)) hbyte

theorem cleanHex_hexBytes (literal : Bytes) : cleanHex (literal.flatMap hexByte) = literal.flatMap hexByte := by
  cases literal with
  | nil => rfl
  | cons b literal =>
      have hmark : ∀ d < 16, d.digitChar ≠ 'x' ∧ d.digitChar ≠ 'X' := by
        intro d hd
        interval_cases d <;> decide
      obtain ⟨hx, hX⟩ := hmark (b.toNat % 16) (Nat.mod_lt _ (by decide))
      have hshape : (b :: literal).flatMap hexByte =
          (b.toNat / 16).digitChar :: (b.toNat % 16).digitChar :: literal.flatMap hexByte := rfl
      rw [hshape]
      unfold cleanHex
      split
      · rename_i heq
        exact absurd (List.cons.inj (List.cons.inj heq).2).1 hx
      · rename_i heq
        exact absurd (List.cons.inj (List.cons.inj heq).2).1 hX
      · rfl

theorem parseUsize_toDigits {n : Nat} (hn : n < 2 ^ 64) : parseUsize (trim (Nat.toDigits 10 n)) = n := by
  have htrim : trim (Nat.toDigits 10 n) = Nat.toDigits 10 n := by
    apply trim_eq_self
    intro c hc
    obtain ⟨d, hd, rfl⟩ := digit_bounds_of_mem (by decide) (by decide) hc
    exact (isDataChar_digit hd).1
  rw [htrim, parseUsize, fromStrRadix_of_digitsValue Nat.toDigits_ne_nil hn (digitsValue_toDigits n)]
  rfl

theorem splitOn_range (lo hi : Nat) :
    (Nat.toDigits 10 lo ++ '-' :: Nat.toDigits 10 hi).splitOn '-' = [Nat.toDigits 10 lo, Nat.toDigits 10 hi] := by
  have hdash : ∀ n : Nat, '-' ∉ Nat.toDigits 10 n := by
    intro n hmem
    exact absurd (Nat.isDigit_of_mem_toDigits (by decide) (by decide) hmem) (by decide)
  have hparts : ∀ part ∈ [Nat.toDigits 10 lo, Nat.toDigits 10 hi], '-' ∉ part := by
    intro part hpart
    rcases List.mem_pair.1 hpart with rfl | rfl
    · exact hdash lo
    · exact hdash hi
  have hwhole : ['-'].intercalate [Nat.toDigits 10 lo, Nat.toDigits 10 hi] =
      Nat.toDigits 10 lo ++ '-' :: Nat.toDigits 10 hi := by
    simp [List.intercalate]
  rw [← hwhole]
  exact List.splitOn_intercalate _ hparts (List.cons_ne_nil _ _)

theorem parseRange_range {lo hi : Nat} (hlo : 0 < lo) (hlt : lo < hi) (hhi : hi < 2 ^ 64) :
    parseRange (Nat.toDigits 10 lo ++ '-' :: Nat.toDigits 10 hi) = (do
      let n ← between lo hi
      pure (Nat.min n 2048)) := by
  unfold parseRange
  rw [splitOn_range]
  simp only [parseUsize_toDigits (hlt.trans hhi), parseUsize_toDigits hhi, hlo, hlt, and_self, if_true]

theorem tagBytes_tag (hvalid : tag.Valid) : tagBytes tag.name tag.data = tag.yield := by
  cases tag with
  | bytes literal =>
      have hfilter : (literal.flatMap hexByte).filter (fun c => !isWhitespace c) = literal.flatMap hexByte := by
        apply List.filter_eq_self.2
        intro c hc
        have hchar : c ∈ (Tag.bytes literal).data := hc
        rw [(isDataChar_data hchar).1]
        rfl
      simp only [Tag.name, Tag.data, tagBytes, hfilter, cleanHex_hexBytes, decodeHex_hexBytes]
      rfl
  | time => rfl
  | counter => rfl
  | random alphabet lo hi =>
      obtain ⟨hlo, hlt, hhi⟩ := hvalid
      cases alphabet <;> simp only [Tag.name, Tag.data, tagBytes, piece, parseRange_range hlo hlt hhi] <;> rfl

theorem parseCps_texts (hvalid : ∀ tag ∈ tags, tag.Valid) :
    parseCps (tags.flatMap Tag.text) = (do
      let pieces ← each Tag.yield tags
      pure pieces.flatten) := by
  unfold parseCps
  rw [captures_texts, each_map, each_congr fun tag htag => tagBytes_tag (hvalid tag htag)]

theorem always_yield (hvalid : tag.Valid) :
    Always tag.yield fun bytes => tag.least ≤ bytes.length ∧ bytes.length ≤ tag.most := by
  cases tag with
  | bytes literal => exact always_pure ⟨le_rfl, le_rfl⟩
  | time =>
      apply always_bind (always_true unixSecs)
      intro secs _
      exact always_pure ⟨(length_toBe 4 _).ge, (length_toBe 4 _).le⟩
  | counter =>
      apply always_bind (always_true unixSecs)
      intro secs _
      exact always_pure ⟨(length_toBe 4 _).ge, (length_toBe 4 _).le⟩
  | random alphabet lo hi =>
      apply always_bind (always_between hvalid.2.1.le)
      intro n hn
      apply (always_times (always_true alphabet.byte) _).imp
      intro bytes hbytes
      rw [hbytes.1]
      exact ⟨min_le_min_right 2048 hn.1, min_le_min_right 2048 hn.2⟩

theorem length_pieces {pieces : List Bytes}
    (h : List.Forall₂ (fun tag bytes => tag.least ≤ bytes.length ∧ bytes.length ≤ tag.most) tags pieces) :
    (tags.map Tag.least).sum ≤ pieces.flatten.length ∧ pieces.flatten.length ≤ (tags.map Tag.most).sum := by
  induction h with
  | nil => exact ⟨le_rfl, le_rfl⟩
  | cons hpiece hrest ih =>
      simp only [List.map_cons, List.sum_cons, List.flatten_cons, List.length_append]
      omega

/-- How long a packet may be, by its tags. -/
theorem length_parseCps (hvalid : ∀ tag ∈ tags, tag.Valid) :
    Always (parseCps (tags.flatMap Tag.text)) fun pkt =>
      (tags.map Tag.least).sum ≤ pkt.length ∧ pkt.length ≤ (tags.map Tag.most).sum := by
  rw [parseCps_texts hvalid]
  apply always_bind (always_each tags fun tag htag => always_yield (hvalid tag htag))
  intro pieces hpieces
  exact always_pure (length_pieces hpieces)

/-- **A specification yields what its tags mean**, one after the other, and as many bytes as they allow. -/
theorem specification_exact (hvalid : ∀ tag ∈ tags, tag.Valid) :
    parseCps (tags.flatMap Tag.text) = (do
      let pieces ← each Tag.yield tags
      pure pieces.flatten) ∧
      Always (parseCps (tags.flatMap Tag.text)) fun pkt =>
        (tags.map Tag.least).sum ≤ pkt.length ∧ pkt.length ≤ (tags.map Tag.most).sum :=
  ⟨parseCps_texts hvalid, length_parseCps hvalid⟩

/-- A packet that begins like a request. -/
def postTags : List Tag :=
  [.bytes [0x50, 0x4f, 0x53, 0x54], .random .digits 10 20, .random .letters 20 30]

theorem specification_exact_post : postTags.flatMap Tag.text = "<b 504f5354><rd 10-20><rc 20-30>".toList ∧
    Always (parseCps (postTags.flatMap Tag.text)) fun pkt => 34 ≤ pkt.length ∧ pkt.length ≤ 54 := by
  have hvalid : ∀ tag ∈ postTags, tag.Valid := by decide
  exact ⟨(toList_literal rfl).symm, (specification_exact hvalid).2⟩

end Proofs

end Noise
end WireGuard
end AuroraVpn
