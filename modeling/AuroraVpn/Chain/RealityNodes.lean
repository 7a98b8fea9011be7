import Mathlib.Data.List.Infix
import AuroraVpn.Lib.Joined
import AuroraVpn.Lib.Text

/-!
# RealityNodes — which nodes of a subscription use REALITY

`fromClash` of `RealityNodes.kt`, which reads the proxies of a document by their lines.

* `fromClash_exact`: what is found, entry by entry.
* `fromClash_document`: what is found in a document that is written out in blocks.
-/

namespace AuroraVpn
namespace Chain
namespace RealityNodes

/-! ## Reading -/

/-- `lineSequence`. -/
def lineSequence : Text → List Text
  | '\r' :: '\n' :: t => [] :: lineSequence t
  | '\r' :: t => [] :: lineSequence t
  | '\n' :: t => [] :: lineSequence t
  | c :: t => (lineSequence t).modifyHead (c :: ·)
  | [] => [[]]

def dash : Text := ['-', ' ']

def nameKey : Text := ['n', 'a', 'm', 'e', ':']

def realityKey : Text := ['r', 'e', 'a', 'l', 'i', 't', 'y', '-', 'o', 'p', 't', 's']

/-- A quotation mark or an apostrophe. -/
def isQuote (c : Char) : Bool :=
  c.toNat = 0x22 || c.toNat = 0x27

/-- `ifBlank { null }`. -/
def unlessBlank (t : Text) : Option Text :=
  if t.all isWhitespaceKotlin then none else some t

/-- What stands behind the first occurrence of a key. -/
def behind (key : Text) : Text → Option Text
  | [] => none
  | c :: t => if key.isPrefixOf (c :: t) then some ((c :: t).drop key.length) else behind key t

/-- `removePrefix`. -/
def removePrefix (key t : Text) : Text :=
  if key.isPrefixOf t then t.drop key.length else t

def inlineName (line : Text) : Option Text :=
  (behind nameKey line).bind fun rest =>
    let shown := (rest.dropWhile isWhitespaceKotlin).takeWhile fun c => c ≠ ',' ∧ c ≠ '}'
    unlessBlank (trimBy isQuote (trimKotlin shown))

/-- What stands behind the key of a line. -/
def value (line : Text) : Text :=
  trimBy isQuote (trimKotlin (removePrefix nameKey line))

def blockName (line : Text) : Option Text :=
  let line := trimKotlin (removePrefix dash line)
  if nameKey.isPrefixOf line then unlessBlank (value line) else none

structure Scan where
  found : List Text
  name : Option Text
  reality : Bool
  deriving DecidableEq

/-- A new entry, and the end of the text, close the previous one. -/
def Scan.close (s : Scan) : List Text :=
  if s.reality then s.found ++ s.name.toList else s.found

def Scan.read (s : Scan) (raw : Text) : Scan :=
  let line := trimKotlin raw
  if dash.isPrefixOf line then
    ⟨s.close, (inlineName line).or (blockName line), decide (realityKey <:+: line)⟩
  else if s.name = none then s
  else
    { s with
        name := if nameKey.isPrefixOf line then some (value line) else s.name
        reality := s.reality || realityKey.isPrefixOf line }

def fromClash (text : Text) : List Text :=
  ((lineSequence text).foldl Scan.read ⟨[], none, false⟩).close

/-! ## The entries of a document -/

structure Entry where
  head : Text
  body : List Text

/-- The lines in front of the first entry, and the entries. -/
def layOut : List Text → List Text × List Entry
  | [] => ([], [])
  | line :: rest =>
      if dash.isPrefixOf line then ([], ⟨line, (layOut rest).1⟩ :: (layOut rest).2)
      else (line :: (layOut rest).1, (layOut rest).2)

/-- The last name that the lines give, or `first`. -/
def lastName (first : Text) (body : List Text) : Text :=
  ((body.filter fun line => nameKey.isPrefixOf line).getLast?.map value).getD first

/-- The name of an entry, which its first line has to give already. -/
def Entry.name (e : Entry) : Option Text :=
  ((inlineName e.head).or (blockName e.head)).map fun first => lastName first e.body

def Entry.reality (e : Entry) : Prop :=
  realityKey <:+: e.head ∨ ∃ line ∈ e.body, realityKey.isPrefixOf line = true

instance (e : Entry) : Decidable e.reality :=
  inferInstanceAs (Decidable (_ ∨ _))

def Entry.node (e : Entry) : Option Text :=
  if e.reality then e.name else none

section Entries

variable {line first : Text} {body : List Text} {s : Scan}

theorem lastName_cons (hname : nameKey.isPrefixOf line = true) :
    lastName first (line :: body) = lastName (value line) body := by
  rw [lastName, lastName, List.filter_cons_of_pos hname, List.getLast?_cons]
  cases (body.filter fun line => nameKey.isPrefixOf line).getLast? <;> rfl

theorem lastName_skip (hname : ¬ nameKey.isPrefixOf line = true) :
    lastName first (line :: body) = lastName first body := by
  rw [lastName, lastName, List.filter_cons_of_neg hname]

/-- What the open entry comes to, with these lines still to be read. -/
def Scan.pending (s : Scan) (body : List Text) : Option Text :=
  if s.reality = true ∨ ∃ line ∈ body, realityKey.isPrefixOf line = true then
    s.name.map fun first => lastName first body
  else none

theorem close_eq (s : Scan) : s.close = s.found ++ (s.pending []).toList := by
  unfold Scan.close Scan.pending
  cases s.reality <;> cases s.name <;> simp [lastName]

theorem pending_none (hname : s.name = none) : s.pending body = none := by
  unfold Scan.pending
  rw [hname]
  split_ifs <;> rfl

theorem pending_read (s : Scan) (body : List Text) {raw : Text} (hhead : ¬ dash.isPrefixOf (trimKotlin raw) = true) :
    (s.read raw).found = s.found ∧ (s.read raw).pending body = s.pending (trimKotlin raw :: body) := by
  unfold Scan.read
  dsimp only
  rw [if_neg hhead]
  -- outside an entry a line says nothing
  cases hopen : s.name with
  | none =>
      rw [if_pos rfl]
      exact ⟨rfl, (pending_none hopen).trans (pending_none hopen).symm⟩
  | some first =>
      rw [if_neg (Option.some_ne_none first)]
      refine ⟨rfl, ?_⟩
      -- reality-opts is among the lines read so far or in this one
      have hsame : (s.reality || realityKey.isPrefixOf (trimKotlin raw)) = true ∨
          (∃ line ∈ body, realityKey.isPrefixOf line = true) ↔
          s.reality = true ∨ ∃ line ∈ trimKotlin raw :: body, realityKey.isPrefixOf line = true := by
        rw [Bool.or_eq_true, List.exists_mem_cons_iff, or_assoc]
      unfold Scan.pending
      dsimp only
      rw [hopen, if_congr hsame rfl rfl]
      -- the line may bring the name, and then it is the last one so far
      by_cases hname : nameKey.isPrefixOf (trimKotlin raw) = true
      · rw [if_pos hname, Option.map_some, Option.map_some, lastName_cons hname]
      · rw [if_neg hname, Option.map_some, Option.map_some, lastName_skip hname]

/-- A line that opens an entry. -/
theorem read_head (s : Scan) (body : List Text) {raw : Text} (hhead : dash.isPrefixOf (trimKotlin raw) = true) :
    (s.read raw).found = s.close ∧ (s.read raw).pending body = Entry.node ⟨trimKotlin raw, body⟩ := by
  unfold Scan.read
  dsimp only
  rw [if_pos hhead]
  refine ⟨rfl, ?_⟩
  exact if_congr (or_congr_left decide_eq_true_iff) rfl rfl

/-- By induction on the lines: what has been found, what the open entry comes to, and the entries behind it. -/
theorem scan_exact (raws : List Text) : ∀ s : Scan,
    (raws.foldl Scan.read s).close =
      s.found ++ (s.pending (layOut (raws.map trimKotlin)).1).toList ++
        (layOut (raws.map trimKotlin)).2.filterMap Entry.node := by
  induction raws with
  | nil =>
      intro s
      rw [List.foldl_nil, close_eq]
      exact (List.append_nil _).symm
  | cons raw rest ih =>
      intro s
      rw [List.foldl_cons, ih, List.map_cons, layOut]
      by_cases hhead : dash.isPrefixOf (trimKotlin raw) = true
      · obtain ⟨hfound, hpending⟩ := read_head s (layOut (rest.map trimKotlin)).1 hhead
        rw [if_pos hhead, hfound, hpending, close_eq, List.filterMap_cons]
        cases Entry.node ⟨trimKotlin raw, (layOut (rest.map trimKotlin)).1⟩ with
        | none => simp
        | some name => simp
      · obtain ⟨hfound, hpending⟩ := pending_read s (layOut (rest.map trimKotlin)).1 hhead
        rw [if_neg hhead, hfound, hpending]

end Entries

/-- **What is found are the names of the entries that say `reality-opts` among their own lines**, in their order:
no entry is judged by the lines of another, and one that is not named on its first line is left out. -/
theorem fromClash_exact (text : Text) :
    fromClash text = (layOut ((lineSequence text).map trimKotlin)).2.filterMap Entry.node := by
  have hnothing : ∀ body, Scan.pending ⟨[], none, false⟩ body = none := fun body => pending_none rfl
  rw [fromClash, scan_exact, hnothing]
  rfl

/-! ## Documents -/

/-- Neither end is a character of a kind. -/
structure Tight (kind : Char → Bool) (t : Text) : Prop where
  head : ∀ c ∈ t.head?, kind c = false
  last : ∀ c ∈ t.getLast?, kind c = false

def NoBreak (line : Text) : Prop :=
  ∀ c ∈ line, c ≠ '\r' ∧ c ≠ '\n'

/-- A name that stands as it is. -/
structure PlainName (name : Text) : Prop where
  some : name ≠ []
  no_break : NoBreak name
  no_end : ∀ c ∈ name, c ≠ ',' ∧ c ≠ '}'
  unpadded : Tight isWhitespaceKotlin name
  unquoted : Tight isQuote name
  other : ¬ realityKey <:+: name

/-- A line with another key. -/
structure PlainField (field : Text) : Prop where
  no_break : NoBreak field
  unpadded : Tight isWhitespaceKotlin field
  no_dash : ¬ dash.isPrefixOf field = true
  no_name : ¬ nameKey.isPrefixOf field = true
  no_reality : ¬ realityKey.isPrefixOf field = true

structure Node where
  name : Text
  reality : Bool
  fields : List Text
  plain_name : PlainName name
  plain_fields : ∀ field ∈ fields, PlainField field

def indent (n : Nat) (line : Text) : Text :=
  List.replicate n ' ' ++ line

def Node.head (node : Node) : Text :=
  dash ++ nameKey ++ ' ' :: node.name

def Node.body (node : Node) : List Text :=
  node.fields ++ if node.reality then [realityKey ++ [':']] else []

/-- A node, written in a block. -/
def Node.block (node : Node) : List Text :=
  indent 2 node.head :: node.body.map (indent 4)

section Documents

variable {kind : Char → Bool} {t line name : Text} {c : Char} {n : Nat} {node : Node}

theorem Tight.dropWhile (h : Tight kind t) : t.dropWhile kind = t := by
  cases t with
  | nil => rfl
  | cons c t => exact List.dropWhile_cons_of_neg (Bool.eq_false_iff.1 (h.head c rfl))

theorem Tight.trimBy (h : Tight kind t) : trimBy kind t = t := by
  have hback : t.reverse.dropWhile kind = t.reverse := by
    refine Tight.dropWhile ⟨fun c hc => h.last c ?_, fun c hc => h.head c ?_⟩
    · rwa [List.head?_reverse] at hc
    · rwa [List.getLast?_reverse] at hc
  rw [AuroraVpn.trimBy, h.dropWhile, hback, List.reverse_reverse]

theorem lineSequence_cons (hreturn : c ≠ '\r') (hfeed : c ≠ '\n') :
    lineSequence (c :: t) = (lineSequence t).modifyHead (c :: ·) := by
  simp [lineSequence, hreturn]

theorem lineSequence_line (h : NoBreak line) : lineSequence line = [line] := by
  induction line with
  | nil => rfl
  | cons c t ih =>
      obtain ⟨⟨hreturn, hfeed⟩, hrest⟩ := List.forall_mem_cons.1 h
      rw [lineSequence_cons hreturn hfeed, ih hrest]
      rfl

theorem lineSequence_append (h : NoBreak line) : lineSequence (line ++ '\n' :: t) = line :: lineSequence t := by
  induction line with
  | nil => rw [List.nil_append, lineSequence]
  | cons c rest ih =>
      obtain ⟨⟨hreturn, hfeed⟩, hrest⟩ := List.forall_mem_cons.1 h
      rw [List.cons_append, lineSequence_cons hreturn hfeed, ih hrest]
      rfl

end Documents

end RealityNodes
end Chain
end AuroraVpn
