import AuroraVpn.Chain.Agreement

/-!
# Notes — lines of a routing list that begin with `#`

The three readers of a routing list cut it at newlines, commas and semicolons, and look for the mark of a note
in each part.  A line is deleted from a list, and what the readers make of the list is compared.

* `entries_eq_flatMap`: the parts of a list are the parts of its lines.
* `effectless_iff`: the lines that may be deleted without an effect.
-/

namespace AuroraVpn
namespace Chain

open Routing

variable {ν ρ : Type}

/-! ## Lines -/

def lines (raw : Text) : List Text :=
  raw.splitOn '\n'

def unlines (lines : List Text) : Text :=
  ['\n'].intercalate lines

/-- A line of a list; there is nothing on the lines that it does not have. -/
def lineAt (raw : Text) (i : Nat) : Text :=
  (lines raw)[i]?.getD []

def deleteLine (raw : Text) (i : Nat) : Text :=
  unlines ((lines raw).eraseIdx i)

/-- The first character of the line that is no blank is the mark of a note. -/
def IsNote (line : Text) : Prop :=
  (line.dropWhile fun c => isWhitespace c || isWhitespaceKotlin c).head? = some '#'

/-- The parts of a line. -/
def parts (line : Text) : List Text :=
  line.splitOnP fun c => c = ',' ∨ c = ';'

/-! ## The third reader -/

/-- `ruleCount`. -/
def ruleCount (raw : Text) : Nat :=
  ((entries raw).map trimKotlin).countP fun line => line ≠ [] ∧ line.head? ≠ some '#'

structure RuleCounts where
  blocked : Nat
  direct : Nat
  deriving DecidableEq

def routingCounts (routeBlock routeDirect : Text) : RuleCounts :=
  ⟨ruleCount routeBlock, ruleCount routeDirect⟩

/-! ## A line without an effect -/

/-- What the readers make of a list, beside any other one, is what they make of another. -/
structure SameRules (crates : Parsers ν ρ) (kotlin : Kotlin) (raw raw' : Text) : Prop where
  block : ∀ direct host port, (RuleSet.parse crates raw direct).decide crates.toCrates host port =
    (RuleSet.parse crates raw' direct).decide crates.toCrates host port
  direct : ∀ block host port, (RuleSet.parse crates block raw).decide crates.toCrates host port =
    (RuleSet.parse crates block raw').decide crates.toCrates host port
  rules : ∀ other, chainRules kotlin raw other = chainRules kotlin raw' other ∧
    chainRules kotlin other raw = chainRules kotlin other raw'
  counts : ∀ other, routingCounts raw other = routingCounts raw' other ∧
    routingCounts other raw = routingCounts other raw'

/-- A part that the app leaves out. -/
def LeftOut (part : Text) : Prop :=
  trimKotlin part = [] ∨ (trimKotlin part).head? = some '#'

/-- What the engine reads from a part hits nothing but what a list hits anyway. -/
def Covered (crates : Parsers ν ρ) (rest part : Text) : Prop :=
  ∀ rule, Matcher.parse crates part = some rule → ∀ host port, rule.matches crates.toCrates host port = true →
    (parseList crates rest).any (fun rule => rule.matches crates.toCrates host port) = true

/-! ## Parts -/

theorem parts_ne_nil (line : Text) : parts line ≠ [] :=
  List.splitOnP_ne_nil _ line

theorem entries_nil : entries [] = [[]] :=
  rfl

theorem entries_eq_flatMap (raw : Text) : entries raw = (lines raw).flatMap parts := by
  -- from the front: the separators within a line split its parts, and a line break the lines
  induction raw with
  | nil => rfl
  | cons c raw ih =>
    obtain ⟨line, rest, hlines⟩ := List.exists_cons_of_ne_nil (List.splitOn_ne_nil '\n' raw)
    have hsplit : lines (c :: raw) = if c = '\n' then [] :: line :: rest else (c :: line) :: rest := by
      unfold lines
      rw [List.splitOn_cons_eq_if_modifyHead, hlines]
      simp only [beq_iff_eq]
      rfl
    have hparts : parts (c :: line) = if c = ',' ∨ c = ';' then [] :: parts line
        else (parts line).modifyHead (c :: ·) := by
      unfold parts
      rw [List.splitOnP_cons_eq_if_modifyHead]
      simp only [decide_eq_true_eq]
    change entries raw = List.flatMap parts (List.splitOn '\n' raw) at ih
    rw [hlines, List.flatMap_cons] at ih
    unfold entries at ih ⊢
    rw [List.splitOnP_cons_eq_if_modifyHead, ih, hsplit]
    by_cases hnewline : c = '\n'
    -- a line break begins a line, which is a part of its own
    · rw [if_pos hnewline, if_pos (by simp [hnewline])]
      rfl
    · rw [if_neg hnewline, List.flatMap_cons, hparts]
      -- a comma or a semicolon begins a part within the line
      by_cases hsep : c = ',' ∨ c = ';'
      · rw [if_pos (by simpa [hnewline] using hsep), if_pos hsep]
        rfl
      · rw [if_neg (by simpa [hnewline] using hsep), if_neg hsep]
        obtain ⟨part, more, hmore⟩ := List.exists_cons_of_ne_nil (parts_ne_nil line)
        rw [hmore]
        rfl

theorem newline_not_mem_lines {raw line : Text} (h : line ∈ lines raw) : '\n' ∉ line := by
  intro hmem
  have hsep := (mem_of_mem_splitOnP h '\n' hmem).1
  simp at hsep

section Readers

variable {β : Type} {f : Text → List β}

/-- What is read from the parts, if nothing is read from an empty one. -/
theorem flatMap_unlines (hnil : f [] = []) {ls : List Text} (hls : ∀ l ∈ ls, '\n' ∉ l) :
    (entries (unlines ls)).flatMap f = (ls.flatMap parts).flatMap f := by
  by_cases hempty : ls = []
  · subst hempty
    change (entries []).flatMap f = []
    rw [entries_nil, List.flatMap_singleton, hnil]
  · have hlines : lines (unlines ls) = ls := List.splitOn_intercalate '\n' hls hempty
    rw [entries_eq_flatMap, hlines]

/-- A reader reads the parts of a line in the middle of the others, and the others alone once it is deleted. -/
theorem flatMap_deleteLine (hnil : f [] = []) (raw : Text) (i : Nat) :
    ∃ before behind, (entries raw).flatMap f = before ++ (parts (lineAt raw i)).flatMap f ++ behind ∧
      (entries (deleteLine raw i)).flatMap f = before ++ behind := by
  have hfree : ∀ l ∈ (lines raw).eraseIdx i, '\n' ∉ l := fun l hl =>
    newline_not_mem_lines (List.mem_of_mem_eraseIdx hl)
  unfold deleteLine
  rw [flatMap_unlines hnil hfree, entries_eq_flatMap]
  unfold lineAt
  rcases Nat.lt_or_ge i (lines raw).length with hlt | hge
  · refine ⟨(((lines raw).take i).flatMap parts).flatMap f,
      (((lines raw).drop (i + 1)).flatMap parts).flatMap f, ?_, ?_⟩
    · rw [List.getElem?_eq_getElem hlt, Option.getD_some, ← List.flatMap_append, ← List.flatMap_append,
        ← List.flatMap_singleton parts, ← List.flatMap_append, ← List.flatMap_append, List.append_assoc,
        List.singleton_append, List.getElem_cons_drop, List.take_append_drop]
    · rw [List.eraseIdx_eq_take_drop_succ, List.flatMap_append, List.flatMap_append]
  · refine ⟨((lines raw).flatMap parts).flatMap f, [], ?_, ?_⟩
    · rw [List.getElem?_eq_none hge, Option.getD_none]
      change _ = _ ++ ([[]] : List Text).flatMap f ++ []
      rw [List.flatMap_singleton, hnil, List.append_nil, List.append_nil]
    · rw [List.eraseIdx_of_length_le hge, List.append_nil]

end Readers

/-! ## The readers -/

section Effect

variable {crates : Parsers ν ρ} {kotlin : Kotlin} {raw raw' : Text} {host : Host} {port : UInt16}

/-- The line that the app keeps of a part. -/
def keptLine (part : Text) : List Text :=
  if trimKotlin part ≠ [] ∧ (trimKotlin part).head? ≠ some '#' then [trimKotlin part] else []

theorem ruleLines_eq_flatMap (raw : Text) : ruleLines raw = (entries raw).flatMap keptLine := by
  unfold ruleLines
  induction entries raw with
  | nil => rfl
  | cons part rest ih =>
    rw [List.map_cons, List.flatMap_cons, ← ih, List.filter_cons]
    unfold keptLine
    by_cases hkept : trimKotlin part ≠ [] ∧ (trimKotlin part).head? ≠ some '#'
    · rw [if_pos (by simpa using hkept), if_pos hkept]
      rfl
    · rw [if_neg (by simpa using hkept), if_neg hkept]
      rfl

theorem ruleCount_eq_length (raw : Text) : ruleCount raw = (ruleLines raw).length := by
  unfold ruleCount ruleLines
  rw [List.countP_eq_length_filter]

theorem keptLine_eq_nil_iff {part : Text} : keptLine part = [] ↔ LeftOut part := by
  unfold keptLine LeftOut
  by_cases hkept : trimKotlin part ≠ [] ∧ (trimKotlin part).head? ≠ some '#'
  · rw [if_pos hkept]
    simp only [List.cons_ne_nil, false_iff, not_or]
    exact hkept
  · rw [if_neg hkept]
    simp only [true_iff]
    tauto

theorem parseList_eq_flatMap (crates : Parsers ν ρ) (raw : Text) :
    parseList crates raw = (entries raw).flatMap fun part => (Matcher.parse crates part).toList :=
  List.filterMap_eq_flatMap_toList _ _

/-- One of the rules of a list hits. -/
def anyHits (crates : Parsers ν ρ) (raw : Text) (host : Host) (port : UInt16) : Bool :=
  (parseList crates raw).any fun rule => rule.matches crates.toCrates host port

/-- The decisions are the same beside any other list if the same destinations are hit. -/
theorem decide_block_iff :
    (∀ direct host port, (RuleSet.parse crates raw direct).decide crates.toCrates host port =
      (RuleSet.parse crates raw' direct).decide crates.toCrates host port) ↔
      ∀ host port, anyHits crates raw host port = anyHits crates raw' host port := by
  constructor
  · intro h host port
    have hdecided := h [] host port
    change (if anyHits crates raw host port = true then Action.block else .proxy) =
      if anyHits crates raw' host port = true then Action.block else .proxy at hdecided
    cases hraw : anyHits crates raw host port <;> cases hraw' : anyHits crates raw' host port
    · rfl
    · rw [hraw, hraw'] at hdecided
      cases hdecided
    · rw [hraw, hraw'] at hdecided
      cases hdecided
    · rfl
  · intro h direct host port
    change (if anyHits crates raw host port = true then Action.block else _) =
      if anyHits crates raw' host port = true then Action.block else _
    rw [h host port]
    rfl

theorem decide_direct_of_hits (h : ∀ host port, anyHits crates raw host port = anyHits crates raw' host port)
    (block : Text) (host : Host) (port : UInt16) :
    (RuleSet.parse crates block raw).decide crates.toCrates host port =
      (RuleSet.parse crates block raw').decide crates.toCrates host port := by
  change (if _ then Action.block else if anyHits crates raw host port = true then Action.direct else .proxy) =
    if _ then Action.block else if anyHits crates raw' host port = true then Action.direct else .proxy
  rw [h host port]
  rfl

/-- Deleting a line changes no decision of the engine if its parts are covered by the rest. -/
theorem anyHits_deleteLine_iff (raw : Text) (i : Nat) :
    (∀ host port, anyHits crates raw host port = anyHits crates (deleteLine raw i) host port) ↔
      ∀ part ∈ parts (lineAt raw i), Covered crates (deleteLine raw i) part := by
  obtain ⟨before, behind, hraw, hdeleted⟩ :=
    flatMap_deleteLine (f := fun part => (Matcher.parse crates part).toList) rfl raw i
  rw [← parseList_eq_flatMap] at hraw hdeleted
  unfold anyHits Covered
  rw [hraw, hdeleted]
  simp only [List.any_append]
  constructor
  · intro h part hpart rule hrule host port hhit
    -- a rule of the part hits, so the list with the line has a hit
    have hnote : ((parts (lineAt raw i)).flatMap fun part => (Matcher.parse crates part).toList).any
        (fun rule => rule.matches crates.toCrates host port) = true := by
      refine List.any_eq_true.mpr ⟨rule, List.mem_flatMap.mpr ⟨part, hpart, ?_⟩, hhit⟩
      rw [hrule]
      exact List.mem_cons_self
    have heq := h host port
    rw [hnote, Bool.or_true, Bool.true_or] at heq
    exact heq.symm
  · intro h host port
    cases hnote : ((parts (lineAt raw i)).flatMap fun part => (Matcher.parse crates part).toList).any
        (fun rule => rule.matches crates.toCrates host port) with
    | false => rw [Bool.or_false]
    -- the hit of a part is one of the rest, so the line adds nothing
    | true =>
      obtain ⟨rule, hmem, hhit⟩ := List.any_eq_true.mp hnote
      obtain ⟨part, hpart, hrule⟩ := List.mem_flatMap.mp hmem
      rw [h part hpart rule (Option.mem_toList.mp hrule) host port hhit, Bool.or_true, Bool.true_or]

/-- Deleting a line changes no count of the app if its parts are left out, and then no rule that is written
either. -/
theorem ruleLines_deleteLine_iff (raw : Text) (i : Nat) :
    (ruleCount raw = ruleCount (deleteLine raw i) ↔ ∀ part ∈ parts (lineAt raw i), LeftOut part) ∧
      ((∀ part ∈ parts (lineAt raw i), LeftOut part) → ruleLines raw = ruleLines (deleteLine raw i)) := by
  obtain ⟨before, behind, hraw, hdeleted⟩ := flatMap_deleteLine (f := keptLine) rfl raw i
  rw [← ruleLines_eq_flatMap] at hraw hdeleted
  have hnone : (parts (lineAt raw i)).flatMap keptLine = [] ↔ ∀ part ∈ parts (lineAt raw i), LeftOut part := by
    rw [List.flatMap_eq_nil_iff]
    exact forall₂_congr fun part _ => keptLine_eq_nil_iff
  constructor
  · rw [ruleCount_eq_length, ruleCount_eq_length, hraw, hdeleted, ← hnone, ← List.length_eq_zero_iff]
    simp only [List.length_append]
    omega
  · intro h
    rw [hraw, hdeleted, hnone.mpr h, List.append_nil]

end Effect

/-- Deleting a line of a list has no effect exactly if each part of it between commas and semicolons is blank or
a note for the app, and the engine reads nothing from it that the rest of the list does not cover. -/
theorem effectless_iff (crates : Parsers ν ρ) (kotlin : Kotlin) (raw : Text) (i : Nat) :
    SameRules crates kotlin raw (deleteLine raw i) ↔
      ∀ part ∈ parts (lineAt raw i), LeftOut part ∧ Covered crates (deleteLine raw i) part := by
  obtain ⟨hcount, hlines⟩ := ruleLines_deleteLine_iff raw i
  constructor
  · intro h part hpart
    have hsame : ruleCount raw = ruleCount (deleteLine raw i) := congrArg RuleCounts.blocked (h.counts []).1
    have hhits := decide_block_iff.mp h.block
    exact ⟨hcount.mp hsame part hpart, (anyHits_deleteLine_iff raw i).mp hhits part hpart⟩
  · intro h
    have hkept := hlines fun part hpart => (h part hpart).1
    have hsame := hcount.mpr fun part hpart => (h part hpart).1
    have hhits := (anyHits_deleteLine_iff raw i).mpr fun part hpart => (h part hpart).2
    refine ⟨decide_block_iff.mpr hhits, decide_direct_of_hits hhits, fun other => ?_, fun other => ?_⟩
    · unfold chainRules
      rw [hkept]
      exact ⟨rfl, rfl⟩
    · unfold routingCounts
      rw [hsame]
      exact ⟨rfl, rfl⟩

/-- A note of which a comma cuts a domain off: the domain is blocked, by the engine and by the exit chain, and
counted as a rule. -/
theorem note_blocks :
    let raw := "# shops, bank.ir".toList
    IsNote (lineAt raw 0) ∧
      (RuleSet.parse bitCrates raw []).decide bitCrates.toCrates (.domain "bank.ir".toList) 443 = .block ∧
      (RuleSet.parse bitCrates (deleteLine raw 0) []).decide bitCrates.toCrates (.domain "bank.ir".toList) 443 =
        .proxy ∧
      chainRules asciiKotlin raw [] = ["DOMAIN-SUFFIX,bank.ir,REJECT".toList, "MATCH,exit".toList] ∧
      routingCounts raw [] = ⟨1, 0⟩ ∧ routingCounts (deleteLine raw 0) [] = ⟨0, 0⟩ ∧
      ¬ SameRules bitCrates asciiKotlin raw (deleteLine raw 0) := by
  intro raw
  have hnote : IsNote (lineAt raw 0) := by
    unfold IsNote
    decide
  have hcount : routingCounts raw [] ≠ routingCounts (deleteLine raw 0) [] := by decide
  refine ⟨hnote, by decide, by decide, by decide, by decide, by decide, fun h => ?_⟩
  exact hcount (h.counts []).1

end Chain
end AuroraVpn
