import AuroraVpn.Routing.Parse
import AuroraVpn.Socks.RequestLine
import Mathlib.Data.List.Count
import Mathlib.Data.List.Dedup
import Mathlib.Data.List.Sort

/-!
# Bridges — which bridges the tor crate is given, and which programs it launches

`plan_with`, `keep_reachable` and `waves` of `bridges.rs`, with `transports` and `manual_transports` of
`tor.rs`, which the hand-given programs come from.

* `count_claim`: the programs that are found are claimed once for each transport.
* `planned_iff`: when a plan uses every bridge that some program can carry, and one program for each.
* `keepReachable_kind`: of every kind of bridge one is kept.
* `waves_perm`, `waves_first`: the waves are the bridges, kind by kind, and the remembered kind comes first.
-/

namespace AuroraVpn
namespace Carriers
namespace Bridges

open Routing (eqIgnoreAsciiCase)
open Socks (splitWhitespace)

/-! ## Lines -/

/-- The words of a line, without a `Bridge` in front. -/
def wordsOf (line : Text) : List Text :=
  match splitWhitespace line with
  | [] => []
  | first :: rest => if eqIgnoreAsciiCase first "bridge".toList then rest else first :: rest

/-- Whether a word is no transport. -/
def isAddress (first : Text) : Bool :=
  first.head?.any (fun head => head.isDigit || head = '[') || first.contains '='

/-- `transport_of`. -/
def transportOf (line : Text) : Option Text :=
  match wordsOf line with
  | [] => none
  | first :: _ => if isAddress first then none else some (first.map Char.toLower)

/-- `address_of`. -/
def addressOf (line : Text) : Option SocketAddr :=
  match wordsOf line with
  | [] => none
  | first :: rest =>
      match transportOf line with
      | none => parseSocketAddr first
      | some _ => rest.head?.bind parseSocketAddr

/-- The kind of a line. -/
def kindOf (line : Text) : Text :=
  (transportOf line).getD "vanilla".toList

structure Transport where
  protocols : List Text
  path : Text
  deriving DecidableEq

structure Plan where
  lines : List Text
  transports : List Transport
  missing : List Text
  source : String
  deriving DecidableEq

/-- The elements of a `BTreeSet`. -/
def sorted (names : List Text) : List Text :=
  names.dedup.insertionSort fun a b => a ≤ b

/-! ## Programs -/

/-- `transports` of `tor.rs`, from the text of `AETHER_TOR_PT`. -/
def transports (raw : Text) : List (Text × Text) :=
  (raw.splitOnP fun c => c = '\n' || c = ';').filterMap fun entry =>
    let entry := trim entry
    if entry = [] then none
    else
      match splitOnce '=' entry with
      | some (protocol, path) => some (trim protocol, trim path)
      | none => some ("obfs4".toList, entry)

/-- The components of a path, as `Path` compares them. -/
def components (path : Text) : List Text :=
  let parts := (path.splitOn '/').filter (· ≠ [])
  if path.head? = some '/' then ['/'] :: parts.filter (· ≠ ['.'])
  else parts.take 1 ++ (parts.drop 1).filter (· ≠ ['.'])

/-- A program given by hand joins those given before. -/
def group (protocol path : Text) : List Transport → List Transport
  | [] => [⟨[protocol], path⟩]
  | held :: rest =>
      if components held.path = components path then
        (if protocol ∈ held.protocols then held else { held with protocols := held.protocols ++ [protocol] }) :: rest
      else held :: group protocol path rest

/-- `manual_transports`. -/
def manualTransports (raw : Text) : List Transport :=
  (transports raw).foldl (fun grouped (protocol, path) => group protocol path grouped) []

/-- What of a list no one has claimed. -/
def takeNew (claimed : List Text) : List Text → List Text
  | [] => []
  | protocol :: protocols =>
      if protocol ∈ claimed then takeNew claimed protocols
      else protocol :: takeNew (claimed ++ [protocol]) protocols

/-- The programs that are found, each for what no one has claimed before. -/
def claim (claimed : List Text) : List Transport → List Transport
  | [] => []
  | one :: found =>
      let mine := takeNew claimed one.protocols
      if mine = [] then claim claimed found else ⟨mine, one.path⟩ :: claim (claimed ++ mine) found

/-- Every transport that some program is there for. -/
def claimedBy (programs : List Transport) : List Text :=
  programs.flatMap Transport.protocols

section PlanWith

variable (lines : List Text) (source : String) (extra found : List Transport)

/-- `plan_with`. -/
def planWith : Plan :=
  let programs := extra ++ claim (claimedBy extra) found
  let claimed := claimedBy programs
  let kept := lines.filter fun line => (transportOf line).all fun protocol => protocol ∈ claimed
  let used := kept.filterMap transportOf
  { lines := kept
    transports := (programs.filter fun program => program.protocols.any fun p => p ∈ used).map fun program =>
      { program with protocols := program.protocols.filter fun p => p ∈ used }
    missing := sorted ((lines.filterMap transportOf).filter fun protocol => protocol ∉ claimed)
    source }

end PlanWith

/-! ## Probes -/

def UNTESTABLE : List String := ["snowflake", "meek", "meek_lite", "conjure"]

def KEEP_PER_TRANSPORT : Nat := 6

/-- Whether a line is probed. -/
def isTested (line : Text) : Bool :=
  (addressOf line).isSome && !(transportOf line).any fun protocol => UNTESTABLE.any fun name => name.toList = protocol

/-- The lines with what became of their probes, which answer by their place. -/
def verdicts (answers : Nat → Bool) (lines : List Text) : List (Text × Bool) :=
  lines.zipIdx.map fun (line, place) => (line, if isTested line then answers place else true)

/-- The lines that are held, where no line of a quiet kind has answered. -/
def hold (allQuiet : Text → Bool) : List (Text × Bool) → (Text → Nat) → List Text
  | [], _ => []
  | (line, alive) :: rest, held =>
      let kind := kindOf line
      if !alive && !allQuiet kind then hold allQuiet rest held
      else if KEEP_PER_TRANSPORT ≤ held kind then hold allQuiet rest held
      else line :: hold allQuiet rest fun other => if other = kind then held kind + 1 else held other

/-- `keep_reachable`. -/
def keepReachable (answers : Nat → Bool) (lines : List Text) : List Text :=
  let verdicts := verdicts answers lines
  hold (fun kind => !verdicts.any fun verdict => verdict.2 && kindOf verdict.1 = kind) verdicts fun _ => 0

/-! ## Waves -/

def PREFERENCE : List String := ["obfs4", "webtunnel", "snowflake", "meek_lite", "meek"]

/-- Where a kind stands among those that are preferred. -/
def known (name : Text) : Nat :=
  PREFERENCE.findIdx fun entry => entry.toList = name

/-- The order of the waves: the kind that worked before comes first. -/
def Earlier (first : Option Text) (a b : Text) : Prop :=
  let tried := fun name => if first = some name then 0 else 1
  tried a < tried b ∨ (tried a = tried b ∧ known a ≤ known b)

instance (first : Option Text) : DecidableRel (Earlier first) := fun a b =>
  inferInstanceAs (Decidable ((if first = some a then 0 else 1) < (if first = some b then 0 else 1) ∨ (_ ∧ _)))

/-- The programs of a kind, with that kind alone. -/
def programsOf (name : Text) (programs : List Transport) : List Transport :=
  (programs.filter fun held => held.protocols.any fun p => p = name).map fun held =>
    { held with protocols := held.protocols.filter fun p => p = name }

def wave (plan : Plan) (name : Text) : Text × Plan :=
  (name, {
    lines := plan.lines.filter fun line => kindOf line = name
    transports := programsOf name plan.transports
    missing := []
    source := plan.source })

def waves (plan : Plan) (first : Option Text) : List (Text × Plan) :=
  let names := sorted (plan.lines.map kindOf)
  if names.length < 2 then [] else (names.insertionSort (Earlier first)).map (wave plan)

/-! ## One program for each transport -/

section Naming

variable {claimed protocols : List Text} {found extra programs : List Transport} {t : Text}

theorem mem_takeNew : t ∈ takeNew claimed protocols ↔ t ∈ protocols ∧ t ∉ claimed := by
  induction protocols generalizing claimed with
  | nil => simp [takeNew]
  | cons protocol protocols ih =>
      by_cases hclaimed : protocol ∈ claimed
      · rw [takeNew, if_pos hclaimed, ih, List.mem_cons]
        constructor
        · exact fun h => ⟨.inr h.1, h.2⟩
        · rintro ⟨rfl | h, hnew⟩
          · exact absurd hclaimed hnew
          · exact ⟨h, hnew⟩
      · rw [takeNew, if_neg hclaimed, List.mem_cons, ih, List.mem_cons, List.mem_append, List.mem_singleton]
        by_cases hself : t = protocol
        · simp [hself, hclaimed]
        · simp [hself]

theorem mem_claimedBy : t ∈ claimedBy programs ↔ ∃ program ∈ programs, t ∈ program.protocols := by
  rw [claimedBy, List.mem_flatMap]

/-- The programs that are found are claimed once for each transport that no one has claimed before. -/
theorem count_claim : (claim claimed found).countP (fun program => t ∈ program.protocols) =
    if t ∉ claimed ∧ t ∈ claimedBy found then 1 else 0 := by
  induction found generalizing claimed with
  | nil => simp [claim, claimedBy]
  | cons one found ih =>
      have hmine : t ∈ takeNew claimed one.protocols ↔ t ∈ one.protocols ∧ t ∉ claimed := mem_takeNew
      have hcons : t ∈ claimedBy (one :: found) ↔ t ∈ one.protocols ∨ t ∈ claimedBy found := by
        simp [mem_claimedBy]
      -- whether nothing is new or something is, the rest is claimed behind it
      have hstep : (claim claimed (one :: found)).countP (fun program => t ∈ program.protocols) =
          (if t ∈ takeNew claimed one.protocols then 1 else 0) +
            (claim (claimed ++ takeNew claimed one.protocols) found).countP (fun program => t ∈ program.protocols) := by
        rw [claim]
        by_cases hempty : takeNew claimed one.protocols = []
        · simp [hempty]
        · simp only [if_neg hempty, List.countP_cons, decide_eq_true_eq]
          rw [Nat.add_comm]
      rw [hstep, ih]
      simp only [List.mem_append, hmine, hcons]
      by_cases hclaimed : t ∈ claimed
      · simp [hclaimed]
      · by_cases hone : t ∈ one.protocols
        · simp [hclaimed, hone]
        · simp [hclaimed, hone]

theorem mem_claimed : t ∈ claimedBy (extra ++ claim (claimedBy extra) found) ↔ t ∈ claimedBy (extra ++ found) := by
  have hfound : t ∉ claimedBy extra → (t ∈ claimedBy (claim (claimedBy extra) found) ↔ t ∈ claimedBy found) := by
    intro hnew
    -- a claimed transport is claimed once, one that was claimed already not again
    have hcount : (claim (claimedBy extra) found).countP (fun program => t ∈ program.protocols) =
        if t ∉ claimedBy extra ∧ t ∈ claimedBy found then 1 else 0 := count_claim
    rw [mem_claimedBy]
    by_cases hmem : t ∈ claimedBy found
    · rw [if_pos ⟨hnew, hmem⟩] at hcount
      have hpos : 0 < (claim (claimedBy extra) found).countP fun program => t ∈ program.protocols := by omega
      obtain ⟨program, hprogram, ht⟩ := List.countP_pos_iff.1 hpos
      exact iff_of_true ⟨program, hprogram, of_decide_eq_true ht⟩ hmem
    · rw [if_neg fun h => hmem h.2] at hcount
      refine iff_of_false ?_ hmem
      rintro ⟨program, hprogram, ht⟩
      exact List.countP_eq_zero.1 hcount program hprogram (decide_eq_true ht)
  have happend : ∀ rest, t ∈ claimedBy (extra ++ rest) ↔ t ∈ claimedBy extra ∨ t ∈ claimedBy rest := by
    intro rest
    rw [claimedBy, List.flatMap_append, List.mem_append]
    rfl
  rw [happend, happend]
  by_cases hextra : t ∈ claimedBy extra
  · simp [hextra]
  · simp [hextra, hfound hextra]

/-- How many programs a transport is claimed for. -/
theorem count_programs : (extra ++ claim (claimedBy extra) found).countP (fun program => t ∈ program.protocols) =
    extra.countP (fun program => t ∈ program.protocols) +
      if t ∉ claimedBy extra ∧ t ∈ claimedBy found then 1 else 0 := by
  rw [List.countP_append, count_claim]

end Naming

/-! ## What a plan is for -/

/-- Some line needs a transport. -/
def Needed (lines : List Text) (t : Text) : Prop :=
  ∃ line ∈ lines, transportOf line = some t

/-- A program offers a transport, however it is spelled. -/
def Transport.Offers (program : Transport) (t : Text) : Prop :=
  ∃ p ∈ program.protocols, p.map Char.toLower = t

def Offered (programs : List Transport) (t : Text) : Prop :=
  ∃ program ∈ programs, program.Offers t

instance (program : Transport) (t : Text) : Decidable (program.Offers t) :=
  inferInstanceAs (Decidable (∃ p ∈ program.protocols, p.map Char.toLower = t))

instance (programs : List Transport) (t : Text) : Decidable (Offered programs t) :=
  inferInstanceAs (Decidable (∃ program ∈ programs, program.Offers t))

/-- A plan that loses no bridge that some program could carry, and has one program for each transport. -/
structure Planned (lines : List Text) (programs : List Transport) (plan : Plan) : Prop where
  kept : plan.lines = lines.filter fun line => (transportOf line).all fun t => Offered programs t
  missing : ∀ t, t ∈ plan.missing ↔ Needed lines t ∧ ¬ Offered programs t
  assigned : ∀ t, Needed lines t → Offered programs t → plan.transports.countP (fun program => program.Offers t) = 1
  needed : ∀ program ∈ plan.transports, program.protocols ≠ [] ∧ ∀ p ∈ program.protocols, Needed lines p
  given : ∀ program ∈ plan.transports, ∃ source ∈ programs,
    source.path = program.path ∧ ∀ p ∈ program.protocols, p ∈ source.protocols

section Planning

variable {lines : List Text} {source : String} {extra found programs : List Transport} {t : Text} {line : Text}

theorem toLower_transportOf (h : transportOf line = some t) : t.map Char.toLower = t := by
  unfold transportOf at h
  split at h
  · cases h
  · split at h
    · cases h
    · rw [← Option.some.inj h, List.map_map]
      exact List.map_congr_left fun c _ => Routing.toLower_toLower c

theorem mem_sorted {names : List Text} : t ∈ sorted names ↔ t ∈ names := by
  rw [sorted, List.mem_insertionSort, List.mem_dedup]

theorem mem_filterMap_transportOf : t ∈ lines.filterMap transportOf ↔ Needed lines t :=
  List.mem_filterMap

/-- What is kept: the lines whose transport is written as some program has it. -/
theorem mem_used : t ∈ (planWith lines source extra found).lines.filterMap transportOf ↔
    Needed lines t ∧ t ∈ claimedBy (extra ++ found) := by
  rw [mem_filterMap_transportOf]
  constructor
  · rintro ⟨line, hline, ht⟩
    obtain ⟨hline, hall⟩ := List.mem_filter.1 hline
    rw [ht, Option.all_some, decide_eq_true_eq, mem_claimed] at hall
    exact ⟨⟨line, hline, ht⟩, hall⟩
  · rintro ⟨⟨line, hline, ht⟩, hclaimed⟩
    refine ⟨line, List.mem_filter.2 ⟨hline, ?_⟩, ht⟩
    rw [ht, Option.all_some, decide_eq_true_eq, mem_claimed]
    exact hclaimed

theorem mem_transports {program : Transport} (h : program ∈ (planWith lines source extra found).transports) :
    ∃ held ∈ extra ++ claim (claimedBy extra) found, program.path = held.path ∧
      program.protocols = held.protocols.filter
        (fun p => p ∈ (planWith lines source extra found).lines.filterMap transportOf) ∧
        program.protocols ≠ [] := by
  obtain ⟨held, hheld, rfl⟩ := List.mem_map.1 h
  obtain ⟨hmem, hany⟩ := List.mem_filter.1 hheld
  refine ⟨held, hmem, rfl, rfl, fun hempty => ?_⟩
  obtain ⟨p, hp, hused⟩ := List.any_eq_true.1 hany
  exact List.filter_eq_nil_iff.1 hempty p hp hused

/-- In a plan a program offers what it lists. -/
theorem offers_iff {program : Transport} (h : program ∈ (planWith lines source extra found).transports) :
    program.Offers t ↔ t ∈ program.protocols := by
  obtain ⟨held, -, -, hprotocols, -⟩ := mem_transports h
  have hlower : ∀ p ∈ program.protocols, p.map Char.toLower = p := by
    intro p hp
    rw [hprotocols] at hp
    obtain ⟨-, hused⟩ := List.mem_filter.1 hp
    obtain ⟨line, -, hline⟩ := mem_filterMap_transportOf.1 (of_decide_eq_true hused)
    exact toLower_transportOf hline
  constructor
  · rintro ⟨p, hp, rfl⟩
    rwa [hlower p hp]
  · exact fun ht => ⟨t, ht, hlower t ht⟩

/-- The programs of a plan for a transport are those that it was claimed for. -/
theorem count_transports (ht : t ∈ (planWith lines source extra found).lines.filterMap transportOf) :
    (planWith lines source extra found).transports.countP (fun program => program.Offers t) =
      (extra ++ claim (claimedBy extra) found).countP fun program => t ∈ program.protocols := by
  have hlists : (planWith lines source extra found).transports.countP (fun program => program.Offers t) =
      (planWith lines source extra found).transports.countP fun program => t ∈ program.protocols :=
    List.countP_congr fun program hprogram => by simp only [decide_eq_true_eq, offers_iff hprogram]
  rw [hlists]
  generalize hused : (planWith lines source extra found).lines.filterMap transportOf = used at ht
  have htransports : (planWith lines source extra found).transports =
      ((extra ++ claim (claimedBy extra) found).filter fun program => program.protocols.any fun p => p ∈ used).map
        fun program => { program with protocols := program.protocols.filter fun p => p ∈ used } := by
    rw [← hused]
    rfl
  rw [htransports, List.countP_map, List.countP_filter]
  refine List.countP_congr fun program _ => ?_
  simp only [Function.comp_apply, Bool.and_eq_true, decide_eq_true_eq, List.mem_filter, List.any_eq_true]
  exact ⟨fun h => h.1.1, fun h => ⟨⟨h, ht⟩, t, h, ht⟩⟩

/-- A program that is claimed was found with what it is claimed for. -/
theorem mem_claim {claimed : List Text} {program : Transport} (h : program ∈ claim claimed found) :
    ∃ one ∈ found, one.path = program.path ∧ ∀ p ∈ program.protocols, p ∈ one.protocols := by
  induction found generalizing claimed with
  | nil => cases h
  | cons one found ih =>
      rw [claim] at h
      by_cases hempty : takeNew claimed one.protocols = []
      · simp only [if_pos hempty] at h
        obtain ⟨source, hsource, hsame⟩ := ih h
        exact ⟨source, List.mem_cons_of_mem _ hsource, hsame⟩
      · simp only [if_neg hempty] at h
        rcases List.mem_cons.1 h with rfl | h
        · exact ⟨one, List.mem_cons_self, rfl, fun p hp => (mem_takeNew.1 hp).1⟩
        · obtain ⟨source, hsource, hsame⟩ := ih h
          exact ⟨source, List.mem_cons_of_mem _ hsource, hsame⟩

/-- A transport that is needed is spelled in small letters, so the program that lists it offers it. -/
theorem offered_of_claimed (hneeded : Needed lines t) (h : t ∈ claimedBy programs) : Offered programs t := by
  obtain ⟨line, -, hline⟩ := hneeded
  obtain ⟨program, hprogram, ht⟩ := mem_claimedBy.1 h
  exact ⟨program, hprogram, t, ht, toLower_transportOf hline⟩

/-- Every transport that is needed is listed as it is needed, where it is offered at all. -/
def Spelled (lines : List Text) (programs : List Transport) : Prop :=
  ∀ t, Needed lines t → Offered programs t → t ∈ claimedBy programs

/-- No transport that is needed is given by hand for two programs. -/
def Sole (lines : List Text) (extra : List Transport) : Prop :=
  ∀ t, Needed lines t → extra.countP (fun program => t ∈ program.protocols) ≤ 1

theorem kept_planWith (hspelled : Spelled lines (extra ++ found)) :
    (planWith lines source extra found).lines =
      lines.filter fun line => (transportOf line).all fun t => Offered (extra ++ found) t := by
  refine List.filter_congr fun line hline => ?_
  cases ht : transportOf line with
  | none => rfl
  | some t =>
      have hneeded : Needed lines t := ⟨line, hline, ht⟩
      rw [Option.all_some, Option.all_some, decide_eq_decide, mem_claimed]
      exact ⟨offered_of_claimed hneeded, hspelled t hneeded⟩

theorem missing_planWith (hspelled : Spelled lines (extra ++ found)) :
    t ∈ (planWith lines source extra found).missing ↔ Needed lines t ∧ ¬ Offered (extra ++ found) t := by
  have hmissing : t ∈ (planWith lines source extra found).missing ↔
      Needed lines t ∧ t ∉ claimedBy (extra ++ claim (claimedBy extra) found) := by
    rw [planWith, mem_sorted, List.mem_filter, mem_filterMap_transportOf, decide_eq_true_eq]
  rw [hmissing, mem_claimed]
  exact and_congr_right fun hneeded =>
    not_congr ⟨offered_of_claimed hneeded, hspelled t hneeded⟩

/-- A plan has one program for each transport that is needed and listed, unless two were given by hand. -/
theorem count_planWith (hneeded : Needed lines t) (hclaimed : t ∈ claimedBy (extra ++ found)) :
    (planWith lines source extra found).transports.countP (fun program => program.Offers t) =
      max 1 (extra.countP fun program => t ∈ program.protocols) := by
  rw [count_transports (mem_used.2 ⟨hneeded, hclaimed⟩), count_programs]
  by_cases hextra : t ∈ claimedBy extra
  · have hpos : 0 < extra.countP fun program => t ∈ program.protocols := by
      obtain ⟨program, hprogram, ht⟩ := mem_claimedBy.1 hextra
      exact List.countP_pos_iff.2 ⟨program, hprogram, decide_eq_true ht⟩
    rw [if_neg fun h => h.1 hextra, max_eq_right hpos]
    rfl
  · have hzero : extra.countP (fun program => t ∈ program.protocols) = 0 :=
      List.countP_eq_zero.2 fun program hprogram ht =>
        hextra (mem_claimedBy.2 ⟨program, hprogram, of_decide_eq_true ht⟩)
    have hfound : t ∈ claimedBy found := by
      rw [claimedBy, List.flatMap_append, List.mem_append] at hclaimed
      exact hclaimed.resolve_left hextra
    rw [hzero, if_pos ⟨hextra, hfound⟩]
    rfl

/-- **When a plan uses every bridge that some program could carry, and one program for each transport.** -/
theorem planned_iff : Planned lines (extra ++ found) (planWith lines source extra found) ↔
    Spelled lines (extra ++ found) ∧ Sole lines extra := by
  constructor
  · intro h
    -- a line whose transport a program offers is kept, so the list of kept lines spells it
    have hspelled : Spelled lines (extra ++ found) := by
      rintro t ⟨line, hline, ht⟩ hoffered
      have hkept : line ∈ (planWith lines source extra found).lines := by
        rw [h.kept, List.mem_filter, ht]
        exact ⟨hline, decide_eq_true hoffered⟩
      exact (mem_used.1 (List.mem_filterMap.2 ⟨line, hkept, ht⟩)).2
    refine ⟨hspelled, fun t hneeded => ?_⟩
    -- two programs of the same transport would both be in the plan
    by_contra htwo
    have hclaimed : t ∈ claimedBy (extra ++ found) := by
      have hpos : 0 < extra.countP fun program => t ∈ program.protocols := by omega
      obtain ⟨program, hprogram, ht⟩ := List.countP_pos_iff.1 hpos
      exact mem_claimedBy.2 ⟨program, List.mem_append_left _ hprogram, of_decide_eq_true ht⟩
    have hone := h.assigned t hneeded (offered_of_claimed hneeded hclaimed)
    rw [count_planWith hneeded hclaimed] at hone
    omega
  · rintro ⟨hspelled, hsole⟩
    refine ⟨kept_planWith hspelled, fun t => missing_planWith hspelled, fun t hneeded hoffered => ?_,
      fun program hprogram => ?_, fun program hprogram => ?_⟩
    -- exactly one program is counted for a transport, because no two claim it
    · rw [count_planWith hneeded (hspelled t hneeded hoffered)]
      exact max_eq_left (hsole t hneeded)
    · obtain ⟨held, -, -, hprotocols, hne⟩ := mem_transports hprogram
      refine ⟨hne, fun p hp => ?_⟩
      rw [hprotocols, List.mem_filter, decide_eq_true_eq] at hp
      -- a program in the plan comes from one that was given, with some of its protocols
      exact (mem_used.1 hp.2).1
    · obtain ⟨held, hheld, hpath, hprotocols, -⟩ := mem_transports hprogram
      have hsub : ∀ p ∈ program.protocols, p ∈ held.protocols := fun p hp =>
        (List.mem_filter.1 (hprotocols ▸ hp)).1
      rcases List.mem_append.1 hheld with hheld | hheld
      · exact ⟨held, List.mem_append_left _ hheld, hpath.symm, hsub⟩
      · obtain ⟨one, hone, hsame, hall⟩ := mem_claim hheld
        exact ⟨one, List.mem_append_right _ hone, hsame.trans hpath.symm, fun p hp => hall p (hsub p hp)⟩

end Planning

/-! ## What is kept of every kind -/

section Reachable

variable {allQuiet : Text → Bool} {answers : Nat → Bool} {lines : List Text}

theorem hold_sublist (verdicts : List (Text × Bool)) (held : Text → Nat) :
    (hold allQuiet verdicts held).Sublist (verdicts.map Prod.fst) := by
  induction verdicts generalizing held with
  | nil => exact List.Sublist.refl _
  | cons verdict verdicts ih =>
      obtain ⟨line, alive⟩ := verdict
      rw [hold, List.map_cons]
      split
      · exact (ih held).cons line
      · split
        · exact (ih held).cons line
        · exact (ih _).cons_cons line

/-- A line that is not dropped has one of its kind among the lines that are held. -/
theorem hold_kind {verdicts : List (Text × Bool)} (held : Text → Nat) {line : Text} {alive : Bool}
    (hmem : (line, alive) ∈ verdicts) (hfine : alive = true ∨ allQuiet (kindOf line) = true)
    (hnone : held (kindOf line) = 0) :
    ∃ kept ∈ hold allQuiet verdicts held, kindOf kept = kindOf line := by
  -- along the lines, for whatever was held of each kind before
  induction verdicts generalizing held with
  | nil => cases hmem
  | cons verdict verdicts ih =>
      obtain ⟨front, alive'⟩ := verdict
      rw [hold]
      -- the first line is of this kind or of another
      by_cases hkind : kindOf front = kindOf line
      · by_cases hdrop : (!alive' && !allQuiet (kindOf front)) = true
        · -- the line itself is not dropped, so it stands further back
          have hback : (line, alive) ∈ verdicts := by
            rcases List.mem_cons.1 hmem with heq | hback
            · obtain ⟨rfl, rfl⟩ := Prod.mk.inj heq
              rcases hfine with hfine | hfine <;> simp [hfine] at hdrop
            · exact hback
          rw [if_pos hdrop]
          exact ih held hback hnone
        -- none of the kind is held yet, so there is room for this one
        · have hfew : ¬ KEEP_PER_TRANSPORT ≤ held (kindOf front) := by
            rw [hkind, hnone]
            decide
          rw [if_neg hdrop, if_neg hfew]
          exact ⟨front, List.mem_cons_self, hkind⟩
      · have hback : (line, alive) ∈ verdicts := by
          rcases List.mem_cons.1 hmem with heq | hback
          · exact absurd (congrArg (fun verdict => kindOf verdict.1) heq.symm) hkind
          · exact hback
        split
        · exact ih held hback hnone
        · split
          · exact ih held hback hnone
          -- what is counted for the other kind leaves the count of this one
          · have hheld : (fun other => if other = kindOf front then held (kindOf front) + 1 else held other)
                (kindOf line) = 0 := (if_neg fun h => hkind h.symm).trans hnone
            obtain ⟨kept, hkept, hsame⟩ := ih
              (fun other => if other = kindOf front then held (kindOf front) + 1 else held other)
              hback hheld
            exact ⟨kept, List.mem_cons_of_mem _ hkept, hsame⟩

theorem map_fst_verdicts : (verdicts answers lines).map Prod.fst = lines := by
  rw [verdicts, List.map_map]
  exact List.zipIdx_map_fst 0 lines

/-- **Of every kind of bridge one is kept**, whatever the probes answer, and nothing but the bridges in their order. -/
theorem keepReachable_kind (answers : Nat → Bool) (lines : List Text) :
    (keepReachable answers lines).Sublist lines ∧
      ∀ line ∈ lines, ∃ kept ∈ keepReachable answers lines, kindOf kept = kindOf line := by
  constructor
  · have hsub : (keepReachable answers lines).Sublist ((verdicts answers lines).map Prod.fst) :=
      hold_sublist (verdicts answers lines) fun _ => 0
    rwa [map_fst_verdicts] at hsub
  · intro line hline
    have hmem : line ∈ (verdicts answers lines).map Prod.fst := by rwa [map_fst_verdicts]
    obtain ⟨⟨line, alive⟩, hverdict, rfl⟩ := List.mem_map.1 hmem
    by_cases hany : (verdicts answers lines).any (fun verdict => verdict.2 && kindOf verdict.1 = kindOf line) = true
    · -- one that has answered is held
      obtain ⟨⟨other, answered⟩, hother, hboth⟩ := List.any_eq_true.1 hany
      obtain ⟨hanswered, hkind⟩ := Bool.and_eq_true_iff.1 hboth
      have hkind : kindOf other = kindOf line := of_decide_eq_true hkind
      obtain ⟨kept, hkept, hsame⟩ := hold_kind (fun _ => 0) hother (.inl hanswered) rfl
      exact ⟨kept, hkept, hsame.trans hkind⟩
    · exact hold_kind (fun _ => 0) hverdict (.inr (by simpa using hany)) rfl

end Reachable

/-! ## The bridges, kind by kind -/

section Waves

variable {plan : Plan} {first : Option Text} {names : List Text} {w : Text × Plan}

/-- Lines told apart by their kinds, each of which is taken once, are the lines. -/
theorem perm_byKind {lines : List Text} (hnodup : names.Nodup) (hall : ∀ line ∈ lines, kindOf line ∈ names) :
    (names.flatMap fun name => lines.filter fun line => kindOf line = name).Perm lines := by
  induction names generalizing lines with
  | nil =>
      have hnone : lines = [] := List.eq_nil_iff_forall_not_mem.2 fun line hline => nomatch hall line hline
      simp [hnone]
  | cons name names ih =>
      obtain ⟨hnew, hnodup⟩ := List.nodup_cons.1 hnodup
      -- the kinds that come later are those of the lines that are left
      have hrest : (names.flatMap fun later => lines.filter fun line => kindOf line = later) =
          names.flatMap fun later =>
            (lines.filter fun line => !(kindOf line = name)).filter fun line => kindOf line = later := by
        refine List.flatMap_congr fun later hlater => ?_
        rw [List.filter_filter]
        refine List.filter_congr fun line _ => ?_
        by_cases hlate : kindOf line = later
        · have hne : ¬ later = name := fun h => hnew (h ▸ hlater)
          simp [hlate, hne]
        · simp [hlate]
      have hleft : ∀ line ∈ lines.filter (fun line => !decide (kindOf line = name)), kindOf line ∈ names := by
        intro line hline
        obtain ⟨hline, hother⟩ := List.mem_filter.1 hline
        exact (List.mem_cons.1 (hall line hline)).resolve_left (by simpa using hother)
      rw [List.flatMap_cons, hrest]
      exact ((ih hnodup hleft).append_left _).trans (List.filter_append_perm _ lines)

theorem nodup_sorted (names : List Text) : (sorted names).Nodup :=
  (List.perm_insertionSort _ _).nodup_iff.2 (List.nodup_dedup names)

/-- The kinds in the order in which they are tried. -/
theorem map_fst_waves (hsome : waves plan first ≠ []) :
    (waves plan first).map Prod.fst = (sorted (plan.lines.map kindOf)).insertionSort (Earlier first) := by
  rw [waves] at hsome ⊢
  by_cases hfew : (sorted (plan.lines.map kindOf)).length < 2
  · exact absurd (if_pos hfew) hsome
  · simp only [if_neg hfew, List.map_map]
    exact List.map_id _

theorem mem_waves_iff (hsome : waves plan first ≠ []) {name : Text} :
    name ∈ (waves plan first).map Prod.fst ↔ ∃ line ∈ plan.lines, kindOf line = name := by
  rw [map_fst_waves hsome, List.mem_insertionSort, mem_sorted, List.mem_map]

theorem eq_wave (hw : w ∈ waves plan first) : w = wave plan w.1 := by
  rw [waves] at hw
  by_cases hfew : (sorted (plan.lines.map kindOf)).length < 2
  · simp [hfew] at hw
  · simp only [if_neg hfew] at hw
    obtain ⟨name, -, rfl⟩ := List.mem_map.1 hw
    rfl

/-- **The waves are the bridges, kind by kind.** -/
theorem waves_perm (hsome : waves plan first ≠ []) :
    ((waves plan first).flatMap fun w => w.2.lines).Perm plan.lines := by
  have hlines : (waves plan first).flatMap (fun w => w.2.lines) =
      ((waves plan first).map Prod.fst).flatMap fun name => plan.lines.filter fun line => kindOf line = name := by
    rw [List.flatMap_map]
    exact List.flatMap_congr fun w hw => by rw [eq_wave hw]; rfl
  rw [hlines]
  refine perm_byKind ?_ fun line hline => (mem_waves_iff hsome).2 ⟨line, hline, rfl⟩
  rw [map_fst_waves hsome]
  exact (List.perm_insertionSort _ _).nodup_iff.2 (nodup_sorted _)

theorem earlier_self (name other : Text) : Earlier (some name) name other := by
  by_cases hsame : other = name
  · subst hsame
    exact .inr ⟨rfl, Nat.le_refl _⟩
  · exact .inl (by simp [Ne.symm hsame])

theorem not_earlier {name other : Text} (hother : other ≠ name) : ¬ Earlier (some name) other name := by
  have htried : (if some name = some other then 0 else 1) = 1 := if_neg fun h => hother (Option.some.inj h).symm
  simp [Earlier, Ne.symm hother]

/-- The kind that is remembered stands before every other. -/
theorem head_insertionSort {name : Text} (hmem : name ∈ names) :
    (names.insertionSort (Earlier (some name))).head? = some name := by
  induction names with
  | nil => cases hmem
  | cons other names ih =>
      rw [List.insertionSort_cons]
      by_cases hother : other = name
      · subst hother
        cases names.insertionSort (Earlier (some other)) with
        | nil => rfl
        | cons next rest => rw [List.orderedInsert, if_pos (earlier_self other next), List.head?_cons]
      · have hhead := ih ((List.mem_cons.1 hmem).resolve_left fun h => hother h.symm)
        cases hsorted : names.insertionSort (Earlier (some name)) with
        | nil => simp [hsorted] at hhead
        | cons next rest =>
            rw [hsorted, List.head?_cons] at hhead
            obtain rfl := Option.some.inj hhead
            rw [List.orderedInsert, if_neg (not_earlier hother), List.head?_cons]

/-- **The remembered kind comes first.** -/
theorem waves_first (hsome : waves plan first ≠ []) {name : Text} (hfirst : first = some name)
    (hmem : name ∈ (waves plan first).map Prod.fst) : ((waves plan first).map Prod.fst).head? = some name := by
  subst hfirst
  rw [map_fst_waves hsome] at hmem ⊢
  exact head_insertionSort ((List.mem_insertionSort _).1 hmem)

/-- A wave has the programs of its kind, and has them for nothing else. -/
theorem programsOf_iff (name : Text) (programs : List Transport) :
    (programsOf name programs).map Transport.path =
        (programs.filter fun program => name ∈ program.protocols).map Transport.path ∧
      ∀ program ∈ programsOf name programs, program.protocols ≠ [] ∧ ∀ p ∈ program.protocols, p = name := by
  constructor
  · have hsame : ∀ held : Transport, (held.protocols.any fun p => p = name) = decide (name ∈ held.protocols) := by
      intro held
      rw [Bool.eq_iff_iff, List.any_eq_true, decide_eq_true_eq]
      simp
    rw [programsOf, List.map_map]
    simp only [hsame]
    rfl
  · intro program hprogram
    obtain ⟨held, hheld, rfl⟩ := List.mem_map.1 hprogram
    obtain ⟨p, hp, hname⟩ := List.any_eq_true.1 (List.mem_filter.1 hheld).2
    constructor
    · exact fun hempty => List.filter_eq_nil_iff.1 hempty p hp hname
    · exact fun p hp => of_decide_eq_true (List.mem_filter.1 hp).2

/-- Waves that are the bridges of a plan, kind by kind, each with the programs of its kind, the remembered one first. -/
structure Waved (plan : Plan) (first : Option Text) (waves : List (Text × Plan)) : Prop where
  lines : (waves.flatMap fun w => w.2.lines).Perm plan.lines
  names : (waves.map Prod.fst).Nodup
  kinds : ∀ w ∈ waves, w.2.lines ≠ [] ∧ ∀ line ∈ w.2.lines, kindOf line = w.1
  programs : ∀ w ∈ waves, w.2.transports.map Transport.path =
      (plan.transports.filter fun program => w.1 ∈ program.protocols).map Transport.path ∧
    ∀ program ∈ w.2.transports, program.protocols ≠ [] ∧ ∀ p ∈ program.protocols, p = w.1
  remembered : ∀ name, first = some name → (∃ line ∈ plan.lines, kindOf line = name) →
    (waves.map Prod.fst).head? = some name

theorem waves_exact (plan : Plan) (first : Option Text) :
    waves plan first = [] ∨ Waved plan first (waves plan first) := by
  by_cases hsome : waves plan first = []
  · exact .inl hsome
  refine .inr ⟨waves_perm hsome, ?_, fun w hw => ?_, fun w hw => ?_, fun name hfirst hline => ?_⟩
  · rw [map_fst_waves hsome]
    exact (List.perm_insertionSort _ _).nodup_iff.2 (nodup_sorted _)
  · obtain ⟨line, hline, hkind⟩ := (mem_waves_iff hsome).1 (List.mem_map_of_mem hw)
    rw [eq_wave hw]
    refine ⟨fun hempty => ?_, fun line hline => of_decide_eq_true (List.mem_filter.1 hline).2⟩
    exact List.filter_eq_nil_iff.1 hempty line hline (decide_eq_true hkind)
  · rw [eq_wave hw]
    exact programsOf_iff w.1 plan.transports
  · exact waves_first hsome hfirst ((mem_waves_iff hsome).2 hline)

end Waves

/-- **Planning loses no usable bridge and launches no program twice** exactly where each transport that is needed is
spelled by some program as it is needed, and given by hand for one program at most. -/
theorem planning_exact_iff (lines : List Text) (source : String) (extra found : List Transport) (answers : Nat → Bool)
    (plan : Plan) (first : Option Text) :
    (Planned lines (extra ++ found) (planWith lines source extra found) ∧
      ((keepReachable answers lines).Sublist lines ∧
        ∀ line ∈ lines, ∃ kept ∈ keepReachable answers lines, kindOf kept = kindOf line) ∧
      (waves plan first = [] ∨ Waved plan first (waves plan first))) ↔
      Spelled lines (extra ++ found) ∧ Sole lines extra := by
  rw [planned_iff]
  exact and_iff_left ⟨keepReachable_kind answers lines, waves_exact plan first⟩

/-- Two programs are launched for the transport that was given for both, and a bridge is lost whose transport was given
in capital letters. -/
theorem twice_launched :
    let lines := ["obfs4 192.0.2.1:443".toList]
    let twice := manualTransports "obfs4=/a;obfs4=/b".toList
    let capital := manualTransports "OBFS4=/a".toList
    (planWith lines "" twice []).transports = [⟨["obfs4".toList], "/a".toList⟩, ⟨["obfs4".toList], "/b".toList⟩] ∧
      ¬ Planned lines (twice ++ []) (planWith lines "" twice []) ∧
      (planWith lines "" capital []).lines = [] ∧ ¬ Planned lines (capital ++ []) (planWith lines "" capital []) := by
  intro lines twice capital
  have hneeded : Needed lines "obfs4".toList := ⟨_, List.mem_singleton.2 rfl, by decide⟩
  refine ⟨by decide, fun h => ?_, by decide, fun h => ?_⟩
  · have hone := h.assigned "obfs4".toList hneeded (by decide)
    exact absurd hone (by decide)
  · have hmissing := (h.missing "obfs4".toList).1 (by decide)
    exact hmissing.2 (by decide)

end Bridges
end Carriers
end AuroraVpn
