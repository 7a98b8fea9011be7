import AuroraVpn.Routing.Parse

/-!
# Rules — the routing lists as rules of the exit chain

`blockRules` and `directRules` of `ChainSettings.kt` and `mihomoRules` and `appendRules` of
`ChainConfig.kt`: the two routing lists of the engine, as lines of a rule list of which the first
one that hits decides.

* `firstMatch_chainRules`: what the rule list decides, entry by entry.
-/

namespace AuroraVpn
namespace Chain

open IpAddr Routing

def EXIT_GROUP : Text :=
  "exit".toList

def REJECT : Text :=
  "REJECT".toList

def DIRECT : Text :=
  "DIRECT".toList

/-- What the translation uses of Kotlin's strings besides: `lowercase` and `equals` with
`ignoreCase`. -/
structure Kotlin where
  lowercase : Text → Text
  equalsIgnoreCase : Text → Text → Bool

/-- The rules that are written with a payload. -/
inductive RuleType
  | domain
  | domainSuffix
  | domainKeyword
  | domainRegex
  | ipCidr
  | dstPort
  deriving DecidableEq, Repr

def RuleType.name : RuleType → Text
  | .domain => "DOMAIN".toList
  | .domainSuffix => "DOMAIN-SUFFIX".toList
  | .domainKeyword => "DOMAIN-KEYWORD".toList
  | .domainRegex => "DOMAIN-REGEX".toList
  | .ipCidr => "IP-CIDR".toList
  | .dstPort => "DST-PORT".toList

/-- A rule as it is written: `DOMAIN,$value,$action`, and `no-resolve` behind those for addresses. -/
def ruleText (action : Text) (rule : RuleType × Text) : Text :=
  rule.1.name ++ ',' :: (rule.2 ++ ',' :: (action ++
    if rule.1 = .ipCidr then ",no-resolve".toList else []))

/-! ## Translation -/

section Translation

variable (kotlin : Kotlin)

def privateRules : List (RuleType × Text) :=
  ["10.0.0.0/8", "172.16.0.0/12", "192.168.0.0/16", "169.254.0.0/16", "127.0.0.0/8"].map
    fun net => (.ipCidr, net.toList)

/-- Kind and value of a trimmed entry. -/
def kindAndValue (entry : Text) : Text × Text :=
  match splitOnce ':' entry with
  | some (kind, value) =>
      if '.' ∈ kind ∨ '/' ∈ kind then ([], entry)
      else (kotlin.lowercase (trimKotlin kind), trimKotlin value)
  | none => ([], entry)

/-- The branches of `mihomoRules`. -/
def rulesOf (kind value : Text) : List (RuleType × Text) :=
  if kind = "domain".toList ∨ kind = "suffix".toList then [(.domainSuffix, value)]
  else if kind = "full".toList ∨ kind = "exact".toList then [(.domain, value)]
  else if kind = "keyword".toList then [(.domainKeyword, value)]
  else if kind = "regexp".toList ∨ kind = "regex".toList then [(.domainRegex, value)]
  else if kind = "ip".toList ∨ kind = "cidr".toList then [(.ipCidr, value)]
  else if kind = "port".toList then [(.dstPort, value)]
  else if kind = "geoip".toList ∨ kind = "geosite".toList then
    if kotlin.equalsIgnoreCase value "private".toList then privateRules else []
  else if kind = [] then
    if kotlin.equalsIgnoreCase value "private".toList then privateRules
    else if '/' ∈ value then [(.ipCidr, value)]
    else [(.domainSuffix, value)]
  else []

/-- The rules of an entry, with their payloads. -/
def translate (pattern : Text) : List (RuleType × Text) :=
  let entry := trimKotlin pattern
  if entry = [] ∨ entry.head? = some '#' then []
  else
    let (kind, value) := kindAndValue kotlin entry
    if value = [] then [] else rulesOf kotlin kind value

def mihomoRules (pattern action : Text) : List Text :=
  (translate kotlin pattern).map (ruleText action)

def ruleLines (raw : Text) : List Text :=
  ((entries raw).map trimKotlin).filter fun line => line ≠ [] ∧ line.head? ≠ some '#'

/-- The lines of `appendRules`. -/
def chainRules (routeBlock routeDirect : Text) : List Text :=
  (ruleLines routeBlock).flatMap (fun pattern => mihomoRules kotlin pattern REJECT) ++
    (ruleLines routeDirect).flatMap (fun pattern => mihomoRules kotlin pattern DIRECT) ++
    ["MATCH,".toList ++ EXIT_GROUP]

end Translation

/-! ## Reading -/

def RuleType.all : List RuleType :=
  [.domain, .domainSuffix, .domainKeyword, .domainRegex, .ipCidr, .dstPort]

/-- A rule as it is read: with a payload that has to hit, or for everything. -/
inductive Rule
  | payload (type : RuleType) (payload target : Text)
  | default (target : Text)
  deriving DecidableEq, Repr

/-- The parts of a rule stand between commas. -/
def readRule (line : Text) : Option Rule :=
  match line.splitOnP (· = ',') with
  | [name, target] => if name = "MATCH".toList then some (.default target) else none
  | name :: payload :: target :: _ =>
      (RuleType.all.find? fun type => decide (type.name = name)).map fun type =>
        .payload type payload target
  | _ => none

/-- Which destinations a rule with a payload hits. -/
abbrev Hits := RuleType → Text → Host → UInt16 → Bool

/-- The target of the first rule that hits. -/
def firstMatch (hits : Hits) (host : Host) (port : UInt16) : List Text → Option Text
  | [] => none
  | line :: lines =>
      match readRule line with
      | some (.payload type payload target) =>
          if hits type payload host port then some target else firstMatch hits host port lines
      | some (.default target) => some target
      | none => firstMatch hits host port lines

section Reading

variable {kotlin : Kotlin} {hits : Hits} {host : Host} {port : UInt16}

theorem find?_name (type : RuleType) :
    (RuleType.all.find? fun type' => decide (type'.name = type.name)) = some type := by
  cases type <;> decide

/-- **A rule is read as it was written**, unless there is a comma in what it was written from. -/
theorem readRule_ruleText {type : RuleType} {payload action : Text} (hpayload : ',' ∉ payload)
    (haction : ',' ∉ action) :
    readRule (ruleText action (type, payload)) = some (.payload type payload action) := by
  have hfree : ∀ {t : Text}, ',' ∉ t → ∀ c ∈ t, decide (c = ',') = false := fun ht c hc =>
    decide_eq_false fun hcomma => ht (hcomma ▸ hc)
  have hname : ',' ∉ type.name := by cases type <;> decide
  -- the type, the payload and the action have no comma, so the rule is cut between them
  have hsplit : ∃ more, (ruleText action (type, payload)).splitOnP (· = ',') =
      type.name :: payload :: action :: more := by
    unfold ruleText
    dsimp only
    rw [List.splitOnP_append_cons_of_forall_mem (hfree hname) ',' (by simp),
      List.splitOnP_append_cons_of_forall_mem (hfree hpayload) ',' (by simp)]
    split_ifs
    · exact ⟨["no-resolve".toList], by
        rw [show (",no-resolve".toList : Text) = ',' :: "no-resolve".toList from rfl,
          List.splitOnP_append_cons_of_forall_mem (hfree haction) ',' (by simp)]
        rfl⟩
    · exact ⟨[], by rw [List.append_nil, List.splitOnP_eq_singleton (hfree haction)]⟩
  obtain ⟨more, hsplit⟩ := hsplit
  unfold readRule
  rw [hsplit]
  dsimp only
  rw [find?_name]
  rfl

/-! ## What the rule list decides -/

/-- One of the rules of the entry hits. -/
def chainHits (kotlin : Kotlin) (hits : Hits) (host : Host) (port : UInt16) (entry : Text) : Bool :=
  (translate kotlin entry).any fun rule => hits rule.1 rule.2 host port

theorem mem_splitOnce {c d : Char} {t front back : Text} (h : splitOnce c t = some (front, back))
    (hd : d ∈ front ∨ d ∈ back) : d ∈ t := by
  rw [eq_of_splitOnce h]
  rcases hd with hd | hd
  · exact List.mem_append_left _ hd
  · exact List.mem_append_right _ (List.mem_cons_of_mem _ hd)

theorem mem_ite {α : Type} {p : Prop} [Decidable p] {a : α} {l l' : List α}
    (h : a ∈ if p then l else l') : a ∈ l ∨ a ∈ l' := by
  by_cases hp : p
  · rw [if_pos hp] at h
    exact .inl h
  · rw [if_neg hp] at h
    exact .inr h

theorem mem_rulesOf {kind value : Text} {rule : RuleType × Text}
    (hrule : rule ∈ rulesOf kotlin kind value) : rule ∈ privateRules ∨ rule.2 = value := by
  have hone : ∀ {type : RuleType}, rule ∈ [(type, value)] → rule ∈ privateRules ∨ rule.2 = value :=
    fun h => .inr (by rw [List.mem_singleton.1 h])
  unfold rulesOf at hrule
  -- each kind gives one rule with the value, except the private networks and the bare entries
  rcases mem_ite hrule with h | hrule
  · exact hone h
  rcases mem_ite hrule with h | hrule
  · exact hone h
  rcases mem_ite hrule with h | hrule
  · exact hone h
  rcases mem_ite hrule with h | hrule
  · exact hone h
  rcases mem_ite hrule with h | hrule
  · exact hone h
  rcases mem_ite hrule with h | hrule
  · exact hone h
  rcases mem_ite hrule with h | hrule
  · exact (mem_ite h).imp_right fun h => absurd h List.not_mem_nil
  rcases mem_ite hrule with h | hrule
  · rcases mem_ite h with h | h
    · exact .inl h
    · exact (mem_ite h).elim hone hone
  · cases hrule

/-- What an entry is written from, but for the networks of `private`. -/
theorem mem_translate {entry : Text} {rule : RuleType × Text} (hrule : rule ∈ translate kotlin entry) :
    rule ∈ privateRules ∨ ∀ c ∈ rule.2, c ∈ entry := by
  have hentry : ∀ c ∈ trimKotlin entry, c ∈ entry := fun c => trimBy_subset
  have hvalue : ∀ c ∈ (kindAndValue kotlin (trimKotlin entry)).2, c ∈ entry := by
    intro c hc
    unfold kindAndValue at hc
    split at hc
    · rename_i kind value hsplit
      split_ifs at hc
      · exact hentry c hc
      · exact hentry c (mem_splitOnce hsplit (.inr (trimBy_subset hc)))
    · exact hentry c hc
  unfold translate at hrule
  dsimp only at hrule
  split_ifs at hrule
  · cases hrule
  · cases hrule
  · rcases mem_rulesOf hrule with hprivate | hpayload
    · exact .inl hprivate
    · exact .inr fun c hc => hvalue c (hpayload ▸ hc)

theorem comma_not_mem_translate {entry : Text} (hentry : ',' ∉ entry) {rule : RuleType × Text}
    (hrule : rule ∈ translate kotlin entry) : ',' ∉ rule.2 := by
  have hnets : ∀ net ∈ privateRules, ',' ∉ net.2 := by decide
  rcases mem_translate hrule with hprivate | hfrom
  · exact hnets rule hprivate
  · exact fun hcomma => hentry (hfrom _ hcomma)

/-- The rules of one entry, in front of others. -/
theorem firstMatch_mihomoRules {entry action : Text} {lines : List Text} (hentry : ',' ∉ entry)
    (haction : ',' ∉ action) :
    firstMatch hits host port (mihomoRules kotlin entry action ++ lines) =
      if chainHits kotlin hits host port entry then some action
      else firstMatch hits host port lines := by
  have hcommas : ∀ rule ∈ translate kotlin entry, ',' ∉ rule.2 := fun _ =>
    comma_not_mem_translate hentry
  unfold mihomoRules chainHits
  generalize translate kotlin entry = rules at hcommas
  induction rules with
  | nil => rfl
  | cons rule rules ih =>
      obtain ⟨type, payload⟩ := rule
      have hread := @readRule_ruleText type payload action 
        (hcommas (type, payload) List.mem_cons_self) haction
      have ih := ih fun rule hrule => hcommas rule (List.mem_cons_of_mem _ hrule)
      rw [List.map_cons, List.cons_append, firstMatch, hread]
      dsimp only
      rw [ih, List.any_cons]
      cases hits type payload host port <;> rfl

theorem firstMatch_flatMap {patterns lines : List Text} {action : Text}
    (hpatterns : ∀ pattern ∈ patterns, ',' ∉ pattern) (haction : ',' ∉ action) :
    firstMatch hits host port (patterns.flatMap (fun p => mihomoRules kotlin p action) ++ lines) =
      if patterns.any (chainHits kotlin hits host port) then some action
      else firstMatch hits host port lines := by
  induction patterns with
  | nil => rfl
  | cons pattern patterns ih =>
      have ih := ih fun p hp => hpatterns p (List.mem_cons_of_mem _ hp)
      rw [List.flatMap_cons, List.append_assoc,
        firstMatch_mihomoRules (hpatterns pattern List.mem_cons_self) haction, ih, List.any_cons]
      cases chainHits kotlin hits host port pattern <;> rfl

/-- A pattern and its trimmed form are the same entry. -/
theorem chainHits_trim (entry : Text) :
    chainHits kotlin hits host port (trimKotlin entry) = chainHits kotlin hits host port entry := by
  have htrim : trimKotlin (trimKotlin entry) = trimKotlin entry := trimBy_trimBy entry
  unfold chainHits translate
  rw [htrim]

/-- The lines that are left out have no rules. -/
theorem any_ruleLines (raw : Text) :
    (ruleLines raw).any (chainHits kotlin hits host port) =
      (entries raw).any (chainHits kotlin hits host port) := by
  unfold ruleLines
  induction entries raw with
  | nil => rfl
  | cons entry rest ih =>
      rw [List.map_cons, List.any_cons, ← ih, ← chainHits_trim entry]
      by_cases hline : trimKotlin entry ≠ [] ∧ (trimKotlin entry).head? ≠ some '#'
      · rw [List.filter_cons_of_pos (by simpa using hline), List.any_cons]
      · have hnone : chainHits kotlin hits host port (trimKotlin entry) = false := by
          rw [chainHits_trim]
          unfold chainHits translate
          dsimp only
          rw [if_pos (by tauto)]
          rfl
        rw [List.filter_cons_of_neg (by simpa using hline), hnone, Bool.false_or]

theorem comma_not_mem_ruleLines {raw line : Text} (hline : line ∈ ruleLines raw) : ',' ∉ line := by
  obtain ⟨entry, hentry, rfl⟩ := List.mem_map.1 (List.mem_of_mem_filter hline)
  intro hcomma
  have hsep := (mem_of_mem_splitOnP hentry ',' (trimBy_subset hcomma)).1
  simp at hsep

/-- **What the rule list decides**: the block list, then the direct list, then the exit group. -/
theorem firstMatch_chainRules (block direct : Text) :
    firstMatch hits host port (chainRules kotlin block direct) =
      if (entries block).any (chainHits kotlin hits host port) then some REJECT
      else if (entries direct).any (chainHits kotlin hits host port) then some DIRECT
      else some EXIT_GROUP := by
  unfold chainRules
  rw [List.append_assoc,
    firstMatch_flatMap (fun _ => comma_not_mem_ruleLines) (by decide),
    firstMatch_flatMap (fun _ => comma_not_mem_ruleLines) (by decide),
    any_ruleLines, any_ruleLines]
  rfl

end Reading

end Chain
end AuroraVpn
