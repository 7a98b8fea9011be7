import AuroraVpn.Lib.Joined
import AuroraVpn.Routing.Parse

/-!
# Names — the rules for names, and what is one name to the name system

A name may be written in either case and with the dot of the root or without.  The rules are read without
that dot; a host is matched as the client gave it.

* `matches_suffix`: a rule for a domain compares labels.
* `respects_iff`: the names that every rule treats alike, however they are written.
-/

namespace AuroraVpn
namespace Routing

/-- The labels of a name. -/
def labels (name : Text) : List Text :=
  name.splitOn '.'

/-- A host name of ASCII, without the dot of the root. -/
structure HostName where
  text : Text
  ascii : ∀ c ∈ text, c.toNat < 128
  some_labels : ∀ label ∈ labels text, label ≠ []

/-- A way to write the name. -/
def Spells (h : Text) (name : HostName) : Prop :=
  h.map Char.toLower = name.text.map Char.toLower ∨
    h.map Char.toLower = (name.text ++ ['.']).map Char.toLower

section Respect

variable {ν ρ : Type} (crates : Parsers ν ρ)

/-- The rules that are read from entries for domains, keywords and whole names. -/
def Matcher.isNameRule : Matcher ν ρ → Bool
  | .domainSuffix _ | .domainFull _ | .domainKeyword _ => true
  | _ => false

/-- The list has entries for names only. -/
def NamesOnly (raw : Text) : Prop :=
  ∀ rule ∈ parseList crates raw, rule.isNameRule = true

/-- What is documented of `str::to_lowercase` besides: it makes no dots. -/
def KeepsDots : Prop :=
  ∀ {t : Text}, (crates.toLowercase t).getLast? = some '.' → t.getLast? = some '.'

/-- However the name is written, the action is the same, and a rule for a domain hits it just when its
labels end in those of the domain. -/
structure Respects (set : RuleSet ν ρ) (name : HostName) (port : UInt16) : Prop where
  decided : ∀ h, Spells h name →
    set.decide crates.toCrates (.domain h) port = set.decide crates.toCrates (.domain name.text) port
  suffix : ∀ d, .domainSuffix d ∈ set.block ++ set.direct → ∀ h, Spells h name →
    ((Matcher.domainSuffix d : Matcher ν ρ).matches crates.toCrates (.domain h) port = true ↔
      labels d <:+ labels (name.text.map Char.toLower))

/-- A rule with a keyword hits the text. -/
def KeywordIn (rules : List (Matcher ν ρ)) (h : Text) : Prop :=
  ∃ needle, .domainKeyword needle ∈ rules ∧ needle <:+: h.map Char.toLower

/-- A rule with a keyword or for the whole name hits the text. -/
def NamedIn (rules : List (Matcher ν ρ)) (h : Text) : Prop :=
  KeywordIn rules h ∨ ∃ full, .domainFull full ∈ rules ∧ h.map Char.toLower = full.map Char.toLower

/-- No rule is for a domain of the name, and the dot of the root makes no difference to the keywords. -/
structure DotBlind (set : RuleSet ν ρ) (name : HostName) : Prop where
  apart : ∀ d, .domainSuffix d ∈ set.block ++ set.direct → ¬ labels d <:+ labels (name.text.map Char.toLower)
  block : NamedIn set.block name.text ↔ KeywordIn set.block (name.text ++ ['.'])
  direct : ¬ NamedIn set.block name.text →
    (NamedIn set.direct name.text ↔ KeywordIn set.direct (name.text ++ ['.']))

end Respect

section Proofs

variable {ν ρ : Type} {crates : Parsers ν ρ} {set : RuleSet ν ρ} {name : HostName} {port : UInt16}
  {rules : List (Matcher ν ρ)} {d h raw : Text}

theorem toNat_of_toLower {c : Char} (hc : c.toLower.toNat < 128) : c.toNat < 128 := by
  by_cases hupper : c.toNat < 128
  · exact hupper
  · have hsame : c.toLower = c := by
      unfold Char.toLower
      refine dif_neg ?_
      rintro ⟨-, hle⟩
      exact hupper (lt_of_le_of_lt (UInt32.le_iff_toNat_le.1 hle) (by decide))
    rwa [hsame] at hc

/-- A way to write an ASCII name is ASCII. -/
theorem spells_ascii (hspells : Spells h name) : ∀ c ∈ h, c.toNat < 128 := by
  have hlow : ∀ {t : Text}, (∀ c ∈ t, c.toNat < 128) → h.map Char.toLower = t.map Char.toLower →
      ∀ c ∈ h, c.toNat < 128 := by
    intro t ht heq c hc
    have hmem : c.toLower ∈ t.map Char.toLower := heq ▸ List.mem_map_of_mem hc
    obtain ⟨e, he, hce⟩ := List.mem_map.1 hmem
    exact toNat_of_toLower (hce ▸ (toLower_ascii (ht e he)).1)
  rcases hspells with heq | heq
  · exact hlow name.ascii heq
  · refine hlow (fun c hc => ?_) heq
    rcases List.mem_append.1 hc with hc | hc
    · exact name.ascii c hc
    · rw [List.mem_singleton.1 hc]
      decide

/-- A rule for a domain compares labels. -/
theorem matches_suffix (hlower : crates.toLowercase h = h.map Char.toLower) :
    (Matcher.domainSuffix d : Matcher ν ρ).matches crates.toCrates (.domain h) port = true ↔
      labels d <:+ labels (h.map Char.toLower) := by
  change (crates.toLowercase h == d || ('.' :: d).isSuffixOf (crates.toLowercase h)) = true ↔ _
  rw [hlower, Bool.or_eq_true, beq_iff_eq, List.isSuffixOf_iff_suffix]
  exact splitOn_suffix_iff.symm

theorem matches_full :
    (Matcher.domainFull d : Matcher ν ρ).matches crates.toCrates (.domain h) port = true ↔
      h.map Char.toLower = d.map Char.toLower := by
  change (h.map Char.toLower == d.map Char.toLower) = true ↔ _
  rw [beq_iff_eq]

theorem matches_keyword (hlower : crates.toLowercase h = h.map Char.toLower) :
    (Matcher.domainKeyword d : Matcher ν ρ).matches crates.toCrates (.domain h) port = true ↔
      d <:+: h.map Char.toLower := by
  change decide (d <:+: crates.toLowercase h) = true ↔ _
  rw [hlower, decide_eq_true_eq]

/-- The rules that hit, where all of them are for names. -/
theorem hits_iff (hlower : crates.toLowercase h = h.map Char.toLower)
    (hrules : ∀ rule ∈ rules, rule.isNameRule = true) :
    rules.any (fun rule => rule.matches crates.toCrates (.domain h) port) = true ↔
      (∃ d, .domainSuffix d ∈ rules ∧ labels d <:+ labels (h.map Char.toLower)) ∨ NamedIn rules h := by
  rw [List.any_eq_true]
  constructor
  · rintro ⟨rule, hrule, hmatch⟩
    have hname := hrules rule hrule
    cases rule with
    | domainSuffix d => exact .inl ⟨d, hrule, (matches_suffix hlower).1 hmatch⟩
    | domainFull full => exact .inr (.inr ⟨full, hrule, matches_full.1 hmatch⟩)
    | domainKeyword needle => exact .inr (.inl ⟨needle, hrule, (matches_keyword hlower).1 hmatch⟩)
    | _ => cases hname
  · rintro (⟨d, hd, hmatch⟩ | ⟨needle, hneedle, hmatch⟩ | ⟨full, hfull, hmatch⟩)
    · exact ⟨_, hd, (matches_suffix hlower).2 hmatch⟩
    · exact ⟨_, hneedle, (matches_keyword hlower).2 hmatch⟩
    · exact ⟨_, hfull, matches_full.2 hmatch⟩

/-- The action is decided by the rules that hit. -/
theorem decide_eq_iff {host host' : Host} {B B' D D' : Prop}
    (hB : set.block.any (fun rule => rule.matches crates.toCrates host port) = true ↔ B)
    (hB' : set.block.any (fun rule => rule.matches crates.toCrates host' port) = true ↔ B')
    (hD : set.direct.any (fun rule => rule.matches crates.toCrates host port) = true ↔ D)
    (hD' : set.direct.any (fun rule => rule.matches crates.toCrates host' port) = true ↔ D') :
    set.decide crates.toCrates host port = set.decide crates.toCrates host' port ↔
      (B ↔ B') ∧ (¬ B → (D ↔ D')) := by
  unfold RuleSet.decide
  rw [← hB, ← hB', ← hD, ← hD']
  cases set.block.any (fun rule => rule.matches crates.toCrates host port) <;>
    cases set.block.any (fun rule => rule.matches crates.toCrates host' port) <;>
    cases set.direct.any (fun rule => rule.matches crates.toCrates host port) <;>
    cases set.direct.any (fun rule => rule.matches crates.toCrates host' port) <;>
    decide

/-! ### What is read of an entry -/

/-- A text that is read for a domain or a whole name does not end in a dot. -/
theorem normalizeDomain_undotted (hdots : KeepsDots crates) {value : Text}
    (h : normalizeDomain crates value = some d) : d ≠ [] ∧ d.getLast? ≠ some '.' := by
  unfold normalizeDomain at h
  dsimp only at h
  split_ifs at h with hne
  cases h
  refine ⟨hne, fun hlast => ?_⟩
  have htrim := hdots hlast
  unfold trimEndMatches at htrim
  rw [List.getLast?_reverse] at htrim
  have hstop := List.head?_dropWhile_not (· = '.') (trimStartMatches '.' (trimStartMatches '*' (trim value))).reverse
  rw [htrim] at hstop
  simp at hstop

theorem some_of_ite {α : Type} {p : Prop} [Decidable p] {a b : Option α} {x : α}
    (h : (if p then a else b) = some x) : a = some x ∨ b = some x := by
  by_cases hp : p
  · exact .inl ((if_pos hp).symm.trans h)
  · exact .inr ((if_neg hp).symm.trans h)

theorem ofKind_name {kind value : Text} {rule : Matcher ν ρ} (h : ofKind crates kind value = some rule)
    (hrule : rule = .domainSuffix d ∨ rule = .domainFull d) : normalizeDomain crates value = some d := by
  -- a kind that makes one of the two rules makes it of the normalized value
  have hmap : ∀ {make : Text → Matcher ν ρ}, (normalizeDomain crates value).map make = some rule →
      (∀ t, make t = .domainSuffix d ∨ make t = .domainFull d → t = d) → normalizeDomain crates value = some d := by
    intro make hmake hinj
    obtain ⟨t, ht, rfl⟩ := Option.map_eq_some_iff.1 hmake
    rw [ht, hinj t hrule]
  -- the other kinds make neither
  have hother : ∀ {α : Type} {o : Option α} {make : α → Matcher ν ρ}, o.map make = some rule →
      (∀ a, make a ≠ .domainSuffix d ∧ make a ≠ .domainFull d) → normalizeDomain crates value = some d := by
    intro α o make hmake hne
    obtain ⟨a, -, rfl⟩ := Option.map_eq_some_iff.1 hmake
    exact absurd hrule (not_or.2 (hne a))
  have hsuffix : ∀ t, (.domainSuffix t : Matcher ν ρ) = .domainSuffix d ∨
      (.domainSuffix t : Matcher ν ρ) = .domainFull d → t = d := by
    rintro t (heq | heq) <;> cases heq
    rfl
  have hfull : ∀ t, (.domainFull t : Matcher ν ρ) = .domainSuffix d ∨
      (.domainFull t : Matcher ν ρ) = .domainFull d → t = d := by
    rintro t (heq | heq) <;> cases heq
    rfl
  -- the kinds in the order of the source
  unfold ofKind at h
  rcases some_of_ite h with h | h
  · exact hmap h hsuffix
  rcases some_of_ite h with h | h
  · exact hmap h hfull
  rcases some_of_ite h with h | h
  · rcases some_of_ite h with h | h
    · cases h
    · cases h
      rcases hrule with hrule | hrule <;> cases hrule
  rcases some_of_ite h with h | h
  · exact hother h fun _ => ⟨nofun, nofun⟩
  rcases some_of_ite h with h | h
  · exact hother h fun _ => ⟨nofun, nofun⟩
  rcases some_of_ite h with h | h
  · exact hother h fun _ => ⟨nofun, nofun⟩
  rcases some_of_ite h with h | h
  · rcases some_of_ite h with h | h
    · cases h
      rcases hrule with hrule | hrule <;> cases hrule
    · cases h
  rcases some_of_ite h with h | h
  · rcases some_of_ite h with h | h
    · cases h
      rcases hrule with hrule | hrule <;> cases hrule
    · split at h
      · cases h
        rcases hrule with hrule | hrule <;> cases hrule
      · exact hmap h hsuffix
  · cases h

theorem normalized_of_mem (hrule : .domainSuffix d ∈ parseList crates raw ∨ .domainFull d ∈ parseList crates raw) :
    ∃ value, normalizeDomain crates value = some d := by
  obtain ⟨rule, hmem, hrule⟩ : ∃ rule ∈ parseList crates raw, rule = .domainSuffix d ∨ rule = .domainFull d :=
    hrule.elim (fun h => ⟨_, h, .inl rfl⟩) fun h => ⟨_, h, .inr rfl⟩
  obtain ⟨entry, -, hparse⟩ := List.mem_filterMap.1 hmem
  unfold Matcher.parse at hparse
  rcases some_of_ite hparse with hparse | hparse
  · cases hparse
  · exact ⟨_, ofKind_name hparse hrule⟩

/-- No rule that is read is for a name with the dot of the root. -/
theorem undotted_of_mem (hdots : KeepsDots crates)
    (hrule : .domainSuffix d ∈ parseList crates raw ∨ .domainFull d ∈ parseList crates raw) :
    d ≠ [] ∧ d.getLast? ≠ some '.' := by
  obtain ⟨value, hvalue⟩ := normalized_of_mem hrule
  exact normalizeDomain_undotted hdots hvalue

theorem getLast?_lower {t : Text} (h : (t.map Char.toLower).getLast? = some '.') : t.getLast? = some '.' := by
  rw [List.getLast?_map] at h
  obtain ⟨c, hc, hdot⟩ := Option.map_eq_some_iff.1 h
  have hascii : c.toNat < 128 := toNat_of_toLower (hdot ▸ by decide)
  have hall : ∀ n < 128, (Char.ofNat n).toLower = '.' → Char.ofNat n = '.' := by decide
  rw [hc, ascii_induction (P := fun c => c.toLower = '.' → c = '.') hall hascii hdot]

/-- A name with the dot of the root is no name of a rule. -/
theorem rooted_ne_full (hd : d ≠ [] ∧ d.getLast? ≠ some '.') (t : Text) :
    (t ++ ['.']).map Char.toLower ≠ d.map Char.toLower := by
  intro heq
  have hlast : (d.map Char.toLower).getLast? = some '.' := by
    rw [← heq, List.map_append]
    exact List.getLast?_concat
  exact hd.2 (getLast?_lower hlast)

/-- A name with the dot of the root is in no domain of a rule. -/
theorem rooted_not_suffix (hd : d ≠ [] ∧ d.getLast? ≠ some '.') (t : Text) :
    ¬ labels d <:+ labels ((t ++ ['.']).map Char.toLower) := by
  intro hsuffix
  rcases splitOn_suffix_iff.1 hsuffix with heq | ⟨front, hfront⟩
  · exact hd.2 (by rw [← heq, List.map_append]; exact List.getLast?_concat)
  · have hlast : (front ++ '.' :: d).getLast? = some '.' := by
      rw [hfront, List.map_append]
      exact List.getLast?_concat
    rw [List.getLast?_append_of_ne_nil _ (List.cons_ne_nil _ _), List.getLast?_cons_of_ne_nil hd.1] at hlast
    exact hd.2 hlast

/-- Only how a name looks in small letters matters. -/
theorem namedIn_congr {t : Text} (heq : h.map Char.toLower = t.map Char.toLower) :
    NamedIn rules h ↔ NamedIn rules t := by
  unfold NamedIn KeywordIn
  rw [heq]

/-- With the dot of the root, only keywords hit. -/
theorem namedIn_rooted (hdots : KeepsDots crates)
    (hmem : ∀ d, .domainFull d ∈ rules → .domainFull d ∈ parseList crates raw)
    (t : Text) : NamedIn rules (t ++ ['.']) ↔ KeywordIn rules (t ++ ['.']) := by
  refine or_iff_left ?_
  rintro ⟨full, hfull, heq⟩
  exact rooted_ne_full (undotted_of_mem hdots (.inr (hmem full hfull))) t heq

end Proofs

section Main

variable {ν ρ : Type} {crates : Parsers ν ρ} {block direct : Text}

/-- **The names that every rule treats alike, however they are written**: those that no rule for a domain is
for, and to which the dot of the root makes no difference. -/
theorem respects_iff (doc : Documented crates) (hdots : KeepsDots crates) (hblock : NamesOnly crates block)
    (hdirect : NamesOnly crates direct) (name : HostName) (port : UInt16) :
    Respects crates (RuleSet.parse crates block direct) name port ↔
      DotBlind (RuleSet.parse crates block direct) name := by
  generalize hset : RuleSet.parse crates block direct = set
  have hB : set.block = parseList crates block := hset ▸ rfl
  have hD : set.direct = parseList crates direct := hset ▸ rfl
  have hundotted : ∀ d, .domainSuffix d ∈ set.block ++ set.direct → d ≠ [] ∧ d.getLast? ≠ some '.' := by
    intro d hd
    rw [hB, hD] at hd
    exact (List.mem_append.1 hd).elim (fun hd => undotted_of_mem hdots (.inl hd))
      fun hd => undotted_of_mem hdots (.inl hd)
  have hlower : ∀ {h : Text}, Spells h name → crates.toLowercase h = h.map Char.toLower :=
    fun hspells => doc.lowercase (spells_ascii hspells)
  have hself : Spells name.text name := .inl rfl
  have hroot : Spells (name.text ++ ['.']) name := .inr rfl
  -- what hits, where no rule is for a domain of the name
  have hplain : ∀ {rules : List (Matcher ν ρ)} {h : Text}, (∀ rule ∈ rules, rule.isNameRule = true) →
      (∀ d, .domainSuffix d ∈ rules → ¬ labels d <:+ labels (name.text.map Char.toLower)) →
      h.map Char.toLower = name.text.map Char.toLower →
      (rules.any (fun rule => rule.matches crates.toCrates (.domain h) port) = true ↔ NamedIn rules name.text) := by
    intro rules h hrules hapart heq
    rw [hits_iff (hlower (.inl heq)) hrules, heq, namedIn_congr heq]
    exact or_iff_right fun ⟨d, hd, hsuffix⟩ => hapart d hd hsuffix
  have hrooted : ∀ {rules : List (Matcher ν ρ)} {raw h : Text}, rules = parseList crates raw →
      NamesOnly crates raw → h.map Char.toLower = (name.text ++ ['.']).map Char.toLower →
      (rules.any (fun rule => rule.matches crates.toCrates (.domain h) port) = true ↔
        KeywordIn rules (name.text ++ ['.'])) := by
    intro rules raw h hrules hnames heq
    rw [hits_iff (hlower (.inr heq)) (hrules ▸ hnames), heq, namedIn_congr heq,
      namedIn_rooted hdots (fun d hd => hrules ▸ hd)]
    exact or_iff_right fun ⟨d, hd, hsuffix⟩ =>
      rooted_not_suffix (undotted_of_mem hdots (.inl (hrules ▸ hd))) name.text hsuffix
  constructor
  · intro hrespects
    have hapart : ∀ d, .domainSuffix d ∈ set.block ++ set.direct →
        ¬ labels d <:+ labels (name.text.map Char.toLower) := by
      intro d hd hsuffix
      have hhit := (hrespects.suffix d hd _ hroot).2 hsuffix
      exact rooted_not_suffix (hundotted d hd) name.text ((matches_suffix (hlower hroot)).1 hhit)
    have hsame := (decide_eq_iff (hrooted hB hblock rfl)
      (hplain (hB ▸ hblock) (fun d hd => hapart d (List.mem_append_left _ hd)) rfl)
      (hrooted hD hdirect rfl)
      (hplain (hD ▸ hdirect) (fun d hd => hapart d (List.mem_append_right _ hd)) rfl)).1
      (hrespects.decided _ hroot)
    exact ⟨hapart, hsame.1.symm, fun hnot => (hsame.2 (mt hsame.1.1 hnot)).symm⟩
  · intro hblind
    have hapartB := fun d hd => hblind.apart d (List.mem_append_left set.direct hd)
    have hapartD := fun d hd => hblind.apart d (List.mem_append_right set.block hd)
    refine ⟨fun h hspells => ?_, fun d hd h hspells => ?_⟩
    · rcases hspells with heq | heq
      · exact (decide_eq_iff (hplain (hB ▸ hblock) hapartB heq) (hplain (hB ▸ hblock) hapartB rfl)
          (hplain (hD ▸ hdirect) hapartD heq) (hplain (hD ▸ hdirect) hapartD rfl)).2
          ⟨Iff.rfl, fun _ => Iff.rfl⟩
      · exact (decide_eq_iff (hrooted hB hblock heq) (hplain (hB ▸ hblock) hapartB rfl)
          (hrooted hD hdirect heq) (hplain (hD ▸ hdirect) hapartD rfl)).2
          ⟨hblind.block.symm, fun hnot => (hblind.direct (mt hblind.block.1 hnot)).symm⟩
    · rw [matches_suffix (hlower hspells)]
      rcases hspells with heq | heq
      · rw [heq]
      · rw [heq]
        exact iff_of_false (rooted_not_suffix (hundotted d hd) name.text) (hblind.apart d hd)

end Main

/-! ### A list of one domain -/

theorem keepsDots_bitCrates : KeepsDots bitCrates :=
  getLast?_lower

theorem parseList_ads : parseList bitCrates "ads.com".toList = [.domainSuffix "ads.com".toList] :=
  rfl

theorem namesOnly_ads : NamesOnly bitCrates "ads.com".toList := by
  intro rule hrule
  rw [parseList_ads, List.mem_singleton] at hrule
  rw [hrule]
  rfl

theorem namesOnly_nil : NamesOnly bitCrates [] := by
  intro rule hrule
  have hnil : parseList bitCrates [] = [] := rfl
  rw [hnil] at hrule
  cases hrule

def exampleOrg : HostName where
  text := "example.org".toList
  ascii := by decide
  some_labels := by decide

def adsCom : HostName where
  text := "ads.com".toList
  ascii := by decide
  some_labels := by decide

/-- A name that no rule is for is treated alike. -/
theorem respects_exampleOrg : Respects bitCrates (RuleSet.parse bitCrates "ads.com".toList []) exampleOrg 443 := by
  refine (respects_iff documented_bitCrates keepsDots_bitCrates namesOnly_ads namesOnly_nil exampleOrg 443).2 ?_
  have hblock : (RuleSet.parse bitCrates "ads.com".toList []).block = [.domainSuffix "ads.com".toList] := parseList_ads
  have hdirect : (RuleSet.parse bitCrates "ads.com".toList []).direct = [] := rfl
  refine ⟨fun d hd => ?_, ?_, fun _ => ?_⟩
  · rw [hblock, hdirect, List.append_nil, List.mem_singleton] at hd
    cases hd
    decide
  · rw [hblock]
    simp [NamedIn, KeywordIn]
  · rw [hdirect]
    simp [NamedIn, KeywordIn]

/-- `ads.com` is blocked, and `ads.com.` is not. -/
theorem root_dot_evades : ¬ Respects bitCrates (RuleSet.parse bitCrates "ads.com".toList []) adsCom 443 := by
  intro h
  have hdecided := h.decided "ads.com.".toList (.inr (by decide))
  exact absurd hdecided (by decide)

end Routing
end AuroraVpn
