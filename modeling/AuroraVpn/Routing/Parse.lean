import AuroraVpn.Lib.BigEndian
import AuroraVpn.Lib.Text
import AuroraVpn.Routing.Rules

/-!
# Parse — from the text of a routing list to its rules

`Matcher::parse` and `parse_list` of `routing.rs`.  An entry is read up to its first colon: what
stands in front of it is the kind of the entry, unless a dot or a slash does.

* `netRule_of_prefixed`, `netRule_of_colonless`: the entries for networks that are read as such.
* `rule_of_colon`: a network that is written bare and with a colon is read as something else.
* `takesEffect_iff`: the lists in which every entry for a network takes effect.
-/

namespace AuroraVpn
namespace Routing

open IpAddr

/-- What the parser uses of the crates besides: `str::parse::<IpNet>`, `IpNet::from` an address and
`Regex::new`. -/
structure Parsers (ν ρ : Type) extends Crates ν ρ where
  parseIpNet : Text → Option ν
  ofAddr : IpAddr → ν
  regexNew : Text → Option ρ

variable {ν ρ : Type} (crates : Parsers ν ρ)

def normalizeDomain (value : Text) : Option Text :=
  let cleaned := crates.toLowercase
    (trimEndMatches '.' (trimStartMatches '.' (trimStartMatches '*' (trim value))))
  if cleaned = [] then none else some cleaned

def parseNet (value : Text) : Option ν :=
  (crates.parseIpNet (trim value)).or ((parseIpAddr (trim value)).map crates.ofAddr)

/-- `str::parse::<u16>`. -/
def parseU16 (t : Text) : Option UInt16 :=
  let digits := if t.head? = some '+' then t.tail else t
  match readNumber 10 digits.length 65536 true digits with
  | some (n, []) => some (UInt16.ofNat n)
  | _ => none

def parsePorts (value : Text) : Option (UInt16 × UInt16) :=
  match splitOnce '-' (trim value) with
  | some (lo, hi) => do
      let lo ← parseU16 (trim lo)
      let hi ← parseU16 (trim hi)
      pure (if hi < lo then (hi, lo) else (lo, hi))
  | none => (parseU16 (trim value)).map fun single => (single, single)

/-- Kind and value of a trimmed entry; an entry of no kind is its own value. -/
def entryKind (entry : Text) : Text × Text :=
  match splitOnce ':' entry with
  | some (kind, value) =>
      if '.' ∈ kind ∨ '/' ∈ kind then ([], entry)
      else (crates.toLowercase (trim kind), trim value)
  | none => ([], entry)

/-- What `Matcher::parse` makes of a kind and its value. -/
def ofKind (kind value : Text) : Option (Matcher ν ρ) :=
  if kind = "domain".toList ∨ kind = "suffix".toList then
    (normalizeDomain crates value).map .domainSuffix
  else if kind = "full".toList ∨ kind = "exact".toList then
    (normalizeDomain crates value).map .domainFull
  else if kind = "keyword".toList then
    let needle := crates.toLowercase (trim value)
    if needle = [] then none else some (.domainKeyword needle)
  else if kind = "regexp".toList ∨ kind = "regex".toList then
    (crates.regexNew value).map .domainRegex
  else if kind = "ip".toList ∨ kind = "cidr".toList then
    (parseNet crates value).map .net
  else if kind = "port".toList then
    (parsePorts value).map fun ports => .ports ports.1 ports.2
  else if kind = "geoip".toList ∨ kind = "geosite".toList then
    if eqIgnoreAsciiCase value "private".toList then some .isPrivate else none
  -- a bare entry: `private`, a network, or a domain
  else if kind = [] then
    if eqIgnoreAsciiCase value "private".toList then some .isPrivate
    else
      match parseNet crates value with
      | some net => some (.net net)
      | none => (normalizeDomain crates value).map .domainSuffix
  else none

def Matcher.parse (entry : Text) : Option (Matcher ν ρ) :=
  let entry := trim entry
  if entry = [] ∨ entry.head? = some '#' then none
  else
    let (kind, value) := entryKind crates entry
    ofKind crates kind value

/-- The entries of a list: its parts between newlines, commas and semicolons. -/
def entries (raw : Text) : List Text :=
  raw.splitOnP fun c => c = '\n' ∨ c = ',' ∨ c = ';'

def parseList (raw : Text) : List (Matcher ν ρ) :=
  (entries raw).filterMap (Matcher.parse crates)

def RuleSet.parse (block direct : Text) : RuleSet ν ρ :=
  ⟨parseList crates block, parseList crates direct⟩

/-! ## Entries for networks -/

/-- The entry is a network, bare or behind `ip:` or `cidr:`. -/
inductive NamesNet (entry : Text) (net : ν) : Prop
  | bare (h : parseNet crates entry = some net)
  | ip (value : Text) (hentry : trim entry = "ip:".toList ++ value)
      (h : parseNet crates value = some net)
  | cidr (value : Text) (hentry : trim entry = "cidr:".toList ++ value)
      (h : parseNet crates value = some net)

/-- Every entry of the list for a network gives a rule that hits the addresses of the network and
nothing else. -/
def TakesEffect (raw : Text) : Prop :=
  ∀ entry ∈ entries raw, ∀ net, NamesNet crates entry net →
    ∃ rule ∈ parseList crates raw, Matcher.parse crates entry = some rule ∧
      ∀ host port, rule.matches crates.toCrates host port = true ↔
        ∃ addr, host = .ip addr ∧ crates.contains net addr = true

/-- What is documented of the crates and of `str::to_lowercase`: a network is the text of an
address, a slash and a decimal length, and ASCII letters have ASCII small letters. -/
structure Documented (crates : Parsers ν ρ) : Prop where
  ipNet : ∀ {t : Text} {net : ν}, crates.parseIpNet t = some net →
    ∃ addr len, t = addr ++ '/' :: len ∧ AddrText addr ∧ ∀ c ∈ len, isHexDigit c = true
  lowercase : ∀ {t : Text}, (∀ c ∈ t, c.toNat < 128) → crates.toLowercase t = t.map Char.toLower

section Nets

/-! ### The characters of addresses and networks -/

def isNetChar (c : Char) : Bool :=
  isHexDigit c || c = ':' || c = '.' || c = '/'

/-- A fact about the ASCII characters, from the facts about all of them. -/
theorem ascii_induction {P : Char → Prop} (h : ∀ n < 128, P (Char.ofNat n)) {c : Char}
    (hc : c.toNat < 128) : P c := by
  have hn := h c.toNat hc
  rwa [Char.ofNat_toNat] at hn

theorem isHexDigit_ascii {c : Char} (hc : isHexDigit c = true) : c.toNat < 128 := by
  have hle : ∀ {d : Char}, d.toNat < 128 → c ≤ d → c.toNat < 128 := fun hd hcd =>
    lt_of_le_of_lt (Char.le_def.1 hcd) hd
  unfold isHexDigit toDigit at hc
  dsimp only at hc
  split_ifs at hc with h₁ h₂ h₃
  · exact hle (by decide) h₁.2
  · exact hle (by decide) h₂.2
  · exact hle (by decide) h₃.2
  · cases hc

theorem isNetChar_ascii {c : Char} (hc : isNetChar c = true) : c.toNat < 128 := by
  simp only [isNetChar, Bool.or_eq_true, decide_eq_true_eq] at hc
  rcases hc with ((hc | rfl) | rfl) | rfl
  · exact isHexDigit_ascii hc
  all_goals decide

theorem isNetChar_not_whitespace {c : Char} (hc : isNetChar c = true) : isWhitespace c = false :=
  ascii_induction (P := fun c => isNetChar c = true → isWhitespace c = false) (by decide)
    (isNetChar_ascii hc) hc

theorem isNetChar_not_whitespaceKotlin {c : Char} (hc : isNetChar c = true) :
    isWhitespaceKotlin c = false :=
  ascii_induction (P := fun c => isNetChar c = true → isWhitespaceKotlin c = false) (by decide)
    (isNetChar_ascii hc) hc

theorem isHexDigit_toLower {c : Char} (hc : isHexDigit c = true) : isHexDigit c.toLower = true :=
  ascii_induction (P := fun c => isHexDigit c = true → isHexDigit c.toLower = true) (by decide)
    (isHexDigit_ascii hc) hc

theorem toLower_ascii {c : Char} (hc : c.toNat < 128) : c.toLower.toNat < 128 ∧
    c.toLower.toLower = c.toLower :=
  ascii_induction (P := fun c => c.toLower.toNat < 128 ∧ c.toLower.toLower = c.toLower) (by decide) hc

theorem toLower_toLower (c : Char) : c.toLower.toLower = c.toLower := by
  by_cases hc : c.toNat < 128
  · exact (toLower_ascii hc).2
  · -- only ASCII letters have another case
    have hsame : c.toLower = c := dif_neg fun h =>
      hc (lt_of_le_of_lt (UInt32.le_iff_toNat_le.1 h.2) (by decide))
    rw [hsame, hsame]

variable {crates} {entry value t : Text} {net : ν}

/-- Lower-casing an ASCII text a second time makes no difference. -/
theorem toLowercase_idem (doc : Documented crates) (ht : ∀ c ∈ t, c.toNat < 128) :
    crates.toLowercase (crates.toLowercase t) = crates.toLowercase t := by
  have hlow : ∀ c ∈ t.map Char.toLower, c.toNat < 128 := fun c hc => by
    obtain ⟨d, hd, rfl⟩ := List.mem_map.1 hc
    exact (toLower_ascii (ht d hd)).1
  rw [doc.lowercase ht, doc.lowercase hlow, List.map_map]
  exact List.map_congr_left fun c hc => (toLower_ascii (ht c hc)).2

/-! ### What the text of a network looks like -/

/-- The text of an address or of a network. -/
structure NetText (t : Text) : Prop where
  nonempty : t ≠ []
  chars : ∀ c ∈ t, isNetChar c = true
  front : ':' ∈ t → ∀ c ∈ t.takeWhile (· ≠ ':'), isHexDigit c = true
  colons : ∀ s, t = ':' :: s → ∃ s', s = ':' :: s' ∧ s'.head? ≠ some ':'

theorem netText_of_addrText (h : AddrText t) : NetText t where
  nonempty := h.nonempty
  chars := fun c hc => by
    rcases h.chars c hc with h | rfl | rfl
    · simp [isNetChar, h]
    all_goals decide
  front := fun hcolon c hc => by
    have hne : c ≠ ':' := by simpa using List.mem_takeWhile_imp hc
    rcases h.chars c (List.takeWhile_subset _ hc) with h' | rfl | rfl
    · exact h'
    · exact absurd rfl hne
    · exact absurd hc (h.front hcolon)
  colons := h.colons

/-- A slash and a length behind the text of an address change nothing in front of its colons. -/
theorem netText_of_cidr {addr len : Text} (h : AddrText addr)
    (hlen : ∀ c ∈ len, isHexDigit c = true) : NetText (addr ++ '/' :: len) where
  nonempty := by simp
  chars := fun c hc => by
    rcases List.mem_append.1 hc with hc | hc
    · exact (netText_of_addrText h).chars c hc
    · rcases List.mem_cons.1 hc with rfl | hc
      · decide
      · simp [isNetChar, hlen c hc]
  -- a colon stands in the address, so the part in front of it does too
  front := fun hcolon c hc => by
    have hin : ':' ∈ addr := by
      rcases List.mem_append.1 hcolon with hin | hin
      · exact hin
      · rcases List.mem_cons.1 hin with hin | hin
        · cases hin
        · exact absurd rfl (isHexDigit_ne (hlen _ hin)).1
    have hshort : (addr.takeWhile (· ≠ ':')).length ≠ addr.length := fun hlen => by
      have hall := (List.takeWhile_prefix _).eq_of_length hlen
      have hne := List.mem_takeWhile_imp (hall.symm ▸ hin)
      simp at hne
    rw [List.takeWhile_append, if_neg hshort] at hc
    exact (netText_of_addrText h).front hin c hc
  -- the address has what stands behind its leading colons
  colons := fun s hs => by
    cases addr with
    | nil => cases hs
    | cons c addr =>
        cases hs
        obtain ⟨s', rfl, hhead⟩ := h.colons _ rfl
        refine ⟨s' ++ '/' :: len, rfl, ?_⟩
        cases s' with
        | nil => simp
        | cons d s' => simpa using hhead

theorem netText_of_parseNet (doc : Documented crates) (h : parseNet crates value = some net) :
    NetText (trim value) := by
  unfold parseNet at h
  cases hnet : crates.parseIpNet (trim value) with
  | some n =>
      obtain ⟨addr, len, heq, haddr, hlen⟩ := doc.ipNet hnet
      rw [heq]
      exact netText_of_cidr haddr hlen
  | none =>
      rw [hnet, Option.none_or] at h
      obtain ⟨addr, haddr, -⟩ := Option.map_eq_some_iff.1 h
      exact netText_of_addrText (addrText_of_parseIpAddr haddr)

/-! ### How the entries of networks are read -/

theorem parseNet_trim (value : Text) : parseNet crates (trim value) = parseNet crates value := by
  unfold parseNet
  rw [trim_trim]

/-- A text with a letter that no network has is not one. -/
theorem NetText.not_private (h : NetText t) : eqIgnoreAsciiCase t "private".toList = false := by
  refine Bool.eq_false_iff.2 fun heq => ?_
  have hmap : t.map Char.toLower = "private".toList.map Char.toLower := by
    simpa [eqIgnoreAsciiCase] using heq
  have hp : 'p' ∈ t.map Char.toLower := hmap ▸ by decide
  obtain ⟨c, hc, hlow⟩ := List.mem_map.1 hp
  have hchar := h.chars c hc
  exact ascii_induction (P := fun c => isNetChar c = true → c.toLower ≠ 'p') (by decide)
    (isNetChar_ascii hchar) hchar hlow

/-- The value of an entry without a kind. -/
theorem ofKind_bare (hprivate : eqIgnoreAsciiCase t "private".toList = false) :
    ofKind crates [] t =
      match parseNet crates t with
      | some net => some (.net net)
      | none => (normalizeDomain crates t).map .domainSuffix := by
  rw [ofKind, if_neg (by decide), if_neg (by decide), if_neg (by decide), if_neg (by decide),
    if_neg (by decide), if_neg (by decide), if_neg (by decide), if_pos rfl,
    if_neg (by rw [hprivate]; exact Bool.false_ne_true)]

/-- The value of an entry for an address or a network. -/
theorem ofKind_net {kind : Text} (hkind : kind = "ip".toList ∨ kind = "cidr".toList) :
    ofKind crates kind value = (parseNet crates value).map .net := by
  rcases hkind with rfl | rfl
  · rw [ofKind, if_neg (by decide), if_neg (by decide), if_neg (by decide), if_neg (by decide),
      if_pos (.inl rfl)]
  · rw [ofKind, if_neg (by decide), if_neg (by decide), if_neg (by decide), if_neg (by decide),
      if_pos (.inr rfl)]

/-- No kind of entry is written with hexadecimal digits. -/
theorem ofKind_hex {kind : Text} (hempty : kind ≠ []) (hkind : ∀ c ∈ kind, isHexDigit c = true) :
    ofKind crates kind value = none := by
  have hne : ∀ word : Text, (∃ c ∈ word, isHexDigit c = false) → kind ≠ word := by
    rintro word ⟨c, hc, hno⟩ rfl
    rw [hkind c hc] at hno
    cases hno
  unfold ofKind
  rw [if_neg (not_or.2 ⟨hne _ (by decide), hne _ (by decide)⟩),
    if_neg (not_or.2 ⟨hne _ (by decide), hne _ (by decide)⟩), if_neg (hne _ (by decide)),
    if_neg (not_or.2 ⟨hne _ (by decide), hne _ (by decide)⟩),
    if_neg (not_or.2 ⟨hne _ (by decide), hne _ (by decide)⟩), if_neg (hne _ (by decide)),
    if_neg (not_or.2 ⟨hne _ (by decide), hne _ (by decide)⟩), if_neg hempty]

theorem NetText.is_entry (h : NetText t) : ¬ (t = [] ∨ t.head? = some '#') := by
  rintro (rfl | hhash)
  · exact h.nonempty rfl
  · have hin := h.chars '#' (List.mem_of_mem_head? hhash)
    revert hin
    decide

/-- **A network written bare and without a colon is read as a network.** -/
theorem netRule_of_colonless (doc : Documented crates) (h : parseNet crates entry = some net)
    (hcolon : ':' ∉ trim entry) : Matcher.parse crates entry = some (.net net) := by
  have htext := netText_of_parseNet doc h
  have hkind : entryKind crates (trim entry) = ([], trim entry) := by
    rw [entryKind, splitOnce_eq_none.2 hcolon]
  unfold Matcher.parse
  dsimp only
  rw [if_neg htext.is_entry, hkind]
  dsimp only
  rw [ofKind_bare htext.not_private, parseNet_trim, h]

/-- **So is a network behind its kind.** -/
theorem netRule_of_prefixed (doc : Documented crates) {kind : Text}
    (hkind : kind = "ip".toList ∨ kind = "cidr".toList) (hentry : trim entry = kind ++ ':' :: value)
    (h : parseNet crates value = some net) : Matcher.parse crates entry = some (.net net) := by
  have hsplit : splitOnce ':' (trim entry) = some (kind, value) := by
    rw [hentry]
    exact splitOnce_append (by rcases hkind with rfl | rfl <;> decide)
  have hlower : crates.toLowercase (trim kind) = kind := by
    rcases hkind with rfl | rfl
    · exact doc.lowercase (by decide)
    · exact doc.lowercase (by decide)
  have hnone : ¬ ('.' ∈ kind ∨ '/' ∈ kind) := by rcases hkind with rfl | rfl <;> decide
  -- an entry behind its kind is neither empty nor a note
  have hfront : ¬ (trim entry = [] ∨ (trim entry).head? = some '#') := by
    rw [hentry]
    rcases hkind with rfl | rfl <;> simp
  unfold Matcher.parse entryKind
  dsimp only
  rw [if_neg hfront, hsplit]
  dsimp only
  -- no dot and no slash in front of the colon, so it is a kind
  rw [if_neg hnone, hlower]
  dsimp only
  rw [ofKind_net hkind, parseNet_trim, h]
  rfl

/-- A value with a colon in front is a domain, in small letters. -/
theorem normalizeDomain_colon (doc : Documented crates) {s : Text}
    (hchars : ∀ c ∈ ':' :: s, isNetChar c = true) :
    ∃ cleaned, crates.toLowercase cleaned = cleaned ∧
      normalizeDomain crates (':' :: s) = some cleaned := by
  have htrim : trim (':' :: s) = ':' :: s := trim_eq_self fun c hc =>
    isNetChar_not_whitespace (hchars c hc)
  have hfront : trimStartMatches '.' (trimStartMatches '*' (':' :: s)) = ':' :: s := rfl
  -- only dots are taken off, at the end, and the colon in front stays
  have hback : trimEndMatches '.' (':' :: s) <+: ':' :: s := List.reverse_suffix.1 (by
    rw [trimEndMatches, List.reverse_reverse]
    exact List.dropWhile_suffix _)
  have hascii : ∀ c ∈ trimEndMatches '.' (':' :: s), c.toNat < 128 := fun c hc =>
    isNetChar_ascii (hchars c (hback.subset hc))
  -- the colon is no dot, so something is left
  have hne : trimEndMatches '.' (':' :: s) ≠ [] := by
    intro hnil
    have hall := List.dropWhile_eq_nil_iff.1 (List.reverse_eq_nil_iff.1 hnil) ':' (by simp)
    revert hall
    decide
  refine ⟨crates.toLowercase (trimEndMatches '.' (':' :: s)), toLowercase_idem doc hascii, ?_⟩
  unfold normalizeDomain
  dsimp only
  rw [htrim, hfront, if_neg]
  rw [doc.lowercase hascii]
  simpa using hne

/-- **A network written bare and with a colon is read as something else**, by what stands in front
of the colon: as a kind that there is not, or, where nothing does, as a domain. -/
theorem rule_of_colon (doc : Documented crates) (h : parseNet crates entry = some net)
    (hcolon : ':' ∈ trim entry) :
    Matcher.parse crates entry = none ∨
      ∃ suffix, Matcher.parse crates entry = some (.domainSuffix suffix) ∧
        crates.toLowercase suffix = suffix := by
  have htext := netText_of_parseNet doc h
  unfold Matcher.parse
  dsimp only
  rw [if_neg htext.is_entry]
  generalize trim entry = t at htext hcolon
  have hfront := htext.front hcolon
  have hsplit : splitOnce ':' t =
      some (t.takeWhile (· ≠ ':'), (t.dropWhile (· ≠ ':')).tail) := if_pos hcolon
  have hdotless : ¬ ('.' ∈ t.takeWhile (· ≠ ':') ∨ '/' ∈ t.takeWhile (· ≠ ':')) := by
    rintro (hin | hin)
    · exact absurd (hfront _ hin) (by decide)
    · exact absurd (hfront _ hin) (by decide)
  unfold entryKind
  rw [hsplit]
  dsimp only
  rw [if_neg hdotless]
  dsimp only
  cases hkind : t.takeWhile (· ≠ ':') with
  | cons c kind =>
      rw [hkind] at hfront
      have hascii : ∀ d ∈ c :: kind, d.toNat < 128 := fun d hd => isHexDigit_ascii (hfront d hd)
      have htrim : trim (c :: kind) = c :: kind := trim_eq_self fun d hd =>
        isNetChar_not_whitespace (by simp [isNetChar, hfront d hd])
      left
      rw [htrim, doc.lowercase hascii]
      refine ofKind_hex (List.cons_ne_nil _ _) fun d hd => ?_
      obtain ⟨e, he, rfl⟩ := List.mem_map.1 hd
      exact isHexDigit_toLower (hfront e he)
  | nil =>
      -- the text starts with `::`, so the value starts with a colon of its own
      right
      have hstart : t = ':' :: (t.dropWhile (· ≠ ':')).tail := by
        cases t with
        | nil => exact absurd rfl htext.nonempty
        | cons c t =>
            by_cases hc : c = ':'
            · rw [hc]
              rfl
            · rw [List.takeWhile_cons_of_pos (by simpa using hc)] at hkind
              cases hkind
      obtain ⟨s', hs', hhead⟩ := htext.colons _ hstart
      rw [hs'] at hstart ⊢
      have hchars : ∀ c ∈ ':' :: s', isNetChar c = true := fun c hc =>
        htext.chars c (hstart ▸ List.mem_cons_of_mem _ hc)
      have htrim : trim (':' :: s') = ':' :: s' := trim_eq_self fun c hc =>
        isNetChar_not_whitespace (hchars c hc)
      have hnet : parseNet crates (':' :: s') = none := by
        refine Option.eq_none_iff_forall_not_mem.2 fun n hn => ?_
        have hvalue := netText_of_parseNet doc hn
        rw [htrim] at hvalue
        obtain ⟨s'', rfl, -⟩ := hvalue.colons _ rfl
        exact hhead rfl
      have hprivate : eqIgnoreAsciiCase (':' :: s') "private".toList = false := by
        simp [eqIgnoreAsciiCase]
      -- nothing is cut off in front of the colon, so what is left is a domain
      obtain ⟨cleaned, hcleaned, hdomain⟩ := normalizeDomain_colon doc hchars
      have hlower : crates.toLowercase (trim []) = [] := doc.lowercase nofun
      refine ⟨cleaned, ?_, hcleaned⟩
      rw [hlower, htrim, ofKind_bare hprivate, hnet]
      dsimp only
      rw [hdomain]
      rfl

/-! ### Lists -/

theorem matches_net {host : Host} {port : UInt16} :
    (Matcher.net net : Matcher ν ρ).matches crates.toCrates host port = true ↔
      ∃ addr, host = .ip addr ∧ crates.contains net addr = true := by
  cases host with
  | ip addr =>
      constructor
      · intro h
        exact ⟨addr, rfl, h⟩
      · rintro ⟨_, hhost, h⟩
        cases hhost
        exact h
  | domain name =>
      constructor
      · intro h
        cases h
      · rintro ⟨_, h, -⟩
        cases h

/-- **The lists in which every entry for a network takes effect**: those in which no network is
written bare and with a colon, as every IPv6 address and network is. -/
theorem takesEffect_iff (doc : Documented crates) (raw : Text) :
    TakesEffect crates raw ↔
      ∀ entry ∈ entries raw, (parseNet crates entry).isSome = true → ':' ∉ entry := by
  constructor
  · intro h entry hin hnet hcolon
    obtain ⟨net, hnet⟩ := Option.isSome_iff_exists.1 hnet
    obtain ⟨rule, -, hrule, hhits⟩ := h entry hin net (.bare hnet)
    -- the entry gives no rule, or one for a domain
    rcases rule_of_colon doc hnet (mem_trim hcolon (by decide)) with hnone | ⟨suffix, hdomain, hlower⟩
    · rw [hnone] at hrule
      cases hrule
    · -- a rule for a domain hits the domain, which is in no network
      cases hdomain.symm.trans hrule
      have hhit : (Matcher.domainSuffix suffix : Matcher ν ρ).matches crates.toCrates
          (.domain suffix) 0 = true := by
        simp [Matcher.matches, hlower]
      obtain ⟨addr, haddr, -⟩ := (hhits _ 0).1 hhit
      cases haddr
  · intro h entry hin net hnames
    have hrule : Matcher.parse crates entry = some (.net net) := by
      -- without a colon in a bare network there is nothing to take for a kind
      cases hnames with
      | bare hnet =>
          refine netRule_of_colonless doc hnet fun hcolon => ?_
          exact h entry hin (Option.isSome_iff_exists.2 ⟨net, hnet⟩) (trim_subset hcolon)
      | ip value hentry hnet => exact netRule_of_prefixed doc (.inl rfl) hentry hnet
      | cidr value hentry hnet => exact netRule_of_prefixed doc (.inr rfl) hentry hnet
    exact ⟨.net net, List.mem_filterMap.2 ⟨entry, hin, hrule⟩, hrule, fun _ _ => matches_net⟩

end Nets

/-! ### Networks by their bits -/

/-- The number an address is, and how many bits it has. -/
def bitsOf : IpAddr → Nat × Nat
  | .v4 octets => (BigEndian.ofBe octets.toList, 32)
  | .v6 octets => (BigEndian.ofBe octets.toList, 128)

/-- An address and a length, as a crate that keeps what is documented may read them. -/
def bitCrates : Parsers (IpAddr × Nat) Empty where
  contains net addr :=
    let (base, width) := bitsOf net.1
    let (value, width') := bitsOf addr
    width == width' && base / 2 ^ (width - net.2) == value / 2 ^ (width - net.2)
  isMatch := nofun
  toLowercase := List.map Char.toLower
  parseIpNet t := do
    let (addr, len) ← splitOnce '/' t
    let addr ← parseIpAddr addr
    match readNumber 10 3 ((bitsOf addr).2 + 1) true len with
    | some (n, []) => some (addr, n)
    | _ => none
  ofAddr addr := (addr, (bitsOf addr).2)
  regexNew _ := none

theorem documented_bitCrates : Documented bitCrates where
  ipNet := fun {t net} h => by
    obtain ⟨⟨addr, len⟩, hsplit, h⟩ := Option.bind_eq_some_iff.1 h
    obtain ⟨a, haddr, h⟩ := Option.bind_eq_some_iff.1 h
    refine ⟨addr, len, ?_, addrText_of_parseIpAddr haddr, ?_⟩
    · exact eq_of_splitOnce hsplit
    · split at h
      · rename_i n hread
        obtain ⟨used, hused, -, hdigits⟩ := readNumber_append (by decide) hread
        rw [List.append_nil] at hused
        exact hused ▸ hdigits
      · cases h
  lowercase := fun _ => rfl

/-- The lists of IPv4 networks and prefixed entries, here of one of each form, take effect. -/
theorem takesEffect_bitCrates :
    TakesEffect bitCrates "10.0.0.0/8, 192.0.2.7\nip:2001:db8::/32; cidr:::1".toList :=
  (takesEffect_iff documented_bitCrates _).2 (by decide)

/-- The documentation network of IPv6 is dropped, and the loopback address is a domain. -/
theorem not_takesEffect_bitCrates :
    ¬ TakesEffect bitCrates "2001:db8::/32\n::1".toList := by
  intro h
  have hentry : parseNet bitCrates "2001:db8::/32".toList =
      some (.v6 ⟨[0x20, 0x01, 0x0d, 0xb8, 0, 0, 0, 0, 0, 0, 0, 0, 0, 0, 0, 0], rfl⟩, 32) := by decide
  have hdropped : (Matcher.parse bitCrates "2001:db8::/32".toList).isSome = false := by decide
  obtain ⟨rule, -, hrule, -⟩ := h "2001:db8::/32".toList (by decide) _ (.bare hentry)
  rw [hrule] at hdropped
  cases hdropped

end Routing
end AuroraVpn
