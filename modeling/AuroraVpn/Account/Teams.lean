import AuroraVpn.Account.Slots
import Mathlib.Data.List.TakeWhile

/-!
# Teams — the names on disk of one install for several organizations

`normalize_team` of `zerotrust.rs`, and the paths of `lib.rs` for each organization and each role.

* `Derives.sibling`: a derived path derives as its base does.
* `rolePath_eq_iff`: when two roles of two organizations share a path.
-/

namespace AuroraVpn
namespace Account

/-! ## Names of organizations -/

section Normalize

def TEAM_SUFFIX : Text :=
  "cloudflareaccess.com".toList

/-- `strip_prefix`, where a text that has no such prefix is left as it is. -/
def stripPrefix (p t : Text) : Text :=
  if p <+: t then t.drop p.length else t

def isAsciiAlphanumeric (c : Char) : Bool :=
  ('a' ≤ c && c ≤ 'z') || ('A' ≤ c && c ≤ 'Z') || ('0' ≤ c && c ≤ '9')

/-- The characters of a team name. -/
def isTeamChar (c : Char) : Bool :=
  isAsciiAlphanumeric c || c = '-' || c = '_'

/-- `normalize_team`; `lower` is `str::to_lowercase`. -/
def normalizeTeam (lower : Text → Text) (raw : Text) : Option Text :=
  let value := lower (trim raw)
  if value = [] then
    none
  else
    let value := stripPrefix "http://".toList (stripPrefix "https://".toList value)
    let value := (trimEndMatches '/' value).takeWhile (· ≠ '/')
    let value :=
      if TEAM_SUFFIX <:+ value then
        trimEndMatches '.' (value.take (value.length - TEAM_SUFFIX.length))
      else
        value
    if value = [] then
      none
    else if value.all isTeamChar then
      some value
    else
      none

/-- What a path may be derived with: neither a dot nor a separator. -/
def Plain (word : Text) : Prop :=
  ∀ c ∈ word, c ≠ '.' ∧ isSeparator c = false

/-- A word that is written out is plain by looking at it. -/
theorem plain_of_all {word : Text} (h : (word.all fun c => c ≠ '.' && !isSeparator c) = true) :
    Plain word := by
  intro c hc
  simpa using List.all_eq_true.1 h c hc

theorem plain_append {word word' : Text} (h : Plain word) (h' : Plain word') :
    Plain (word ++ word') := by
  intro c hc
  rcases List.mem_append.1 hc with hc | hc
  · exact h c hc
  · exact h' c hc

theorem plain_of_teamChar {c : Char} (h : isTeamChar c = true) :
    c ≠ '.' ∧ isSeparator c = false := by
  have hnot : ∀ d : Char, d = '.' ∨ isSeparator d = true → isTeamChar d = false := by
    intro d hd
    have hd' : d = '.' ∨ d = '/' ∨ d = '\\' := by simpa [isSeparator] using hd
    rcases hd' with rfl | rfl | rfl <;> decide
  refine ⟨fun hdot => ?_, ?_⟩
  · rw [hnot c (.inl hdot)] at h
    cases h
  · cases hsep : isSeparator c with
    | false => rfl
    | true =>
        rw [hnot c (.inr hsep)] at h
        cases h

theorem normalizeTeam_plain {lower : Text → Text} {raw team : Text}
    (h : normalizeTeam lower raw = some team) : Plain team := by
  unfold normalizeTeam at h
  dsimp only at h
  split_ifs at h
  all_goals
    cases h
    intro c hc
    exact plain_of_teamChar (List.all_eq_true.1 (by assumption) c hc)

/-- What `normalize_team` accepts. -/
def Accepted (lower : Text → Text) (team : Text) : Prop :=
  ∃ raw, normalizeTeam lower raw = some team

theorem Accepted.plain {lower : Text → Text} {team : Text} (h : Accepted lower team) :
    Plain team := by
  obtain ⟨raw, hraw⟩ := h
  exact normalizeTeam_plain hraw

end Normalize

/-! ## Derived paths -/

section Derive

variable {base head tail ext word : Text}

/-- What stands in front of the first dot. -/
theorem takeWhile_dot {e rest : Text} (he : ∀ c ∈ e, c ≠ '.') :
    (e ++ '.' :: rest).takeWhile (· ≠ '.') = e := by
  rw [List.takeWhile_append_of_pos (by simpa using he)]
  simp

/-- **The extension of a path** is what follows its last dot, when no separator does. -/
theorem extension_eq_some :
    extension base = some ext ↔ (∃ head, base = head ++ '.' :: ext) ∧ Plain ext := by
  unfold extension
  constructor
  · intro h
    dsimp only at h
    split_ifs at h with hmem
    cases h
    have hfile : ∀ c ∈ base.reverse.takeWhile (fun c => !isSeparator c), isSeparator c = false := by
      intro c hc
      simpa using List.mem_takeWhile_imp hc
    have hsplit := List.takeWhile_append_dropWhile (p := fun c => !isSeparator c) (l := base.reverse)
    -- the last dot of the file name
    obtain ⟨e, rest, hname, he⟩ := List.eq_append_cons_of_mem hmem
    have hdots : ∀ c ∈ e, c ≠ '.' := fun c hc hdot => he (hdot ▸ hc)
    rw [hname] at hfile hsplit ⊢
    rw [takeWhile_dot hdots]
    refine ⟨⟨(rest ++ base.reverse.dropWhile fun c => !isSeparator c).reverse, ?_⟩, ?_⟩
    -- from the reversed path, as the code splits it, back to the path
    · calc base
          = base.reverse.reverse := (List.reverse_reverse base).symm
        _ = (e ++ '.' :: rest ++ base.reverse.dropWhile fun c => !isSeparator c).reverse := by
            rw [hsplit]
        _ = (rest ++ base.reverse.dropWhile fun c => !isSeparator c).reverse ++
              '.' :: e.reverse := by
            simp only [List.reverse_append, List.reverse_cons, List.append_assoc, List.nil_append,
              List.cons_append]
    · intro c hc
      have hc' : c ∈ e := List.mem_reverse.1 hc
      exact ⟨hdots c hc', hfile c (List.mem_append_left _ hc')⟩
  · rintro ⟨⟨head, rfl⟩, hplain⟩
    have hname : (head ++ '.' :: ext).reverse.takeWhile (fun c => !isSeparator c) =
        ext.reverse ++ '.' :: head.reverse.takeWhile fun c => !isSeparator c := by
      -- neither the extension nor its dot ends the file name
      have hext : ∀ c ∈ ext.reverse, (!isSeparator c) = true := by
        intro c hc
        simp [(hplain c (List.mem_reverse.1 hc)).2]
      have hdot : isSeparator '.' = false := by decide
      rw [List.reverse_append, List.reverse_cons, List.append_assoc,
        List.takeWhile_append_of_pos hext]
      simp [hdot]
    have hdots : ∀ c ∈ ext.reverse, c ≠ '.' := fun c hc => (hplain c (List.mem_reverse.1 hc)).1
    simp only [hname, takeWhile_dot hdots]
    simp

theorem extension_eq_none (h : extension base = none) {head : Text} (hbase : base = head ++ '.' :: ext) :
    ¬Plain ext := by
  intro hplain
  rw [extension_eq_some.2 ⟨⟨head, hbase⟩, hplain⟩] at h
  cases h

/-- How a path is derived from a base: the word stands between `head` and `tail`. -/
structure Derives (base head tail : Text) : Prop where
  eq_append : base = head ++ tail
  dot : tail = [] ∧ extension base = none ∨ ∃ ext, tail = '.' :: ext ∧ Plain ext

theorem exists_derives (base : Text) : ∃ head tail, Derives base head tail := by
  cases hext : extension base with
  | none => exact ⟨base, [], (List.append_nil base).symm, .inl ⟨rfl, hext⟩⟩
  | some ext =>
      obtain ⟨⟨head, hbase⟩, hplain⟩ := extension_eq_some.1 hext
      exact ⟨head, '.' :: ext, hbase, .inr ⟨ext, rfl, hplain⟩⟩

theorem Derives.eq (h : Derives base head tail) (word : Text) :
    deriveSiblingPath base word = head ++ '-' :: word ++ tail := by
  unfold deriveSiblingPath
  rcases h.dot with ⟨rfl, hext⟩ | ⟨ext, rfl, hplain⟩
  · rw [hext]
    simp [h.eq_append]
  · rw [extension_eq_some.2 ⟨⟨head, h.eq_append⟩, hplain⟩]
    have hdot : base.length - (ext.length + 1) = head.length := by
      simp [h.eq_append]
    simp only [hdot]
    rw [h.eq_append, List.take_left, List.drop_left]

/-- **A derived path derives as its base does**, with the word in front. -/
theorem Derives.sibling (h : Derives base head tail) (hword : Plain word) :
    Derives (deriveSiblingPath base word) (head ++ '-' :: word) tail where
  eq_append := h.eq word
  dot := by
    rcases h.dot with ⟨rfl, hext⟩ | hdot
    · refine .inl ⟨rfl, ?_⟩
      cases hderived : extension (deriveSiblingPath base word) with
      | none => rfl
      | some ext =>
          -- the dot would stand in the base, for there is none in the word
          obtain ⟨⟨front, hfront⟩, hplain⟩ := extension_eq_some.1 hderived
          rw [h.eq word, List.append_nil] at hfront
          rcases List.append_eq_append_iff.1 hfront with ⟨between, -, hword'⟩ | ⟨between, hhead, hext'⟩
          · have hmem : '.' ∈ '-' :: word := by simp [hword']
            rcases List.mem_cons.1 hmem with hdash | hmem
            · cases hdash
            · exact absurd rfl (hword '.' hmem).1
          · cases between with
            | nil => cases hext'
            | cons c between =>
                obtain ⟨rfl, rfl⟩ := List.cons.inj hext'
                have hbase : base = front ++ '.' :: between := by
                  rw [h.eq_append, List.append_nil, hhead]
                exact absurd (fun c hc => hplain c (List.mem_append_left _ hc))
                  (extension_eq_none hext hbase)
    · exact .inr hdot

end Derive

/-! ## Roles -/

def lastconnPath (configPath : Text) : Text :=
  deriveSiblingPath configPath "lastconn".toList

/-- What a path is for. -/
inductive Role
  | slot (slot : Slot)
  | store
  /-- The endpoint that last worked over one transport. -/
  | lastconn (family : Family)
  deriving DecidableEq, Repr

/-- Surroundings that set no path, for an organization or for none. -/
def scopedTo (team : Option Text) : PathSettings where
  wgConfig := none
  masqueConfig := none
  teamScope := team

namespace Role

def path (settings : PathSettings) (base : Text) : Role → Text
  | .slot s => (identitySite settings base s).path
  | .store => storePath settings base
  | .lastconn .wireguard => lastconnPath (warpConfigPath settings base)
  | .lastconn .masque => lastconnPath (masqueConfigPath settings base)

/-- What a role adds to the name of its organization. -/
def suffix : Role → Text
  | .slot .wireguard => []
  | .slot .wireguardInner => "-secondary".toList
  | .slot .masque => "-masque".toList
  | .slot .masqueInner => "-masque-secondary".toList
  | .store => "-store".toList
  | .lastconn .wireguard => "-lastconn".toList
  | .lastconn .masque => "-masque-lastconn".toList

def all : List Role :=
  [.slot .wireguard, .slot .wireguardInner, .slot .masque, .slot .masqueInner, .store,
    .lastconn .wireguard, .lastconn .masque]

theorem mem_all (role : Role) : role ∈ all := by
  cases role with
  | slot slot => cases slot <;> decide
  | store => decide
  | lastconn family => cases family <;> decide

theorem suffix_injective {role role' : Role} (h : role.suffix = role'.suffix) : role = role' := by
  have hall : ∀ r ∈ all, ∀ r' ∈ all, r.suffix = r'.suffix → r = r' := by decide
  exact hall role (mem_all role) role' (mem_all role') h

end Role

/-- What an organization adds to the name of the base. -/
def teamTag : Option Text → Text
  | none => []
  | some team => "-team-".toList ++ team

section Roles

theorem identitySite_path (settings : PathSettings) (base : Text) (slot : Slot) :
    (identitySite settings base slot).path =
      match slot with
      | .wireguard => warpConfigPath settings base
      | .wireguardInner => deriveSiblingPath (warpConfigPath settings base) "secondary".toList
      | .masque => masqueConfigPath settings base
      | .masqueInner => deriveSiblingPath (masqueConfigPath settings base) "secondary".toList := by
  cases slot <;> rfl

variable {base head tail : Text} {team team' : Option Text} {role role' : Role}

theorem Derives.warpConfigPath (h : Derives base head tail) (hteam : ∀ t, team = some t → Plain t) :
    Derives (warpConfigPath (scopedTo team) base) (head ++ teamTag team) tail := by
  cases team with
  | none =>
      have hhead : head ++ teamTag none = head := List.append_nil head
      rw [hhead]
      exact h
  | some t =>
      have hword : Plain ("team-".toList ++ t) :=
        plain_append (plain_of_all rfl) (hteam t rfl)
      exact h.sibling hword

theorem Derives.masqueConfigPath (h : Derives base head tail)
    (hteam : ∀ t, team = some t → Plain t) :
    Derives (masqueConfigPath (scopedTo team) base) (head ++ teamTag team ++ "-masque".toList) tail := by
  have hword : Plain "masque".toList := plain_of_all rfl
  exact (h.warpConfigPath hteam).sibling hword

theorem Derives.dashed {word dashed : Text} (h : Derives base head tail) (hword : dashed = '-' :: word) :
    deriveSiblingPath base word = head ++ dashed ++ tail := by
  rw [hword]
  exact h.eq word

/-- **The path of a role** is the base with the organization and the role in front of its
extension. -/
theorem rolePath_eq (h : Derives base head tail) (hteam : ∀ t, team = some t → Plain t) :
    role.path (scopedTo team) base = head ++ (teamTag team ++ role.suffix) ++ tail := by
  have hwarp := h.warpConfigPath hteam
  have hmasque := h.masqueConfigPath hteam
  have hsecondary : "-masque-secondary".toList = "-masque".toList ++ '-' :: "secondary".toList := by
    decide
  have hlastconn : "-masque-lastconn".toList = "-masque".toList ++ '-' :: "lastconn".toList := by
    decide
  rw [← List.append_assoc head]
  -- by the role: the two derived names have two words behind the name of the base
  cases role with
  | slot slot =>
      rw [Role.path, identitySite_path]
      cases slot with
      | wireguard =>
          have hsuffix : (Role.slot .wireguard).suffix = [] := rfl
          rw [hsuffix, List.append_nil]
          exact hwarp.eq_append
      | wireguardInner => exact hwarp.dashed (by decide)
      | masque => exact hwarp.dashed (by decide)
      | masqueInner =>
          have hsuffix : (Role.slot .masqueInner).suffix = "-masque-secondary".toList := rfl
          rw [hsuffix, hsecondary, ← List.append_assoc]
          exact hmasque.eq "secondary".toList
  | store => exact hwarp.dashed (by decide)
  | lastconn family =>
      cases family with
      | wireguard => exact hwarp.dashed (by decide)
      | masque =>
          have hsuffix : (Role.lastconn .masque).suffix = "-masque-lastconn".toList := rfl
          rw [hsuffix, hlastconn, ← List.append_assoc]
          exact hmasque.eq "lastconn".toList

/-- Where the suffix of the second role is a word and the suffix of the first. -/
def overlaps : List (Role × Role × Text) :=
  [(.slot .wireguard, .slot .wireguardInner, "-secondary".toList),
    (.slot .wireguard, .slot .masque, "-masque".toList),
    (.slot .wireguard, .slot .masqueInner, "-masque-secondary".toList),
    (.slot .wireguard, .store, "-store".toList),
    (.slot .wireguard, .lastconn .wireguard, "-lastconn".toList),
    (.slot .wireguard, .lastconn .masque, "-masque-lastconn".toList),
    (.slot .wireguardInner, .slot .masqueInner, "-masque".toList),
    (.lastconn .wireguard, .lastconn .masque, "-masque".toList)]

theorem mem_overlaps_iff {word : Text} :
    (role, role', word) ∈ overlaps ↔ role'.suffix = word ++ role.suffix ∧ word ≠ [] := by
  have hsound : ∀ x ∈ overlaps, x.2.1.suffix = x.2.2 ++ x.1.suffix ∧ x.2.2 ≠ [] := by decide
  have hcomplete : ∀ r ∈ Role.all, ∀ r' ∈ Role.all,
      let word := r'.suffix.take (r'.suffix.length - r.suffix.length)
      r'.suffix = word ++ r.suffix → word ≠ [] → (r, r', word) ∈ overlaps := by decide
  refine ⟨hsound (role, role', word), fun ⟨h, hne⟩ => ?_⟩
  have hword : role'.suffix.take (role'.suffix.length - role.suffix.length) = word := by
    rw [h, List.length_append, Nat.add_sub_cancel, List.take_left]
  have hmem := hcomplete role (Role.mem_all role) role' (Role.mem_all role')
  rw [hword] at hmem
  exact hmem h hne

/-- One organization is named like another and the word that a role of the other adds. -/
def Overlap (team team' : Text) (role role' : Role) : Prop :=
  ∃ word, (role, role', word) ∈ overlaps ∧ team = team' ++ word

theorem tag_ne (t : Text) : teamTag none ++ role.suffix ≠ teamTag (some t) ++ role'.suffix := by
  have hnot : ∀ r ∈ Role.all, ¬"-team-".toList <+: r.suffix := by decide
  intro h
  refine hnot role (Role.mem_all role) ⟨t ++ role'.suffix, ?_⟩
  rw [← List.append_assoc]
  exact h.symm

/-- **When two roles share a path**: only where one organization is named like another and what a
role of it adds. -/
theorem rolePath_eq_iff (hteam : ∀ t, team = some t → Plain t) (hteam' : ∀ t, team' = some t → Plain t)
    (hne : (team, role) ≠ (team', role')) (base : Text) :
    role.path (scopedTo team) base = role'.path (scopedTo team') base ↔
      ∃ t t', team = some t ∧ team' = some t' ∧
        (Overlap t t' role role' ∨ Overlap t' t role' role) := by
  obtain ⟨head, tail, h⟩ := exists_derives base
  rw [rolePath_eq h hteam, rolePath_eq h hteam', List.append_cancel_right_eq,
    List.append_cancel_left_eq]
  -- with no organization on one side the tags differ, or the roles do
  cases team with
  | none =>
      cases team' with
      | none =>
          have hrole : role ≠ role' := fun hrole => hne (by rw [hrole])
          have hsuffix : role.suffix ≠ role'.suffix := fun h => hrole (Role.suffix_injective h)
          exact iff_of_false hsuffix fun ⟨_, _, h, _⟩ => by cases h
      | some t' => exact iff_of_false (tag_ne t') fun ⟨_, _, h, _⟩ => by cases h
  | some t =>
      cases team' with
      | none => exact iff_of_false (tag_ne t).symm fun ⟨_, _, _, h, _⟩ => by cases h
      | some t' =>
          have hcancel : teamTag (some t) ++ role.suffix = teamTag (some t') ++ role'.suffix ↔
              t ++ role.suffix = t' ++ role'.suffix := by
            unfold teamTag
            generalize "-team-".toList = tag
            rw [List.append_assoc, List.append_assoc, List.append_cancel_left_eq]
          -- the longer of two names is the shorter one and a word, which the other role then adds
          have hword : ∀ {a b : Text} {r r' : Role}, (∃ word, b = a ++ word ∧ r.suffix = word ++ r'.suffix) →
              (some b, r') ≠ (some a, r) → Overlap b a r' r := by
            rintro a _ r r' ⟨word, rfl, hsuffix⟩ hne
            refine ⟨word, mem_overlaps_iff.2 ⟨hsuffix, ?_⟩, rfl⟩
            rintro rfl
            exact hne (by rw [List.append_nil, Role.suffix_injective hsuffix])
          rw [hcancel, List.append_eq_append_iff]
          constructor
          · rintro (hfront | hfront)
            · exact ⟨t, t', rfl, rfl, .inr (hword hfront hne.symm)⟩
            · exact ⟨t, t', rfl, rfl, .inl (hword hfront hne)⟩
          · rintro ⟨_, _, ⟨⟩, ⟨⟩, ⟨word, hmem, hname⟩ | ⟨word, hmem, hname⟩⟩
            · exact .inr ⟨word, hname, (mem_overlaps_iff.1 hmem).1⟩
            · exact .inl ⟨word, hname, (mem_overlaps_iff.1 hmem).1⟩

end Roles

end Account
end AuroraVpn
