import AuroraVpn.Account.Footprint
import AuroraVpn.Account.Teams
import Mathlib.Data.Char
import Mathlib.Data.List.Lex
import Mathlib.Data.List.MinMax

/-!
# Enrolled — the organizations that an install says it is enrolled in

`enrolled_teams` of `lib.rs` reads them off the names of the files beside the base.

* `enrolments_stored`: each organization that was enrolled in left its store.
* `enrolledTeams_exact_iff`: when the list names each of them, and no other.
* `names_on_disk_iff`: when names on disk are apart, and when the list is right.
-/

namespace AuroraVpn
namespace Account

open Program

/-! ## The names beside a base -/

/-- A base up to its last separator. -/
def directory (base : Text) : Text :=
  (base.reverse.dropWhile fun c => !isSeparator c).reverse

def fileName (base : Text) : Text :=
  (base.reverse.takeWhile fun c => !isSeparator c).reverse

/-- The file name up to its last dot. -/
def stem (base : Text) : Text :=
  match extension base with
  | some ext => (fileName base).take ((fileName base).length - (ext.length + 1))
  | none => fileName base

/-- `strip_prefix`. -/
def strippedPrefix (p t : Text) : Option Text :=
  if p <+: t then some (t.drop p.length) else none

/-- `strip_suffix`. -/
def strippedSuffix (p t : Text) : Option Text :=
  if p <:+ t then some (t.take (t.length - p.length)) else none

/-- The organization that a file name is read to be for. -/
def teamOf (base name : Text) : Option Text := do
  let rest ← strippedPrefix (stem base ++ "-team-".toList) name
  let team ← strippedSuffix ".toml".toList rest
  if team = [] ∨ "-secondary".toList <:+ team ∨ "-lastconn".toList <:+ team then
    none
  else
    some team

/-- The directory that is searched. -/
def searched (base : Text) : Text :=
  if directory base = [] then ['.'] else directory base

/-- `enrolled_teams`; `readDir` is `read_dir`, which may fail. -/
def enrolledTeams (readDir : Text → Option (List Text)) (base : Text) : List Text :=
  match readDir (searched base) with
  | none => []
  | some entries =>
      (entries.foldl (fun teams name =>
        match teamOf base name with
        | none => teams
        | some team => if team ∈ teams then teams else teams ++ [team]) []).mergeSort (· ≤ ·)

section Names

variable {base name team : Text} {readDir : Text → Option (List Text)}

theorem mem_found (entries teams : List Text) :
    team ∈ entries.foldl (fun teams name =>
        match teamOf base name with
        | none => teams
        | some team => if team ∈ teams then teams else teams ++ [team]) teams ↔
      team ∈ teams ∨ ∃ name ∈ entries, teamOf base name = some team := by
  induction entries generalizing teams with
  | nil => simp
  | cons name entries ih =>
      rw [List.foldl_cons, ih]
      cases hteam : teamOf base name with
      | none => simp [hteam]
      | some known =>
          dsimp only
          split_ifs with hknown
          -- the team is known already: nothing is added
          · constructor
            · rintro (h | ⟨other, hmem, h⟩)
              · exact .inl h
              · exact .inr ⟨other, List.mem_cons_of_mem _ hmem, h⟩
            · rintro (h | ⟨other, hmem, h⟩)
              · exact .inl h
              · rcases List.mem_cons.1 hmem with rfl | hmem
                · rw [hteam] at h
                  cases h
                  exact .inl hknown
                · exact .inr ⟨other, hmem, h⟩
          · simp [hteam, or_assoc, eq_comm]

theorem mem_enrolledTeams : team ∈ enrolledTeams readDir base ↔
    ∃ entries, readDir (searched base) = some entries ∧
      ∃ name ∈ entries, teamOf base name = some team := by
  unfold enrolledTeams
  cases readDir (searched base) with
  | none => simp
  | some entries => simp [List.mem_mergeSort, mem_found]

theorem strippedPrefix_eq_some {p t rest : Text} :
    strippedPrefix p t = some rest ↔ t = p ++ rest := by
  unfold strippedPrefix
  constructor
  · intro h
    split_ifs at h with hfront
    obtain ⟨rest', rfl⟩ := hfront
    cases h
    rw [List.drop_left]
  · rintro rfl
    rw [if_pos (List.prefix_append _ _), List.drop_left]

theorem strippedSuffix_eq_some {p t rest : Text} :
    strippedSuffix p t = some rest ↔ t = rest ++ p := by
  unfold strippedSuffix
  constructor
  · intro h
    split_ifs at h with hsuffix
    obtain ⟨rest', rfl⟩ := hsuffix
    cases h
    rw [List.length_append, Nat.add_sub_cancel, List.take_left]
  · rintro rfl
    rw [if_pos (List.suffix_append _ _), List.length_append, Nat.add_sub_cancel, List.take_left]

/-- **Which names are read to be for an organization.** -/
theorem teamOf_eq_some : teamOf base name = some team ↔
    name = stem base ++ "-team-".toList ++ (team ++ ".toml".toList) ∧
      ¬(team = [] ∨ "-secondary".toList <:+ team ∨ "-lastconn".toList <:+ team) := by
  unfold teamOf
  constructor
  · intro h
    obtain ⟨rest, hrest, h⟩ := Option.bind_eq_some_iff.1 h
    obtain ⟨found, hfound, h⟩ := Option.bind_eq_some_iff.1 h
    split_ifs at h with hskip
    cases h
    rw [strippedPrefix_eq_some.1 hrest, strippedSuffix_eq_some.1 hfound]
    exact ⟨rfl, hskip⟩
  · rintro ⟨hname, hskip⟩
    refine Option.bind_eq_some_iff.2 ⟨_, strippedPrefix_eq_some.2 hname, ?_⟩
    refine Option.bind_eq_some_iff.2 ⟨_, strippedSuffix_eq_some.2 rfl, ?_⟩
    rw [if_neg hskip]

theorem directory_append_fileName (base : Text) : directory base ++ fileName base = base := by
  unfold directory fileName
  rw [← List.reverse_append, List.takeWhile_append_dropWhile, List.reverse_reverse]

theorem fileName_separators {c : Char} (h : c ∈ fileName base) : isSeparator c = false := by
  unfold fileName at h
  simpa using List.mem_takeWhile_imp (List.mem_reverse.1 h)

theorem stem_separators {c : Char} (h : c ∈ stem base) : isSeparator c = false := by
  unfold stem at h
  cases hext : extension base with
  | none =>
      rw [hext] at h
      exact fileName_separators h
  | some ext =>
      rw [hext] at h
      exact fileName_separators (List.mem_of_mem_take h)

theorem directory_cases (base : Text) :
    directory base = [] ∨ ∃ c, (directory base).getLast? = some c ∧ isSeparator c = true := by
  unfold directory
  have hhead := List.head?_dropWhile_not (fun c => !isSeparator c) base.reverse
  cases hdir : base.reverse.dropWhile fun c => !isSeparator c with
  | nil => exact .inl rfl
  | cons c dir =>
      rw [hdir] at hhead
      exact .inr ⟨c, List.getLast?_reverse, by simpa using hhead⟩

/-- The file name is the stem and what stands behind the words that are put in. -/
theorem derives_stem (base : Text) : ∃ tail, Derives base (directory base ++ stem base) tail := by
  obtain ⟨head, tail, h⟩ := exists_derives base
  refine ⟨tail, ?_⟩
  have hhead : head = directory base ++ stem base := by
    rcases h.dot with ⟨rfl, hext⟩ | ⟨ext, rfl, hplain⟩
    · rw [stem, hext]
      dsimp only
      rw [directory_append_fileName, h.eq_append, List.append_nil]
    · have hext : extension base = some ext := extension_eq_some.2 ⟨⟨head, h.eq_append⟩, hplain⟩
      have hsplit := (directory_append_fileName base).trans h.eq_append
      obtain ⟨front, hfront, hname⟩ : ∃ front, head = directory base ++ front ∧
          fileName base = front ++ '.' :: ext := by
        rcases List.append_eq_append_iff.1 hsplit with hinside | ⟨between, hdir, hdot⟩
        · exact hinside
        · cases between with
          | nil => exact ⟨[], by rw [hdir, List.append_nil, List.append_nil], hdot.symm⟩
          | cons d between =>
              -- the last separator would stand behind the last dot
              rcases directory_cases base with hempty | ⟨c, hlast, hsep⟩
              · rw [hempty] at hdir
                cases head <;> cases hdir
              · rw [hdir, List.getLast?_append_of_ne_nil _ (List.cons_ne_nil _ _)] at hlast
                have hmem : c ∈ '.' :: ext := by
                  rw [hdot]
                  exact List.mem_append_left _ (List.mem_of_getLast? hlast)
                rcases List.mem_cons.1 hmem with rfl | hmem
                · cases hsep
                · rw [(hplain c hmem).2] at hsep
                  cases hsep
      rw [stem, hext, hfront]
      dsimp only
      rw [hname, List.length_append, List.length_cons, Nat.add_sub_cancel, List.take_left]
  exact hhead ▸ h

end Names

/-! ## Directories -/

/-- What separates directories is the operating system's; `enrolled_teams` knows both. -/
inductive Platform
  | unix
  | windows
  deriving DecidableEq, Repr

def Platform.separates : Platform → Char → Bool
  | .unix, c => c = '/'
  | .windows, c => isSeparator c

/-- The path of a file in a directory. -/
def Platform.inside (platform : Platform) (dir name : Text) : Text :=
  if dir = ['.'] then
    name
  else if dir.getLast?.any platform.separates then
    dir ++ name
  else
    dir ++ '/' :: name

/-- `read_dir` names the files that are on disk, where it can be read. -/
def Platform.Reads (platform : Platform) (disk : Disk) (readDir : Text → Option (List Text)) :
    Prop :=
  ∀ dir entries, readDir dir = some entries → ∀ name, name ∈ entries ↔
    (name ≠ [] ∧ ∀ c ∈ name, platform.separates c = false) ∧ (disk (platform.inside dir name)).isSome

/-- No file beside a base is named for an organization. -/
def Unlisted (platform : Platform) (disk : Disk) (base : Text) : Prop :=
  ∀ name team, teamOf base name = some team → disk (platform.inside (searched base) name) = none

/-! ## Enrolments -/

/-- Runs one after another, each of which registered a device with an organization and came back
with it; the organizations, and the files that the runs left. -/
inductive Enrolments (fmt : Formats) (lower : Text → Text) (base : Text) (before : Disk) :
    List Text → Disk → Prop
  | none : Enrolments fmt lower base before [] before
  | enrol {teams : List Text} {disk : Disk} {env : Env} {team : Text} {slot : Slot}
      {loader : Loader} {s s' : Store} {identity : Identity} {w : Traced}
      (h : Enrolments fmt lower base before teams disk) (hfmt : env.fmt = fmt)
      (hteam : env.team = true) (haccepted : Accepted lower team)
      (hslot : slot.family = loader.family)
      (hrun : Program.Runs (traced (effects fmt)) (Traced.start disk)
        ((loader.program env (identitySite (scopedTo (some team)) base slot)).run.run s)
        (.ok identity, s') w)
      (hsent : Sent w.2) : Enrolments fmt lower base before (team :: teams) w.1.disk

section Enrolments

variable {fmt : Formats} {lower : Text → Text} {base team : Text} {before disk : Disk}
variable {teams : List Text}

/-- The store of an organization. -/
def teamStore (base team : Text) : Text :=
  storePath (scopedTo (some team)) base

theorem Enrolments.accepted (h : Enrolments fmt lower base before teams disk) :
    ∀ team ∈ teams, Accepted lower team := by
  induction h with
  | none => exact fun _ h => by cases h
  | enrol _ _ _ haccepted _ _ _ ih =>
      intro team hmem
      rcases List.mem_cons.1 hmem with rfl | hmem
      · exact haccepted
      · exact ih team hmem

/-- **Each organization that was enrolled in left its store.** -/
theorem enrolments_stored (h : Enrolments fmt lower base before teams disk) :
    ∀ team ∈ teams, (disk (teamStore base team)).isSome := by
  induction h with
  | none => exact fun _ h => by cases h
  | @enrol teams disk env team slot loader s s' identity w _ hfmt _ _ _ hrun hsent ih =>
      subst hfmt
      have hleaves := @loader_leaves env (identitySite (scopedTo (some team)) base slot) disk s loader
      have hstored : (w.1.disk (teamStore base team)).isSome := wp.runs hleaves hrun rfl hsent
      have hfoot := wp.reaches hleaves hrun.reaches
      intro other hmem
      rcases List.mem_cons.1 hmem with rfl | hmem
      · exact hstored
      · by_cases hsame : teamStore base other = teamStore base team
        · rw [hsame]
          exact hstored
        · exact hfoot.kept _ hsame (ih other hmem)

/-- **A file that was not there is one of an organization that was enrolled in.** -/
theorem enrolments_made (h : Enrolments fmt lower base before teams disk) {path : Text}
    (hpath : (disk path).isSome) : (before path).isSome ∨
      ∃ team ∈ teams, ∃ slot, (identitySite (scopedTo (some team)) base slot).Makes path := by
  induction h with
  | none => exact .inl hpath
  | @enrol teams disk env team slot loader s s' identity w _ hfmt _ _ _ hrun _ ih =>
      subst hfmt
      have hfoot := wp.reaches
        (@loader_leaves env (identitySite (scopedTo (some team)) base slot) disk s loader) hrun.reaches
      rcases hfoot.made path hpath with hthere | hmakes
      · rcases ih hthere with hbefore | ⟨other, hmem, hother⟩
        · exact .inl hbefore
        · exact .inr ⟨other, List.mem_cons_of_mem _ hmem, hother⟩
      · exact .inr ⟨team, List.mem_cons_self .., slot, hmakes⟩

/-! ## What is listed -/

theorem inside_searched (platform : Platform) (base : Text) :
    (∀ name, platform.inside (searched base) name = directory base ++ name) ∨
      ∀ name, platform.inside (searched base) name = directory base ++ '/' :: name := by
  have hdot : directory base ≠ ['.'] := by
    intro hdot
    rcases directory_cases base with hempty | ⟨c, hlast, hsep⟩
    · rw [hempty] at hdot
      cases hdot
    · rw [hdot] at hlast
      cases hlast
      cases hsep
  unfold Platform.inside searched
  by_cases hempty : directory base = []
  · rw [if_pos hempty, hempty]
    exact .inl fun name => if_pos rfl
  · rw [if_neg hempty]
    by_cases hends : (directory base).getLast?.any platform.separates
    · exact .inl fun name => by rw [if_neg hdot, if_pos hends]
    · exact .inr fun name => by rw [if_neg hdot, if_neg hends]

/-- The path of a role of an organization, behind the directory. -/
theorem teamPath_eq {tail : Text} (h : Derives base (directory base ++ stem base) tail)
    (hteam : Plain team) (role : Role) : role.path (scopedTo (some team)) base =
      directory base ++ (stem base ++ "-team-".toList ++ (team ++ role.suffix ++ tail)) := by
  have hsome : ∀ t, some team = some t → Plain t := by
    rintro _ ⟨⟩
    exact hteam
  have htag : teamTag (some team) = "-team-".toList ++ team := rfl
  rw [rolePath_eq h hsome, htag]
  generalize "-team-".toList = tag
  simp only [List.append_assoc]

/-- What stands behind a plain front is the extension. -/
theorem tail_of_suffix {front tail : Text} (hfront : Plain front)
    (htail : tail = [] ∨ ∃ ext, tail = '.' :: ext ∧ Plain ext)
    (h : ".toml".toList <:+ front ++ tail) : tail = ".toml".toList := by
  obtain ⟨head, hhead⟩ := h
  have htoml : extension (front ++ tail) = some "toml".toList :=
    extension_eq_some.2 ⟨⟨head, hhead.symm⟩, plain_of_all rfl⟩
  rcases htail with rfl | ⟨ext, rfl, hext⟩
  · rw [List.append_nil] at hhead
    have hmem : '.' ∈ front := by
      rw [← hhead]
      exact List.mem_append_right _ (by decide)
    exact absurd rfl (hfront '.' hmem).1
  · have hsome : extension (front ++ '.' :: ext) = some ext :=
      extension_eq_some.2 ⟨⟨front, rfl⟩, hext⟩
    rw [hsome] at htoml
    cases htoml
    rfl

theorem suffix_plain (role : Role) : Plain role.suffix := by
  have hall : (Role.all.all fun r => r.suffix.all fun c => c ≠ '.' && !isSeparator c) = true := by
    decide
  exact plain_of_all (List.all_eq_true.1 hall role (Role.mem_all role))

/-- A path that a site of an organization makes, when it is not a store that was set aside. -/
theorem makes_cases {slot : Slot} {path : Text}
    (h : (identitySite (scopedTo (some team)) base slot).Makes path) :
    (∃ role : Role, path = role.path (scopedTo (some team)) base) ∨ ".corrupt".toList <:+ path := by
  rcases h with rfl | rfl | rfl
  · exact .inl ⟨.store, rfl⟩
  · exact .inl ⟨.slot slot, rfl⟩
  · exact .inr (List.suffix_append _ _)

/-- **An organization that is listed shows that the files of all can be.** -/
theorem listed_readable {platform : Platform} (h : Enrolments fmt lower base before teams disk)
    (hbefore : Unlisted platform before base) {name : Text} (hteam : teamOf base name = some team)
    (hthere : (disk (platform.inside (searched base) name)).isSome) :
    Derives base (directory base ++ stem base) ".toml".toList ∧
      ∀ other, platform.inside (searched base) other = directory base ++ other := by
  obtain ⟨hname, -⟩ := teamOf_eq_some.1 hteam
  rcases enrolments_made h hthere with hold | ⟨other, hother, slot, hmakes⟩
  · rw [hbefore name team hteam] at hold
    cases hold
  obtain ⟨tail, hderives⟩ := derives_stem base
  have htoml : ".toml".toList <:+ platform.inside (searched base) name := by
    have hends : ".toml".toList <:+ name := by
      rw [hname, ← List.append_assoc]
      exact List.suffix_append _ _
    rcases inside_searched platform base with hinside | hinside
    · rw [hinside]
      exact hends.trans (List.suffix_append _ _)
    · rw [hinside]
      exact (hends.trans (List.suffix_cons _ _)).trans (List.suffix_append _ _)
  rcases makes_cases hmakes with ⟨role, hrole⟩ | hcorrupt
  swap
  · have hlast : (".toml".toList).getLast? = (".corrupt".toList).getLast? := by
      obtain ⟨x, hx⟩ := htoml
      obtain ⟨y, hy⟩ := hcorrupt
      rw [← List.getLast?_append_of_ne_nil x (by decide), hx, ← hy,
        List.getLast?_append_of_ne_nil y (by decide)]
    exact absurd hlast (by decide)
  rw [teamPath_eq hderives (h.accepted other hother).plain] at hrole
  -- the directory ends in a separator of the operating system, or is the one at hand
  have hdirect : ∀ n, platform.inside (searched base) n = directory base ++ n := by
    rcases inside_searched platform base with hinside | hinside
    · exact hinside
    · rw [hinside, List.append_cancel_left_eq] at hrole
      have hstem : ∀ c ∈ stem base, isSeparator c = false := fun c hc => stem_separators hc
      cases hcases : stem base with
      | nil =>
          rw [hcases] at hrole
          cases hrole
      | cons c rest =>
          rw [hcases] at hrole hstem
          obtain ⟨rfl, -⟩ := List.cons.inj hrole
          cases hstem '/' (List.mem_cons_self ..)
  rw [hdirect, List.append_cancel_left_eq, hname, List.append_cancel_left_eq] at hrole
  have hfront : Plain (other ++ role.suffix) :=
    plain_append (h.accepted other hother).plain (suffix_plain role)
  have htail : tail = ".toml".toList := by
    refine tail_of_suffix hfront (hderives.dot.imp And.left id) ?_
    rw [← hrole]
    exact List.suffix_append _ _
  exact ⟨htail ▸ hderives, hdirect⟩

/-- **A store is listed as an organization.** -/
theorem store_listed {platform : Platform} {readDir : Text → Option (List Text)}
    (h : Enrolments fmt lower base before teams disk) (hreads : platform.Reads disk readDir)
    (hderives : Derives base (directory base ++ stem base) ".toml".toList)
    (hdirect : ∀ name, platform.inside (searched base) name = directory base ++ name)
    {entries : List Text} (hentries : readDir (searched base) = some entries)
    (hteam : team ∈ teams) : team ++ "-store".toList ∈ enrolledTeams readDir base := by
  have hplain : Plain (team ++ "-store".toList) :=
    plain_append (h.accepted team hteam).plain (suffix_plain .store)
  refine mem_enrolledTeams.2 ⟨entries, hentries,
    stem base ++ "-team-".toList ++ (team ++ "-store".toList ++ ".toml".toList), ?_, ?_⟩
  -- the store of the organization is a file in the directory of the base
  · refine (hreads _ _ hentries _).2 ⟨⟨?_, ?_⟩, ?_⟩
    · rw [List.append_assoc]
      exact List.append_ne_nil_of_right_ne_nil _ (List.cons_ne_nil _ _)
    · intro c hc
      have hsep : isSeparator c = false := by
        rcases List.mem_append.1 hc with hc | hc
        · rcases List.mem_append.1 hc with hc | hc
          · exact stem_separators hc
          · exact ((plain_of_all rfl : Plain "-team-".toList) c hc).2
        · rcases List.mem_append.1 hc with hc | hc
          · exact (hplain c hc).2
          · exact List.all_eq_true.1 (by decide : (".toml".toList.all (isSeparator · = false)) = true) c hc
              |> of_decide_eq_true
      cases platform with
      | windows => exact hsep
      | unix =>
          rw [Platform.separates, decide_eq_false_iff_not]
          rintro rfl
          cases hsep
    · rw [hdirect]
      exact teamPath_eq hderives (h.accepted team hteam).plain .store ▸
        enrolments_stored h team hteam
  -- and its name is that of an organization as well, since it ends in neither of the two words
  · refine teamOf_eq_some.2 ⟨rfl, ?_⟩
    have hlast : ∀ word : Text, word ≠ [] → word <:+ team ++ "-store".toList →
        word.getLast? = some 'e' := by
      rintro word hword ⟨front, hfront⟩
      rw [← List.getLast?_append_of_ne_nil front hword, hfront,
        List.getLast?_append_of_ne_nil _ (by decide)]
      rfl
    rintro (hempty | hsecondary | hlastconn)
    · cases (List.append_eq_nil_iff.1 hempty).2
    · exact absurd (hlast _ (by decide) hsecondary) (by decide)
    · exact absurd (hlast _ (by decide) hlastconn) (by decide)

/-- **The list is right only before the first enrolment.** -/
theorem enrolledTeams_exact_iff {platform : Platform} {readDir : Text → Option (List Text)}
    (h : Enrolments fmt lower base before teams disk) (hbefore : Unlisted platform before base)
    (hreads : platform.Reads disk readDir) :
    (∀ team, team ∈ enrolledTeams readDir base ↔ team ∈ teams) ↔ teams = [] := by
  constructor
  · intro hexact
    by_contra hne
    -- the organization with the longest name
    obtain ⟨team, hmax⟩ := Option.ne_none_iff_exists'.1 (mt (List.argmax_eq_none (f := List.length)).1 hne)
    have hteam : team ∈ teams := List.argmax_mem hmax
    have hlongest : ∀ other ∈ teams, other.length ≤ team.length := fun other hother =>
      List.le_of_mem_argmax hother hmax
    obtain ⟨entries, hentries, name, hname, hof⟩ := mem_enrolledTeams.1 ((hexact team).2 hteam)
    obtain ⟨-, hthere⟩ := (hreads _ _ hentries name).1 hname
    obtain ⟨hderives, hdirect⟩ := listed_readable h hbefore hof hthere
    have hstore := (hexact _).1 (store_listed h hreads hderives hdirect hentries hteam)
    have hshort := hlongest _ hstore
    rw [List.length_append] at hshort
    have hlength : "-store".toList.length = 6 := by decide
    omega
  · rintro rfl team
    cases h
    refine iff_of_false (fun hmem => ?_) List.not_mem_nil
    obtain ⟨entries, hentries, name, hname, hof⟩ := mem_enrolledTeams.1 hmem
    obtain ⟨-, hthere⟩ := (hreads _ _ hentries name).1 hname
    rw [hbefore name team hof] at hthere
    cases hthere

/-- **When names on disk are apart, and when the list of organizations is right**: two paths are
shared only where an organization is named like another and what a role of it adds, and the list is
right only before the first enrolment. -/
theorem names_on_disk_iff (lower : Text → Text) (base : Text) :
    (∀ team team' : Option Text, ∀ role role' : Role, (∀ t, team = some t → Accepted lower t) →
      (∀ t, team' = some t → Accepted lower t) → (team, role) ≠ (team', role') →
      (role.path (scopedTo team) base ≠ role'.path (scopedTo team') base ↔
        ∀ t t', team = some t → team' = some t' →
          ¬Overlap t t' role role' ∧ ¬Overlap t' t role' role)) ∧
    ∀ fmt before teams disk platform readDir, Enrolments fmt lower base before teams disk →
      Unlisted platform before base → platform.Reads disk readDir →
      ((∀ team, team ∈ enrolledTeams readDir base ↔ team ∈ teams) ↔ teams = []) := by
  constructor
  · intro team team' role role' hteam hteam' hne
    have hplain : ∀ t, team = some t → Plain t := fun t h => (hteam t h).plain
    have hplain' : ∀ t, team' = some t → Plain t := fun t h => (hteam' t h).plain
    rw [Ne, rolePath_eq_iff hplain hplain' hne base]
    constructor
    · intro hapart t t' ht ht'
      exact ⟨fun h => hapart ⟨t, t', ht, ht', .inl h⟩, fun h => hapart ⟨t, t', ht, ht', .inr h⟩⟩
    · rintro hapart ⟨t, t', ht, ht', h | h⟩
      · exact (hapart t t' ht ht').1 h
      · exact (hapart t t' ht ht').2 h
  · exact fun _ _ _ _ _ _ => enrolledTeams_exact_iff

end Enrolments

/-! ## One enrolment -/

def asciiLower (t : Text) : Text :=
  t.map Char.toLower

def acme : Text :=
  "acme".toList

def aetherToml : Text :=
  "aether.toml".toList

/-- The device that the granted account gives. -/
def acmeIdentity : Identity where
  deviceId := "dev-a".toList
  accessToken := "token".toList
  certPem := []
  keyPem := []
  certIssuedAt := 0
  ipv4 := []
  ipv6 := []
  wgPrivateKey := List.Vector.replicate 32 0
  wgPeerPublicKey := List.Vector.replicate 32 0
  clientId := List.Vector.replicate 3 0
  organization := []
  gatewayProxy := []
  assignedEndpoint := "162.159.192.1".toList
  refused := false

def acmeFormats : Formats where
  store := Codec.ofTable [(boughtStore.toPersisted, ['s'])]
  identity := Codec.ofTable [(.ofIdentity Base64.zeros acmeIdentity, ['f'])]
  base64 := Base64.zeros

def acmeFile : Text :=
  "aether-team-acme.toml".toList

def acmeStore : Text :=
  "aether-team-acme-store.toml".toList

theorem acme_accepted : Accepted asciiLower acme :=
  ⟨"https://acme.cloudflareaccess.com/warp".toList, by decide⟩

/-- One enrolment leaves the file of the device and the store. -/
theorem acme_enrolled :
    ∃ disk, Enrolments acmeFormats asciiLower aetherToml (fun _ => none) [acme] disk ∧
      (disk acmeFile).isSome ∧ (disk acmeStore).isSome ∧
      ∀ path, (disk path).isSome → path = acmeFile ∨ path = acmeStore := by
  -- one call is run out, and what it leaves is read off
  have hrun := exec_runs (tracing_effects (surroundings_effects acmeFormats 1000 granting))
    ((Loader.warp.program (grantingEnv acmeFormats true)
      (identitySite (scopedTo (some acme)) aetherToml .wireguard)).run.run {})
    (Traced.start fun _ => none)
  generalize hfinish : Prog.exec (tracing (surroundings acmeFormats 1000 granting))
    ((Loader.warp.program (grantingEnv acmeFormats true)
      (identitySite (scopedTo (some acme)) aetherToml .wireguard)).run.run {})
    (Traced.start fun _ => none) = finish at hrun
  have hok : ∃ identity s', finish.1 = (.ok identity, s') := by
    rw [← hfinish]
    exact ⟨_, _, rfl⟩
  have hsent : finish.2.2.any (fun e => e.1.registers) = true := by
    rw [← hfinish]
    rfl
  have hfiles : (finish.2.1.disk acmeFile).isSome = true ∧ (finish.2.1.disk acmeStore).isSome = true ∧
      (finish.2.1.disk (acmeStore ++ ".corrupt".toList)).isSome = false := by
    rw [← hfinish]
    exact ⟨rfl, rfl, rfl⟩
  obtain ⟨identity, s', hdone⟩ := hok
  obtain ⟨e, hmem, hregisters⟩ := List.any_eq_true.1 hsent
  rw [hdone] at hrun
  have henrolled : Enrolments acmeFormats asciiLower aetherToml (fun _ => none) [acme]
      finish.2.1.disk :=
    .enrol .none rfl rfl acme_accepted rfl hrun ⟨e, hmem, hregisters⟩
  refine ⟨_, henrolled, hfiles.1, hfiles.2.1, fun path hpath => ?_⟩
  -- whatever is there was made by the call, and the copy of a broken store is not there
  have hfoot := wp.reaches (@loader_leaves (grantingEnv acmeFormats true)
    (identitySite (scopedTo (some acme)) aetherToml .wireguard) _ {} .warp) hrun.reaches
  rcases hfoot.made path hpath with hold | hstore | hfile | hcorrupt
  · cases hold
  · exact .inr hstore
  · exact .inl hfile
  · rw [show path = acmeStore ++ ".corrupt".toList from hcorrupt, hfiles.2.2] at hpath
    cases hpath

/-- The directory of that install. -/
def acmeDirectory (dir : Text) : Option (List Text) :=
  if dir = ['.'] then some [acmeFile, acmeStore] else none

theorem acme_reads {disk : Disk} (hfile : (disk acmeFile).isSome) (hstore : (disk acmeStore).isSome)
    (honly : ∀ path, (disk path).isSome → path = acmeFile ∨ path = acmeStore) :
    Platform.unix.Reads disk acmeDirectory := by
  intro dir entries hdir name
  unfold acmeDirectory at hdir
  split_ifs at hdir with hdot
  cases hdir
  subst hdot
  -- both names are plain, so that they are entries of the directory
  have hnames : ∀ n ∈ [acmeFile, acmeStore], n ≠ [] ∧ ∀ c ∈ n, Platform.unix.separates c = false := by
    have hall : ([acmeFile, acmeStore].all fun n =>
        n ≠ [] && n.all fun c => !Platform.unix.separates c) = true := by
      decide
    intro n hn
    have hname := List.all_eq_true.1 hall n hn
    rw [Bool.and_eq_true, List.all_eq_true] at hname
    exact ⟨of_decide_eq_true hname.1, fun c hc => by simpa using hname.2 c hc⟩
  constructor
  · intro hmem
    refine ⟨hnames name hmem, ?_⟩
    rcases List.mem_pair.1 hmem with rfl | rfl
    · exact hfile
    · exact hstore
  · rintro ⟨-, hthere⟩
    exact List.mem_pair.2 (honly name hthere)

/-- The names of one enrolled organization, as far as they are apart and as they are listed. -/
theorem names_on_disk_iff_acme :
    (Role.slot .wireguard).path (scopedTo (some acme)) aetherToml ≠
        (Role.slot .masque).path (scopedTo (some acme)) aetherToml ∧
      ∃ disk, Enrolments acmeFormats asciiLower aetherToml (fun _ => none) [acme] disk ∧
        ¬∀ team, team ∈ enrolledTeams acmeDirectory aetherToml ↔ team ∈ [acme] := by
  have hboth := names_on_disk_iff asciiLower aetherToml
  have haccepted : ∀ t, some acme = some t → Accepted asciiLower t := by
    rintro _ ⟨⟩
    exact acme_accepted
  constructor
  · refine (hboth.1 _ _ _ _ haccepted haccepted (by decide)).2 ?_
    rintro _ _ ⟨⟩ ⟨⟩
    have hname : ∀ word : Text, acme = acme ++ word → word = [] := fun word h =>
      List.append_right_eq_self.1 h.symm
    exact ⟨fun ⟨word, hmem, h⟩ => (mem_overlaps_iff.1 hmem).2 (hname word h),
      fun ⟨word, hmem, h⟩ => (mem_overlaps_iff.1 hmem).2 (hname word h)⟩
  · obtain ⟨disk, henrolled, hfile, hstore, honly⟩ := acme_enrolled
    refine ⟨disk, henrolled, fun hexact => ?_⟩
    exact absurd ((hboth.2 _ _ _ _ .unix _ henrolled (fun _ _ _ => rfl)
      (acme_reads hfile hstore honly)).1 hexact) (List.cons_ne_nil _ _)

/-- The organizations `acme` and `acme-secondary` share a file, and the store of one enrolment is
listed as an organization of its own. -/
theorem names_collide :
    Accepted asciiLower acme ∧ Accepted asciiLower (acme ++ "-secondary".toList) ∧
      (Role.slot .wireguardInner).path (scopedTo (some acme)) aetherToml =
        (Role.slot .wireguard).path (scopedTo (some (acme ++ "-secondary".toList))) aetherToml ∧
      ∃ disk, Enrolments acmeFormats asciiLower aetherToml (fun _ => none) [acme] disk ∧
        Platform.unix.Reads disk acmeDirectory ∧
        acme ++ "-store".toList ∈ enrolledTeams acmeDirectory aetherToml := by
  obtain ⟨disk, henrolled, hfile, hstore, honly⟩ := acme_enrolled
  exact ⟨acme_accepted, ⟨acme ++ "-secondary".toList, by decide⟩, by decide, disk, henrolled,
    acme_reads hfile hstore honly, mem_enrolledTeams.2 ⟨_, rfl, acmeStore, by decide, by decide⟩⟩

end Account
end AuroraVpn
