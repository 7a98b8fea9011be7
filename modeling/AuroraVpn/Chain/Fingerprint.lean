import AuroraVpn.Chain.Config
import AuroraVpn.Chain.Notes
import Mathlib.Data.List.Count

/-!
# Fingerprint — whether the running chain was configured from the settings

The fingerprint joins what the user wrote with bars and commas, which may stand in it as well.

* `prepareHome_congr`: what is written depends on the parts of the settings that the fingerprint is made of.
* `parts_eq_iff`: settings of one fingerprint have the same parts exactly where their separators fall alike.
* `Reached.current`: over any run, a configuration that is called current is.
-/

namespace AuroraVpn
namespace Chain

open Routing

/-! ## The parts of the settings -/

/-- What a fingerprint is made of. -/
structure Parts where
  throughTunnel : Bool
  urls : List Text
  manual : Text
  routeBlock : Text
  routeDirect : Text
  deriving DecidableEq

namespace ChainSettings

def parts (settings : ChainSettings) : Parts where
  throughTunnel := settings.throughTunnel
  urls := settings.urls
  manual := trimKotlin settings.manual
  routeBlock := trimKotlin settings.routeBlock
  routeDirect := trimKotlin settings.routeDirect

end ChainSettings

/-! ## What is written depends on the parts -/

section Congruence

variable {kotlin : Kotlin} {a b : ChainSettings}

theorem isNotBlank_iff (t : Text) : isNotBlank t = true ↔ trimKotlin t ≠ [] := by
  have hblank : trimKotlin t = [] ↔ t.all isWhitespaceKotlin = true := by
    rw [List.all_eq_true]
    constructor
    · intro h c hc
      by_contra hsolid
      have hkeep : ∀ {s : Text}, c ∈ s → c ∈ s.dropWhile isWhitespaceKotlin := by
        intro s hs
        rw [← List.takeWhile_append_dropWhile (p := isWhitespaceKotlin) (l := s), List.mem_append] at hs
        exact hs.resolve_left fun hfront => hsolid (List.mem_takeWhile_imp hfront)
      have hmem : c ∈ trimKotlin t := List.mem_reverse.2 (hkeep (List.mem_reverse.2 (hkeep hc)))
      rw [h] at hmem
      cases hmem
    · intro h
      unfold trimKotlin trimBy
      rw [List.dropWhile_eq_nil_iff.2 fun c hc => h c hc]
      rfl
  unfold isNotBlank
  rw [Bool.not_eq_true', ← Bool.not_eq_true, ne_eq, hblank]

theorem rendered_urls (settings : ChainSettings) :
    settings.rendered.map ChainSource.url = settings.urls.filter isNotBlank := by
  unfold ChainSettings.rendered ChainSettings.urls
  rw [List.filter_map, List.filter_filter]
  refine congrArg _ (List.filter_congr fun source _ => ?_)
  exact Bool.and_comm _ _

/-! A list of rules does not change with the blanks around it. -/

theorem trimKotlin_cons {c : Char} (hc : isWhitespaceKotlin c = true) (t : Text) :
    trimKotlin (c :: t) = trimKotlin t := by
  unfold trimKotlin trimBy
  rw [List.dropWhile_cons_of_pos hc]

theorem trimKotlin_concat {c : Char} (hc : isWhitespaceKotlin c = true) (t : Text) :
    trimKotlin (t ++ [c]) = trimKotlin t := by
  unfold trimKotlin trimBy
  by_cases h : ∀ d ∈ t, isWhitespaceKotlin d = true
  · rw [List.dropWhile_append_of_pos h, List.dropWhile_eq_nil_iff.2 h, List.dropWhile_cons_of_pos hc]
    rfl
  · have hsome : t.dropWhile isWhitespaceKotlin ≠ [] := fun hnil => h (List.dropWhile_eq_nil_iff.1 hnil)
    have happend : (t ++ [c]).dropWhile isWhitespaceKotlin = t.dropWhile isWhitespaceKotlin ++ [c] := by
      rw [List.dropWhile_append, if_neg (by simpa using hsome)]
    rw [happend, List.reverse_append, List.reverse_singleton, List.singleton_append, List.dropWhile_cons_of_pos hc]

theorem keptLine_cons {c : Char} (hc : isWhitespaceKotlin c = true) (part : Text) :
    keptLine (c :: part) = keptLine part := by
  unfold keptLine
  rw [trimKotlin_cons hc]

theorem keptLine_concat {c : Char} (hc : isWhitespaceKotlin c = true) (part : Text) :
    keptLine (part ++ [c]) = keptLine part := by
  unfold keptLine
  rw [trimKotlin_concat hc]

theorem keptLine_nil : keptLine [] = [] := rfl

theorem ruleLines_cons {c : Char} (hc : isWhitespaceKotlin c = true) (raw : Text) :
    ruleLines (c :: raw) = ruleLines raw := by
  obtain ⟨part, more, hparts⟩ := List.exists_cons_of_ne_nil
    (List.splitOnP_ne_nil (fun c => decide (c = '\n' ∨ c = ',' ∨ c = ';')) raw)
  rw [ruleLines_eq_flatMap, ruleLines_eq_flatMap]
  unfold entries
  rw [List.splitOnP_cons_eq_if_modifyHead, hparts]
  split
  · rw [List.flatMap_cons, keptLine_nil, List.nil_append]
  · rw [List.modifyHead_cons, List.flatMap_cons, List.flatMap_cons, keptLine_cons hc]

/-- The last part of a list grows with what is no separator. -/
theorem entries_concat (raw : Text) : ∃ front last, entries raw = front ++ [last] ∧
    ∀ c, entries (raw ++ [c]) = if c = '\n' ∨ c = ',' ∨ c = ';' then front ++ [last, []]
      else front ++ [last ++ [c]] := by
  unfold entries
  -- from the front; what is appended only reaches the last part
  induction raw with
  | nil =>
      refine ⟨[], [], rfl, fun c => ?_⟩
      rw [List.nil_append, List.splitOnP_cons_eq_if_modifyHead, List.splitOnP_nil]
      simp only [decide_eq_true_eq]
      rfl
  | cons d raw ih =>
      obtain ⟨front, last, hraw, hmore⟩ := ih
      by_cases hd : d = '\n' ∨ d = ',' ∨ d = ';'
      · refine ⟨[] :: front, last, ?_, fun c => ?_⟩
        · rw [List.splitOnP_cons_eq_if_modifyHead, if_pos (by simpa using hd), hraw]
          rfl
        · rw [List.cons_append, List.splitOnP_cons_eq_if_modifyHead, if_pos (by simpa using hd), hmore]
          split <;> rfl
      -- no separator: the first part begins with this character, and it may be the last one
      · cases front with
        | nil =>
            refine ⟨[], d :: last, ?_, fun c => ?_⟩
            · rw [List.splitOnP_cons_eq_if_modifyHead, if_neg (by simpa using hd), hraw]
              rfl
            · rw [List.cons_append, List.splitOnP_cons_eq_if_modifyHead, if_neg (by simpa using hd), hmore]
              split <;> rfl
        | cons first front =>
            refine ⟨(d :: first) :: front, last, ?_, fun c => ?_⟩
            · rw [List.splitOnP_cons_eq_if_modifyHead, if_neg (by simpa using hd), hraw]
              rfl
            · rw [List.cons_append, List.splitOnP_cons_eq_if_modifyHead, if_neg (by simpa using hd), hmore]
              split <;> rfl

theorem ruleLines_concat {c : Char} (hc : isWhitespaceKotlin c = true) (raw : Text) :
    ruleLines (raw ++ [c]) = ruleLines raw := by
  obtain ⟨front, last, hraw, hmore⟩ := entries_concat raw
  rw [ruleLines_eq_flatMap, ruleLines_eq_flatMap, hmore, hraw]
  split
  · simp [List.flatMap_append, keptLine_nil]
  · simp [List.flatMap_append, keptLine_concat hc]

theorem ruleLines_trimKotlin (raw : Text) : ruleLines (trimKotlin raw) = ruleLines raw := by
  have hfront : ∀ t : Text, ruleLines (t.dropWhile isWhitespaceKotlin) = ruleLines t := by
    intro t
    induction t with
    | nil => rfl
    | cons c t ih =>
        by_cases hc : isWhitespaceKotlin c = true
        · rw [List.dropWhile_cons_of_pos hc, ih, ruleLines_cons hc]
        · rw [List.dropWhile_cons_of_neg hc]
  have hback : ∀ t : Text, ruleLines (t.dropWhile isWhitespaceKotlin).reverse = ruleLines t.reverse := by
    intro t
    induction t with
    | nil => rfl
    | cons c t ih =>
        by_cases hc : isWhitespaceKotlin c = true
        · rw [List.dropWhile_cons_of_pos hc, ih, List.reverse_cons, ruleLines_concat hc]
        · rw [List.dropWhile_cons_of_neg hc]
  unfold trimKotlin trimBy
  rw [hback, List.reverse_reverse, hfront]

theorem chainRules_congr (hblock : trimKotlin a.routeBlock = trimKotlin b.routeBlock)
    (hdirect : trimKotlin a.routeDirect = trimKotlin b.routeDirect) :
    chainRules kotlin a.routeBlock a.routeDirect = chainRules kotlin b.routeBlock b.routeDirect := by
  unfold chainRules
  rw [← ruleLines_trimKotlin a.routeBlock, ← ruleLines_trimKotlin a.routeDirect, hblock, hdirect,
    ruleLines_trimKotlin, ruleLines_trimKotlin]

theorem manualFile_congr (h : trimKotlin a.manual = trimKotlin b.manual) : manualFile a = manualFile b := by
  unfold manualFile
  simp only [isNotBlank_iff, h]

/-- The providers depend on the urls and on the pasted nodes. -/
theorem appendProviders_congr (hurls : a.urls = b.urls) (hmanual : trimKotlin a.manual = trimKotlin b.manual)
    (through : List Text) : appendProviders a through = appendProviders b through := by
  have hrendered : a.rendered.map ChainSource.url = b.rendered.map ChainSource.url := by
    rw [rendered_urls, rendered_urls, hurls]
  have hnil : a.rendered = [] ↔ b.rendered = [] := by
    rw [← List.map_eq_nil_iff (f := ChainSource.url), hrendered, List.map_eq_nil_iff]
  have hlines : a.rendered.flatMap (fun source => sourceLines through source.url) =
      b.rendered.flatMap fun source => sourceLines through source.url := by
    rw [← List.flatMap_map ChainSource.url, hrendered, List.flatMap_map]
  have hkeys : (a.rendered.map fun source => providerKey source.url) =
      b.rendered.map fun source => providerKey source.url := by
    have hmap : ∀ settings : ChainSettings, (settings.rendered.map fun source => providerKey source.url) =
        (settings.rendered.map ChainSource.url).map providerKey := by
      intro settings
      rw [List.map_map]
      rfl
    rw [hmap, hmap, hrendered]
  unfold appendProviders
  simp only [hnil, hlines, hkeys, hmanual]

theorem render_congr (h : a.parts = b.parts) (socksPort : Option Nat) (proxyName : Text) :
    render kotlin a socksPort proxyName = render kotlin b socksPort proxyName := by
  have hproviders := appendProviders_congr (congrArg Parts.urls h) (congrArg Parts.manual h)
  have hrules : appendRules kotlin a = appendRules kotlin b := by
    unfold appendRules
    rw [chainRules_congr (congrArg Parts.routeBlock h) (congrArg Parts.routeDirect h)]
  unfold render
  simp only [hproviders, hrules]

theorem wanted_congr (h : a.urls = b.urls) : wanted a = wanted b := by
  have hmap : ∀ settings : ChainSettings,
      (settings.rendered.map fun source => providerKey source.url ++ ".yaml".toList) =
        (settings.rendered.map ChainSource.url).map fun url => providerKey url ++ ".yaml".toList := by
    intro settings
    rw [List.map_map]
    rfl
  unfold wanted
  rw [hmap, hmap, rendered_urls, rendered_urls, h]

/-- **What is written depends on the parts of the settings** that the fingerprint is made of. -/
theorem prepareHome_congr (h : a.parts = b.parts) (socksPort : Option Nat) (proxyName : Text) (home : Home) :
    prepareHome kotlin a socksPort proxyName home = prepareHome kotlin b socksPort proxyName home := by
  unfold prepareHome
  rw [render_congr h, wanted_congr (congrArg Parts.urls h), manualFile_congr (congrArg Parts.manual h)]

end Congruence

/-! ## The separators -/

section Separators

variable {α : Type} [DecidableEq α] {c : α}

/-- What stands before a separator is known from how often it holds the separator itself. -/
theorem append_cons_inj {s t x y : List α} (hcount : s.count c = t.count c) (h : s ++ c :: x = t ++ c :: y) :
    s = t ∧ x = y := by
  induction s generalizing t with
  | nil =>
      cases t with
      | nil => exact ⟨rfl, (List.cons.inj h).2⟩
      | cons d t =>
          obtain rfl := (List.cons.inj h).1
          simp at hcount
  | cons d s ih =>
      cases t with
      | nil =>
          obtain rfl := (List.cons.inj h).1
          simp at hcount
      | cons e t =>
          obtain ⟨rfl, htail⟩ := List.cons.inj h
          have hrest : s.count c = t.count c := by
            rw [List.count_cons, List.count_cons] at hcount
            exact Nat.add_right_cancel hcount
          obtain ⟨rfl, rfl⟩ := ih hrest htail
          exact ⟨rfl, rfl⟩

/-- So are pieces that are each ended by one. -/
theorem flatMap_inj {us vs : List (List α)} (hcount : us.map (List.count c) = vs.map (List.count c))
    (h : us.flatMap (· ++ [c]) = vs.flatMap (· ++ [c])) : us = vs := by
  induction us generalizing vs with
  | nil =>
      rw [List.map_nil] at hcount
      exact (List.map_eq_nil_iff.1 hcount.symm).symm
  | cons u us ih =>
      cases vs with
      | nil => cases hcount
      | cons v vs =>
          obtain ⟨hhead, htail⟩ := List.cons.inj hcount
          rw [List.flatMap_cons, List.flatMap_cons, List.append_assoc, List.append_assoc] at h
          obtain ⟨rfl, hrest⟩ := append_cons_inj hhead h
          rw [ih htail hrest]

/-- Pieces without the separator are as many as there are separators. -/
theorem map_count_of_plain {us vs : List (List α)} (hus : ∀ u ∈ us, c ∉ u) (hvs : ∀ v ∈ vs, c ∉ v)
    (h : us.flatMap (· ++ [c]) = vs.flatMap (· ++ [c])) : us.map (List.count c) = vs.map (List.count c) := by
  have hone : ∀ {ws : List (List α)}, (∀ w ∈ ws, c ∉ w) → ws.map (List.count c) = List.replicate ws.length 0 ∧
      (ws.flatMap (· ++ [c])).count c = ws.length := by
    intro ws hws
    induction ws with
    | nil => exact ⟨rfl, rfl⟩
    | cons w ws ih =>
        have hw : w.count c = 0 := List.count_eq_zero.2 (hws w List.mem_cons_self)
        obtain ⟨hmap, hcount⟩ := ih fun v hv => hws v (List.mem_cons_of_mem w hv)
        rw [List.map_cons, hw, hmap, List.flatMap_cons, List.count_append, List.count_append, hw, hcount]
        exact ⟨rfl, by simp [Nat.add_comm]⟩
  obtain ⟨hmapu, hcountu⟩ := hone hus
  obtain ⟨hmapv, hcountv⟩ := hone hvs
  rw [hmapu, hmapv, ← hcountu, ← hcountv, h]

end Separators

/-! ## Fingerprints -/

namespace ChainSettings

variable {a b : ChainSettings}

/-- The urls as they are joined. -/
def joined (settings : ChainSettings) : Text :=
  settings.urls.flatMap (· ++ [','])

/-- In both settings each url holds as many commas, and the urls hold as many bars. -/
structure SourcesAlike (a b : ChainSettings) : Prop where
  commas : a.urls.map (List.count ',') = b.urls.map (List.count ',')
  bars : a.joined.count '|' = b.joined.count '|'

/-- The separators of the fingerprint fall alike in both settings. -/
structure Alike (a b : ChainSettings) : Prop extends SourcesAlike a b where
  manual : (trimKotlin a.manual).count '|' = (trimKotlin b.manual).count '|'
  block : (trimKotlin a.routeBlock).count '|' = (trimKotlin b.routeBlock).count '|'

/-- Nothing in the settings is a separator of the fingerprint, but behind the last of them. -/
structure Plain (settings : ChainSettings) : Prop where
  urls : ∀ url ∈ settings.urls, ',' ∉ url ∧ '|' ∉ url
  manual : '|' ∉ settings.manual
  block : '|' ∉ settings.routeBlock

theorem nodeSourceFingerprint_eq (settings : ChainSettings) : settings.nodeSourceFingerprint =
    (toString settings.throughTunnel).toList ++ '|' :: (settings.joined ++ '|' :: trimKotlin settings.manual) := by
  unfold nodeSourceFingerprint joined urls
  rw [List.flatMap_map]
  simp

theorem fingerprint_eq (settings : ChainSettings) : settings.fingerprint =
    (toString settings.throughTunnel).toList ++ '|' :: (settings.joined ++ '|' :: (trimKotlin settings.manual ++
      '|' :: (trimKotlin settings.routeBlock ++ '|' :: trimKotlin settings.routeDirect))) := by
  unfold fingerprint
  rw [nodeSourceFingerprint_eq]
  simp

/-- What stands in front of the first bar. -/
theorem tunnel_inj {x y : Bool} {s t : Text} (h : (toString x).toList ++ '|' :: s = (toString y).toList ++ '|' :: t) :
    x = y ∧ s = t := by
  have hcount : ∀ z : Bool, (toString z).toList.count '|' = 0 := by decide
  obtain ⟨hfront, hback⟩ := append_cons_inj ((hcount x).trans (hcount y).symm) h
  refine ⟨?_, hback⟩
  cases x <;> cases y <;> first | rfl | exact absurd hfront (by decide)

theorem sources_eq_iff (h : a.nodeSourceFingerprint = b.nodeSourceFingerprint) :
    (a.urls = b.urls ∧ trimKotlin a.manual = trimKotlin b.manual) ↔ SourcesAlike a b := by
  rw [nodeSourceFingerprint_eq, nodeSourceFingerprint_eq] at h
  obtain ⟨-, hrest⟩ := tunnel_inj h
  constructor
  · rintro ⟨hurls, -⟩
    exact ⟨by rw [hurls], by rw [joined, hurls]; rfl⟩
  · rintro ⟨hcommas, hbars⟩
    obtain ⟨hjoined, hmanual⟩ := append_cons_inj hbars hrest
    exact ⟨flatMap_inj hcommas hjoined, hmanual⟩

/-- **Settings of one fingerprint have the same parts** exactly where their separators fall alike. -/
theorem parts_eq_iff (h : a.fingerprint = b.fingerprint) : a.parts = b.parts ↔ Alike a b := by
  rw [fingerprint_eq, fingerprint_eq] at h
  obtain ⟨htunnel, hrest⟩ := tunnel_inj h
  constructor
  · intro hparts
    have hurls : a.urls = b.urls := congrArg Parts.urls hparts
    have hmanual : trimKotlin a.manual = trimKotlin b.manual := congrArg Parts.manual hparts
    have hblock : trimKotlin a.routeBlock = trimKotlin b.routeBlock := congrArg Parts.routeBlock hparts
    exact ⟨⟨by rw [hurls], by rw [joined, hurls]; rfl⟩, by rw [hmanual], by rw [hblock]⟩
  · rintro ⟨⟨hcommas, hbars⟩, hmanual, hblock⟩
    obtain ⟨hjoined, hrest⟩ := append_cons_inj hbars hrest
    obtain ⟨hmanual, hrest⟩ := append_cons_inj hmanual hrest
    obtain ⟨hblock, hdirect⟩ := append_cons_inj hblock hrest
    unfold ChainSettings.parts
    rw [htunnel, flatMap_inj hcommas hjoined, hmanual, hblock, hdirect]

theorem fingerprint_of_parts (h : a.parts = b.parts) :
    a.fingerprint = b.fingerprint ∧ a.nodeSourceFingerprint = b.nodeSourceFingerprint := by
  have htunnel : a.throughTunnel = b.throughTunnel := congrArg Parts.throughTunnel h
  have hurls : a.urls = b.urls := congrArg Parts.urls h
  have hmanual : trimKotlin a.manual = trimKotlin b.manual := congrArg Parts.manual h
  have hblock : trimKotlin a.routeBlock = trimKotlin b.routeBlock := congrArg Parts.routeBlock h
  have hdirect : trimKotlin a.routeDirect = trimKotlin b.routeDirect := congrArg Parts.routeDirect h
  have hjoined : a.joined = b.joined := by rw [joined, hurls]; rfl
  rw [fingerprint_eq, fingerprint_eq, nodeSourceFingerprint_eq, nodeSourceFingerprint_eq, htunnel, hjoined, hmanual,
    hblock, hdirect]
  exact ⟨rfl, rfl⟩

theorem alike_of_plain (ha : a.Plain) (hb : b.Plain) (h : a.fingerprint = b.fingerprint) : Alike a b := by
  have htrim : ∀ {t : Text}, '|' ∉ t → (trimKotlin t).count '|' = 0 := fun ht =>
    List.count_eq_zero.2 fun hmem => ht (trimBy_subset hmem)
  have hbars : ∀ {settings : ChainSettings}, settings.Plain → settings.joined.count '|' = 0 := by
    intro settings hplain
    refine List.count_eq_zero.2 fun hmem => ?_
    obtain ⟨url, hurl, hbar⟩ := List.mem_flatMap.1 hmem
    rcases List.mem_append.1 hbar with hbar | hbar
    · exact (hplain.urls url hurl).2 hbar
    · exact absurd (List.mem_singleton.1 hbar) (by decide)
  have hsame := (hbars ha).trans (hbars hb).symm
  rw [fingerprint_eq, fingerprint_eq] at h
  obtain ⟨-, hrest⟩ := tunnel_inj h
  obtain ⟨hjoined, -⟩ := append_cons_inj hsame hrest
  exact ⟨⟨map_count_of_plain (fun u hu => (ha.urls u hu).1) (fun u hu => (hb.urls u hu).1) hjoined, hsame⟩,
    (htrim ha.manual).trans (htrim hb.manual).symm, (htrim ha.block).trans (htrim hb.block).symm⟩

end ChainSettings

/-! ## Runs -/

section Runs

variable {kotlin : Kotlin} {P : ChainSettings → Prop} {c : Controller} {settings : ChainSettings}

/-- What a run of calls reaches in which a start follows on a stop, as the service has it, and in which all settings
that were started have a property. -/
inductive Reached (kotlin : Kotlin) (P : ChainSettings → Prop) : Controller → Prop
  | opened (home : Home) : Reached kotlin P ⟨home, none, none⟩
  | start {c : Controller} {settings : ChainSettings} (h : Reached kotlin P c) (hstopped : c.applied = none)
      (hstarted : P settings) (socksPort : Option Nat) (result : Outcome) :
      Reached kotlin P (c.start kotlin settings socksPort result)
  | startCarrier {c : Controller} (h : Reached kotlin P c) (hstopped : c.applied = none) (settings : ChainSettings)
      (socksPort : Nat) (udp : Bool) (result : Outcome) :
      Reached kotlin P (c.startCarrier kotlin settings socksPort udp result)
  | stop {c : Controller} (h : Reached kotlin P c) : Reached kotlin P c.stop

/-- What is noted is the fingerprint of what the engine was configured from. -/
def Noted (kotlin : Kotlin) (P : ChainSettings → Prop) (c : Controller) : Prop :=
  ∀ fingerprint ∈ c.applied, ∃ settings socksPort before, P settings ∧ fingerprint = settings.fingerprint ∧
    c.loaded.isSome ∧ c.loaded = prepareHome kotlin settings socksPort TUNNEL_PROXY before

/-- A start that did not go well has noted nothing. -/
theorem applied_outcome (written : Option Home) (applied : Option Text) (result : Outcome) (h : c.applied = none) :
    (c.outcome written applied result).applied = none ∨
      ∃ home, written = some home ∧ c.outcome written applied result = ⟨home, some home, applied⟩ := by
  cases result with
  | unavailable => exact .inl h
  | refused => exact .inl h
  | detached => exact .inl h
  | attached =>
      cases written with
      | none => exact .inl h
      | some home => exact .inr ⟨home, rfl, rfl⟩

theorem noted_of_none (h : c.applied = none) : Noted kotlin P c := by
  intro fingerprint hfingerprint
  rw [h] at hfingerprint
  cases hfingerprint

theorem Reached.noted (h : Reached kotlin P c) : Noted kotlin P c := by
  induction h with
  | opened home => exact noted_of_none rfl
  | @start c settings h hstopped hstarted socksPort result _ =>
      unfold Controller.start
      split
      · exact noted_of_none hstopped
      · rcases applied_outcome (prepareHome kotlin settings socksPort TUNNEL_PROXY c.home) (some settings.fingerprint)
          result hstopped with hnone | ⟨home, hwritten, heq⟩
        · exact noted_of_none hnone
        · rw [heq]
          rintro fingerprint ⟨⟩
          exact ⟨settings, socksPort, c.home, hstarted, rfl, rfl, hwritten.symm⟩
  | @startCarrier c h hstopped settings socksPort udp result _ =>
      unfold Controller.startCarrier
      rcases applied_outcome _ _ result hstopped with hnone | ⟨home, -, heq⟩
      · exact noted_of_none hnone
      · rw [heq]
        exact noted_of_none rfl
  | stop _ _ => exact noted_of_none rfl

/-- **A configuration that is called current is**, over any run, where the settings that were started have their
separators where those have that are asked for. -/
theorem Reached.current (h : Reached kotlin (fun started => started.fingerprint = settings.fingerprint →
    ChainSettings.Alike started settings) c) (hcurrent : c.isRunningConfigCurrent settings = true) :
    ∃ socksPort before, c.loaded.isSome ∧ c.loaded = prepareHome kotlin settings socksPort TUNNEL_PROXY before := by
  unfold Controller.isRunningConfigCurrent at hcurrent
  rw [Bool.and_eq_true, decide_eq_true_eq] at hcurrent
  obtain ⟨started, socksPort, before, halike, hsame, hsome, hloaded⟩ := h.noted _ hcurrent.2
  have hparts := (ChainSettings.parts_eq_iff hsame.symm).2 (halike hsame.symm)
  exact ⟨socksPort, before, hsome, hloaded.trans (prepareHome_congr hparts socksPort TUNNEL_PROXY before)⟩

end Runs

/-! ## What a fingerprint identifies -/

/-- The same configuration is written for both, or for neither. -/
def SameConfig (kotlin : Kotlin) (a b : ChainSettings) : Prop :=
  manualFile a = manualFile b ∧ ∀ socksPort proxyName,
    render kotlin a socksPort proxyName = render kotlin b socksPort proxyName ∧
      ∀ home, prepareHome kotlin a socksPort proxyName home = prepareHome kotlin b socksPort proxyName home

/-- **What a fingerprint identifies**: the parts that it is made of, exactly where their separators fall alike, and
with them all that is written. -/
theorem fingerprint_identifies_iff (kotlin : Kotlin) :
    (∀ a b : ChainSettings, a.fingerprint = b.fingerprint →
      (a.parts = b.parts ↔ ChainSettings.Alike a b) ∧ (ChainSettings.Alike a b → SameConfig kotlin a b)) ∧
    (∀ a b : ChainSettings, a.Plain → b.Plain → a.fingerprint = b.fingerprint → ChainSettings.Alike a b) ∧
    (∀ a b : ChainSettings, a.nodeSourceFingerprint = b.nodeSourceFingerprint →
      ((a.urls = b.urls ∧ trimKotlin a.manual = trimKotlin b.manual) ↔ ChainSettings.SourcesAlike a b) ∧
      (ChainSettings.SourcesAlike a b → ∀ through, appendProviders a through = appendProviders b through)) ∧
    (∀ (a : ChainSettings) (enabled : Bool) (node : Option Text) (hiddenNodes : List Text) (sources : List ChainSource),
      (sources.filter ChainSource.enabled).map ChainSource.url = a.urls →
      let b := { a with enabled := enabled, node := node, hiddenNodes := hiddenNodes, sources := sources }
      a.fingerprint = b.fingerprint ∧ a.nodeSourceFingerprint = b.nodeSourceFingerprint ∧ SameConfig kotlin a b) ∧
    ∀ (settings : ChainSettings) (c : Controller),
      Reached kotlin (fun started => started.fingerprint = settings.fingerprint →
        ChainSettings.Alike started settings) c →
      c.isRunningConfigCurrent settings = true →
      ∃ socksPort before, c.loaded.isSome ∧ c.loaded = prepareHome kotlin settings socksPort TUNNEL_PROXY before := by
  -- all that is written is made of the parts
  have hsame : ∀ a b : ChainSettings, a.parts = b.parts → SameConfig kotlin a b := fun a b h =>
    ⟨manualFile_congr (congrArg Parts.manual h), fun socksPort proxyName =>
      ⟨render_congr h socksPort proxyName, prepareHome_congr h socksPort proxyName⟩⟩
  refine ⟨fun a b h => ⟨ChainSettings.parts_eq_iff h, fun halike => ?_⟩, fun a b => ChainSettings.alike_of_plain,
    fun a b h => ⟨ChainSettings.sources_eq_iff h, fun halike through => ?_⟩, ?_, fun settings c h => h.current⟩
  -- the four halves of the statement, one after another
  · exact hsame a b ((ChainSettings.parts_eq_iff h).2 halike)
  · obtain ⟨hurls, hmanual⟩ := (ChainSettings.sources_eq_iff h).2 halike
    exact appendProviders_congr hurls hmanual through
  · intro a enabled node hiddenNodes sources hurls
    have hparts : a.parts =
        { a with enabled := enabled, node := node, hiddenNodes := hiddenNodes, sources := sources }.parts := by
      unfold ChainSettings.parts ChainSettings.urls
      rw [hurls]
      rfl
    obtain ⟨hfull, hsources⟩ := ChainSettings.fingerprint_of_parts hparts
    exact ⟨hfull, hsources, hsame _ _ hparts⟩

/-- Two subscriptions, and the two of them in one field. -/
def splitSettings : ChainSettings where
  enabled := true
  throughTunnel := true
  sources := [⟨"A".toList, "https://a.example/s".toList, true⟩, ⟨"B".toList, "https://b.example/s".toList, true⟩]
  manual := []
  node := none
  routeBlock := []
  routeDirect := []
  hiddenNodes := []

def joinedSettings : ChainSettings :=
  { splitSettings with sources := [⟨"A".toList, "https://a.example/s,https://b.example/s".toList, true⟩] }

def manualSettings : ChainSettings :=
  { splitSettings with sources := [], manual := "vless://n#DE".toList }

/-- The two subscriptions under other names, with a third one that is switched off, and a node picked. -/
def renamedSettings : ChainSettings :=
  { splitSettings with
    node := some "DE 1".toList
    sources := splitSettings.sources.map (fun source => { source with name := "C".toList }) ++
      [⟨"D".toList, "https://d.example/s|,".toList, false⟩] }

/-- An engine is started, stopped and started with other settings: these are current under other names, what was
loaded is what they would be loaded as, and the first ones are not current. -/
theorem fingerprint_identifies_iff_renamed :
    let kotlin : Kotlin := ⟨id, fun s t => s = t⟩
    let stopped := (Controller.start kotlin ⟨⟨none, fun _ => none⟩, none, none⟩ manualSettings
      (some 1080) .attached).stop
    let c := stopped.start kotlin splitSettings (some 1081) .attached
    SameConfig kotlin splitSettings renamedSettings ∧ c.isRunningConfigCurrent manualSettings = false ∧
      c.isRunningConfigCurrent renamedSettings = true ∧ ∃ socksPort before, c.loaded.isSome ∧
        c.loaded = prepareHome kotlin renamedSettings socksPort TUNNEL_PROXY before := by
  intro kotlin stopped c
  obtain ⟨hidentifies, -, -, hunread, hruns⟩ := fingerprint_identifies_iff kotlin
  obtain ⟨hsame, -, hconfig⟩ := hunread splitSettings true renamedSettings.node [] renamedSettings.sources
    (by decide)
  have halike : ChainSettings.Alike splitSettings renamedSettings := ((hidentifies _ _ hsame).1).1 (by decide)
  have hstarted : Reached kotlin (fun started => started.fingerprint = renamedSettings.fingerprint →
      ChainSettings.Alike started renamedSettings) c := by
    refine .start (.stop (.start (.opened _) rfl (fun h => ?_) _ _)) rfl (fun _ => halike) _ _
    exact absurd h (by decide)
  have hcurrent : c.isRunningConfigCurrent renamedSettings = true := by decide
  exact ⟨hconfig, by decide, hcurrent, hruns renamedSettings c hstarted hcurrent⟩

/-- One fingerprint, and two configurations. -/
theorem joined_is_current : ¬ ∀ (kotlin : Kotlin) (a b : ChainSettings), a.fingerprint = b.fingerprint →
    SameConfig kotlin a b := by
  intro h
  have hsame := (h ⟨id, fun s t => s = t⟩ splitSettings joinedSettings (by decide)).2 none TUNNEL_PROXY
  exact absurd hsame.1 (by decide +kernel)

end Chain
end AuroraVpn
