import AuroraVpn.Chain.Config
import AuroraVpn.Lib.Json
import Mathlib.Data.Finset.Sort
import Mathlib.Data.List.Lex

/-!
# Codecs — the settings that are kept as JSON

`ChainSettings` and `SplitTunnel` are each kept in one preference: `encode` and `decode` of both.  What is
decoded leaves out what is blank, so not every value comes back.

* `ChainSettings.decode_encode`, `SplitTunnel.decode_encode`: what does.
* `ChainSettings.kept_decode`, `SplitTunnel.kept_decode`: nothing that is decoded is left out the next time.
-/

namespace AuroraVpn

namespace Settings

/-! ## Enumerations -/

/-- A Kotlin enumeration: its cases in order, and their names. -/
class Enumeration (E : Type) where
  entries : List E
  name : E → String
  /-- No name occurs twice. -/
  find_name : ∀ e, (entries.find? fun other => name other = name e) = some e
  name_ne_empty : ∀ e, name e ≠ ""

namespace Enumeration

variable {E : Type} [Enumeration E]

/-- `entries.firstOrNull { it.name == name }`. -/
def ofName (t : Text) : Option E :=
  (entries : List E).find? fun e => (name e).toList = t

theorem ofName_name (e : E) : ofName (name e).toList = some e := by
  have hsame : (fun other : E => decide ((name other).toList = (name e).toList)) =
      fun other => decide (name other = name e) := by
    funext other
    exact decide_eq_decide.2 String.toList_inj
  rw [ofName, hsame]
  exact find_name e

theorem ofName_nil : ofName (E := E) [] = none := by
  refine List.find?_eq_none.2 fun e _ => ?_
  have hsome : (name e).toList ≠ [] := fun hnil => name_ne_empty e (String.toList_inj.1 (hnil.trans rfl))
  simpa using hsome

end Enumeration

/-! ## Values of `org.json` -/

/-- A value of `org.json`; a number by its text. -/
inductive JsonValue
  | null
  | flag (b : Bool)
  | number (shown : Text)
  | text (t : Text)
  | array (items : List JsonValue)
  | object (members : List (Text × JsonValue))

abbrev JsonObject := List (Text × JsonValue)

namespace JsonValue

mutual

/-- `toString` of a value inside an array or an object. -/
def toText : JsonValue → Text
  | .null => "null".toList
  | .flag b => (toString b).toList
  | .number shown => shown
  | .text t => Json.quoted t
  | .array items => '[' :: (itemsText items ++ [']'])
  | .object members => '{' :: (membersText members ++ ['}'])

def itemsText : List JsonValue → Text
  | [] => []
  | [item] => item.toText
  | item :: items => item.toText ++ ',' :: itemsText items

def membersText : List (Text × JsonValue) → Text
  | [] => []
  | [(name, value)] => Json.quoted name ++ ':' :: value.toText
  | (name, value) :: members => Json.quoted name ++ ':' :: (value.toText ++ ',' :: membersText members)

end

/-- `JSON.toString`: a text is itself. -/
def asString : JsonValue → Text
  | .text t => t
  | value => value.toText

/-- `JSON.toBoolean`. -/
def asBoolean : JsonValue → Option Bool
  | .flag b => some b
  | .text t =>
      if t.map Char.toLower = "true".toList then some true
      else if t.map Char.toLower = "false".toList then some false
      else none
  | _ => none

def asArray : JsonValue → Option (List JsonValue)
  | .array items => some items
  | _ => none

def asObject : JsonValue → Option JsonObject
  | .object members => some members
  | _ => none

end JsonValue

namespace JsonObject

def opt (json : JsonObject) (name : String) : Option JsonValue :=
  json.lookup name.toList

def optString (json : JsonObject) (name : String) : Text :=
  ((json.opt name).map JsonValue.asString).getD []

def optBoolean (json : JsonObject) (name : String) (fallback : Bool) : Bool :=
  ((json.opt name).bind JsonValue.asBoolean).getD fallback

def optJSONArray (json : JsonObject) (name : String) : Option (List JsonValue) :=
  (json.opt name).bind JsonValue.asArray

end JsonObject

end Settings

namespace Chain

open Settings (JsonValue JsonObject)

namespace ChainSource

def toJson (source : ChainSource) : JsonObject :=
  [("name".toList, .text source.name), ("url".toList, .text source.url), ("enabled".toList, .flag source.enabled)]

def fromJson (json : JsonObject) : Option ChainSource :=
  let url := trimKotlin (json.optString "url")
  if url = [] then none
  else
    let name := json.optString "name"
    some
      { name := if isNotBlank name then name else "Subscription".toList
        url := url
        enabled := json.optBoolean "enabled" true }

/-- A source that is read as it was written. -/
structure Kept (source : ChainSource) : Prop where
  named : isNotBlank source.name = true
  url_ne_nil : source.url ≠ []
  url_trimmed : trimKotlin source.url = source.url

theorem subscription_named : isNotBlank "Subscription".toList = true := by decide

theorem fromJson_toJson_iff (source : ChainSource) : fromJson source.toJson = some source ↔ source.Kept := by
  have hread : fromJson source.toJson =
      if trimKotlin source.url = [] then none
      else
        some
          { name := if isNotBlank source.name then source.name else "Subscription".toList
            url := trimKotlin source.url
            enabled := source.enabled } := rfl
  rw [hread]
  by_cases hurl : trimKotlin source.url = []
  · -- a source without a URL is left out
    rw [if_pos hurl]
    constructor
    · intro heq
      cases heq
    · intro hkept
      exact absurd (hkept.url_trimmed.symm.trans hurl) hkept.url_ne_nil
  · rw [if_neg hurl, Option.some_inj, ChainSource.ext_iff]
    constructor
    · rintro ⟨hname, htrim, -⟩
      refine ⟨?_, fun hnil => hurl (htrim.trans hnil), htrim⟩
      -- a blank name becomes one that is not blank
      by_contra hblank
      have hnamed : "Subscription".toList = source.name := by
        simpa only [if_neg hblank] using hname
      exact hblank (hnamed ▸ subscription_named)
    · intro hkept
      exact ⟨if_pos hkept.named, hkept.url_trimmed, rfl⟩

theorem kept_fromJson {json : JsonObject} {source : ChainSource} (h : fromJson json = some source) :
    source.Kept := by
  unfold fromJson at h
  dsimp only at h
  split_ifs at h with hurl hname
  · cases h
    exact ⟨hname, hurl, trimBy_trimBy _⟩
  · cases h
    exact ⟨subscription_named, hurl, trimBy_trimBy _⟩

end ChainSource

namespace ChainSettings

/-- `ChainSettings()`. -/
def new : ChainSettings where
  enabled := false
  throughTunnel := true
  sources := []
  manual := []
  node := none
  routeBlock := []
  routeDirect := []
  hiddenNodes := []

def encode (chain : ChainSettings) : JsonObject :=
  [("enabled".toList, .flag chain.enabled),
    ("throughTunnel".toList, .flag chain.throughTunnel),
    ("sources".toList, .array (chain.sources.map fun source => .object source.toJson)),
    ("manual".toList, .text chain.manual),
    ("routeBlock".toList, .text chain.routeBlock),
    ("routeDirect".toList, .text chain.routeDirect),
    ("hiddenNodes".toList, .array (chain.hiddenNodes.map .text))] ++
    (chain.node.map fun node => ("node".toList, JsonValue.text node)).toList

/-- `ChainSettings.decode`: `none` is a preference that is absent, blank, or no JSON object. -/
def decode (raw : Option JsonObject) : ChainSettings :=
  match raw with
  | none => new
  | some json =>
      { enabled := json.optBoolean "enabled" false
        throughTunnel := json.optBoolean "throughTunnel" true
        sources := ((json.optJSONArray "sources").getD []).filterMap fun item =>
          item.asObject.bind ChainSource.fromJson
        manual := json.optString "manual"
        routeBlock := json.optString "routeBlock"
        routeDirect := json.optString "routeDirect"
        hiddenNodes := (((json.optJSONArray "hiddenNodes").getD []).map JsonValue.asString).filter isNotBlank
        node := some (json.optString "node") |>.filter isNotBlank }

/-- Settings that are read as they were written. -/
structure Kept (chain : ChainSettings) : Prop where
  sources : ∀ source ∈ chain.sources, source.Kept
  node : ∀ node ∈ chain.node, isNotBlank node = true
  hiddenNodes : ∀ node ∈ chain.hiddenNodes, isNotBlank node = true

/-- What is read of settings that were written: without what is blank. -/
theorem decode_encode (chain : ChainSettings) :
    decode (some chain.encode) =
      { chain with
        sources := chain.sources.filterMap fun source => ChainSource.fromJson source.toJson
        node := chain.node.filter isNotBlank
        hiddenNodes := chain.hiddenNodes.filter isNotBlank } := by
  have hsources : (chain.sources.map fun source => JsonValue.object source.toJson).filterMap
      (fun item => item.asObject.bind ChainSource.fromJson) =
        chain.sources.filterMap fun source => ChainSource.fromJson source.toJson := by
    rw [List.filterMap_map]
    rfl
  have hhidden : (chain.hiddenNodes.map JsonValue.text).map JsonValue.asString = chain.hiddenNodes := by
    rw [List.map_map]
    exact List.map_id _
  rw [← hsources]
  conv_rhs => rw [← hhidden]
  cases hnode : chain.node with
  | none => simp only [decode, encode, hnode]; rfl
  | some node => simp only [decode, encode, hnode]; rfl

theorem filterMap_sources_iff (sources : List ChainSource) :
    (sources.filterMap fun source => ChainSource.fromJson source.toJson) = sources ↔
      ∀ source ∈ sources, source.Kept := by
  conv_lhs => rhs; rw [← List.map_id sources]
  rw [List.filterMap_eq_map_iff_forall_eq_some]
  exact forall₂_congr fun source _ => source.fromJson_toJson_iff

theorem filter_node_iff (node : Option Text) :
    node.filter isNotBlank = node ↔ ∀ name ∈ node, isNotBlank name = true := by
  cases node with
  | none => simp
  | some name => simp [Option.filter]

theorem kept_decode (raw : Option JsonObject) : (decode raw).Kept := by
  cases raw with
  | none => exact ⟨List.forall_mem_nil _, fun _ h => (Option.not_mem_none _ h).elim, List.forall_mem_nil _⟩
  | some json =>
      refine ⟨fun source hsource => ?_, fun node hnode => ?_, fun node hnode => (List.mem_filter.1 hnode).2⟩
      · obtain ⟨item, -, hitem⟩ := List.mem_filterMap.1 hsource
        obtain ⟨members, -, hmembers⟩ := Option.bind_eq_some_iff.1 hitem
        exact ChainSource.kept_fromJson hmembers
      · have hread : Option.filter isNotBlank (some (json.optString "node")) = some node := hnode
        exact (Option.filter_eq_some_iff.1 hread).2

end ChainSettings

end Chain

namespace Settings

open Chain (isNotBlank)

inductive SplitTunnelMode
  | all
  | only
  | except
  deriving DecidableEq

instance : Enumeration SplitTunnelMode where
  entries := [.all, .only, .except]
  name
    | .all => "ALL"
    | .only => "ONLY"
    | .except => "EXCEPT"
  find_name e := by cases e <;> rfl
  name_ne_empty e := by cases e <;> decide

structure SplitTunnel where
  mode : SplitTunnelMode
  packages : Finset Text
  deriving DecidableEq

namespace SplitTunnel

/-- `SplitTunnel()`. -/
def new : SplitTunnel where
  mode := .all
  packages := ∅

def encode (split : SplitTunnel) : JsonObject :=
  [("mode".toList, .text (Enumeration.name split.mode).toList),
    ("packages".toList, .array ((split.packages.sort (· ≤ ·)).map .text))]

/-- `SplitTunnel.decode`: `none` is a preference that is absent, blank, or no JSON object. -/
def decode (raw : Option JsonObject) : SplitTunnel :=
  match raw with
  | none => new
  | some json =>
      { mode := (Enumeration.ofName (json.optString "mode")).getD .all
        packages := ((((json.optJSONArray "packages").getD []).map JsonValue.asString).filter isNotBlank).toFinset }

/-- Settings that are read as they were written. -/
def Kept (split : SplitTunnel) : Prop :=
  ∀ package ∈ split.packages, isNotBlank package = true

theorem decode_encode (split : SplitTunnel) :
    decode (some split.encode) =
      { split with packages := split.packages.filter fun package => isNotBlank package = true } := by
  have hpackages : ((split.packages.sort (· ≤ ·)).map JsonValue.text).map JsonValue.asString =
      split.packages.sort (· ≤ ·) := by
    rw [List.map_map]
    exact List.map_id _
  have hread : decode (some split.encode) =
      { mode := (Enumeration.ofName (Enumeration.name split.mode).toList).getD .all
        packages := ((((split.packages.sort (· ≤ ·)).map JsonValue.text).map JsonValue.asString).filter
          isNotBlank).toFinset } := rfl
  rw [hread, Enumeration.ofName_name, hpackages, List.toFinset_filter, Finset.sort_toFinset]
  rfl

theorem kept_decode (raw : Option JsonObject) : (decode raw).Kept := by
  cases raw with
  | none => exact fun _ h => absurd h (Finset.notMem_empty _)
  | some json => exact fun package h => (List.mem_filter.1 (List.mem_toFinset.1 h)).2

end SplitTunnel

end Settings
end AuroraVpn
