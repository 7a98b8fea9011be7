import AuroraVpn.Lib.Json
import AuroraVpn.Lib.LinkedMap
import AuroraVpn.Lib.Text
import AuroraVpn.Service.Attempts
import Mathlib.Data.List.Dedup

/-!
# RouteMemory — which route last carried traffic, per network

`RouteMemory` of `AutoRoute.kt`: what is known about a network, how it is kept as JSON in one preference,
and the two calls that write it.  What `org.json` makes of a text is a parameter, which reads what it wrote.

* `decode_encode`: what is read of what was written.
* `get_settle`: of which networks, and how much of it.
-/

namespace AuroraVpn
namespace RouteMemory

open Service.Attempts (Carrier)

/-! ## Routes -/

inductive AutoRoute
  | aether
  | aetherH3Quick
  | aetherH2Quick
  | aetherH2Fragment
  | aetherH3Ech
  | aetherH2Full
  | aetherMim
  | aetherAsSet
  | psiphon
  | torCustom
  | torSnowflake
  | torObfs4
  | torDirect
  deriving DecidableEq, Repr

namespace AutoRoute

def entries : List AutoRoute :=
  [.aether, .aetherH3Quick, .aetherH2Quick, .aetherH2Fragment, .aetherH3Ech, .aetherH2Full, .aetherMim,
    .aetherAsSet, .psiphon, .torCustom, .torSnowflake, .torObfs4, .torDirect]

def wireName : AutoRoute → String
  | .aether => "aether"
  | .aetherH3Quick => "aether-h3-quick"
  | .aetherH2Quick => "aether-h2-quick"
  | .aetherH2Fragment => "aether-h2-fragment"
  | .aetherH3Ech => "aether-h3-ech"
  | .aetherH2Full => "aether-h2-full"
  | .aetherMim => "aether-mim"
  | .aetherAsSet => "aether-as-set"
  | .psiphon => "psiphon"
  | .torCustom => "tor-custom"
  | .torSnowflake => "tor-snowflake"
  | .torObfs4 => "tor-obfs4"
  | .torDirect => "tor-direct"

def carrier : AutoRoute → Carrier
  | .psiphon => .psiphon
  | .torCustom | .torSnowflake | .torObfs4 | .torDirect => .tor
  | _ => .aether

def remembersAs (route : AutoRoute) : AutoRoute :=
  if route.carrier = .aether then .aether else route

def fromWire (name : Text) : Option AutoRoute :=
  entries.find? fun route => route.wireName.toList = name

theorem fromWire_wireName (route : AutoRoute) : fromWire route.wireName.toList = some route := by
  cases route <;> rfl

theorem fromWire_nil : fromWire [] = none := by decide

theorem remembersAs_eq_aether (route : AutoRoute) : route.remembersAs = .aether ↔ route.carrier = .aether := by
  cases route <;> decide

end AutoRoute

/-! ## The preference -/

/-- A value of `org.json`; one that is no text and no whole number, by what `optString` and `optLong` make of
it. -/
inductive Value
  | text (t : Text)
  | long (n : Int64)
  | other (shown : Text) (number : Int64)

namespace Value

def display : Value → Text
  | .text t => Json.quoted t
  | .long n => Json.displayInt n.toInt
  | .other shown _ => shown

def Plain : Value → Prop
  | .text _ | .long _ => True
  | .other _ _ => False

end Value

abbrev Item := List (Text × Value)

/-- `JSONObject.toString`. -/
def toText (doc : List (Text × Item)) : Text :=
  Json.printMembers (Json.printMembers Value.display) doc

/-- A `JSONObject` that is built of texts and whole numbers: every name once. -/
def Written (doc : List (Text × Item)) : Prop :=
  (doc.map Prod.fst).Nodup ∧ ∀ item ∈ doc, (item.2.map Prod.fst).Nodup ∧ ∀ m ∈ item.2, m.2.Plain

/-- What `org.json` reads: an object, with `none` for a member that is no object, and the number that it makes
of a text. -/
structure OrgJson where
  parse : Text → Option (List (Text × Option Item))
  longOf : Text → Int64
  parse_toText : ∀ doc, Written doc → parse (toText doc) = some (doc.map fun (key, item) => (key, some item))

structure Entry where
  route : Option AutoRoute
  atMs : Int64
  engineFailedAtMs : Int64
  deriving DecidableEq

def MAX_NETWORKS : Nat := 32

def FORGET_AFTER_MS : Int64 := 14 * 24 * 60 * 60 * 1000

def ENGINE_RETRY_AFTER_MS : Int64 := 6 * 60 * 60 * 1000

section Memory

variable (json : OrgJson)

def Item.optString (item : Item) (name : String) : Text :=
  match item.lookup name.toList with
  | none => []
  | some (.text t) => t
  | some (.long n) => Json.displayInt n.toInt
  | some (.other shown _) => shown

def Item.optLong (item : Item) (name : String) : Int64 :=
  match item.lookup name.toList with
  | none => 0
  | some (.text t) => json.longOf t
  | some (.long n) => n
  | some (.other _ number) => number

def entryOf (item : Item) : Option Entry :=
  let route := AutoRoute.fromWire (Item.optString item "route")
  let engineFailedAt := Item.optLong json item "engineFailedAt"
  -- Neither half means anything: not an entry.
  if route = none ∧ engineFailedAt ≤ 0 then none
  else some ⟨route, Item.optLong json item "at", engineFailedAt⟩

def decode (stored : Option Text) : LinkedMap Text Entry :=
  match stored with
  | none => .empty
  | some t =>
      if t.all isWhitespaceKotlin then .empty
      else
        match json.parse t with
        | none => .empty
        | some doc =>
            LinkedMap.ofList (doc.filterMap fun (key, item) => (item.bind (entryOf json)).map fun entry => (key, entry))

/-- By whichever of the two is more recent. -/
def Entry.touchedMs (entry : Entry) : Int :=
  max entry.atMs.toInt entry.engineFailedAtMs.toInt

def itemOf (entry : Entry) : Item :=
  ("at".toList, .long entry.atMs) ::
    ((entry.route.toList.map fun route => ("route".toList, Value.text route.wireName.toList)) ++
      if 0 < entry.engineFailedAtMs then [("engineFailedAt".toList, .long entry.engineFailedAtMs)] else [])

def encode (entries : LinkedMap Text Entry) : Text :=
  toText ((LinkedMap.newest Entry.touchedMs entries MAX_NETWORKS).entries.map fun (key, entry) => (key, itemOf entry))

def «recall» (stored : Option Text) (network : Text) (nowMs : Int64) : Option AutoRoute :=
  ((decode json stored).get network).bind fun entry =>
    entry.route.filter fun _ => nowMs - entry.atMs ≤ FORGET_AFTER_MS

def engineFailedRecently (stored : Option Text) (network : Text) (nowMs : Int64) : Bool :=
  match (decode json stored).get network with
  | none => false
  | some entry =>
      if entry.engineFailedAtMs ≤ 0 then false
      else nowMs - entry.engineFailedAtMs ≤ ENGINE_RETRY_AFTER_MS

def remember (stored : Option Text) (network : Text) (route : AutoRoute) (nowMs : Int64) : Text :=
  let entries := decode json stored
  let before := entries.get network
  -- The engine winning is the answer to the engine having failed, so the mark goes when it does.
  let engineFailedAt :=
    if route.remembersAs = .aether then 0 else (before.map Entry.engineFailedAtMs).getD 0
  encode (entries.put network ⟨some route.remembersAs, nowMs, engineFailedAt⟩)

def rememberEngineFailure (stored : Option Text) (network : Text) (nowMs : Int64) : Text :=
  let entries := decode json stored
  let before := entries.get network
  encode (entries.put network ⟨before.bind Entry.route, (before.map Entry.atMs).getD 0, nowMs⟩)

end Memory

/-! ## What is read of what was written -/

namespace Entry

/-- A mark that is no time is not written. -/
def settled (entry : Entry) : Entry :=
  { entry with engineFailedAtMs := if 0 < entry.engineFailedAtMs then entry.engineFailedAtMs else 0 }

/-- Whether either half means anything. -/
def Meant (entry : Entry) : Prop :=
  entry.route ≠ none ∨ 0 < entry.engineFailedAtMs

instance (entry : Entry) : Decidable entry.Meant := inferInstanceAs (Decidable (_ ∨ _))

/-- What is read of an entry that was written. -/
def reread (entry : Entry) : Option Entry :=
  if entry.Meant then some entry.settled else none

theorem settled_settled (entry : Entry) : entry.settled.settled = entry.settled := by
  by_cases hmark : 0 < entry.engineFailedAtMs
  · simp [settled, hmark]
  · simp [settled, hmark]

end Entry

theorem Entry.meant_settled {entry : Entry} (h : entry.Meant) : entry.settled.Meant := by
  rcases h with h | h
  · exact .inl h
  · right
    rw [settled]
    simpa only [if_pos h] using h

theorem itemOf_names (entry : Entry) : ((itemOf entry).map Prod.fst).Nodup := by
  unfold itemOf
  cases entry.route with
  | none => split <;> simp
  | some route => split <;> simp

theorem itemOf_plain (entry : Entry) : ∀ m ∈ itemOf entry, m.2.Plain := by
  intro m hm
  rw [itemOf, List.mem_cons, List.mem_append, List.mem_map] at hm
  rcases hm with rfl | ⟨route, -, rfl⟩ | hm
  · trivial
  · trivial
  · split at hm
    · rw [List.mem_singleton.1 hm]
      trivial
    · cases hm

theorem optString_itemOf (entry : Entry) :
    AutoRoute.fromWire (Item.optString (itemOf entry) "route") = entry.route := by
  cases hroute : entry.route with
  | none =>
      have hempty : Item.optString (itemOf entry) "route" = [] := by
        by_cases hmark : 0 < entry.engineFailedAtMs <;>
          simp [Item.optString, itemOf, hroute, hmark, List.lookup_cons]
      rw [hempty, AutoRoute.fromWire_nil]
  | some route =>
      have hname : Item.optString (itemOf entry) "route" = route.wireName.toList := by
        by_cases hmark : 0 < entry.engineFailedAtMs <;>
          simp [Item.optString, itemOf, hroute, hmark, List.lookup_cons]
      rw [hname, AutoRoute.fromWire_wireName]

section Reading

variable (json : OrgJson)

theorem optLong_itemOf_at (entry : Entry) : Item.optLong json (itemOf entry) "at" = entry.atMs := by
  rw [Item.optLong, itemOf, List.lookup_cons_self]

/-- What a mark is read as behind other names. -/
theorem lookup_mark {at_ route mark : Text} (hat : (mark == at_) = false) (hroute : (mark == route) = false)
    (value : Value) (routes : List Value) (marks : List (Text × Value)) :
    List.lookup mark ((at_, value) :: (routes.map (fun v => (route, v)) ++ marks)) = marks.lookup mark := by
  rw [List.lookup_cons, hat]
  induction routes with
  | nil => rfl
  | cons v routes ih =>
      rw [List.map_cons, List.cons_append, List.lookup_cons, hroute]
      exact ih

theorem optLong_itemOf_engineFailedAt (entry : Entry) :
    Item.optLong json (itemOf entry) "engineFailedAt" = entry.settled.engineFailedAtMs := by
  have hfound : List.lookup "engineFailedAt".toList (itemOf entry) =
      if 0 < entry.engineFailedAtMs then some (.long entry.engineFailedAtMs) else none := by
    have hsplit := lookup_mark (by decide : ("engineFailedAt".toList == "at".toList) = false)
      (by decide : ("engineFailedAt".toList == "route".toList) = false) (.long entry.atMs)
      (entry.route.toList.map fun route => Value.text route.wireName.toList)
      (if 0 < entry.engineFailedAtMs then [("engineFailedAt".toList, .long entry.engineFailedAtMs)] else [])
    rw [List.map_map] at hsplit
    refine hsplit.trans ?_
    split
    · exact List.lookup_cons_self
    · rfl
  rw [Item.optLong, hfound]
  unfold Entry.settled
  by_cases hmark : 0 < entry.engineFailedAtMs
  · rw [if_pos hmark]
    exact (if_pos hmark).symm
  · rw [if_neg hmark]
    exact (if_neg hmark).symm

theorem Entry.settled_le_iff (entry : Entry) : entry.settled.engineFailedAtMs ≤ 0 ↔ ¬ 0 < entry.engineFailedAtMs := by
  by_cases hmark : 0 < entry.engineFailedAtMs
  · simp [Entry.settled, hmark, Int64.not_le.2 hmark]
  · simp [Entry.settled, hmark]

theorem entryOf_itemOf (entry : Entry) : entryOf json (itemOf entry) = entry.reread := by
  have hmeant : (entry.route = none ∧ ¬ 0 < entry.engineFailedAtMs) ↔ ¬ entry.Meant := by
    rw [Entry.Meant, not_or, not_not]
  rw [entryOf, Entry.reread]
  simp only [optString_itemOf, optLong_itemOf_at, optLong_itemOf_engineFailedAt, Entry.settled_le_iff, hmeant, ite_not]
  rfl

theorem not_blank_toText (doc : List (Text × Item)) : (toText doc).all isWhitespaceKotlin = false := by
  cases doc with
  | nil => rfl
  | cons m ms => rfl

/-- The networks touched last, as far as anything is known of them. -/
def settle (entries : LinkedMap Text Entry) : LinkedMap Text Entry :=
  (LinkedMap.newest Entry.touchedMs entries MAX_NETWORKS).filterMap Entry.reread

/-- What is read of a text that was written. -/
theorem decode_encode (entries : LinkedMap Text Entry) : decode json (some (encode entries)) = settle entries := by
  apply LinkedMap.ext
  rw [encode, settle]
  generalize LinkedMap.newest Entry.touchedMs entries MAX_NETWORKS = newest
  have hkeys : ((newest.entries.map fun e => (e.1, itemOf e.2)).map Prod.fst) = newest.entries.map Prod.fst := by
    rw [List.map_map]
    rfl
  have hwritten : Written (newest.entries.map fun e => (e.1, itemOf e.2)) := by
    refine ⟨hkeys ▸ newest.nodup, fun item hitem => ?_⟩
    obtain ⟨e, -, rfl⟩ := List.mem_map.1 hitem
    exact ⟨itemOf_names e.2, itemOf_plain e.2⟩
  rw [decode, if_neg (by simp [not_blank_toText]), json.parse_toText _ hwritten]
  simp only [List.filterMap_map, Function.comp_def, Option.bind_some, entryOf_itemOf]
  exact LinkedMap.entries_ofList (newest.filterMap Entry.reread).nodup

/-- What was written is read: the networks touched last, as far as anything is known of them. -/
theorem get_settle (entries : LinkedMap Text Entry) (network : Text) (entry : Entry) :
    (settle entries).get network = some entry ↔
      ∃ kept, (LinkedMap.newest Entry.touchedMs entries MAX_NETWORKS).get network = some kept ∧
        kept.Meant ∧ entry = kept.settled := by
  have hreread : ∀ kept : Entry, kept.reread = some entry ↔ kept.Meant ∧ entry = kept.settled := by
    intro kept
    rw [Entry.reread]
    split
    · next hmeant => simp [hmeant, eq_comm]
    · next hmeant => simp [hmeant]
  rw [settle, LinkedMap.get_filterMap]
  simp only [hreread]

theorem length_settle (entries : LinkedMap Text Entry) : (settle entries).entries.length ≤ MAX_NETWORKS :=
  (List.length_filterMap_le _ _).trans (LinkedMap.length_newest _ _)

end Reading

end RouteMemory
end AuroraVpn
