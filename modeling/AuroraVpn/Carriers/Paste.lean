import AuroraVpn.Carriers.Tor
import Mathlib.Data.List.Infix

/-!
# Paste — the bridges in a paste, and what tor is told of them

* `exact_iff_plain`: which pastes are read for their bridges and for nothing else.
* `torrc_exact`: a tor that was started with bridges is told of them, of their transport, and of nothing else.
-/

namespace AuroraVpn
namespace Carriers
namespace Paste

open TorBridges

/-- Kotlin's characters, with what is documented of them. -/
structure Characters extends Kotlin where
  ascii : ∀ c, c.isAlphanum = true → isLetterOrDigit c = true
  blank : ∀ c, isWhitespaceKotlin c = true → isLetterOrDigit c = false

/-! ## What a paste is -/

def KEYWORD : Text := "Bridge".toList

/-- A bridge, with what is written around it. -/
structure BridgeLine where
  indent : Text
  /-- The blanks behind the word Bridge, where it stands. -/
  led : Option Text
  transport : Text
  gap : Text
  host : Text
  port : Text
  /-- The fingerprint and the options. -/
  rest : Text
  trailing : Text
  indent_blank : ∀ c ∈ indent, isWhitespaceKotlin c = true
  led_blank : ∀ blanks ∈ led, blanks ≠ [] ∧ ∀ c ∈ blanks, isWhitespaceKotlin c = true
  transport_word : transport ≠ [] ∧ transport ≠ KEYWORD ∧ ∀ c ∈ transport, c.isAlphanum = true ∨ c = '_'
  gap_blank : gap ≠ [] ∧ ∀ c ∈ gap, isWhitespaceKotlin c = true
  host_word : host ≠ [] ∧ ∀ c ∈ host, isWhitespaceKotlin c = false
  port_word : port ≠ [] ∧ ∀ c ∈ port, c.isDigit = true
  rest_apart : ∀ c ∈ rest.head?, isWhitespaceKotlin c = true
  rest_ends : ∀ c ∈ rest.getLast?, isWhitespaceKotlin c = false
  trailing_blank : ∀ c ∈ trailing, isWhitespaceKotlin c = true

namespace BridgeLine

def address (b : BridgeLine) : Text :=
  b.host ++ ':' :: b.port

/-- The bridge itself, as it goes into a `torrc`. -/
def core (b : BridgeLine) : Text :=
  b.transport ++ b.gap ++ b.address ++ b.rest

def lead (b : BridgeLine) : Text :=
  match b.led with
  | some blanks => KEYWORD ++ blanks
  | none => []

def line (b : BridgeLine) : Text :=
  b.indent ++ (b.lead ++ b.core) ++ b.trailing

end BridgeLine

/-- A line of a paste: a bridge, or anything else. -/
inductive Item
  | bridge (b : BridgeLine)
  | other (line : Text) (h : ∀ b : BridgeLine, line ≠ b.line)

namespace Item

def line : Item → Text
  | bridge b => b.line
  | other line _ => line

def bridge? : Item → Option BridgeLine
  | bridge b => some b
  | other _ _ => none

end Item

end Paste

/-- A text, and what its lines are. -/
structure Paste where
  text : Text
  items : List Paste.Item
  lines_eq : lines text = items.map Paste.Item.line

namespace Paste

open TorBridges

def bridges (paste : Paste) : List BridgeLine :=
  paste.items.filterMap Item.bridge?

/-- The bridges of a paste are read from it, and nothing else. -/
def Exact (characters : Characters) (paste : Paste) : Prop :=
  parse characters.toKotlin paste.text = paste.bridges.map BridgeLine.core ∧
    transportOf (parse characters.toKotlin paste.text) = paste.bridges.head?.map BridgeLine.transport

/-- A bridge without the word in front of it, its address one space behind its transport and no other; or a line
that does not look like one. -/
def Item.Plain (characters : Characters) : Item → Prop
  | .bridge b => b.led = none ∧ ∃ blanks, b.gap = ' ' :: blanks ∧ ' ' ∉ blanks
  | .other line _ => isBridge characters.toKotlin (trimKotlin line) = false

/-! ## Words -/

section Words

variable {t first more : Text}

theorem words_append (h : ' ' ∉ first) (more : Text) : words (first ++ ' ' :: more) = first :: words more :=
  List.splitOnP_append_cons_of_forall_mem (fun _ hc => beq_eq_false_iff_ne.2 (ne_of_mem_of_not_mem hc h)) ' ' rfl more

theorem words_single (h : ' ' ∉ t) : words t = [t] :=
  List.splitOnP_eq_singleton fun _ hc => beq_eq_false_iff_ne.2 (ne_of_mem_of_not_mem hc h)

/-- The first word, and what stands behind the blank that ends it. -/
theorem words_cases (t : Text) : (' ' ∉ t ∧ words t = [t]) ∨
    ∃ first more, t = first ++ ' ' :: more ∧ ' ' ∉ first ∧ words t = first :: words more := by
  by_cases h : ' ' ∈ t
  · obtain ⟨first, more, rfl, hfirst⟩ := List.eq_append_cons_of_mem h
    exact .inr ⟨first, more, rfl, hfirst, words_append hfirst more⟩
  · exact .inl ⟨h, words_single h⟩

theorem head_words (t : Text) : (words t).head? = some (t.takeWhile (· ≠ ' ')) := by
  rcases words_cases t with ⟨hnone, hwords⟩ | ⟨first, more, rfl, hfirst, hwords⟩
  · rw [hwords, List.takeWhile_eq_self_iff.2 fun c hc => by simpa using ne_of_mem_of_not_mem hc hnone]
    rfl
  · rw [hwords, List.takeWhile_append_of_pos fun c hc => by simpa using ne_of_mem_of_not_mem hc hfirst]
    simp

end Words

/-! ## What looks like a bridge -/

section Looks

variable {characters : Characters}

theorem isBridge_append {first more : Text} (hfirst : ' ' ∉ first) :
    isBridge characters.toKotlin (first ++ ' ' :: more) = true ↔
      (first ++ ' ' :: more).head? ≠ some '#' ∧
        (∀ c ∈ first, characters.isLetterOrDigit c = true ∨ c = '_') ∧ ':' ∈ more.takeWhile (· ≠ ' ') := by
  -- the one mark of a comment is a `#` in front
  have hhash : "#".toList.isPrefixOf (first ++ ' ' :: more) = true ↔ (first ++ ' ' :: more).head? = some '#' := by
    cases first with
    | nil => simp
    | cons c first => simpa using eq_comm
  -- behind the first word stands another, so the address is the second
  obtain ⟨second, tail, hmore⟩ : ∃ second tail, words more = second :: tail := by
    rcases words_cases more with ⟨-, hwords⟩ | ⟨second, tail, -, -, hwords⟩
    · exact ⟨_, _, hwords⟩
    · exact ⟨_, _, hwords⟩
  have hsecond : second = more.takeWhile (· ≠ ' ') := by
    have hhead := head_words more
    rw [hmore] at hhead
    exact Option.some.inj hhead
  unfold isBridge
  rw [words_append hfirst, hmore]
  by_cases hcomment : (first ++ ' ' :: more).head? = some '#'
  · rw [if_pos (.inr (hhash.2 hcomment))]
    simp [hcomment]
  · rw [if_neg (by simp only [not_or]; exact ⟨by simp, fun h => hcomment (hhash.1 h)⟩)]
    rw [← hsecond, and_iff_right hcomment]
    simp

theorem isBridge_single {t : Text} (h : ' ' ∉ t) : isBridge characters.toKotlin t = false := by
  unfold isBridge
  rw [words_single h]
  split_ifs <;> rfl

/-- A line that looks like a bridge has a second word. -/
theorem eq_of_isBridge {t : Text} (h : isBridge characters.toKotlin t = true) :
    ∃ first more, t = first ++ ' ' :: more ∧ ' ' ∉ first ∧ words t = first :: words more := by
  rcases words_cases t with ⟨hnone, -⟩ | hsome
  · rw [isBridge_single hnone] at h
    cases h
  · exact hsome

namespace BridgeLine

variable (b : BridgeLine)

theorem isWhitespaceKotlin_name {c : Char} (h : c.isAlphanum = true ∨ c = '_') : isWhitespaceKotlin c = false := by
  rcases h with h | rfl
  · delta Char.isAlphanum Char.isAlpha Char.isUpper Char.isLower Char.isDigit at h
    simp only [Bool.or_eq_true, Bool.and_eq_true, decide_eq_true_eq, ge_iff_le, UInt32.le_iff_toNat_le] at h
    simp only [isWhitespaceKotlin, Bool.or_eq_false_iff, Bool.and_eq_false_iff, decide_eq_false_iff_not]
    simp only [show ∀ c : Char, c.val.toNat = c.toNat from fun _ => rfl] at h
    simp at h
    omega
  · decide

theorem space_not_mem_transport : ' ' ∉ b.transport := fun h =>
  absurd (isWhitespaceKotlin_name (b.transport_word.2.2 _ h)) (by decide)

theorem isWhitespaceKotlin_address {c : Char} (h : c ∈ b.address) : isWhitespaceKotlin c = false := by
  unfold address at h
  simp only [List.mem_append, List.mem_cons] at h
  rcases h with h | rfl | h
  · exact b.host_word.2 c h
  · decide
  · exact isWhitespaceKotlin_name (.inl (by simp [Char.isAlphanum, b.port_word.2 c h]))

theorem space_not_mem_address : ' ' ∉ b.address := fun h =>
  absurd (b.isWhitespaceKotlin_address h) (by decide)

theorem colon_not_blank {t : Text} (h : ∀ c ∈ t, isWhitespaceKotlin c = true) : ':' ∉ t := fun hmem =>
  absurd (h _ hmem) (by decide)

/-- What a bridge begins with is no blank, nor does it begin a comment. -/
theorem head_core : ∃ c s, b.core = c :: s ∧ isWhitespaceKotlin c = false ∧ c ≠ '#' := by
  obtain ⟨c, s, hcons⟩ := List.exists_cons_of_ne_nil b.transport_word.1
  have hc := b.transport_word.2.2 c (hcons ▸ List.mem_cons_self)
  refine ⟨c, s ++ b.gap ++ b.address ++ b.rest, ?_, isWhitespaceKotlin_name hc, ?_⟩
  · rw [core, hcons]
    rfl
  · rintro rfl
    exact absurd hc (by decide)

theorem getLast_core : ∃ s c, b.core = s ++ [c] ∧ isWhitespaceKotlin c = false := by
  rcases List.eq_nil_or_concat b.rest with hnil | ⟨s, c, hrest⟩
  · rcases List.eq_nil_or_concat b.port with hport | ⟨s, c, hport⟩
    · exact absurd hport b.port_word.1
    · refine ⟨b.transport ++ b.gap ++ (b.host ++ ':' :: s), c, ?_, ?_⟩
      · unfold core address
        rw [hnil, hport]
        simp
      · have hdigit := b.port_word.2 c (by rw [hport]; simp)
        exact isWhitespaceKotlin_name (.inl (by simp [Char.isAlphanum, hdigit]))
  · refine ⟨b.transport ++ b.gap ++ b.address ++ s, c, ?_, b.rest_ends c (by rw [hrest]; simp)⟩
    unfold core
    rw [hrest]
    simp

/-- **What a bridge looks like**: one space and no other stands between its transport and its address. -/
theorem isBridge_core : isBridge characters.toKotlin b.core = true ↔
    ∃ blanks, b.gap = ' ' :: blanks ∧ ' ' ∉ blanks := by
  obtain ⟨hsome, hgap⟩ := b.gap_blank
  obtain ⟨c, blanks, hcons⟩ := List.exists_cons_of_ne_nil hsome
  by_cases hc : c = ' '
  · subst hc
    have hshape : b.core = b.transport ++ ' ' :: (blanks ++ b.address ++ b.rest) := by
      unfold core
      rw [hcons]
      simp
    obtain ⟨d, s, hhead, -, hne⟩ := b.head_core
    have hbegins : (b.transport ++ ' ' :: (blanks ++ b.address ++ b.rest)).head? ≠ some '#' := by
      rw [← hshape, hhead]
      simpa using hne
    have hletters : ∀ c ∈ b.transport, characters.isLetterOrDigit c = true ∨ c = '_' := fun c h =>
      (b.transport_word.2.2 c h).imp_left (characters.ascii c)
    rw [hshape, isBridge_append b.space_not_mem_transport, hcons]
    constructor
    · rintro ⟨-, -, hcolon⟩
      refine ⟨blanks, rfl, fun hspace => ?_⟩
      -- the second word ends among the blanks
      obtain ⟨front, back, rfl, hfront⟩ := List.eq_append_cons_of_mem hspace
      have htake : (front ++ ' ' :: back ++ b.address ++ b.rest).takeWhile (· ≠ ' ') = front := by
        rw [List.append_assoc, List.append_assoc,
          List.takeWhile_append_of_pos fun c hc => by simpa using ne_of_mem_of_not_mem hc hfront]
        simp
      rw [htake] at hcolon
      refine colon_not_blank (fun c hc => hgap c ?_) hcolon
      rw [hcons]
      simp [hc]
    · rintro ⟨blanks', heq, hspace⟩
      obtain rfl := (List.cons.inj heq).2
      refine ⟨hbegins, hletters, ?_⟩
      rw [List.takeWhile_append_of_pos]
      · refine List.mem_append_left _ (List.mem_append_right _ ?_)
        simp [address]
      · intro c hc
        rcases List.mem_append.1 hc with hc | hc
        · simpa using ne_of_mem_of_not_mem hc hspace
        · simpa using ne_of_mem_of_not_mem hc b.space_not_mem_address
  · refine iff_of_false (fun h => ?_) ?_
    · obtain ⟨first, more, hshape, hfirst, -⟩ := eq_of_isBridge h
      rw [hshape, isBridge_append hfirst] at h
      -- the blank that stands behind the transport belongs to the first word
      have hmem : c ∈ first := by
        have hcore : b.transport ++ c :: (blanks ++ b.address ++ b.rest) = first ++ ' ' :: more := by
          rw [← hshape, core, hcons]
          simp
        rcases List.append_eq_append_iff.1 hcore with ⟨mid, hleft, hright⟩ | ⟨mid, hleft, hright⟩
        · cases mid with
          | nil => exact absurd (List.cons.inj hright).1 hc
          | cons d mid =>
              rw [hleft, ← (List.cons.inj hright).1]
              simp
        · cases mid with
          | nil => exact absurd (List.cons.inj hright).1.symm hc
          | cons d mid =>
              refine absurd ?_ b.space_not_mem_transport
              rw [hleft, (List.cons.inj hright).1]
              simp
      have hblank := hgap c (by rw [hcons]; exact List.mem_cons_self)
      rcases h.2.1 c hmem with hletter | rfl
      · rw [characters.blank c hblank] at hletter
        cases hletter
      · exact absurd hblank (by decide)
    · rintro ⟨blanks', heq, -⟩
      rw [hcons] at heq
      exact hc (List.cons.inj heq).1

/-- What a bridge is told of its transport by. -/
theorem head_words_core (h : ∃ blanks, b.gap = ' ' :: blanks ∧ ' ' ∉ blanks) :
    (words b.core).head? = some b.transport := by
  obtain ⟨blanks, hgap, -⟩ := h
  have hshape : b.core = b.transport ++ ' ' :: (blanks ++ b.address ++ b.rest) := by
    unfold core
    rw [hgap]
    simp
  rw [hshape, words_append b.space_not_mem_transport]
  rfl

end BridgeLine

end Looks

/-! ## What is around it -/

section Around

theorem trimKotlin_around {indent t trailing : Text} (hindent : ∀ c ∈ indent, isWhitespaceKotlin c = true)
    (htrailing : ∀ c ∈ trailing, isWhitespaceKotlin c = true)
    (hhead : ∃ c s, t = c :: s ∧ isWhitespaceKotlin c = false)
    (hlast : ∃ s c, t = s ++ [c] ∧ isWhitespaceKotlin c = false) : trimKotlin (indent ++ t ++ trailing) = t := by
  have hfront : (indent ++ t ++ trailing).dropWhile isWhitespaceKotlin = t ++ trailing := by
    obtain ⟨c, s, rfl, hc⟩ := hhead
    rw [List.append_assoc, List.dropWhile_append_of_pos hindent]
    exact List.dropWhile_cons_of_neg (by simp [hc])
  have hback : (trailing.reverse ++ t.reverse).dropWhile isWhitespaceKotlin = t.reverse := by
    obtain ⟨s, c, rfl, hc⟩ := hlast
    rw [List.dropWhile_append_of_pos fun c hc => htrailing c (List.mem_reverse.1 hc), List.reverse_append]
    exact List.dropWhile_cons_of_neg (by simp [hc])
  unfold trimKotlin trimBy
  rw [hfront, List.reverse_append, hback, List.reverse_reverse]

/-- A text is what is left of it between blanks. -/
theorem eq_around_trimKotlin (t : Text) : ∃ indent trailing, t = indent ++ trimKotlin t ++ trailing ∧
    (∀ c ∈ indent, isWhitespaceKotlin c = true) ∧ ∀ c ∈ trailing, isWhitespaceKotlin c = true := by
  refine ⟨t.takeWhile isWhitespaceKotlin,
    ((t.dropWhile isWhitespaceKotlin).reverse.takeWhile isWhitespaceKotlin).reverse, ?_, ?_, ?_⟩
  · unfold trimKotlin trimBy
    rw [List.append_assoc, ← List.reverse_append, List.takeWhile_append_dropWhile, List.reverse_reverse,
      List.takeWhile_append_dropWhile]
  · exact fun c hc => List.mem_takeWhile_imp hc
  · exact fun c hc => List.mem_takeWhile_imp (List.mem_reverse.1 hc)

namespace BridgeLine

variable (b : BridgeLine)

theorem trim_line : trimKotlin b.line = b.lead ++ b.core := by
  obtain ⟨s, last, hlast, hlastblank⟩ := b.getLast_core
  refine trimKotlin_around b.indent_blank b.trailing_blank ?_ ⟨b.lead ++ s, last, by simp [hlast], hlastblank⟩
  cases hled : b.led with
  | none =>
      obtain ⟨c, s, hcore, hc, -⟩ := b.head_core
      exact ⟨c, s, by simp [lead, hled, hcore], hc⟩
  | some blanks =>
      have hkeyword : KEYWORD = 'B' :: "ridge".toList := by decide
      exact ⟨'B', "ridge".toList ++ blanks ++ b.core, by simp only [lead, hled, hkeyword, List.cons_append], by decide⟩

/-- What is left of a line without its blanks is a bridge only where the line is one. -/
theorem eq_line_of_trim {line : Text} (h : trimKotlin line = b.core) : ∃ b' : BridgeLine, line = b'.line := by
  obtain ⟨indent, trailing, heq, hindent, htrailing⟩ := eq_around_trimKotlin line
  refine ⟨{ b with
    indent := indent
    led := none
    trailing := trailing
    indent_blank := hindent
    led_blank := nofun
    trailing_blank := htrailing }, ?_⟩
  rw [heq, h]
  rfl

end BridgeLine

end Around

/-! ## What is read of a paste -/

section Reading

variable {characters : Characters} {paste : Paste}

/-- What is read of a line. -/
def kept (characters : Characters) (item : Item) : List Text :=
  [trimKotlin item.line].filter (isBridge characters.toKotlin)

theorem parse_eq (characters : Characters) (paste : Paste) :
    parse characters.toKotlin paste.text = paste.items.flatMap (kept characters) := by
  unfold parse
  rw [paste.lines_eq, List.map_map, List.map_eq_flatMap, List.filter_flatMap]
  rfl

theorem kept_of_plain {item : Item} (h : item.Plain characters) :
    kept characters item = (item.bridge?.map BridgeLine.core).toList := by
  unfold kept
  cases item with
  | bridge b =>
      obtain ⟨hled, hgap⟩ := h
      have hlead : b.lead ++ b.core = b.core := by simp [BridgeLine.lead, hled]
      rw [List.filter_singleton, Item.line, b.trim_line, hlead, b.isBridge_core.2 hgap]
      rfl
  | other line _ =>
      rw [List.filter_singleton, Item.line, show isBridge characters.toKotlin (trimKotlin line) = false from h]
      rfl

theorem filterMap_bridge? (items : List Item) : (items.filterMap Item.bridge?).map BridgeLine.core =
    items.flatMap fun item => (item.bridge?.map BridgeLine.core).toList := by
  induction items with
  | nil => rfl
  | cons item items ih => cases item <;> simp_all [List.filterMap_cons, Item.bridge?]

theorem flatMap_kept {items : List Item} (h : ∀ item ∈ items, item.Plain characters) :
    items.flatMap (kept characters) = (items.filterMap Item.bridge?).map BridgeLine.core := by
  rw [filterMap_bridge?]
  exact List.flatMap_congr fun item hitem => kept_of_plain (h item hitem)

/-- Of a line that is no bridge, nothing that is one is left. -/
theorem not_core_of_other {line : Text} (h : ∀ b : BridgeLine, line ≠ b.line) (b : BridgeLine) :
    trimKotlin line ≠ b.core := fun heq =>
  (b.eq_line_of_trim heq).elim fun b' hline => h b' hline

/-- No more is read than there are bridges, where only bridges are. -/
theorem length_kept_le {items : List Item}
    (h : ∀ t ∈ items.flatMap (kept characters), ∃ b : BridgeLine, t = b.core) :
    (items.flatMap (kept characters)).length ≤ (items.filterMap Item.bridge?).length := by
  induction items with
  | nil => exact Nat.le_refl 0
  | cons item items ih =>
      have hrest := ih fun t ht => h t (by rw [List.flatMap_cons]; exact List.mem_append_right _ ht)
      rw [List.flatMap_cons, List.length_append]
      cases item with
      | bridge b =>
          have hone : (kept characters (.bridge b)).length ≤ 1 := List.length_filter_le _ _
          rw [List.filterMap_cons_some (show Item.bridge? (.bridge b) = some b from rfl), List.length_cons]
          omega
      | other line hline =>
          have hnone : kept characters (.other line hline) = [] := by
            refine List.eq_nil_iff_forall_not_mem.2 fun t ht => ?_
            obtain ⟨b, hb⟩ := h t (by rw [List.flatMap_cons]; exact List.mem_append_left _ ht)
            have htrim := List.mem_singleton.1 (List.mem_filter.1 ht).1
            exact not_core_of_other hline b (htrim.symm.trans hb)
          rw [List.filterMap_cons_none (show Item.bridge? (.other line hline) = none from rfl), hnone]
          simpa using hrest

theorem plain_of_kept {items : List Item}
    (h : items.flatMap (kept characters) = (items.filterMap Item.bridge?).map BridgeLine.core) :
    ∀ item ∈ items, item.Plain characters := by
  induction items with
  | nil => exact nofun
  | cons item items ih =>
      have hcores : ∀ t ∈ (item :: items).flatMap (kept characters), ∃ b : BridgeLine, t = b.core := by
        intro t ht
        rw [h] at ht
        obtain ⟨b, -, rfl⟩ := List.mem_map.1 ht
        exact ⟨b, rfl⟩
      have hrest := length_kept_le fun t ht =>
        hcores t (by rw [List.flatMap_cons]; exact List.mem_append_right _ ht)
      rw [List.flatMap_cons] at h
      cases item with
      | other line hline =>
          have hlooks : isBridge characters.toKotlin (trimKotlin line) = false := by
            refine Bool.eq_false_iff.2 fun htrue => ?_
            obtain ⟨b, hb⟩ := hcores (trimKotlin line) (by
              rw [List.flatMap_cons]
              exact List.mem_append_left _ (List.mem_filter.2 ⟨List.mem_singleton_self _, htrue⟩))
            exact not_core_of_other hline b hb
          have hkept : kept characters (.other line hline) = [] := by
            unfold kept
            rw [List.filter_singleton, Item.line, hlooks]
            rfl
          rw [hkept, List.filterMap_cons_none (show Item.bridge? (.other line hline) = none from rfl)] at h
          intro item hitem
          rcases List.mem_cons.1 hitem with rfl | hitem
          · exact hlooks
          · exact ih h item hitem
      | bridge b =>
          rw [List.filterMap_cons_some (show Item.bridge? (.bridge b) = some b from rfl), List.map_cons] at h
          have hline : trimKotlin (Item.bridge b).line = b.lead ++ b.core := b.trim_line
          unfold kept at h
          rw [List.filter_singleton, hline] at h
          cases hlooks : isBridge characters.toKotlin (b.lead ++ b.core) with
          | false =>
              -- a bridge that is dropped is missing behind it
              rw [hlooks] at h
              have hlength := congrArg List.length h
              rw [List.length_cons, List.length_map] at hlength
              change (items.flatMap (kept characters)).length = _ at hlength
              omega
          | true =>
              rw [hlooks] at h
              obtain ⟨hhead, htail⟩ := List.cons.inj h
              have hled : b.led = none := by
                cases hled : b.led with
                | none => rfl
                | some blanks =>
                    have hlength := congrArg List.length hhead
                    have hkeyword : KEYWORD.length = 6 := rfl
                    simp only [BridgeLine.lead, hled, List.length_append, hkeyword] at hlength
                    omega
              rw [hhead] at hlooks
              intro item hitem
              rcases List.mem_cons.1 hitem with rfl | hitem
              · exact ⟨hled, b.isBridge_core.1 hlooks⟩
              · exact ih htail item hitem

/-- **Which pastes are read for their bridges and for nothing else.** -/
theorem exact_iff_plain : paste.Exact characters ↔ ∀ item ∈ paste.items, item.Plain characters := by
  unfold Exact
  rw [parse_eq]
  constructor
  -- what was parsed decides what each item was
  · rintro ⟨hparse, -⟩
    exact plain_of_kept hparse
  -- the other way, a plain item gives its own line and no other
  · intro h
    have hparse := flatMap_kept h
    refine ⟨hparse, ?_⟩
    rw [hparse]
    change transportOf (paste.bridges.map BridgeLine.core) = _
    cases hbridges : paste.bridges with
    | nil => rfl
    | cons b rest =>
        have hmem : b ∈ paste.items.filterMap Item.bridge? := by
          change b ∈ paste.bridges
          rw [hbridges]
          exact List.mem_cons_self
        obtain ⟨item, hitem, hb⟩ := List.mem_filterMap.1 hmem
        have hplain := h item hitem
        cases item with
        | other => cases hb
        | bridge b' =>
            cases hb
            unfold transportOf
            -- the transport is read off the first bridge that was kept
            rw [List.map_cons, List.head?_cons, Option.bind_some, b.head_words_core hplain.2, Option.filter_some]
            obtain ⟨c, s, hcons⟩ := List.exists_cons_of_ne_nil b.transport_word.1
            have hc := BridgeLine.isWhitespaceKotlin_name (b.transport_word.2.2 c (hcons ▸ List.mem_cons_self))
            rw [if_pos (by rw [hcons]; simp [hc])]
            rfl

end Reading

/-! ## What tor is told -/

open TorConfig TorCarrierService

section Torrc

variable {kotlin : Kotlin}

/-- The bridges that a mode has. -/
def offered (kotlin : Kotlin) (bridge : TorBridge) (custom : Text) : List Text :=
  match bridge with
  | .none => []
  | .obfs4 => DEFAULT_OBFS4
  | .snowflake => [DEFAULT_SNOWFLAKE]
  | .custom => parse kotlin custom

/-- Those of them whose first word is the name of a transport. -/
def ofTransport (name : Text) (lines : List Text) : List Text :=
  lines.filter fun line => (words line).head? = some name

/-- The lines of a `torrc` that begin with a word. -/
def told (word : String) (torrc : List Text) : List Text :=
  torrc.filter fun line => word.toList.isPrefixOf line

/-- Tor is told to use bridges, which, and what their transport listens on; and of no others. -/
structure TorrcExact (bridges : List Text) (transport : Transport) (torrc : List Text) : Prop where
  some : bridges ≠ []
  uses : told "UseBridges " torrc = ["UseBridges 1".toList]
  plugin : told "ClientTransportPlugin " torrc =
    ["ClientTransportPlugin ".toList ++ transport.name ++ " socks5 ".toList ++ transport.listening]
  lines : told "Bridge " torrc = bridges.map ("Bridge ".toList ++ ·)

theorem prefix_word_iff {name first more : Text} (hname : ' ' ∉ name) (hfirst : ' ' ∉ first) :
    (name ++ [' ']).isPrefixOf (first ++ ' ' :: more) = true ↔ first = name := by
  have htake : ∀ {t : Text} (s : Text), ' ' ∉ t → (t ++ ' ' :: s).takeWhile (· ≠ ' ') = t := by
    intro t s ht
    rw [List.takeWhile_append_of_pos fun c hc => by simpa using ne_of_mem_of_not_mem hc ht]
    simp
  rw [List.isPrefixOf_iff_prefix]
  constructor
  · rintro ⟨s, hs⟩
    rw [List.append_assoc, List.singleton_append] at hs
    rw [← htake more hfirst, ← hs, htake s hname]
  · rintro rfl
    exact ⟨more, by simp⟩

theorem not_mem_of_head_words {t name : Text} (h : (words t).head? = some name) : ' ' ∉ name := by
  rw [head_words] at h
  obtain rfl := Option.some.inj h
  exact fun hmem => absurd (List.mem_takeWhile_imp hmem) (by decide)

/-- The lines that are taken for a transport are those that name it. -/
theorem forTransport_eq {name : Text} (hname : ' ' ∉ name) (custom : Text) :
    forTransport (parse kotlin custom) name = ofTransport name (parse kotlin custom) := by
  refine List.filter_congr fun line hline => ?_
  have hlooks := (List.mem_filter.1 hline).2
  obtain ⟨first, more, rfl, hfirst, hwords⟩ : ∃ first more, line = first ++ ' ' :: more ∧ ' ' ∉ first ∧
      words line = first :: words more := by
    rcases words_cases line with ⟨hnone, hwords⟩ | hsome
    · unfold isBridge at hlooks
      rw [hwords] at hlooks
      split_ifs at hlooks
    · exact hsome
  rw [hwords, Bool.eq_iff_iff, prefix_word_iff hname hfirst]
  simp

/-- A line that begins with a literal. -/
theorem head_words_literal {s : String} {name : Text} (hs : ∃ rest, s = String.ofList (name ++ ' ' :: rest))
    (hname : ' ' ∉ name) (more : Text) : (words (s.toList ++ more)).head? = some name := by
  obtain ⟨rest, hs⟩ := hs
  rw [hs, String.toList_ofList, List.append_assoc, List.cons_append, words_append hname]
  rfl

/-- The bridges that are shipped name their transport. -/
theorem ofTransport_shipped : ofTransport "obfs4".toList DEFAULT_OBFS4 = DEFAULT_OBFS4 ∧
    ofTransport "snowflake".toList [DEFAULT_SNOWFLAKE] = [DEFAULT_SNOWFLAKE] := by
  have hobfs4 : "obfs4".toList = ['o', 'b', 'f', 's', '4'] := by decide
  have hsnowflake : "snowflake".toList = ['s', 'n', 'o', 'w', 'f', 'l', 'a', 'k', 'e'] := by decide
  unfold ofTransport DEFAULT_OBFS4 DEFAULT_SNOWFLAKE
  simp only [List.filter_eq_self, hobfs4, hsnowflake, List.forall_mem_cons, decide_eq_true_eq,
    String.toList_append, List.append_assoc, -String.reduceAppend]
  have hspace : ' ' ∉ ['o', 'b', 'f', 's', '4'] := by decide
  constructor
  · refine ⟨head_words_literal ?_ hspace _, head_words_literal ?_ hspace _, head_words_literal ?_ hspace _,
      head_words_literal ?_ hspace _, head_words_literal ?_ hspace _, head_words_literal ?_ hspace _, nofun⟩
    all_goals exact ⟨_, rfl⟩
  · exact ⟨head_words_literal (by exact ⟨_, rfl⟩) (by decide) _, nofun⟩

/-- A mode that was not refused has bridges, all of the transport that it names. -/
theorem bridgeLines_eq {bridge : TorBridge} {custom name : Text}
    (hname : transportName kotlin bridge custom = some name) :
    bridgeLines kotlin bridge custom = ofTransport name (offered kotlin bridge custom) ∧
      bridgeLines kotlin bridge custom ≠ [] := by
  -- the shipped lines are of one transport each; what was pasted is cut down to one
  cases bridge with
  | none => cases hname
  | obfs4 =>
      cases hname
      exact ⟨ofTransport_shipped.1.symm, List.cons_ne_nil _ _⟩
  | snowflake =>
      cases hname
      exact ⟨ofTransport_shipped.2.symm, List.cons_ne_nil _ _⟩
  | custom =>
      have htransport : transportOf (parse kotlin custom) = some name := hname
      obtain ⟨hhead, -⟩ := Option.filter_eq_some_iff.1 htransport
      obtain ⟨line, hline, hword⟩ := Option.bind_eq_some_iff.1 hhead
      have hlines : bridgeLines kotlin .custom custom = forTransport (parse kotlin custom) name := by
        unfold bridgeLines
        dsimp only
        rw [htransport]
      rw [hlines, forTransport_eq (not_mem_of_head_words hword)]
      refine ⟨rfl, List.ne_nil_of_mem (a := line) (List.mem_filter.2 ⟨?_, by simpa using hword⟩)⟩
      exact List.mem_of_mem_head? (Option.mem_def.2 hline)

theorem told_render {bridge : TorBridge} {custom name : Text} {exitCountry : Option Text} {upstreamPort : UInt16}
    {transport : Transport} (hname : transportName kotlin bridge custom = some name)
    (hsame : transport.name = name) :
    TorrcExact (bridgeLines kotlin bridge custom) transport
      (render kotlin bridge exitCountry (some transport.listening) custom upstreamPort) := by
  obtain ⟨-, hsome⟩ := bridgeLines_eq hname
  have hmode : bridgeModeLines (transportName kotlin bridge custom) (some transport.listening)
      (bridgeLines kotlin bridge custom) =
        ("ClientTransportPlugin ".toList ++ transport.name ++ " socks5 ".toList ++ transport.listening) ::
          "UseBridges 1".toList :: (bridgeLines kotlin bridge custom).map ("Bridge ".toList ++ ·) := by
    rw [hname, hsame]
    exact if_neg hsome
  -- the other lines begin with other words
  have hrest : ∀ word ∈ ["UseBridges ", "ClientTransportPlugin ", "Bridge "], told word fixedLines = [] ∧
      told word (upstreamLines upstreamPort) = [] ∧ told word (exitLines (countryOf kotlin exitCountry)) = [] := by
    intro word hword
    have hcountry : ∀ country, told word (exitLines country) = [] := by
      intro country
      simp only [List.mem_cons, List.not_mem_nil, or_false] at hword
      rcases hword with rfl | rfl | rfl <;> cases country <;> rfl
    have hupstream : told word (upstreamLines upstreamPort) = [] := by
      simp only [List.mem_cons, List.not_mem_nil, or_false] at hword
      unfold upstreamLines
      rcases hword with rfl | rfl | rfl <;> split <;> rfl
    refine ⟨?_, hupstream, hcountry _⟩
    simp only [List.mem_cons, List.not_mem_nil, or_false] at hword
    rcases hword with rfl | rfl | rfl <;> rfl
  have htold : ∀ word ∈ ["UseBridges ", "ClientTransportPlugin ", "Bridge "],
      told word (render kotlin bridge exitCountry (some transport.listening) custom upstreamPort) =
        told word (bridgeModeLines (transportName kotlin bridge custom) (some transport.listening)
          (bridgeLines kotlin bridge custom)) := by
    intro word hword
    obtain ⟨hfixed, hupstream, hexit⟩ := hrest word hword
    unfold told at *
    rw [render, List.filter_append, List.filter_append, List.filter_append, hfixed, hupstream, hexit]
    simp
  have hothers : ∀ lines : List Text, told "UseBridges " (lines.map ("Bridge ".toList ++ ·)) = [] ∧
      told "ClientTransportPlugin " (lines.map ("Bridge ".toList ++ ·)) = [] ∧
      told "Bridge " (lines.map ("Bridge ".toList ++ ·)) = lines.map ("Bridge ".toList ++ ·) := by
    intro lines
    unfold told
    refine ⟨?_, ?_, ?_⟩
    · refine List.filter_eq_nil_iff.2 fun line hline => ?_
      obtain ⟨t, -, rfl⟩ := List.mem_map.1 hline
      exact Bool.false_ne_true
    · refine List.filter_eq_nil_iff.2 fun line hline => ?_
      obtain ⟨t, -, rfl⟩ := List.mem_map.1 hline
      exact Bool.false_ne_true
    · refine List.filter_eq_self.2 fun line hline => ?_
      obtain ⟨t, -, rfl⟩ := List.mem_map.1 hline
      exact List.isPrefixOf_iff_prefix.2 (List.prefix_append _ _)
  obtain ⟨huses, hplugin, hlines⟩ := hothers (bridgeLines kotlin bridge custom)
  refine ⟨hsome, ?_, ?_, ?_⟩
  · rw [htold _ (by decide), hmode]
    exact congrArg ("UseBridges 1".toList :: ·) huses
  · rw [htold _ (by decide), hmode]
    have hfirst : "ClientTransportPlugin ".toList.isPrefixOf
        ("ClientTransportPlugin ".toList ++ transport.name ++ " socks5 ".toList ++ transport.listening) = true := by
      rw [List.append_assoc, List.append_assoc]
      exact List.isPrefixOf_iff_prefix.2 (List.prefix_append _ _)
    unfold told at *
    rw [List.filter_cons_of_pos hfirst, List.filter_cons_of_neg (by decide), hplugin]
  · rw [htold _ (by decide), hmode]
    exact hlines

/-- **A tor that was started with bridges** is told of them, of the transport that was started for them, and of
nothing else. -/
theorem torrc_exact {device : Device} {bridge : TorBridge} {exitCountry : Option Text} {custom : Text}
    {upstreamPort : UInt16} {running : Running} (hbridge : bridge ≠ .none)
    (h : start kotlin device bridge exitCountry custom upstreamPort = .ok running) :
    ∃ transport, running.transport = some transport ∧ transportName kotlin bridge custom = some transport.name ∧
      Offers device transport.name transport.listening ∧
      TorrcExact (ofTransport transport.name (offered kotlin bridge custom)) transport running.torrc ∧
      device.writeTorrc running.torrc = .ok () := by
  obtain ⟨hrefusal, htransport, htorrc, hwrite⟩ := start_eq_ok.1 h
  -- the modes that ship bridges name their transport; a pasted mode without one was refused
  obtain ⟨name, hname⟩ : ∃ name, transportName kotlin bridge custom = some name := by
    cases bridge with
    | none => exact absurd rfl hbridge
    | obfs4 => exact ⟨_, rfl⟩
    | snowflake => exact ⟨_, rfl⟩
    | custom =>
        refine Option.ne_none_iff_exists'.1 fun hnone => ?_
        unfold refusal at hrefusal
        rw [if_neg (by simp), hnone, if_pos rfl] at hrefusal
        split_ifs at hrefusal
  rw [hname, startTransport_eq_ok] at htransport
  obtain ⟨listening, hoffers, hrunning⟩ := htransport
  refine ⟨_, hrunning, hname, hoffers, ?_, hwrite⟩
  -- tor is told what the paste offers of the transport that runs
  rw [← (bridgeLines_eq hname).1, htorrc, hrunning]
  exact told_render hname rfl

/-- The bridges of a paste that name a transport, among those that are read from it. -/
theorem ofTransport_cores {characters : Characters} {items : List Item} (h : ∀ item ∈ items, item.Plain characters)
    (name : Text) : ofTransport name ((items.filterMap Item.bridge?).map BridgeLine.core) =
      ((items.filterMap Item.bridge?).filter fun b => b.transport = name).map BridgeLine.core := by
  unfold ofTransport
  rw [List.filter_map]
  refine congrArg _ (List.filter_congr fun b hb => ?_)
  obtain ⟨item, hitem, hsome⟩ := List.mem_filterMap.1 hb
  have hplain := h item hitem
  cases item with
  | other => cases hsome
  | bridge b' =>
      cases hsome
      rw [Function.comp_apply, b.head_words_core hplain.2]
      simp

/-- **Every bridge in a paste is used, and nothing else**: exactly where the bridges of it stand without the word in
front of them, their addresses one space behind their transports and no other, and no other line looks like one.
Whatever was read, a tor that is started with bridges is told of those of its transport. -/
theorem paste_exact_iff (characters : Characters) :
    (∀ paste : Paste, paste.Exact characters ↔ ∀ item ∈ paste.items, item.Plain characters) ∧
      (∀ (device : Device) (bridge : TorBridge) (exitCountry : Option Text) (custom : Text) (upstreamPort : UInt16)
        (running : Running), bridge ≠ .none →
        start characters.toKotlin device bridge exitCountry custom upstreamPort = .ok running →
        ∃ transport, running.transport = some transport ∧ Offers device transport.name transport.listening ∧
          TorrcExact (ofTransport transport.name (offered characters.toKotlin bridge custom)) transport running.torrc ∧
          device.writeTorrc running.torrc = .ok ()) ∧
      ∀ (paste : Paste) (device : Device) (exitCountry : Option Text) (upstreamPort : UInt16) (running : Running),
        (∀ item ∈ paste.items, item.Plain characters) →
        start characters.toKotlin device .custom exitCountry paste.text upstreamPort = .ok running →
        ∃ transport first, running.transport = some transport ∧ paste.bridges.head? = some first ∧
          transport.name = first.transport ∧
          TorrcExact ((paste.bridges.filter fun b => b.transport = first.transport).map BridgeLine.core) transport
            running.torrc := by
  refine ⟨fun paste => exact_iff_plain, ?_, ?_⟩
  -- the torrc of any start that was given bridges
  · intro device bridge exitCountry custom upstreamPort running hbridge hstart
    obtain ⟨transport, hrunning, -, hoffers, htorrc, hwrite⟩ := torrc_exact hbridge hstart
    exact ⟨transport, hrunning, hoffers, htorrc, hwrite⟩
  -- and of one that was given a plain paste: its first bridge names the transport
  · intro paste device exitCountry upstreamPort running hplain hstart
    obtain ⟨transport, hrunning, hname, -, htorrc, -⟩ := torrc_exact (by decide) hstart
    obtain ⟨hparse, hfirst⟩ := exact_iff_plain.2 hplain
    have hsome : paste.bridges.head?.map BridgeLine.transport = some transport.name := hfirst.symm.trans hname
    obtain ⟨first, hhead, hsame⟩ := Option.map_eq_some_iff.1 hsome
    refine ⟨transport, first, hrunning, hhead, hsame.symm, ?_⟩
    have hcores := ofTransport_cores hplain transport.name
    unfold offered at htorrc
    rw [hparse, bridges, hcores, ← hsame] at htorrc
    exact htorrc

/-- In a line with a bridge, a digit stands behind a colon. -/
theorem port_of_line (b : BridgeLine) :
    ∃ t ∈ b.line.tails, t.head? = some ':' ∧ ∃ c, t[1]? = some c ∧ c.isDigit = true := by
  obtain ⟨c, s, hport⟩ := List.exists_cons_of_ne_nil b.port_word.1
  refine ⟨':' :: (b.port ++ b.rest ++ b.trailing), ?_, rfl, c, ?_, b.port_word.2 c (hport ▸ List.mem_cons_self)⟩
  · rw [List.mem_tails]
    refine ⟨b.indent ++ b.lead ++ b.transport ++ b.gap ++ b.host, ?_⟩
    unfold BridgeLine.line BridgeLine.core BridgeLine.address
    simp
  · rw [hport]
    rfl

def asciiCharacters : Characters where
  isLetterOrDigit := Char.isAlphanum
  lowercase := List.map Char.toLower
  ascii _ h := h
  blank c h := by
    refine Bool.eq_false_iff.2 fun hname => ?_
    rw [BridgeLine.isWhitespaceKotlin_name (.inl hname)] at h
    cases h

/-- A greeting with a link in it. -/
def greeting : Text := "see https://bridges.torproject.org".toList

def greetingBridge : BridgeLine where
  indent := []
  led := none
  transport := "obfs4".toList
  gap := [' ']
  host := "192.0.2.7".toList
  port := "443".toList
  rest := []
  trailing := []
  indent_blank := by decide
  led_blank := nofun
  transport_word := by decide
  gap_blank := by decide
  host_word := by decide
  port_word := by decide
  rest_apart := nofun
  rest_ends := nofun
  trailing_blank := by decide

theorem greeting_no_bridge (b : BridgeLine) : greeting ≠ b.line := by
  intro heq
  obtain ⟨t, ht, hcolon, c, hc, hdigit⟩ := port_of_line b
  rw [← heq] at ht
  have hall : ∀ t ∈ greeting.tails, t.head? = some ':' → (t[1]?.any Char.isDigit) = false := by decide
  have hnone := hall t ht hcolon
  rw [hc] at hnone
  exact absurd hdigit (by simpa using hnone)

def greetingPaste : Paste where
  text := greeting ++ '\n' :: greetingBridge.line
  items := [.other greeting greeting_no_bridge, .bridge greetingBridge]
  lines_eq := by decide

/-- The greeting is taken for a bridge, and its first word for the transport. -/
theorem greeting_is_used : ¬ ∀ (characters : Characters) (paste : Paste), paste.Exact characters := by
  intro h
  have hplain := exact_iff_plain.1 (h asciiCharacters greetingPaste) _ List.mem_cons_self
  exact absurd hplain (by unfold Item.Plain; decide)

end Torrc

end Paste
end Carriers
end AuroraVpn
