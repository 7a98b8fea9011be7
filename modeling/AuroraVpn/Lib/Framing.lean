import Mathlib.Data.List.Basic

/-!
# Framing — incremental decoding of a stream of self-delimiting items

A decoder reads one item off the front of a buffer, or reports that the buffer does not hold a
whole item yet.  This file develops the two facts a receive path rests on:

* an item that decodes is decoded the same way when more input stands behind it
  (`Incremental.extend`), so a proper prefix of an encoded item never decodes;
* draining a buffer item by item keeps it in step with the list of encoded items the stream is
  made of (`drain_step`), even when the drain stops early on some items; it leaves no item behind
  exactly if no item but the last one stops it (`drain_exhausts_iff`).

Nothing here depends on what the items are.
-/

namespace AuroraVpn
namespace Framing

variable {β α : Type*}

/-- Reads one item off the front of the buffer and returns it with the bytes behind it. -/
abbrev Decoder (β α : Type*) := List β → Option (α × List β)

/-- A decoder that consumes input and never changes its mind when more input arrives. -/
structure Incremental (dec : Decoder β α) : Prop where
  extend : ∀ {b r : List β} {a : α}, dec b = some (a, r) → ∀ x, dec (b ++ x) = some (a, r ++ x)
  consume : ∀ {b r : List β} {a : α}, dec b = some (a, r) → r.length < b.length

/-- `w` is exactly one encoded item, with value `a`. -/
def Frame (dec : Decoder β α) (w : List β) (a : α) : Prop :=
  dec w = some (a, [])

section Incremental

variable {dec : Decoder β α} {w p q : List β} {a : α}

theorem Incremental.nil_eq_none (hdec : Incremental dec) : dec [] = none := by
  cases h : dec [] with
  | none => rfl
  | some ar =>
      have := hdec.consume (r := ar.2) (a := ar.1) h
      simp at this

theorem Frame.append (hdec : Incremental dec) (hw : Frame dec w a) (x : List β) :
    dec (w ++ x) = some (a, x) := by
  simpa using hdec.extend hw x

theorem Frame.ne_nil (hdec : Incremental dec) (hw : Frame dec w a) : w ≠ [] := by
  rintro rfl
  have hnone := hdec.nil_eq_none
  rw [Frame, hnone] at hw
  cases hw

end Incremental

/-! ## Streams of frames -/

/-- An encoded item together with the value it carries. -/
structure Item (dec : Decoder β α) where
  bytes : List β
  value : α
  frame : Frame dec bytes value

/-- The bytes of a sequence of items put on the wire one behind the other. -/
def wire {dec : Decoder β α} (ws : List (Item dec)) : List β :=
  (ws.map Item.bytes).flatten

section Wire

variable {dec : Decoder β α}

@[simp] theorem wire_nil : wire ([] : List (Item dec)) = [] := rfl

@[simp] theorem wire_cons (w : Item dec) (ws : List (Item dec)) :
    wire (w :: ws) = w.bytes ++ wire ws := rfl

@[simp] theorem wire_append (ws vs : List (Item dec)) : wire (ws ++ vs) = wire ws ++ wire vs := by
  simp [wire]

theorem wire_eq_nil (hdec : Incremental dec) {ws : List (Item dec)} : wire ws = [] → ws = [] := by
  intro h
  cases ws with
  | nil => rfl
  | cons w ws =>
      have hw := w.frame.ne_nil hdec
      simp [hw] at h

/-- What the decoder finds at the front of a stream of frames, once it finds anything. -/
theorem wire_decode (hdec : Incremental dec) {ws : List (Item dec)} {b r rest : List β} {a : α} :
    b ++ rest = wire ws → dec b = some (a, r) →
      ∃ w ws', ws = w :: ws' ∧ w.value = a ∧ r ++ rest = wire ws' := by
  intro hwire hb
  have hext := hdec.extend hb rest
  cases ws with
  | nil =>
      rw [hwire, wire_nil, hdec.nil_eq_none] at hext
      cases hext
  | cons w ws' =>
      have hfront := w.frame.append hdec (wire ws')
      rw [hwire, wire_cons, hfront] at hext
      have hpair := Option.some.inj hext
      exact ⟨w, ws', rfl, congrArg Prod.fst hpair, (congrArg Prod.snd hpair).symm⟩

/-- A front of the stream that does not decode is a proper prefix of its first frame. -/
theorem length_lt_of_none (hdec : Incremental dec) {w : Item dec} {ws : List (Item dec)}
    {b rest : List β} : b ++ rest = wire (w :: ws) → dec b = none → b.length < w.bytes.length := by
  intro hwire hnone
  by_contra hlong
  have hpre : w.bytes <+: b :=
    List.prefix_of_prefix_length_le ⟨wire ws, rfl⟩ ⟨rest, hwire⟩ (Nat.le_of_not_lt hlong)
  obtain ⟨x, rfl⟩ := hpre
  rw [w.frame.append hdec x] at hnone
  cases hnone

/-- A whole stream that does not decode is empty. -/
theorem eq_nil_of_none (hdec : Incremental dec) {ws : List (Item dec)} :
    dec (wire ws) = none → ws = [] := by
  intro hnone
  cases ws with
  | nil => rfl
  | cons w ws =>
      rw [wire_cons, w.frame.append hdec] at hnone
      cases hnone

end Wire

/-! ## Draining a buffer -/

/-- Decodes items until the buffer holds no whole item, or until an item asks to stop.  The fuel
bounds the number of items. -/
def drain (dec : Decoder β α) (stop : α → Bool) : Nat → List β → List α × List β
  | 0, b => ([], b)
  | n + 1, b =>
      match dec b with
      | none => ([], b)
      | some (a, r) =>
          if stop a then
            ([a], r)
          else
            let (as, r') := drain dec stop n r
            (a :: as, r')

attribute [simp] drain

section Drain

variable {dec : Decoder β α} {stop : α → Bool}

/-- **Draining keeps step with the stream.**  If the buffer is the front of a stream of frames, a
drain takes whole frames off it in order.  It ends at the first one that asks to stop; if none
does, what is left does not decode. -/
theorem drain_step (hdec : Incremental dec) (stop : α → Bool) :
    ∀ {n : Nat} {b rest : List β} {ws : List (Item dec)}, b.length < n → b ++ rest = wire ws →
      ∃ done todo, ws = done ++ todo ∧ (drain dec stop n b).1 = done.map Item.value ∧
        (drain dec stop n b).2 ++ rest = wire todo ∧
        (∀ v ∈ done.dropLast, stop v.value = false) ∧
        (dec (drain dec stop n b).2 = none ∨ ∃ w ∈ done.getLast?, stop w.value = true) := by
  intro n
  induction n with
  | zero =>
      intro b rest ws hn
      exact absurd hn (Nat.not_lt_zero _)
  | succ n ih =>
      intro b rest ws hn hwire
      cases hb : dec b with
      -- the buffer holds no frame: nothing is drained
      | none =>
          refine ⟨[], ws, by simp, ?_, ?_, ?_, ?_⟩ <;> simp [drain, hb, hwire]
      | some ar =>
          obtain ⟨a, r⟩ := ar
          obtain ⟨w, ws', rfl, rfl, hrest⟩ := wire_decode hdec hwire hb
          -- an item that asks to stop is drained still, and is the last one
          by_cases hstop : stop w.value = true
          · refine ⟨[w], ws', by simp, ?_, ?_, ?_, ?_⟩ <;> simp [drain, hb, hstop, hrest]
          · have hlen := hdec.consume hb
            obtain ⟨done, todo, rfl, hvals, htodo, hgo, hend⟩ :=
              @ih r rest ws' (by omega) hrest
            refine ⟨w :: done, todo, by simp, ?_, ?_, ?_, ?_⟩
            · simp [drain, hb, hstop, hvals]
            · simpa [drain, hb, hstop] using htodo
            · intro v hv
              cases done with
              | nil => simp at hv
              | cons d ds =>
                  rw [List.dropLast_cons_cons, List.mem_cons] at hv
                  rcases hv with rfl | hv
                  · simpa using hstop
                  · exact hgo v hv
            · rcases hend with hnone | ⟨v, hv, hvstop⟩
              · left
                simpa [drain, hb, hstop] using hnone
              · right
                refine ⟨v, ?_, hvstop⟩
                cases done with
                | nil => simp at hv
                | cons d ds => simpa [List.getLast?_cons_cons] using hv

theorem drain_length_le (hdec : Incremental dec) (stop : α → Bool) (n : Nat) (b : List β) :
    (drain dec stop n b).2.length ≤ b.length := by
  induction n generalizing b with
  | zero => exact Nat.le_refl _
  | succ n ih =>
      cases hb : dec b with
      | none => simp [drain, hb]
      | some ar =>
          obtain ⟨a, r⟩ := ar
          have hlen := hdec.consume hb
          by_cases hstop : stop a = true
          · simpa [drain, hb, hstop] using Nat.le_of_lt hlen
          · simpa [drain, hb, hstop] using Nat.le_trans (ih r) (Nat.le_of_lt hlen)

/-- More fuel than items makes no difference. -/
theorem drain_fuel (hdec : Incremental dec) :
    ∀ {n m : Nat} {b : List β}, b.length < n → b.length < m → drain dec stop n b = drain dec stop m b := by
  intro n
  induction n with
  | zero =>
      intro m b hn _
      exact absurd hn (Nat.not_lt_zero _)
  | succ n ih =>
      intro m b hn hm
      obtain ⟨m, rfl⟩ : ∃ k, m = k + 1 := ⟨m - 1, by omega⟩
      cases hb : dec b with
      | none => simp [drain, hb]
      | some ar =>
          obtain ⟨a, r⟩ := ar
          have hlen := hdec.consume hb
          simp only [drain, hb]
          rw [ih (m := m) (b := r) (by omega) (by omega)]

/-- The items a buffer holds whole. -/
def items (dec : Decoder β α) (b : List β) : List α :=
  (drain dec (fun _ => false) (b.length + 1) b).1

theorem items_of_none {b : List β} (hb : dec b = none) : items dec b = [] := by
  simp [items, drain, hb]

theorem items_of_some (hdec : Incremental dec) {b r : List β} {a : α} (hb : dec b = some (a, r)) :
    items dec b = a :: items dec r := by
  have hlen := hdec.consume hb
  have hfuel : drain dec (fun _ => false) b.length r = drain dec (fun _ => false) (r.length + 1) r :=
    drain_fuel hdec hlen (Nat.lt_succ_self _)
  simp only [items, drain, hb, Bool.false_eq_true, if_false, hfuel]

theorem items_eq_nil (hdec : Incremental dec) {b : List β} : items dec b = [] ↔ dec b = none := by
  constructor
  · intro h
    cases hb : dec b with
    | none => rfl
    | some ar =>
        rw [items_of_some hdec (r := ar.2) (a := ar.1) hb] at h
        cases h
  · exact items_of_none

/-- What a drain takes off a buffer and what it leaves there are its items. -/
theorem drain_append_items (hdec : Incremental dec) (stop : α → Bool) :
    ∀ (n : Nat) (b : List β),
      (drain dec stop n b).1 ++ items dec (drain dec stop n b).2 = items dec b := by
  intro n
  induction n with
  | zero =>
      intro b
      rfl
  | succ n ih =>
      intro b
      cases hb : dec b with
      | none => simp [drain, hb]
      | some ar =>
          obtain ⟨a, r⟩ := ar
          rw [items_of_some hdec hb]
          by_cases hstop : stop a = true
          · simp [drain, hb, hstop]
          · simp [drain, hb, hstop, ih r]

/-- Where a drain leaves an item behind, the last one it took off asked it to stop; the others did
not. -/
theorem drain_stops (hdec : Incremental dec) (stop : α → Bool) :
    ∀ {n : Nat} {b : List β}, b.length < n →
      (∀ a ∈ (drain dec stop n b).1.dropLast, stop a = false) ∧
        (dec (drain dec stop n b).2 = none ∨ ∃ a ∈ (drain dec stop n b).1.getLast?, stop a = true) := by
  intro n
  induction n with
  | zero =>
      intro b hn
      exact absurd hn (Nat.not_lt_zero _)
  | succ n ih =>
      intro b hn
      cases hb : dec b with
      | none => simp [drain, hb]
      | some ar =>
          obtain ⟨a, r⟩ := ar
          have hlen := hdec.consume hb
          -- the item asks for a stop, and then it is the last one; or the drain goes on behind it
          by_cases hstop : stop a = true
          · simp [drain, hb, hstop]
          · obtain ⟨hgo, hend⟩ := ih (b := r) (by omega)
            have hfalse : stop a = false := by simpa using hstop
            simp only [drain, hb, hfalse, Bool.false_eq_true, if_false]
            -- the item is the last one only where nothing follows it
            cases hrest : (drain dec stop n r).1 with
            | nil =>
                rw [hrest] at hend
                rcases hend with hnone | ⟨c, hc, -⟩
                · exact ⟨by simp, .inl hnone⟩
                · simp at hc
            | cons c cs =>
                rw [hrest] at hgo hend
                refine ⟨?_, ?_⟩
                · rw [List.dropLast_cons_cons]
                  intro d hd
                  rcases List.mem_cons.1 hd with rfl | hd
                  · exact hfalse
                  · exact hgo d hd
                · rwa [List.getLast?_cons_cons]

/-- **When a drain leaves nothing behind**: when no item but the last one asks it to stop. -/
theorem drain_exhausts_iff (hdec : Incremental dec) (stop : α → Bool) {n : Nat} {b : List β}
    (hn : b.length < n) :
    dec (drain dec stop n b).2 = none ↔ ∀ a ∈ (items dec b).dropLast, stop a = false := by
  obtain ⟨hgo, hend⟩ := drain_stops hdec stop hn
  have hitems := drain_append_items hdec stop n b
  constructor
  · intro hnone
    rw [items_of_none hnone, List.append_nil] at hitems
    exact hitems ▸ hgo
  · intro hall
    rcases hend with hnone | ⟨a, ha, hstop⟩
    · exact hnone
    · -- an item behind the one that stopped the drain would make that one an inner item
      rw [← items_eq_nil hdec]
      by_contra hmore
      have hmem : a ∈ (items dec b).dropLast := by
        rw [← hitems, List.dropLast_append_of_ne_nil hmore]
        exact List.mem_append_left _ (List.mem_of_mem_getLast? ha)
      rw [hall a hmem] at hstop
      cases hstop

end Drain

end Framing
end AuroraVpn
