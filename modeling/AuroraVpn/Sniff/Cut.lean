import AuroraVpn.Sniff.Hostname
import Mathlib.Data.List.Infix

/-!
# Cut — names in buffers that end early

What `hostname` makes of the first part of a buffer, against what it makes of the whole.  A client hello
says where its parts end, and a part that is not there gives no name.  The line of an HTTP header ends
where the buffer does.

* `tlsSni_longer`: a name out of a part of a client hello is the name.
* `cut_iff`: the buffers whose name is the one that is asked for, however they go on.
-/

namespace AuroraVpn
namespace Sniff

open Utf8 Routing
open AuroraVpn.Upstream (rsplitOnce eq_of_rsplitOnce)

/-- The host that a request asks for, of whatever length it is. -/
def requestedHost (b : Bytes) : Option Text :=
  match splitCrlf (fromUtf8Lossy b) with
  | requestLine :: lines => if looksLikeHttp requestLine then headerHost lines else none
  | [] => none

/-- The name that a client asks for. -/
def requestedName (b : Bytes) : Option Text :=
  (tlsSni b).or (requestedHost b)

/-- The buffer ends in a header line for the host, which so far says something plausible. -/
def CutInHost (p : Bytes) : Prop :=
  ∃ requestLine lines line host, splitCrlf (fromUtf8Lossy p) = requestLine :: (lines ++ [line]) ∧
    looksLikeHttp requestLine = true ∧ (∀ l ∈ lines, l ≠ [] ∧ hostValue l = none) ∧
    line ≠ [] ∧ hostValue line = some host ∧ (plausibleHost (encode host)).isSome

/-- What is looked at ends in the line for the host, and that line does not end in the buffer, or ends
with another host. -/
def Misread (p : Bytes) : Prop :=
  CutInHost (p.take PEEK_BUDGET) ∧ (CutInHost p ∨ requestedHost p ≠ requestedHost (p.take PEEK_BUDGET))

section Tls

variable {p b data : Bytes} {n pos stop stop' : Nat} {v : UInt8} {name : Text}

theorem getElem?_longer (h : p <+: b) (hv : p[pos]? = some v) : b[pos]? = some v := by
  obtain ⟨rest, rfl⟩ := h
  rw [List.getElem?_append_left (List.getElem?_eq_some_iff.1 hv).1, hv]

theorem be16_longer (h : p <+: b) (hn : be16 p pos = some n) : be16 b pos = some n := by
  obtain ⟨hi, hhi, hn⟩ := Option.bind_eq_some_iff.1 hn
  obtain ⟨lo, hlo, hn⟩ := Option.bind_eq_some_iff.1 hn
  unfold be16
  rw [getElem?_longer h hhi, getElem?_longer h hlo]
  exact hn

theorem be24_longer (h : p <+: b) (hn : be24 p pos = some n) : be24 b pos = some n := by
  obtain ⟨x, hx, hn⟩ := Option.bind_eq_some_iff.1 hn
  obtain ⟨y, hy, hn⟩ := Option.bind_eq_some_iff.1 hn
  obtain ⟨z, hz, hn⟩ := Option.bind_eq_some_iff.1 hn
  unfold be24
  rw [getElem?_longer h hx, getElem?_longer h hy, getElem?_longer h hz]
  exact hn

theorem getSlice_longer (h : p <+: b) (hdata : getSlice p pos stop = some data) :
    getSlice b pos stop = some data := by
  have hlen := h.length_le
  obtain ⟨rest, rfl⟩ := h
  unfold getSlice at hdata ⊢
  split_ifs at hdata with hp
  rw [if_pos ⟨hp.1, hp.2.trans hlen⟩, ← hdata, List.take_append_of_le_length hp.2]

/-- A part that may be there in full only in the longer buffer. -/
theorem getSlice_clamped (h : p <+: b) {start : Nat}
    (hdata : getSlice p start (min (start + n) p.length) = some data) :
    ∃ data', getSlice b start (min (start + n) b.length) = some data' ∧ data <+: data' := by
  have hlen := h.length_le
  have hclamp : ∀ l : Bytes, l.take (min (start + n) l.length) = l.take (start + n) := fun l =>
    List.take_eq_take_iff.2 (by omega)
  unfold getSlice at hdata ⊢
  split_ifs at hdata with hp
  cases hdata
  refine ⟨_, if_pos (by omega), ?_⟩
  rw [hclamp, hclamp]
  exact List.IsPrefix.drop (List.IsPrefix.take h _) _

theorem extensionsLoop_longer (h : p <+: b) (hstop : stop ≤ stop')
    (hname : extensionsLoop p stop pos = some name) : extensionsLoop b stop' pos = some name := by
  induction hleft : stop - pos using Nat.strong_induction_on generalizing pos with
  | _ left ih =>
      rw [extensionsLoop] at hname ⊢
      split_ifs at hname with hpos
      rw [if_pos (hpos.trans hstop)]
      cases hkind : be16 p pos with
      | none =>
          rw [hkind] at hname
          cases hname
      | some kind =>
          cases hlen : be16 p (pos + 2) with
          | none =>
              rw [hkind, hlen] at hname
              cases hname
          | some len =>
              rw [hkind, hlen] at hname
              -- both numbers stand in front of the cut, so they are read the same
              rw [be16_longer h hkind, be16_longer h hlen]
              dsimp only at hname ⊢
              split_ifs at hname with hfits hserver
              -- the extension with the server name: its data is in front of the cut too
              · rw [if_neg (by omega), if_pos hserver]
                obtain ⟨data, hdata, hname⟩ := Option.bind_eq_some_iff.1 hname
                exact Option.bind_eq_some_iff.2 ⟨data, getSlice_longer h hdata, hname⟩
              · rw [if_neg (by omega), if_neg hserver]
                exact ih _ (by omega) hname rfl

theorem helloName_longer (h : p <+: b) (hname : helloName p = some name) : helloName b = some name := by
  obtain ⟨sessionLen, hsession, hname⟩ := Option.bind_eq_some_iff.1 hname
  obtain ⟨cipherLen, hcipher, hname⟩ := Option.bind_eq_some_iff.1 hname
  obtain ⟨compressionLen, hcompression, hname⟩ := Option.bind_eq_some_iff.1 hname
  obtain ⟨extensionsLen, hextensions, hname⟩ := Option.bind_eq_some_iff.1 hname
  have hstop := min_le_min_left (2 + 32 + (1 + sessionLen.toNat) + (2 + cipherLen) +
    (1 + compressionLen.toNat) + 2 + extensionsLen) h.length_le
  refine Option.bind_eq_some_iff.2 ⟨sessionLen, getElem?_longer h hsession, ?_⟩
  refine Option.bind_eq_some_iff.2 ⟨cipherLen, be16_longer h hcipher, ?_⟩
  refine Option.bind_eq_some_iff.2 ⟨compressionLen, getElem?_longer h hcompression, ?_⟩
  refine Option.bind_eq_some_iff.2 ⟨extensionsLen, be16_longer h hextensions, ?_⟩
  exact extensionsLoop_longer h hstop hname

/-- A name out of a part of a client hello is the name. -/
theorem tlsSni_longer (h : p <+: b) (hname : tlsSni p = some name) : tlsSni b = some name := by
  -- the two marks are bytes of the part
  have hhead : ∀ {p b : Bytes} {v : UInt8}, p <+: b → ¬ p.head? ≠ some v → ¬ b.head? ≠ some v := by
    intro p b v h hp
    obtain ⟨rest, rfl⟩ := h
    cases p with
    | nil => exact absurd nofun hp
    | cons a p => exact hp
  unfold tlsSni at hname ⊢
  split_ifs at hname with hkind
  obtain ⟨recordLen, hrecord, hname⟩ := Option.bind_eq_some_iff.1 hname
  obtain ⟨body, hbody, hname⟩ := Option.bind_eq_some_iff.1 hname
  split_ifs at hname with hhello
  obtain ⟨helloLen, hlen, hname⟩ := Option.bind_eq_some_iff.1 hname
  obtain ⟨hello, hslice, hname⟩ := Option.bind_eq_some_iff.1 hname
  -- a record and a hello that run over the end are clamped, so each is a part of the longer one
  obtain ⟨body', hbody', hbegins⟩ := getSlice_clamped h hbody
  obtain ⟨hello', hslice', hbegins'⟩ := getSlice_clamped hbegins hslice
  rw [if_neg (hhead h hkind)]
  refine Option.bind_eq_some_iff.2 ⟨recordLen, be16_longer h hrecord, ?_⟩
  refine Option.bind_eq_some_iff.2 ⟨body', hbody', ?_⟩
  rw [if_neg (hhead hbegins hhello)]
  refine Option.bind_eq_some_iff.2 ⟨helloLen, be24_longer hbegins hlen, ?_⟩
  exact Option.bind_eq_some_iff.2 ⟨hello', hslice', helloName_longer hbegins' hname⟩

end Tls

attribute [simp] splitCrlf

section Lines

variable {s t last : Text} {lines more : List Text} {c : Char}

theorem splitCrlf_cons (h : ¬ (c = '\r' ∧ t.head? = some '\n')) :
    splitCrlf (c :: t) = (splitCrlf t).modifyHead (c :: ·) := by
  refine splitCrlf.eq_2 c t ?_
  rintro t' rfl rfl
  exact h ⟨rfl, rfl⟩

theorem splitCrlf_ne_nil (t : Text) : splitCrlf t ≠ [] := by
  induction t using splitCrlf.induct with
  | case1 t ih => exact List.cons_ne_nil _ _
  | case2 c t hne ih =>
      rw [splitCrlf.eq_2 c t hne]
      cases hsplit : splitCrlf t with
      | nil => exact absurd hsplit ih
      | cons line lines => exact List.cons_ne_nil _ _
  | case3 => exact List.cons_ne_nil _ _

/-- The line behind a line break is split on its own. -/
theorem splitCrlf_append (s t : Text) : splitCrlf (s ++ '\r' :: '\n' :: t) = splitCrlf s ++ splitCrlf t := by
  induction s using splitCrlf.induct with
  | case1 s ih => exact congrArg ([] :: ·) ih
  | case2 c s hne ih =>
      have hnext : ¬ (c = '\r' ∧ (s ++ '\r' :: '\n' :: t).head? = some '\n') := by
        rintro ⟨rfl, hhead⟩
        cases s with
        | nil => exact absurd hhead (by simp)
        | cons d s => exact hne s rfl (by rw [List.cons_append, List.head?_cons] at hhead; cases hhead; rfl)
      rw [List.cons_append, splitCrlf_cons hnext, splitCrlf.eq_2 c s hne, ih]
      cases hsplit : splitCrlf s with
      | nil => exact absurd hsplit (splitCrlf_ne_nil s)
      | cons line lines => rfl
  | case3 => rfl

/-- A text of one line is that line. -/
theorem eq_of_splitCrlf_singleton (h : splitCrlf t = [s]) : t = s := by
  induction t using splitCrlf.induct generalizing s with
  | case1 t ih => exact absurd (List.cons.inj h).2 (splitCrlf_ne_nil t)
  | case2 c t hne ih =>
      rw [splitCrlf.eq_2 c t hne] at h
      cases hsplit : splitCrlf t with
      | nil => exact absurd hsplit (splitCrlf_ne_nil t)
      | cons line lines =>
          rw [hsplit] at h
          obtain ⟨hline, hlines⟩ := List.cons.inj h
          rw [← hline, ih (hsplit.trans (by rw [hlines]))]
  | case3 => exact (List.cons.inj h).1

/-- The last line stands behind the last line break. -/
theorem splitCrlf_eq_concat (hne : lines ≠ []) (h : splitCrlf t = lines ++ [last]) :
    ∃ s, t = s ++ '\r' :: '\n' :: last ∧ splitCrlf s = lines := by
  induction t using splitCrlf.induct generalizing lines with
  -- a break: the line in front of it is empty
  | case1 t ih =>
      cases lines with
      | nil => exact absurd rfl hne
      | cons line lines =>
          obtain ⟨hline, hlines⟩ := List.cons.inj h
          cases lines with
          | nil =>
              rw [eq_of_splitCrlf_singleton hlines, ← hline]
              exact ⟨[], rfl, rfl⟩
          | cons next lines =>
              obtain ⟨s, rfl, hs⟩ := ih (List.cons_ne_nil _ _) hlines
              exact ⟨'\r' :: '\n' :: s, rfl, by rw [splitCrlf, hs, hline]⟩
  -- any other character belongs to the first line
  | case2 c t hnot ih =>
      rw [splitCrlf.eq_2 c t hnot] at h
      cases hsplit : splitCrlf t with
      | nil => exact absurd hsplit (splitCrlf_ne_nil t)
      | cons first rest =>
          cases lines with
          | nil => exact absurd rfl hne
          | cons line lines =>
              rw [hsplit] at h
              obtain ⟨hline, hlines⟩ := List.cons.inj h
              have hconcat : splitCrlf t = first :: lines ++ [last] := by
                rw [hsplit, hlines]
                rfl
              obtain ⟨s, rfl, hs⟩ := ih (List.cons_ne_nil _ _) hconcat
              have hkeep : ¬ (c = '\r' ∧ s.head? = some '\n') := by
                rintro ⟨rfl, hhead⟩
                obtain ⟨s', rfl⟩ := List.head?_eq_some_iff.1 hhead
                exact hnot _ rfl rfl
              exact ⟨c :: s, rfl, by rw [splitCrlf_cons hkeep, hs, ← hline]; rfl⟩
  -- a text without a break has one line only
  | case3 =>
      have hlen := congrArg List.length h
      rw [List.length_append, List.length_singleton] at hlen
      exact absurd (List.eq_nil_of_length_eq_zero (Nat.succ.inj hlen).symm) hne

/-- A line goes on with anything but a line feed. -/
theorem splitCrlf_concat (hc : c ≠ '\n') (h : splitCrlf t = [t]) : splitCrlf (t ++ [c]) = [t ++ [c]] := by
  induction t using splitCrlf.induct with
  | case1 t ih => exact absurd (List.cons.inj h).2 (splitCrlf_ne_nil t)
  | case2 d t hnot ih =>
      rw [splitCrlf.eq_2 d t hnot] at h
      cases hsplit : splitCrlf t with
      | nil => exact absurd hsplit (splitCrlf_ne_nil t)
      | cons line lines =>
          rw [hsplit] at h
          obtain ⟨hline, hlines⟩ := List.cons.inj h
          have hrest := ih (by rw [hsplit, hlines, (List.cons.inj hline).2])
          have hkeep : ¬ (d = '\r' ∧ (t ++ [c]).head? = some '\n') := by
            rintro ⟨rfl, hhead⟩
            cases t with
            | nil => exact hc (Option.some.inj hhead)
            | cons e t => exact hnot t rfl (by rw [Option.some.inj hhead])
          rw [List.cons_append, splitCrlf_cons hkeep, hrest]
          rfl
  | case3 => exact splitCrlf_cons (t := []) (by simp)

end Lines

section Http

variable {p b : Bytes} {lines more : List Text}

/-- Lines that say nothing of the host, and do not end the head. -/
def Passed (lines : List Text) : Prop :=
  ∀ l ∈ lines, l ≠ [] ∧ hostValue l = none

theorem headerHost_passed (h : Passed lines) : headerHost (lines ++ more) = headerHost more := by
  induction lines with
  | nil => rfl
  | cons line lines ih =>
      obtain ⟨hne, hvalue⟩ := h line List.mem_cons_self
      rw [List.cons_append, headerHost, if_neg hne, hvalue]
      exact ih fun l hl => h l (List.mem_cons_of_mem _ hl)

theorem headerHost_decided (h : ¬ Passed lines) (more : List Text) :
    headerHost (lines ++ more) = headerHost lines := by
  induction lines with
  | nil => exact absurd nofun h
  | cons line lines ih =>
      rw [List.cons_append, headerHost, headerHost]
      by_cases hne : line = []
      · rw [if_pos hne, if_pos hne]
      · rw [if_neg hne, if_neg hne]
        cases hvalue : hostValue line with
        | some host => rfl
        | none =>
            refine ih fun hpassed => h fun l hl => ?_
            rcases List.mem_cons.1 hl with rfl | hl
            · exact ⟨hne, hvalue⟩
            · exact hpassed l hl

/-- An HTTP request does not begin like a client hello. -/
theorem head_of_looksLikeHttp {requestLine : Text} (hsplit : splitCrlf (fromUtf8Lossy p) = requestLine :: lines)
    (hhttp : looksLikeHttp requestLine = true) : p ≠ [] ∧ p.head? ≠ some TLS_HANDSHAKE := by
  constructor
  · rintro rfl
    have hnil : [[]] = requestLine :: lines := hsplit
    rw [← (List.cons.inj hnil).1] at hhttp
    exact absurd hhttp (by decide)
  · intro hhead
    obtain ⟨q, rfl⟩ := List.head?_eq_some_iff.1 hhead
    have hdecoded := fromUtf8Lossy_append (b := TLS_HANDSHAKE) (by decide) [] q
    rw [List.nil_append] at hdecoded
    rw [hdecoded, show fromUtf8Lossy [] = [] from rfl, List.nil_append,
      splitCrlf_cons fun hbreak => absurd hbreak.1 (by decide)] at hsplit
    cases hrest : splitCrlf (fromUtf8Lossy q) with
    | nil => exact absurd hrest (splitCrlf_ne_nil _)
    | cons line rest =>
        rw [hrest] at hsplit
        rw [← (List.cons.inj hsplit).1] at hhttp
        have hno : METHODS.any (fun method => method.isPrefixOf (Char.ofNat TLS_HANDSHAKE.toNat :: line)) = false := rfl
        rw [looksLikeHttp, hno] at hhttp
        cases hhttp

theorem head_of_requestedHost {name : Text} (h : requestedHost p = some name) :
    p ≠ [] ∧ p.head? ≠ some TLS_HANDSHAKE := by
  unfold requestedHost at h
  split at h
  · rename_i requestLine lines hsplit
    split_ifs at h with hhttp
    exact head_of_looksLikeHttp hsplit hhttp
  · cases h

theorem tlsSni_of_head (h : p.head? ≠ some TLS_HANDSHAKE) : tlsSni p = none :=
  if_pos h

theorem requestedHost_eq {requestLine : Text} (hsplit : splitCrlf (fromUtf8Lossy p) = requestLine :: lines) :
    requestedHost p = if looksLikeHttp requestLine then headerHost lines else none := by
  rw [requestedHost, hsplit]

/-- The lines in front of the last are lines of every longer buffer. -/
theorem splitCrlf_more {last : Text} (hne : lines ≠ []) (hsplit : splitCrlf (fromUtf8Lossy p) = lines ++ [last])
    (rest : Bytes) : ∃ more, splitCrlf (fromUtf8Lossy (p ++ rest)) = lines ++ more := by
  obtain ⟨s, hs, hlines⟩ := splitCrlf_eq_concat hne hsplit
  have hbreak : fromUtf8Lossy p = (s ++ ['\r']) ++ '\n' :: last := by
    rw [hs, List.append_assoc]
    rfl
  obtain ⟨t', ht'⟩ := fromUtf8Lossy_more (c := '\n') (by decide) hbreak rest
  refine ⟨splitCrlf t', ?_⟩
  rw [ht', List.append_assoc, List.singleton_append, splitCrlf_append, hlines]

/-- A request that is not cut in the line for the host has a host that stays. -/
theorem requestedHost_longer (h : p <+: b) (hcut : ¬ CutInHost p) :
    requestedHost p = none ∨ requestedHost p = requestedHost b := by
  obtain ⟨rest, rfl⟩ := h
  cases hsplit : splitCrlf (fromUtf8Lossy p) with
  | nil => exact absurd hsplit (splitCrlf_ne_nil _)
  | cons requestLine found =>
      rw [requestedHost_eq hsplit]
      by_cases hhttp : looksLikeHttp requestLine = true
      · rw [if_pos hhttp]
        -- what the longer buffer changes is the last line, and what comes behind it
        cases hfound : found using List.reverseRecOn with
        | nil => exact .inl rfl
        | append_singleton lines last =>
            rw [hfound] at hsplit
            obtain ⟨more, hmore⟩ := splitCrlf_more (List.cons_ne_nil requestLine lines) hsplit rest
            rw [List.cons_append] at hmore
            rw [requestedHost_eq hmore, if_pos hhttp]
            -- no host line in front of the last one: only a cut in it could have given a name
            by_cases hpassed : Passed lines
            · left
              rw [headerHost_passed hpassed, headerHost]
              by_cases hlast : last = []
              · exact if_pos hlast
              · rw [if_neg hlast]
                cases hvalue : hostValue last with
                | none => rfl
                | some host =>
                    refine Option.not_isSome_iff_eq_none.1 fun hplausible => hcut ?_
                    exact ⟨requestLine, lines, last, host, hsplit, hhttp, hpassed, hlast, hvalue, hplausible⟩
            -- the host was decided in front of it
            · right
              rw [headerHost_decided hpassed, headerHost_decided hpassed]
      · exact .inl (if_neg hhttp)

/-! ### A mark at the end -/

theorem mem_dropWhile {c : Char} {f : Char → Bool} {t : Text} (hc : c ∈ t) (hf : f c = false) :
    c ∈ t.dropWhile f := by
  induction t with
  | nil => exact hc
  | cons d t ih =>
      by_cases hd : f d = true
      · rw [List.dropWhile_cons_of_pos hd]
        rcases List.mem_cons.1 hc with rfl | hc
        · exact absurd hd (Bool.eq_false_iff.1 hf)
        · exact ih hc
      · rw [List.dropWhile_cons_of_neg hd]
        exact hc

theorem mem_trimEndMatches {c d : Char} {t : Text} (hc : c ∈ t) (hne : c ≠ d) : c ∈ trimEndMatches d t :=
  List.mem_reverse.2 (mem_dropWhile (List.mem_reverse.2 hc) (decide_eq_false hne))

/-- A name with a mark is not plausible. -/
theorem plausibleHost_marked {t : Text} (h : '!' ∈ t) : plausibleHost (encode t) = none := by
  unfold plausibleHost
  split_ifs
  · rfl
  · cases htext : fromUtf8 (encode t) with
    | none => rfl
    | some text =>
        have heq : t = text := (fromUtf8Lossy_encode t).symm.trans (fromUtf8Lossy_of_fromUtf8 htext)
        have hmem : '!' ∈ trimEndMatches '.' (trim text) :=
          mem_trimEndMatches (mem_trim (heq ▸ h) (by decide)) (by decide)
        have hbad : (trimEndMatches '.' (trim text)).all isAllowed = false := by
          rw [Bool.eq_false_iff, ne_eq, List.all_eq_true]
          exact fun hall => absurd (hall _ hmem) (by decide)
        dsimp only
        split_ifs with hlong hallowed
        · rfl
        · rfl
        · exact absurd (.inl hbad) hallowed
        · exact absurd (.inl hbad) hallowed

theorem getLast?_trim_marked (t : Text) : (trim (t ++ ['!'])).getLast? = some '!' := by
  have hfront : ∃ w, (t ++ ['!']).dropWhile isWhitespace = w ++ ['!'] := by
    induction t with
    | nil => exact ⟨[], rfl⟩
    | cons c t ih =>
        by_cases hc : isWhitespace c = true
        · rw [List.cons_append, List.dropWhile_cons_of_pos hc]
          exact ih
        · rw [List.cons_append, List.dropWhile_cons_of_neg hc]
          exact ⟨c :: t, rfl⟩
  obtain ⟨w, hw⟩ := hfront
  have hback : (w ++ ['!']).reverse.dropWhile isWhitespace = (w ++ ['!']).reverse := by
    rw [List.reverse_append]
    rfl
  unfold trim
  rw [hw, hback, List.reverse_reverse]
  exact List.getLast?_concat

/-- A mark is no part of a port. -/
theorem withoutPort_marked {value : Text} (h : value.getLast? = some '!') : '!' ∈ withoutPort value := by
  have hvalue : '!' ∈ value := List.mem_of_getLast? h
  unfold withoutPort
  cases hsplit : rsplitOnce ':' value with
  | none => exact hvalue
  | some parts =>
      obtain ⟨host, port⟩ := parts
      dsimp only
      have hport : port.all Char.isDigit = false := by
        rw [eq_of_rsplitOnce hsplit, List.getLast?_append_of_ne_nil _ (List.cons_ne_nil _ _)] at h
        cases port with
        | nil => exact absurd h (by decide)
        | cons c port =>
            rw [List.getLast?_cons_of_ne_nil (List.cons_ne_nil _ _)] at h
            rw [Bool.eq_false_iff, ne_eq, List.all_eq_true]
            exact fun hall => absurd (hall _ (List.mem_of_getLast? h)) (by decide)
      rw [hport]
      exact hvalue

/-- A mark behind the line for the host makes it say nothing plausible. -/
theorem requestedHost_marked (hcut : CutInHost p) :
    (requestedHost p).isSome ∧ requestedHost (p ++ [0x21]) = none := by
  obtain ⟨requestLine, lines, line, host, hsplit, hhttp, hpassed, hne, hvalue, hplausible⟩ := hcut
  obtain ⟨s, hs, hlines⟩ := splitCrlf_eq_concat (List.cons_ne_nil requestLine lines) hsplit
  have hline : splitCrlf line = [line] := by
    rw [hs, splitCrlf_append, hlines] at hsplit
    exact List.append_cancel_left hsplit
  constructor
  · rw [requestedHost_eq hsplit, if_pos hhttp, headerHost_passed hpassed, headerHost, if_neg hne, hvalue]
    exact hplausible
  -- an exclamation mark is no line break, so it ends up in the last line
  · have hmarked : splitCrlf (fromUtf8Lossy (p ++ [0x21])) = requestLine :: (lines ++ [line ++ ['!']]) := by
      have hdecoded := fromUtf8Lossy_append (b := 0x21) (by decide) p []
      have hlast : fromUtf8Lossy p ++ ['!'] = s ++ '\r' :: '\n' :: (line ++ ['!']) := by
        rw [hs]
        simp
      rw [hdecoded]
      change splitCrlf (fromUtf8Lossy p ++ ['!']) = _
      rw [hlast, splitCrlf_append, hlines, splitCrlf_concat (by decide) hline]
      rfl
    -- the value gets the mark as well, whether a port stands in it or not
    have hmark : ∃ host', hostValue (line ++ ['!']) = some host' ∧ '!' ∈ host' := by
      unfold hostValue at hvalue ⊢
      cases hcolon : splitOnce ':' line with
      | none =>
          rw [hcolon] at hvalue
          cases hvalue
      | some parts =>
          obtain ⟨name, value⟩ := parts
          rw [hcolon] at hvalue
          dsimp only at hvalue
          split_ifs at hvalue with hhost
          have hfront : ':' ∉ name := not_mem_of_splitOnce hcolon
          have hlonger : splitOnce ':' (line ++ ['!']) = some (name, value ++ ['!']) := by
            rw [eq_of_splitOnce hcolon, List.append_assoc, List.cons_append]
            exact splitOnce_append hfront
          rw [hlonger]
          exact ⟨_, if_pos hhost, withoutPort_marked (getLast?_trim_marked value)⟩
    obtain ⟨host', hvalue', hmem⟩ := hmark
    rw [requestedHost_eq hmarked, if_pos hhttp, headerHost_passed hpassed, headerHost,
      if_neg (List.append_ne_nil_of_right_ne_nil _ (List.cons_ne_nil _ _)), hvalue']
    exact plausibleHost_marked hmem

end Http

theorem hostname_eq (p : Bytes) : hostname p = (tlsSni p).or (requestedHost (p.take PEEK_BUDGET)) := rfl

/-- What begins like a request is no client hello, however it goes on. -/
theorem tlsSni_of_requestedHost {name : Text} (h : p <+: b) (hname : requestedHost p = some name) :
    tlsSni b = none := by
  obtain ⟨hne, hhead⟩ := head_of_requestedHost hname
  obtain ⟨rest, rfl⟩ := h
  apply tlsSni_of_head
  rwa [List.head?_append_of_ne_nil _ hne]

/-- **The buffers whose name is the one that is asked for, whatever follows**: those that are not cut in the line
for the host, by their end or by the budget. -/
theorem cut_iff (p : Bytes) :
    (∀ b, p <+: b → hostname p = none ∨ (hostname p = hostname b ∧ hostname p = requestedName b)) ↔ ¬ Misread p := by
  -- what is looked at is the beginning within the budget
  have hlooked : p.take PEEK_BUDGET <+: p := List.take_prefix _ _
  constructor
  · rintro h ⟨hcut, hmisread⟩
    obtain ⟨name, hname⟩ := Option.isSome_iff_exists.1 (requestedHost_marked hcut).1
    have hp : hostname p = some name := by
      rw [hostname_eq, tlsSni_of_requestedHost hlooked hname, Option.none_or, hname]
    have hright : ∀ b, p <+: b → requestedHost b = some name := by
      intro b hb
      rcases h b hb with hnone | ⟨-, hasked⟩
      · rw [hp] at hnone
        cases hnone
      · rw [requestedName, tlsSni_of_requestedHost (hlooked.trans hb) hname, Option.none_or] at hasked
        rw [← hasked, hp]
    rcases hmisread with hends | hother
    · -- the line for the host goes on with a mark
      have hmarked := hright (p ++ [0x21]) (List.prefix_append p _)
      rw [(requestedHost_marked hends).2] at hmarked
      cases hmarked
    · exact hother ((hright p List.prefix_rfl).trans hname.symm)
  · intro hread b hb
    -- a name from TLS does not depend on what follows
    cases htls : tlsSni p with
    | some name =>
        right
        rw [hostname_eq, hostname_eq, requestedName, htls, tlsSni_longer hb htls]
        exact ⟨rfl, rfl⟩
    | none =>
        rw [hostname_eq p, htls, Option.none_or]
        cases hname : requestedHost (p.take PEEK_BUDGET) with
        | none => exact .inl rfl
        | some name =>
            right
            rw [hostname_eq, requestedName, tlsSni_of_requestedHost (hlooked.trans hb) hname, Option.none_or,
              Option.none_or, ← hname]
            by_cases hcut : CutInHost (p.take PEEK_BUDGET)
            · -- the budget is used up, and the line ends behind it
              have hlong : PEEK_BUDGET ≤ p.length := by
                by_contra hshort
                rw [List.take_of_length_le (Nat.le_of_not_le hshort)] at hcut
                exact hread ⟨by rwa [List.take_of_length_le (Nat.le_of_not_le hshort)], .inl hcut⟩
              have hends : ¬ CutInHost p := fun hends => hread ⟨hcut, .inl hends⟩
              have hsame : requestedHost p = requestedHost (p.take PEEK_BUDGET) := by
                by_contra hother
                exact hread ⟨hcut, .inr hother⟩
              refine ⟨?_, ?_⟩
              · obtain ⟨rest, rfl⟩ := hb
                rw [List.take_append_of_le_length hlong]
              · rw [← hsame]
                refine (requestedHost_longer hb hends).resolve_left ?_
                rw [hsame, hname]
                exact Option.some_ne_none name
            -- not cut: what comes behind the budget changes nothing either
            · have hsome : requestedHost (p.take PEEK_BUDGET) ≠ none := by
                rw [hname]
                exact Option.some_ne_none name
              have htaken : p.take PEEK_BUDGET <+: b.take PEEK_BUDGET := hb.take PEEK_BUDGET
              exact ⟨(requestedHost_longer htaken hcut).resolve_left hsome,
                (requestedHost_longer (hlooked.trans hb) hcut).resolve_left hsome⟩

def cutRequest : Bytes :=
  asciiBytes "GET / HTTP/1.1\r\nHost: www.example.co".toList

/-- A request for `www.example.com` that is cut in front of its last letter is one for `www.example.co`. -/
theorem cut_names_another : ¬ ∀ b p : Bytes, p <+: b → hostname p = none ∨ hostname p = hostname b := by
  intro h
  have hnames := h (cutRequest ++ asciiBytes "m\r\n\r\n".toList) cutRequest (List.prefix_append _ _)
  exact absurd hnames (by decide)

end Sniff
end AuroraVpn
