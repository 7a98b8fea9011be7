import AuroraVpn.Dns.Query
import AuroraVpn.Lib.IpAddr
import Mathlib.Data.List.Forall2

/-!
# Answer — what is read out of a message of the name system

`parse_dns_a` of `socks.rs`, `parse_https_ech` and `parse_svcparams_ech` of `dns.rs`, and `skip_name` of
both.  An index outside of the message, which would be a panic, is an outcome of its own here.

* `parseAnswers_eq`: both parsers look at the answers one after another, and take the first that has
  something.
* `places_message`: in a well-formed message those are its records.
* `answers_parsed`: what they return, of any message and of a well-formed one.
-/

namespace AuroraVpn
namespace Dns

open BigEndian

/-- A panic. -/
inductive OutOfBounds
  | index
  | slice
  deriving DecidableEq, Repr

def RR_A : UInt16 := 1
def RR_HTTPS : UInt16 := 65
def SVCPARAM_ECH : UInt16 := 5

/-- `msg[pos]`. -/
def byteAt (msg : Bytes) (pos : Nat) : Except OutOfBounds UInt8 :=
  match msg[pos]? with
  | some b => .ok b
  | none => .error .index

/-- `u16::from_be_bytes([msg[pos], msg[pos + 1]])`. -/
def u16At (msg : Bytes) (pos : Nat) : Except OutOfBounds UInt16 := do
  let hi ← byteAt msg pos
  let lo ← byteAt msg (pos + 1)
  pure (fromBe hi lo)

/-- `msg[start..stop]`. -/
def sliceOf (msg : Bytes) (start stop : Nat) : Except OutOfBounds Bytes :=
  if start ≤ stop ∧ stop ≤ msg.length then .ok ((msg.drop start).take (stop - start)) else .error .slice

def skipName (buf : Bytes) (pos : Nat) : Option Nat :=
  match h : buf[pos]? with
  | none => none
  | some len =>
      if len &&& 0xc0 = 0xc0 then some (pos + 2)
      else if len = 0 then some (pos + 1)
      else skipName buf (pos + 1 + len.toNat)
termination_by buf.length - pos
decreasing_by
  have hpos := (List.getElem?_eq_some_iff.1 h).1
  omega

def skipQuestions (msg : Bytes) : Nat → Nat → Option Nat
  | 0, pos => some pos
  | n + 1, pos => do skipQuestions msg n ((← skipName msg pos) + 4)

/-- The loop over the answers, which ends with the first that something is taken from.  What is taken
depends on the type of the record and on where its data stand. -/
def walkAnswers {α : Type} (msg : Bytes) (take : UInt16 → Nat → Nat → Except OutOfBounds (Option α)) :
    Nat → Nat → Except OutOfBounds (Option α)
  | 0, _ => .ok none
  | n + 1, pos =>
      match skipName msg pos with
      | none => .ok none
      | some pos =>
          if msg.length < pos + 10 then .ok none
          else do
            let rtype ← u16At msg pos
            let rdlen ← u16At msg (pos + 8)
            let pos := pos + 10
            if msg.length < pos + rdlen.toNat then .ok none
            else
              match ← take rtype pos rdlen.toNat with
              | some found => .ok (some found)
              | none => walkAnswers msg take n (pos + rdlen.toNat)

def parseAnswers {α : Type} (msg : Bytes) (take : UInt16 → Nat → Nat → Except OutOfBounds (Option α)) :
    Except OutOfBounds (Option α) :=
  if msg.length < 12 then .ok none
  else do
    let qd ← u16At msg 4
    let an ← u16At msg 6
    match skipQuestions msg qd.toNat 12 with
    | none => .ok none
    | some pos => walkAnswers msg take an.toNat pos

/-- The address of a record of type A with four data bytes. -/
def takeA (resp : Bytes) (rtype : UInt16) (pos rdlen : Nat) : Except OutOfBounds (Option IpAddr) :=
  if rtype = RR_A ∧ rdlen = 4 then do
    let a ← byteAt resp pos
    let b ← byteAt resp (pos + 1)
    let c ← byteAt resp (pos + 2)
    let d ← byteAt resp (pos + 3)
    pure (some (.v4 (IpAddr.quad a b c d)))
  else .ok none

def parseDnsA (resp : Bytes) : Except OutOfBounds (Option IpAddr) :=
  parseAnswers resp (takeA resp)

/-- The loop over the parameters. -/
def svcparamsLoop (msg : Bytes) (stop p : Nat) : Except OutOfBounds (Option Bytes) :=
  if p + 4 ≤ stop then do
    let key ← u16At msg p
    let len ← u16At msg (p + 2)
    if stop < p + 4 + len.toNat then .ok none
    else if key = SVCPARAM_ECH then (sliceOf msg (p + 4) (p + 4 + len.toNat)).map some
    else svcparamsLoop msg stop (p + 4 + len.toNat)
  else .ok none
termination_by stop - p

def parseSvcparamsEch (msg : Bytes) (rdataStart rdlen : Nat) : Except OutOfBounds (Option Bytes) :=
  let stop := rdataStart + rdlen
  if stop < rdataStart + 2 then .ok none
  else
    match skipName msg (rdataStart + 2) with
    | none => .ok none
    | some p => svcparamsLoop msg stop p

def takeEch (msg : Bytes) (rtype : UInt16) (pos rdlen : Nat) : Except OutOfBounds (Option Bytes) :=
  if rtype = RR_HTTPS then parseSvcparamsEch msg pos rdlen else .ok none

def parseHttpsEch (msg : Bytes) : Except OutOfBounds (Option Bytes) :=
  parseAnswers msg (takeEch msg)

/-! ## What is in a message -/

/-- A name on the wire: labels, and then the root or a pointer. -/
structure WireName where
  labels : List Bytes
  pointer : Option (UInt8 × UInt8)
  fits : ∀ label ∈ labels, 1 ≤ label.length ∧ label.length ≤ 63
  marked : ∀ p ∈ pointer, p.1 &&& 0xc0 = 0xc0

def WireName.bytes (name : WireName) : Bytes :=
  name.labels.flatMap (fun label => UInt8.ofNat label.length :: label) ++
    match name.pointer with
    | some (hi, lo) => [hi, lo]
    | none => [0x00]

/-- A parameter of a service. -/
structure SvcParam where
  key : UInt16
  value : Bytes
  fits : value.length < 65536

def SvcParam.bytes (param : SvcParam) : Bytes :=
  toBe 2 param.key.toNat ++ toBe 2 param.value.length ++ param.value

/-- The data of a record, by its type. -/
inductive RecordData
  | https (priority : List.Vector UInt8 2) (target : WireName) (params : List SvcParam)
  | other (rtype : UInt16) (rdata : Bytes) (differs : rtype ≠ RR_HTTPS)

def RecordData.rtype : RecordData → UInt16
  | .https _ _ _ => RR_HTTPS
  | .other rtype _ _ => rtype

def RecordData.bytes : RecordData → Bytes
  | .https priority target params => priority.toList ++ target.bytes ++ params.flatMap SvcParam.bytes
  | .other _ rdata _ => rdata

structure Record where
  owner : WireName
  /-- class and time to live -/
  middle : List.Vector UInt8 6
  data : RecordData
  fits : data.bytes.length < 65536

def Record.bytes (record : Record) : Bytes :=
  record.owner.bytes ++ (toBe 2 record.data.rtype.toNat ++ record.middle.toList ++
    toBe 2 record.data.bytes.length ++ record.data.bytes)

structure Question where
  name : WireName
  /-- type and class -/
  asked : List.Vector UInt8 4

def Question.bytes (question : Question) : Bytes :=
  question.name.bytes ++ question.asked.toList

/-- A response.  What is behind its answers is left as it is. -/
structure Message where
  front : List.Vector UInt8 4
  counts : List.Vector UInt8 4
  questions : List Question
  answers : List Record
  rest : Bytes
  fits : questions.length < 65536 ∧ answers.length < 65536

def Message.bytes (message : Message) : Bytes :=
  message.front.toList ++ toBe 2 message.questions.length ++ toBe 2 message.answers.length ++
    message.counts.toList ++ (message.questions.flatMap Question.bytes ++
      (message.answers.flatMap Record.bytes ++ message.rest))

/-- The address that data are, where they are of type A and four bytes. -/
def addressOf (rtype : UInt16) (rdata : Bytes) : Option IpAddr :=
  if h : rtype = RR_A ∧ rdata.length = 4 then some (.v4 ⟨rdata, h.2⟩) else none

def Record.address (record : Record) : Option IpAddr :=
  addressOf record.data.rtype record.data.bytes

/-- The ech parameter of a record of type HTTPS. -/
def Record.ech (record : Record) : Option Bytes :=
  match record.data with
  | .https _ _ params => (params.find? (·.key = SVCPARAM_ECH)).map (·.value)
  | .other _ _ _ => none

/-- Where the data of a record stand. -/
structure Place where
  rtype : UInt16
  start : Nat
  len : Nat
  deriving DecidableEq

/-- The number at a place of the message, where that is inside. -/
def u16Of (msg : Bytes) (pos : Nat) : UInt16 :=
  fromBe (msg.getD pos 0) (msg.getD (pos + 1) 0)

/-- The answers of any message, as far as it has them. -/
def placesFrom (msg : Bytes) : Nat → Nat → List Place
  | 0, _ => []
  | n + 1, pos =>
      match skipName msg pos with
      | none => []
      | some pos =>
          if msg.length < pos + 10 then []
          else
            let len := (u16Of msg (pos + 8)).toNat
            if msg.length < pos + 10 + len then []
            else ⟨u16Of msg pos, pos + 10, len⟩ :: placesFrom msg n (pos + 10 + len)

def places (msg : Bytes) : List Place :=
  if msg.length < 12 then []
  else
    match skipQuestions msg (u16Of msg 4).toNat 12 with
    | some pos => placesFrom msg (u16Of msg 6).toNat pos
    | none => []

def Inside (msg : Bytes) (place : Place) : Prop :=
  place.start + place.len ≤ msg.length

/-- The data of a record. -/
def dataAt (msg : Bytes) (place : Place) : Bytes :=
  (msg.drop place.start).take place.len

section Total

variable {msg : Bytes} {pos n : Nat} {α : Type}

theorem byteAt_ok (h : pos < msg.length) : byteAt msg pos = .ok (msg.getD pos 0) := by
  unfold byteAt
  rw [List.getD_eq_getElem?_getD, List.getElem?_eq_getElem h]
  rfl

theorem u16At_ok (h : pos + 1 < msg.length) : u16At msg pos = .ok (u16Of msg pos) := by
  unfold u16At
  rw [byteAt_ok (Nat.lt_of_succ_lt h), byteAt_ok h]
  rfl

theorem skipName_none (h : msg[pos]? = none) : skipName msg pos = none := by
  rw [skipName]
  split
  · rfl
  · rename_i len hlen
    exact absurd (h.symm.trans hlen) nofun

theorem skipName_some {len : UInt8} (h : msg[pos]? = some len) : skipName msg pos =
    if len &&& 0xc0 = 0xc0 then some (pos + 2)
    else if len = 0 then some (pos + 1)
    else skipName msg (pos + 1 + len.toNat) := by
  conv_lhs => rw [skipName]
  split
  · rename_i hnone
    exact absurd (h.symm.trans hnone) nofun
  · rename_i len' hlen
    cases h.symm.trans hlen
    rfl

/-- A name is at least one byte. -/
theorem skipName_lt {after : Nat} (h : skipName msg pos = some after) : pos < after := by
  induction pos using skipName.induct msg with
  | case1 pos hnone =>
      rw [skipName_none hnone] at h
      cases h
  | case2 pos len hlen hmark =>
      rw [skipName_some hlen, if_pos hmark] at h
      cases h
      omega
  | case3 pos hlen hmark =>
      rw [skipName_some hlen, if_neg hmark, if_pos rfl] at h
      cases h
      omega
  | case4 pos len hlen hmark hzero ih =>
      rw [skipName_some hlen, if_neg hmark, if_neg hzero] at h
      have := ih h
      omega

/-- The parsers look at the answers one after another. -/
theorem walkAnswers_eq {take : UInt16 → Nat → Nat → Except OutOfBounds (Option α)} {get : Place → Option α}
    (htake : ∀ place : Place, Inside msg place → take place.rtype place.start place.len = .ok (get place)) :
    walkAnswers msg take n pos = .ok ((placesFrom msg n pos).findSome? get) := by
  induction n generalizing pos with
  | zero => rfl
  | succ n ih =>
      unfold walkAnswers placesFrom
      -- neither the name, nor the ten bytes behind it, nor the data may run over the end
      cases skipName msg pos with
      | none => rfl
      | some pos =>
          dsimp only
          by_cases hhead : msg.length < pos + 10
          · rw [if_pos hhead, if_pos hhead]
            rfl
          · rw [if_neg hhead, if_neg hhead, u16At_ok (by omega), u16At_ok (by omega)]
            by_cases hdata : msg.length < pos + 10 + (u16Of msg (pos + 8)).toNat
            · change (if msg.length < pos + 10 + (u16Of msg (pos + 8)).toNat then _ else _) = _
              rw [if_pos hdata, if_pos hdata]
              rfl
            · change (if msg.length < pos + 10 + (u16Of msg (pos + 8)).toNat then _ else _) = _
              rw [if_neg hdata, if_neg hdata, List.findSome?_cons,
                htake ⟨u16Of msg pos, pos + 10, (u16Of msg (pos + 8)).toNat⟩ (Nat.le_of_not_lt hdata)]
              -- the record has what is looked for, or the next one is read from behind its data
              cases get ⟨u16Of msg pos, pos + 10, (u16Of msg (pos + 8)).toNat⟩ with
              | some found => rfl
              | none => exact ih

theorem parseAnswers_eq {take : UInt16 → Nat → Nat → Except OutOfBounds (Option α)} {get : Place → Option α}
    (htake : ∀ place : Place, Inside msg place → take place.rtype place.start place.len = .ok (get place)) :
    parseAnswers msg take = .ok ((places msg).findSome? get) := by
  unfold parseAnswers places
  by_cases hshort : msg.length < 12
  · rw [if_pos hshort, if_pos hshort]
    rfl
  · rw [if_neg hshort, if_neg hshort, u16At_ok (by omega), u16At_ok (by omega)]
    change (match skipQuestions msg (u16Of msg 4).toNat 12 with
      | none => Except.ok none
      | some pos => walkAnswers msg take (u16Of msg 6).toNat pos) = _
    cases skipQuestions msg (u16Of msg 4).toNat 12 with
    | none => rfl
    | some pos => exact walkAnswers_eq htake

/-- The data of an answer are inside of the message. -/
theorem mem_placesFrom {place : Place} (h : place ∈ placesFrom msg n pos) : Inside msg place := by
  induction n generalizing pos with
  | zero => cases h
  | succ n ih =>
      unfold placesFrom at h
      split at h
      · cases h
      · dsimp only at h
        split_ifs at h with hhead hdata
        · cases h
        · cases h
        · rcases List.mem_cons.1 h with rfl | h
          · exact Nat.le_of_not_lt hdata
          · exact ih h

theorem mem_places {place : Place} (h : place ∈ places msg) : Inside msg place := by
  unfold places at h
  split_ifs at h
  · cases h
  · split at h
    · exact mem_placesFrom h
    · cases h

theorem dataAt_of_inside {place : Place} (h : Inside msg place) {i : Nat} (hi : i < place.len) :
    byteAt msg (place.start + i) = .ok ((dataAt msg place).getD i 0) := by
  have hlt : place.start + i < msg.length := Nat.lt_of_lt_of_le (Nat.add_lt_add_left hi _) h
  rw [byteAt_ok hlt, List.getD_eq_getElem?_getD, List.getD_eq_getElem?_getD, dataAt,
    List.getElem?_take_of_lt hi, List.getElem?_drop]

theorem length_dataAt {place : Place} (h : Inside msg place) : (dataAt msg place).length = place.len := by
  unfold dataAt
  unfold Inside at h
  rw [List.length_take, List.length_drop]
  omega

/-- An address is made of the data of its record. -/
theorem takeA_eq {place : Place} (h : Inside msg place) :
    takeA msg place.rtype place.start place.len = .ok (addressOf place.rtype (dataAt msg place)) := by
  have hlen := length_dataAt h
  unfold takeA addressOf
  by_cases htype : place.rtype = RR_A ∧ place.len = 4
  · rw [if_pos htype, dif_pos ⟨htype.1, hlen.trans htype.2⟩]
    have hbyte : ∀ i < 4, byteAt msg (place.start + i) = .ok ((dataAt msg place).getD i 0) :=
      fun i hi => dataAt_of_inside h (htype.2 ▸ hi)
    have hfirst := hbyte 0 (by omega)
    rw [Nat.add_zero] at hfirst
    rw [hfirst, hbyte 1 (by omega), hbyte 2 (by omega), hbyte 3 (by omega)]
    have hfour : ∀ l : Bytes, l.length = 4 → [l.getD 0 0, l.getD 1 0, l.getD 2 0, l.getD 3 0] = l := by
      intro l hl
      match l, hl with
      | [a, b, c, d], _ => rfl
    exact congrArg (fun octets => Except.ok (some (IpAddr.v4 octets)))
      (List.Vector.eq _ _ (hfour _ (hlen.trans htype.2)))
  · rw [if_neg htype, dif_neg fun h => htype ⟨h.1, hlen.symm.trans h.2⟩]

/-- One turn of the loop over the parameters, inside of the message. -/
theorem svcparamsLoop_step {stop p : Nat} (hstop : stop ≤ msg.length) (hp : p + 4 ≤ stop) :
    svcparamsLoop msg stop p =
      if stop < p + 4 + (u16Of msg (p + 2)).toNat then .ok none
      else if u16Of msg p = SVCPARAM_ECH then
        .ok (some ((msg.drop (p + 4)).take (u16Of msg (p + 2)).toNat))
      else svcparamsLoop msg stop (p + 4 + (u16Of msg (p + 2)).toNat) := by
  conv_lhs => rw [svcparamsLoop]
  rw [if_pos hp, u16At_ok (by omega), u16At_ok (by omega)]
  change (if stop < p + 4 + (u16Of msg (p + 2)).toNat then _ else _) = _
  by_cases hlong : stop < p + 4 + (u16Of msg (p + 2)).toNat
  · rw [if_pos hlong, if_pos hlong]
  · have hslice : sliceOf msg (p + 4) (p + 4 + (u16Of msg (p + 2)).toNat) =
        .ok ((msg.drop (p + 4)).take (u16Of msg (p + 2)).toNat) := by
      unfold sliceOf
      rw [if_pos ⟨by omega, by omega⟩, Nat.add_sub_cancel_left]
    rw [if_neg hlong, if_neg hlong, hslice]
    rfl

theorem svcparamsLoop_end {stop p : Nat} (hp : stop < p + 4) : svcparamsLoop msg stop p = .ok none := by
  rw [svcparamsLoop, if_neg (Nat.not_le.2 hp)]

/-- A parameter is a part of the data. -/
theorem svcparamsLoop_ok {stop p : Nat} (hstop : stop ≤ msg.length) :
    ∃ found, svcparamsLoop msg stop p = .ok found ∧ ∀ ech ∈ found,
      ∃ start, p ≤ start ∧ start + ech.length ≤ stop ∧ ech = (msg.drop start).take ech.length := by
  induction hleft : stop - p using Nat.strong_induction_on generalizing p with
  | _ left ih =>
      by_cases hp : p + 4 ≤ stop
      · rw [svcparamsLoop_step hstop hp]
        split_ifs with hlong hkey
        · exact ⟨none, rfl, nofun⟩
        · refine ⟨_, rfl, fun ech hech => ⟨p + 4, Nat.le_add_right _ _, ?_, ?_⟩⟩
          all_goals
            cases hech
            rw [List.length_take, List.length_drop, Nat.min_eq_left (by omega)]
          omega
        · obtain ⟨found, hloop, hfound⟩ := ih _ (by omega) (p := p + 4 + (u16Of msg (p + 2)).toNat) rfl
          refine ⟨found, hloop, fun ech hech => ?_⟩
          obtain ⟨start, hstart, hfits, heq⟩ := hfound ech hech
          exact ⟨start, by omega, hfits, heq⟩
      · exact ⟨none, svcparamsLoop_end (Nat.lt_of_not_le hp), nofun⟩

/-- An ech configuration is a part of the data of its record. -/
theorem takeEch_ok {place : Place} (h : Inside msg place) :
    ∃ found, takeEch msg place.rtype place.start place.len = .ok found ∧ ∀ ech ∈ found,
      place.rtype = RR_HTTPS ∧ ech <:+: dataAt msg place := by
  unfold takeEch
  split_ifs with htype
  · unfold parseSvcparamsEch
    dsimp only
    split_ifs with hshort
    · exact ⟨none, rfl, nofun⟩
    · cases hname : skipName msg (place.start + 2) with
      | none => exact ⟨none, rfl, nofun⟩
      | some p =>
          have hp := skipName_lt hname
          obtain ⟨found, hloop, hfound⟩ := svcparamsLoop_ok (p := p) h
          refine ⟨found, hloop, fun ech hech => ⟨htype, ?_⟩⟩
          obtain ⟨start, hstart, hfits, heq⟩ := hfound ech hech
          -- what the loop cut out of the message lies behind the start of the data
          have hdata : ech = ((dataAt msg place).drop (start - place.start)).take ech.length := by
            have hstart' : place.start + (start - place.start) = start := by omega
            rw [dataAt, List.drop_take, List.drop_drop, hstart', List.take_take,
              Nat.min_eq_left (by omega)]
            exact heq
          rw [hdata]
          exact (List.take_prefix _ _).isInfix.trans (List.drop_suffix _ _).isInfix
  · exact ⟨none, rfl, nofun⟩

end Total

section WellFormed

variable {msg front rest : Bytes} {pos : Nat}

theorem getElem?_front {b : UInt8} (hmsg : msg = front ++ b :: rest) : msg[front.length]? = some b := by
  rw [hmsg, List.getElem?_append_right (Nat.le_refl _), Nat.sub_self]
  rfl

theorem getD_front {b : UInt8} (hmsg : msg = front ++ b :: rest) (hpos : pos = front.length) :
    msg.getD pos 0 = b := by
  rw [hpos, List.getD_eq_getElem?_getD, getElem?_front hmsg]
  rfl

theorem u16Of_front {v : UInt16} (hmsg : msg = front ++ (toBe 2 v.toNat ++ rest)) (hpos : pos = front.length) :
    u16Of msg pos = v := by
  match hbytes : toBe 2 v.toNat, length_toBe 2 v.toNat with
  | [hi, lo], _ =>
      rw [hbytes] at hmsg
      have hlo : msg = (front ++ [hi]) ++ lo :: rest := by rw [hmsg]; simp
      rw [u16Of, getD_front hmsg hpos, getD_front hlo (by simp [hpos]), fromBe_toBe hbytes]

theorem length_front {n : Nat} (hn : n < 65536) (hmsg : msg = front ++ (toBe 2 n ++ rest))
    (hpos : pos = front.length) : (u16Of msg pos).toNat = n := by
  have hnat : (UInt16.ofNat n).toNat = n := UInt16.toNat_ofNat_of_lt' hn
  rw [← hnat] at hmsg
  rw [u16Of_front hmsg hpos, hnat]

theorem label_byte : ∀ n < 64, 1 ≤ n → UInt8.ofNat n &&& 0xc0 ≠ 0xc0 ∧ UInt8.ofNat n ≠ 0 ∧
    (UInt8.ofNat n).toNat = n := by
  decide

theorem skipName_labels {labels : List Bytes} (hfits : ∀ label ∈ labels, 1 ≤ label.length ∧ label.length ≤ 63)
    (hmsg : msg = front ++ (labels.flatMap (fun label => UInt8.ofNat label.length :: label) ++ rest)) :
    skipName msg front.length =
      skipName msg (front.length + (labels.flatMap fun label => UInt8.ofNat label.length :: label).length) := by
  induction labels generalizing front with
  | nil => rfl
  | cons label labels ih =>
      obtain ⟨hone, hmost⟩ := hfits label List.mem_cons_self
      -- a length from 1 to 63 has neither the mark of a pointer nor the zero of the end
      obtain ⟨hmark, hzero, hnat⟩ := label_byte label.length (Nat.lt_succ_of_le hmost) hone
      have hhere : msg = front ++ UInt8.ofNat label.length ::
          (label ++ (labels.flatMap (fun label => UInt8.ofNat label.length :: label) ++ rest)) := by
        rw [hmsg]
        simp
      have hnext : msg = (front ++ UInt8.ofNat label.length :: label) ++
          (labels.flatMap (fun label => UInt8.ofNat label.length :: label) ++ rest) := by
        rw [hmsg]
        simp
      have hrest := ih (fun label hlabel => hfits label (List.mem_cons_of_mem _ hlabel)) hnext
      rw [skipName_some (getElem?_front hhere), if_neg hmark, if_neg hzero, hnat]
      -- the place behind the first label is the length of a longer front
      calc skipName msg (front.length + 1 + label.length)
          = skipName msg (front ++ UInt8.ofNat label.length :: label).length := by
            rw [List.length_append, List.length_cons]
            exact congrArg (skipName msg) (by omega)
        _ = _ := hrest
        _ = _ := by
            rw [List.length_append, List.length_cons, List.flatMap_cons, List.length_append, List.length_cons]
            exact congrArg (skipName msg) (by omega)

theorem skipName_wire {name : WireName} (hmsg : msg = front ++ (name.bytes ++ rest)) :
    skipName msg front.length = some (front.length + name.bytes.length) := by
  unfold WireName.bytes at hmsg ⊢
  rw [List.append_assoc] at hmsg
  rw [skipName_labels name.fits hmsg, List.length_append, ← Nat.add_assoc, ← List.length_append]
  rw [← List.append_assoc] at hmsg
  cases hpointer : name.pointer with
  | none =>
      rw [hpointer] at hmsg
      rw [skipName_some (getElem?_front hmsg), if_neg (by decide), if_pos rfl]
      rfl
  | some p =>
      rw [hpointer] at hmsg
      have hmsg' : msg = (front ++ name.labels.flatMap fun label => UInt8.ofNat label.length :: label) ++
          p.1 :: (p.2 :: rest) := hmsg
      rw [skipName_some (getElem?_front hmsg'), if_pos (name.marked p hpointer)]
      rfl

theorem skipQuestions_message {questions : List Question}
    (hmsg : msg = front ++ (questions.flatMap Question.bytes ++ rest)) :
    skipQuestions msg questions.length front.length =
      some (front.length + (questions.flatMap Question.bytes).length) := by
  induction questions generalizing front with
  | nil => rfl
  | cons question questions ih =>
      have hname : msg = front ++ (question.name.bytes ++
          (question.asked.toList ++ (questions.flatMap Question.bytes ++ rest))) := by
        rw [hmsg]
        simp [Question.bytes]
      have hnext : msg = (front ++ question.bytes) ++ (questions.flatMap Question.bytes ++ rest) := by
        rw [hmsg]
        simp
      have hlength : question.bytes.length = question.name.bytes.length + 4 := by simp [Question.bytes]
      -- a question is its name and four bytes
      calc skipQuestions msg (questions.length + 1) front.length
          = skipQuestions msg questions.length (front.length + question.name.bytes.length + 4) := by
            rw [skipQuestions, skipName_wire hname]
            rfl
        _ = skipQuestions msg questions.length (front ++ question.bytes).length := by
            rw [List.length_append, hlength, Nat.add_assoc]
        _ = _ := ih hnext
        _ = _ := by rw [List.length_append, List.flatMap_cons, List.length_append, Nat.add_assoc]

/-- Where a record's data stand in a message. -/
structure Stands (msg : Bytes) (record : Record) (place : Place) : Prop where
  rtype : place.rtype = record.data.rtype
  len : place.len = record.data.bytes.length
  stands : ∃ front rest, place.start = front.length ∧ msg = front ++ (record.data.bytes ++ rest)

theorem placesFrom_message {records : List Record}
    (hmsg : msg = front ++ (records.flatMap Record.bytes ++ rest)) :
    List.Forall₂ (Stands msg) records (placesFrom msg records.length front.length) := by
  induction records generalizing front with
  | nil => exact .nil
  | cons record records ih =>
      obtain ⟨owner, middle, data, hfits⟩ := record
      -- the message, cut in front of each field that the loop reads
      have howner : msg = front ++ (owner.bytes ++ (toBe 2 data.rtype.toNat ++ (middle.toList ++
          (toBe 2 data.bytes.length ++ (data.bytes ++ (records.flatMap Record.bytes ++ rest)))))) := by
        rw [hmsg]
        simp [Record.bytes]
      have htype : msg = (front ++ owner.bytes) ++ (toBe 2 data.rtype.toNat ++ (middle.toList ++
          (toBe 2 data.bytes.length ++ (data.bytes ++ (records.flatMap Record.bytes ++ rest))))) := by
        rw [howner]
        simp
      have hlen : msg = (front ++ owner.bytes ++ toBe 2 data.rtype.toNat ++ middle.toList) ++
          (toBe 2 data.bytes.length ++ (data.bytes ++ (records.flatMap Record.bytes ++ rest))) := by
        rw [howner]
        simp
      have hdata : msg = (front ++ owner.bytes ++ toBe 2 data.rtype.toNat ++ middle.toList ++
          toBe 2 data.bytes.length) ++ (data.bytes ++ (records.flatMap Record.bytes ++ rest)) := by
        rw [howner]
        simp
      have hnext : msg = (front ++ Record.bytes ⟨owner, middle, data, hfits⟩) ++
          (records.flatMap Record.bytes ++ rest) := by
        rw [hmsg]
        simp
      have hlength : msg.length = front.length + owner.bytes.length + 10 + data.bytes.length +
          (records.flatMap Record.bytes ++ rest).length := by
        rw [hdata]
        simp only [List.length_append, length_toBe, List.Vector.toList_length]
        omega
      have hrtype : u16Of msg (front.length + owner.bytes.length) = data.rtype := u16Of_front htype (by simp)
      have hrdlen : (u16Of msg (front.length + owner.bytes.length + 8)).toNat = data.bytes.length :=
        length_front hfits hlen (by simp; omega)
      have hstart : (front ++ Record.bytes ⟨owner, middle, data, hfits⟩).length =
          front.length + owner.bytes.length + 10 + data.bytes.length := by
        simp [Record.bytes]
        omega
      -- ten bytes of the record stand between its owner and its data
      have hplaces : placesFrom msg (records.length + 1) front.length =
          ⟨data.rtype, front.length + owner.bytes.length + 10, data.bytes.length⟩ ::
            placesFrom msg records.length (front ++ Record.bytes ⟨owner, middle, data, hfits⟩).length := by
        rw [placesFrom, skipName_wire howner]
        dsimp only
        rw [if_neg (by omega), hrdlen, if_neg (by omega), hrtype, hstart]
      rw [List.length_cons, hplaces]
      exact .cons ⟨rfl, rfl, _, _, by simp; omega, hdata⟩ (ih hnext)

theorem places_message (message : Message) :
    List.Forall₂ (Stands message.bytes) message.answers (places message.bytes) := by
  obtain ⟨front, counts, questions, answers, rest, hquestions, hanswers⟩ := message
  dsimp only
  generalize hmsg : Message.bytes ⟨front, counts, questions, answers, rest, hquestions, hanswers⟩ = msg
  -- the message, cut at the counts, at the questions and at the answers
  have hqd : msg = front.toList ++ (toBe 2 questions.length ++ (toBe 2 answers.length ++ (counts.toList ++
      (questions.flatMap Question.bytes ++ (answers.flatMap Record.bytes ++ rest))))) := by
    rw [← hmsg]
    simp [Message.bytes]
  have han : msg = (front.toList ++ toBe 2 questions.length) ++ (toBe 2 answers.length ++ (counts.toList ++
      (questions.flatMap Question.bytes ++ (answers.flatMap Record.bytes ++ rest)))) := by
    rw [hqd]
    simp
  have hquestion : msg = (front.toList ++ toBe 2 questions.length ++ toBe 2 answers.length ++ counts.toList) ++
      (questions.flatMap Question.bytes ++ (answers.flatMap Record.bytes ++ rest)) := by
    rw [hqd]
    simp
  have hanswer : msg = (front.toList ++ toBe 2 questions.length ++ toBe 2 answers.length ++ counts.toList ++
      questions.flatMap Question.bytes) ++ (answers.flatMap Record.bytes ++ rest) := by
    rw [hqd]
    simp
  have hstart : (front.toList ++ toBe 2 questions.length ++ toBe 2 answers.length ++ counts.toList).length = 12 := by
    simp
  -- a message that holds the fixed header is not too short
  have hshort : ¬ msg.length < 12 := by
    rw [hquestion, List.length_append, hstart]
    omega
  have hskip := skipQuestions_message hquestion
  rw [hstart] at hskip
  unfold places
  rw [if_neg hshort, length_front hquestions hqd (by simp), length_front hanswers han (by simp), hskip]
  have hplaces := placesFrom_message hanswer
  rw [List.length_append, hstart] at hplaces
  exact hplaces

theorem Stands.dataAt {record : Record} {place : Place} (h : Stands msg record place) :
    Inside msg place ∧ dataAt msg place = record.data.bytes := by
  obtain ⟨front, rest, hstart, hmsg⟩ := h.stands
  constructor
  · unfold Inside
    rw [hmsg, hstart, h.len, List.length_append, List.length_append]
    omega
  · rw [Dns.dataAt, hmsg, hstart, h.len, List.drop_left, List.take_left]

/-- The loop finds the first parameter with the key. -/
theorem svcparamsLoop_message {params : List SvcParam} {stop : Nat}
    (hmsg : msg = front ++ (params.flatMap SvcParam.bytes ++ rest))
    (hstop : stop = front.length + (params.flatMap SvcParam.bytes).length) :
    svcparamsLoop msg stop front.length =
      .ok ((params.find? (·.key = SVCPARAM_ECH)).map (·.value)) := by
  induction params generalizing front with
  | nil => exact svcparamsLoop_end (by simp at hstop; omega)
  | cons param params ih =>
      obtain ⟨key, value, hfits⟩ := param
      -- the parameter, cut in front of its key, its length and its value
      have hkey : msg = front ++ (toBe 2 key.toNat ++ (toBe 2 value.length ++
          (value ++ (params.flatMap SvcParam.bytes ++ rest)))) := by
        rw [hmsg]
        simp [SvcParam.bytes]
      have hlen : msg = (front ++ toBe 2 key.toNat) ++ (toBe 2 value.length ++
          (value ++ (params.flatMap SvcParam.bytes ++ rest))) := by
        rw [hkey]
        simp
      have hvalue : msg = (front ++ toBe 2 key.toNat ++ toBe 2 value.length) ++
          (value ++ (params.flatMap SvcParam.bytes ++ rest)) := by
        rw [hkey]
        simp
      have hnext : msg = (front ++ SvcParam.bytes ⟨key, value, hfits⟩) ++
          (params.flatMap SvcParam.bytes ++ rest) := by
        rw [hmsg]
        simp
      have hnextlen : (front ++ SvcParam.bytes ⟨key, value, hfits⟩).length = front.length + 4 + value.length := by
        simp [SvcParam.bytes]
        omega
      have hbound : stop = front.length + 4 + value.length + (params.flatMap SvcParam.bytes).length := by
        rw [hstop]
        simp [SvcParam.bytes]
        omega
      have hinside : stop ≤ msg.length := by
        rw [hnext, List.length_append, hnextlen, List.length_append]
        omega
      rw [svcparamsLoop_step hinside (by omega), length_front hfits hlen (by simp), u16Of_front hkey rfl,
        if_neg (by omega)]
      -- the first parameter with the key ends the loop
      by_cases hech : key = SVCPARAM_ECH
      · have hslice : (msg.drop (front.length + 4)).take value.length = value := by
          have hfour : (front ++ toBe 2 key.toNat ++ toBe 2 value.length).length = front.length + 4 := by simp
          rw [hvalue, ← hfour, List.drop_left, List.take_left]
        have hfind : (SvcParam.mk key value hfits :: params).find? (·.key = SVCPARAM_ECH) =
            some ⟨key, value, hfits⟩ := List.find?_cons_of_pos (decide_eq_true hech)
        rw [if_pos hech, hslice, hfind]
        rfl
      -- any other one is stepped over, by what its length says
      · have hfind : (SvcParam.mk key value hfits :: params).find? (·.key = SVCPARAM_ECH) =
            params.find? (·.key = SVCPARAM_ECH) := List.find?_cons_of_neg (by simpa using hech)
        rw [if_neg hech, hfind, ← hnextlen]
        exact ih hnext (by rw [hbound, hnextlen])

theorem takeEch_stands {record : Record} {place : Place} (h : Stands msg record place) :
    takeEch msg place.rtype place.start place.len = .ok record.ech := by
  obtain ⟨owner, middle, data, hfits⟩ := record
  obtain ⟨hrtype, hlen, front, rest, hstart, hmsg⟩ := h
  cases data with
  -- a record of another type is not looked into
  | other rtype rdata hdiffers =>
      exact if_neg fun htype => hdiffers (hrtype.symm.trans htype)
  | https priority target params =>
      -- the data of the record, behind the priority and behind the target
      have htarget : msg = (front ++ priority.toList) ++ (target.bytes ++
          (params.flatMap SvcParam.bytes ++ rest)) := by
        rw [hmsg]
        simp [RecordData.bytes]
      have hparams : msg = (front ++ priority.toList ++ target.bytes) ++
          (params.flatMap SvcParam.bytes ++ rest) := by
        rw [htarget]
        simp
      have hname := skipName_wire htarget
      have hlength : place.len = 2 + target.bytes.length + (params.flatMap SvcParam.bytes).length := by
        rw [hlen]
        simp only [RecordData.bytes, List.length_append, List.Vector.toList_length]
      have hfront : (front ++ priority.toList).length = place.start + 2 := by simp [hstart]
      rw [hfront] at hname
      have hstop : place.start + place.len =
          (front ++ priority.toList ++ target.bytes).length + (params.flatMap SvcParam.bytes).length := by
        rw [List.length_append, hfront, hlength]
        omega
      have hloop := svcparamsLoop_message hparams hstop
      rw [List.length_append, hfront] at hloop
      have htype : place.rtype = RR_HTTPS := hrtype
      unfold takeEch parseSvcparamsEch
      rw [if_pos htype]
      dsimp only
      rw [if_neg (by omega), hname]
      exact hloop

end WellFormed

section Parsers

variable {msg : Bytes}

theorem findSome?_stands {α : Type} {records : List Record} {found : List Place}
    {get : Record → Option α} {get' : Place → Option α} (h : List.Forall₂ (Stands msg) records found)
    (hget : ∀ record place, Stands msg record place → get' place = get record) :
    found.findSome? get' = records.findSome? get := by
  induction h with
  | nil => rfl
  | cons hhead _ ih => rw [List.findSome?_cons, List.findSome?_cons, hget _ _ hhead, ih]

theorem parseDnsA_eq (msg : Bytes) :
    parseDnsA msg = .ok ((places msg).findSome? fun place => addressOf place.rtype (dataAt msg place)) :=
  parseAnswers_eq fun _ h => takeA_eq h

theorem parseDnsA_message (message : Message) :
    parseDnsA message.bytes = .ok (message.answers.findSome? Record.address) := by
  rw [parseDnsA_eq, findSome?_stands (places_message message)]
  intro record place h
  rw [h.dataAt.2, h.rtype]
  rfl

/-- What `takeEch` gives. -/
def echOf (msg : Bytes) (place : Place) : Option Bytes :=
  match takeEch msg place.rtype place.start place.len with
  | .ok found => found
  | .error _ => none

theorem parseHttpsEch_eq (msg : Bytes) : parseHttpsEch msg = .ok ((places msg).findSome? (echOf msg)) := by
  refine parseAnswers_eq fun place h => ?_
  obtain ⟨found, htake, -⟩ := takeEch_ok h
  rw [echOf, htake]

theorem parseHttpsEch_message (message : Message) :
    parseHttpsEch message.bytes = .ok (message.answers.findSome? Record.ech) := by
  rw [parseHttpsEch_eq, findSome?_stands (places_message message)]
  intro record place h
  rw [echOf, takeEch_stands h]

theorem parseDnsA_own {ip : IpAddr} (h : parseDnsA msg = .ok (some ip)) :
    ∃ place ∈ places msg, Inside msg place ∧ place.rtype = RR_A ∧
      ∃ octets, ip = .v4 octets ∧ octets.toList = dataAt msg place := by
  rw [parseDnsA_eq] at h
  obtain ⟨place, hplace, haddress⟩ := List.exists_of_findSome?_eq_some (Except.ok.inj h)
  unfold addressOf at haddress
  split_ifs at haddress with htype
  exact ⟨place, hplace, mem_places hplace, htype.1, _, (Option.some.inj haddress).symm, rfl⟩

theorem parseHttpsEch_own {ech : Bytes} (h : parseHttpsEch msg = .ok (some ech)) :
    ∃ place ∈ places msg, Inside msg place ∧ place.rtype = RR_HTTPS ∧ ech <:+: dataAt msg place := by
  rw [parseHttpsEch_eq] at h
  obtain ⟨place, hplace, hech⟩ := List.exists_of_findSome?_eq_some (Except.ok.inj h)
  obtain ⟨found, htake, hfound⟩ := takeEch_ok (mem_places hplace)
  rw [echOf, htake] at hech
  exact ⟨place, hplace, mem_places hplace, hfound ech hech⟩

end Parsers

/-- **What the parsers return**: of a well-formed message, what its first answer of the kind has; of any
message, without a panic, nothing but data of an answer of it. -/
theorem answers_parsed :
    (∀ message : Message, parseDnsA message.bytes = .ok (message.answers.findSome? Record.address) ∧
      parseHttpsEch message.bytes = .ok (message.answers.findSome? Record.ech)) ∧
    (∀ msg, ∃ a ech, parseDnsA msg = .ok a ∧ parseHttpsEch msg = .ok ech ∧
      (∀ ip ∈ a, ∃ place ∈ places msg, Inside msg place ∧ place.rtype = RR_A ∧
        ∃ octets, ip = .v4 octets ∧ octets.toList = dataAt msg place) ∧
      ∀ bytes ∈ ech, ∃ place ∈ places msg, Inside msg place ∧ place.rtype = RR_HTTPS ∧
        bytes <:+: dataAt msg place) := by
  refine ⟨fun message => ⟨parseDnsA_message message, parseHttpsEch_message message⟩, fun msg => ?_⟩
  refine ⟨_, _, parseDnsA_eq msg, parseHttpsEch_eq msg, fun ip hip => ?_, fun bytes hbytes => ?_⟩
  · exact parseDnsA_own ((parseDnsA_eq msg).trans (congrArg Except.ok hip))
  · exact parseHttpsEch_own ((parseHttpsEch_eq msg).trans (congrArg Except.ok hbytes))

end Dns
end AuroraVpn
