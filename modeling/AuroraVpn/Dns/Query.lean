import AuroraVpn.Lib.BigEndian
import AuroraVpn.Lib.Encode
import AuroraVpn.Lib.Joined
import Mathlib.Tactic.SplitIfs

/-!
# Query — what a name is asked for with

`build_dns_query` and `dns_response_matches` of `socks.rs`, and `build_query` and `response_matches` of
`dns.rs`, which are the same two functions over again, but for the empty labels of a name.

* `matchLabels_written`: a name is found where it was written.
* `roundTrips_iff`: the names that both write, and find again.
-/

namespace AuroraVpn
namespace Dns

open BigEndian Utf8

/-! ## Asking -/

/-- `name.split('.')`. -/
def labelsOf (name : Text) : List Text :=
  name.splitOn '.'

/-- A label behind its length. -/
def pushLabel (label : Text) : Bytes :=
  UInt8.ofNat (encode label).length :: encode label

/-- A query for the labels. -/
def queryFor (labels : List Text) (qtype id : UInt16) : Bytes :=
  toBe 2 id.toNat ++ [0x01, 0x00] ++ [0x00, 0x01] ++ [0x00, 0x00, 0x00, 0x00, 0x00, 0x00] ++
    labels.flatMap pushLabel ++ [0x00] ++ toBe 2 qtype.toNat ++ [0x00, 0x01]

def buildDnsQuery (name : Text) (qtype id : UInt16) : Bytes × UInt16 :=
  (queryFor (labelsOf name) qtype id, id)

def buildQuery (name : Text) (qtype id : UInt16) : Bytes × UInt16 :=
  (queryFor ((labelsOf name).filter (· ≠ [])) qtype id, id)

/-! ## Being answered -/

/-- `u8::to_ascii_lowercase`. -/
def asciiLower (b : UInt8) : UInt8 :=
  if 0x41 ≤ b ∧ b ≤ 0x5A then b + 0x20 else b

/-- The loop over the labels: what stands behind them, where they are there. -/
def matchLabels : List Text → Bytes → Option Bytes
  | [], msg => some msg
  | label :: labels, msg =>
      if label = [] then matchLabels labels msg
      else
        match msg with
        | [] => none
        | len :: msg =>
            if len.toNat ≠ (encode label).length then none
            else if msg.length < len.toNat then none
            else if (msg.take len.toNat).map asciiLower = (encode label).map asciiLower then
              matchLabels labels (msg.drop len.toNat)
            else none

/-- `u16::from_be_bytes`. -/
def fromBe (hi lo : UInt8) : UInt16 :=
  UInt16.ofNat (ofBe [hi, lo])

/-- Whether a message answers what was asked under a number. -/
def responseMatches (msg : Bytes) (expectedId : UInt16) (expectedName : Text) (expectedQtype : UInt16) :
    Bool :=
  match msg with
  | id₁ :: id₀ :: flags :: _ :: qd₁ :: qd₀ :: _ :: _ :: _ :: _ :: _ :: _ :: question =>
      if fromBe id₁ id₀ ≠ expectedId then false
      else if flags &&& 0x80 = 0 then false
      else if fromBe qd₁ qd₀ ≠ 1 then false
      else
        match matchLabels (labelsOf expectedName) question with
        | some (0x00 :: hi :: lo :: _ :: _ :: _) => fromBe hi lo = expectedQtype
        | _ => false
  | _ => false

def dnsResponseMatches (resp : Bytes) (expectedId : UInt16) (expectedName : Text) (expectedQtype : UInt16) :
    Bool :=
  responseMatches resp expectedId expectedName expectedQtype

/-! ## What the format says -/

/-- A host name: labels of 1 to 63 bytes, and perhaps the dot of the root. -/
structure HostName where
  labels : List Text
  rooted : Bool
  some_label : labels ≠ []
  fits : ∀ label ∈ labels, 1 ≤ (encode label).length ∧ (encode label).length ≤ 63
  undotted : ∀ label ∈ labels, '.' ∉ label

/-- How a client writes it. -/
def HostName.text (name : HostName) : Text :=
  ['.'].intercalate name.labels ++ if name.rooted then ['.'] else []

/-- The question for a name in the class of the internet. -/
def question (labels : List Text) (qtype : UInt16) : Bytes :=
  labels.flatMap pushLabel ++ [0x00] ++ toBe 2 qtype.toNat ++ [0x00, 0x01]

/-- A message that repeats the question of a query, as an answer does. -/
def Echoes (query resp : Bytes) (id : UInt16) : Prop :=
  ∃ (flags flags' : UInt8) (counts rest : Bytes), flags &&& 0x80 ≠ 0 ∧ counts.length = 6 ∧
    resp = toBe 2 id.toNat ++ [flags, flags', 0x00, 0x01] ++ counts ++ (query.drop 12 ++ rest)

/-- What a name is asked for with is the question for it, and is recognised in an answer. -/
structure RoundTrips (name : HostName) (qtype id : UInt16) : Prop where
  written : (buildDnsQuery name.text qtype id).1.drop 12 = question name.labels qtype
  written' : (buildQuery name.text qtype id).1.drop 12 = question name.labels qtype
  taken : ∀ resp, Echoes (buildDnsQuery name.text qtype id).1 resp id →
    dnsResponseMatches resp id name.text qtype = true
  taken' : ∀ resp, Echoes (buildQuery name.text qtype id).1 resp id →
    responseMatches resp id name.text qtype = true
  same : buildDnsQuery name.text qtype id = buildQuery name.text qtype id

section Proofs

variable {labels : List Text} {qtype id : UInt16} {rest : Bytes}

theorem drop_queryFor (labels : List Text) (qtype id : UInt16) :
    (queryFor labels qtype id).drop 12 = question labels qtype := by
  have hid : (toBe 2 id.toNat).length = 2 := length_toBe 2 _
  match hbytes : toBe 2 id.toNat, hid with
  | [hi, lo], _ => simp [queryFor, question, hbytes]

/-- The labels of a name, with an empty one for the dot of the root. -/
theorem labelsOf_text (name : HostName) :
    labelsOf name.text = name.labels ++ if name.rooted then [[]] else [] := by
  have happend : name.text = ['.'].intercalate (name.labels ++ if name.rooted then [[]] else []) := by
    unfold HostName.text
    split_ifs
    · rw [intercalate_append name.some_label (List.cons_ne_nil _ _)]
      rfl
    · rw [List.append_nil, List.append_nil]
  rw [happend, labelsOf, List.splitOn_intercalate]
  · intro label hlabel
    rcases List.mem_append.1 hlabel with hlabel | hlabel
    · exact name.undotted label hlabel
    · split_ifs at hlabel
      · rw [List.mem_singleton.1 hlabel]
        exact nofun
      · cases hlabel
  · exact fun h => name.some_label (List.append_eq_nil_iff.1 h).1

theorem ne_nil_of_fits {label : Text} (h : 1 ≤ (encode label).length) : label ≠ [] := by
  rintro rfl
  exact absurd h (by decide)

/-- A name is found where it was written. -/
theorem matchLabels_written (h : ∀ label ∈ labels, 1 ≤ (encode label).length ∧ (encode label).length ≤ 63)
    {more : List Text} :
    matchLabels (labels ++ more) (labels.flatMap pushLabel ++ rest) = matchLabels more rest := by
  induction labels with
  | nil => rfl
  | cons label labels ih =>
      obtain ⟨hone, hmost⟩ := h label List.mem_cons_self
      have hlen : (UInt8.ofNat (encode label).length).toNat = (encode label).length :=
        UInt8.toNat_ofNat_of_lt' (hmost.trans_lt (by decide))
      have hrest := ih fun label hlabel => h label (List.mem_cons_of_mem _ hlabel)
      have hwritten : (label :: labels).flatMap pushLabel ++ rest =
          UInt8.ofNat (encode label).length :: (encode label ++ (labels.flatMap pushLabel ++ rest)) := by
        simp [pushLabel]
      rw [hwritten, List.cons_append, matchLabels, if_neg (ne_nil_of_fits hone), hlen, if_neg (not_not.2 rfl),
        if_neg (by simp), List.take_left, if_pos rfl, List.drop_left, hrest]

theorem matchLabels_root (msg : Bytes) (rooted : Bool) :
    matchLabels (if rooted then [[]] else []) msg = some msg := by
  cases rooted <;> rfl

theorem fromBe_toBe {v : UInt16} {hi lo : UInt8} (h : toBe 2 v.toNat = [hi, lo]) : fromBe hi lo = v := by
  have hlt : v.toNat < 256 ^ 2 := v.toNat_lt
  rw [fromBe, ← h, ofBe_toBe, Nat.mod_eq_of_lt hlt, UInt16.ofNat_toNat]

/-- What follows the name in an echo is what was asked of it. -/
theorem responseMatches_echo (name : HostName) {query resp : Bytes}
    (hquery : query.drop 12 = question name.labels qtype) (h : Echoes query resp id) :
    responseMatches resp id name.text qtype = true := by
  obtain ⟨flags, flags', counts, rest, hflags, hcounts, rfl⟩ := h
  match hid : toBe 2 id.toNat, length_toBe 2 id.toNat, counts, hcounts with
  | [id₁, id₀], _, [a, b, c, d, e, f], _ =>
      match hqtype : toBe 2 qtype.toNat, length_toBe 2 qtype.toNat with
      | [hi, lo], _ =>
          have hname : matchLabels (labelsOf name.text) (query.drop 12 ++ rest) =
              some (0x00 :: hi :: lo :: 0x00 :: 0x01 :: rest) := by
            rw [hquery, question, hqtype, labelsOf_text, List.append_assoc, List.append_assoc, List.append_assoc,
              matchLabels_written name.fits, matchLabels_root]
            rfl
          change (if fromBe id₁ id₀ ≠ id then false else if flags &&& 0x80 = 0 then false
            else if fromBe 0x00 0x01 ≠ 1 then false
            else match matchLabels (labelsOf name.text) (query.drop 12 ++ rest) with
              | some (0x00 :: hi :: lo :: _ :: _ :: _) => decide (fromBe hi lo = qtype)
              | _ => false) = true
          rw [if_neg (not_not.2 (fromBe_toBe hid)), if_neg hflags, if_neg (by decide), hname]
          exact decide_eq_true (fromBe_toBe hqtype)

theorem filter_labelsOf_text (name : HostName) : (labelsOf name.text).filter (· ≠ []) = name.labels := by
  have hkeep : name.labels.filter (· ≠ []) = name.labels :=
    List.filter_eq_self.2 fun label hlabel => decide_eq_true (ne_nil_of_fits (name.fits label hlabel).1)
  rw [labelsOf_text, List.filter_append, hkeep]
  cases name.rooted <;> simp

end Proofs

/-- **Both write a name, and find it again, just when it has no dot of the root.** -/
theorem roundTrips_iff (name : HostName) (qtype id : UInt16) :
    RoundTrips name qtype id ↔ name.rooted = false := by
  have hbuild : buildQuery name.text qtype id = (queryFor name.labels qtype id, id) := by
    rw [buildQuery, filter_labelsOf_text]
  constructor
  · intro h
    -- the empty label is one byte more
    have hlength := congrArg List.length h.written
    rw [buildDnsQuery, drop_queryFor, labelsOf_text] at hlength
    cases hrooted : name.rooted with
    | false => rfl
    | true => simp [hrooted, question, pushLabel] at hlength
  · intro hrooted
    have hlabels : labelsOf name.text = name.labels := by
      rw [labelsOf_text, hrooted, if_neg Bool.false_ne_true, List.append_nil]
    have hsame : buildDnsQuery name.text qtype id = buildQuery name.text qtype id := by
      rw [hbuild, buildDnsQuery, hlabels]
    have hwritten : (buildQuery name.text qtype id).1.drop 12 = question name.labels qtype := by
      rw [hbuild]
      exact drop_queryFor _ _ _
    exact ⟨hsame ▸ hwritten, hwritten, fun resp h => responseMatches_echo name (hsame ▸ hwritten) h,
      fun resp h => responseMatches_echo name hwritten h, hsame⟩

/-- `a.` is asked for with a label too many, and its answer is not recognised. -/
theorem rooted_not_recognised : ∃ name : HostName, name.text = "a.".toList ∧ ¬ RoundTrips name 1 7 := by
  let name : HostName :=
    { labels := [['a']], rooted := true, some_label := nofun, fits := by decide, undotted := by decide }
  refine ⟨name, rfl, fun h => ?_⟩
  have htaken := h.taken _ ⟨0x81, 0x80, [0, 0, 0, 0, 0, 0], [], by decide, rfl, rfl⟩
  exact absurd htaken (by decide)

end Dns
end AuroraVpn
