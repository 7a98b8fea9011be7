import AuroraVpn.Engine.Probing
import AuroraVpn.Lib.Utf8
import Mathlib.Data.List.Infix

/-!
# Classify — why a probe produced no gateway

`ProbeFailure::of` of `prober.rs`, which reads the kind of a failure off the error and its message, and
the messages that `verify_h2`, `verify_masque`, `quic::run` and `masque_http_ping` end with where the edge
refuses `connect-ip` or a deadline passes.

* `huntLoop_stops`: where the loop of a hunt stops because of one answer.
* `infix_append_iff`: what a text is found in, behind a beginning that it does not reach into.
* `of_masqueRefused`, `of_runRefused`, `of_h2Refused`: the refusals of the three framings.
* `of_late`: a deadline that has passed.
* `classified_iff`: which failures are classified by what happened.
-/

namespace AuroraVpn
namespace Engine
namespace Classify

open Program (outcome outcome_bind outcome_throw)
open Utf8

/-! ## Hunts -/

/-- Where `hunt_best_gateway` stops because of one answer, over the results of the probes as they come in;
there is none once a gateway was found. -/
def huntStop (tally : FailureTally) : List (Option ProbeFailure) → Option (ProbeFailure × Nat)
  | [] => none
  | none :: _ => none
  | some why :: rest =>
      match (tally.record why).commonMode with
      | some stop => some stop
      | none => huntStop (tally.record why) rest

/-- What a probe of a hunt counts as. -/
def failureOf : Except AetherError Nat → Option ProbeFailure
  | .ok _ => none
  | .error error => some (.of error)

/-- **The loop of a hunt ends with the kind that `huntStop` names.** -/
theorem huntLoop_stops {answers : Answers} {st : Strategy}
    {probe : SocketAddr → Task (Except AetherError Nat)} {results : SocketAddr → Except AetherError Nat}
    (hprobe : ∀ peer, outcome answers (probe peer) = .ok (results peer)) (peers : List SocketAddr)
    (rest : List Turn) (found : Nat) (tally : FailureTally) {kind : ProbeFailure} {count : Nat}
    (h : huntStop tally (peers.map fun peer => failureOf (results peer)) = some (kind, count)) :
    outcome answers
        (huntLoop st FailureTally.commonMode probe (peers.map .ended ++ rest) none found tally) =
      .error (sameAnswer kind) := by
  induction peers generalizing tally with
  | nil => cases h
  | cons peer peers ih =>
      rw [List.map_cons, List.cons_append, huntLoop, outcome_bind, hprobe]
      rw [List.map_cons] at h
      cases hresult : results peer with
      | ok rtt =>
          rw [hresult] at h
          cases h
      | error error =>
          rw [hresult] at h
          change (match (tally.record (.of error)).commonMode with
            | some stop => some stop
            | none => huntStop (tally.record (.of error)) _) = _ at h
          -- the loop counts the failure and looks at the counts as `huntStop` does
          cases hmode : (tally.record (.of error)).commonMode with
          | some stop =>
              rw [hmode] at h
              cases h
              simp only [Except.bind, hmode, outcome_throw]
          | none =>
              rw [hmode] at h
              simp only [Except.bind, hmode]
              exact ih (tally.record (.of error)) h

/-! ## The errors of the framings -/

def isSuccess (status : Nat) : Bool :=
  200 ≤ status ∧ status < 300

/-- The status, and the headers in which Cloudflare explains itself. -/
def describeRefusal (status : Nat) (headers : List (Text × Option Text)) : Text :=
  "h2 connect-ip status ".toList ++ (Nat.toDigits 10 status ++ headers.flatMap fun (name, value) =>
    if "cf-".toList <+: name ∨ name = "reason".toList ∨ name = "x-error".toList then
      "; ".toList ++ name ++ "=".toList ++ value.getD "<not text>".toList
    else [])

/-- What `verify_h2` makes of the response. -/
def verifyH2 (status : Nat) (headers : List (Text × Option Text)) : Option AetherError :=
  if isSuccess status then none else some (.masque (String.ofList (describeRefusal status headers)))

abbrev Header := Bytes × Bytes

def STATUS : Bytes := asciiBytes ":status".toList

/-- What `verify_masque` makes of the headers of the response: it waits for data, or is done, or fails. -/
def verifyMasque (dataCheck : Bool) : List Header → Option (Except AetherError Unit)
  | [] => none
  | (name, value) :: list =>
      if name = STATUS then
        if value = asciiBytes "200".toList then
          if dataCheck then verifyMasque dataCheck list else some (.ok ())
        else
          some (.error (.other ("status " ++ String.ofList (fromUtf8Lossy value))))
      else
        verifyMasque dataCheck list

/-- What `poll_h3` makes of the headers of the response, for `quic::run`. -/
def pollH3 : List Header → Except AetherError Unit
  | [] => .ok ()
  | (name, value) :: list =>
      if name = STATUS ∧ (fromUtf8Lossy value).head? ≠ some '2' then
        .error (.masque ("the edge refused connect-ip with status " ++ String.ofList (fromUtf8Lossy value)))
      else
        pollH3 list

/-- Where a deadline is kept. -/
inductive Deadline
  | verifyH2
  | verifyMasque
  /-- `quic::run` waits for the data plane. -/
  | run
  /-- `masque_http_ping`, and the response that it asks for. -/
  | ping
  | response
  deriving DecidableEq

/-- The error where the deadline has passed. -/
def Deadline.error : Deadline → AetherError
  | .verifyH2 => .other "h2 verify timeout"
  | .verifyMasque => .other "verify timeout"
  | .run => .masque "data-plane validation timeout (handshake ok, no traffic)"
  | .ping => .other "ironclad http probe timeout"
  | .response => .other "http probe response timeout"

/-! ## What happened -/

inductive Probe
  /-- The edge answers `connect-ip`. -/
  | h2 (status : Nat) (headers : List (Text × Option Text))
  | masque (dataCheck : Bool) (headers : List Header)
  | run (headers : List Header)
  /-- A deadline passes. -/
  | late (deadline : Deadline)

def Probe.error : Probe → Option AetherError
  | .h2 status headers => verifyH2 status headers
  | .masque dataCheck headers =>
      match verifyMasque dataCheck headers with
      | some (.error e) => some e
      | _ => none
  | .run headers =>
      match pollH3 headers with
      | .error e => some e
      | .ok _ => none
  | .late deadline => some deadline.error

/-- The status of a response over HTTP/3. -/
def statusOf (headers : List Header) : Option Text :=
  (headers.find? fun header => header.1 = STATUS).map fun header => fromUtf8Lossy header.2

/-- The kind of what happened: the edge refuses, or nothing comes back before the deadline. -/
def Probe.kind : Probe → Option ProbeFailure
  | .h2 status _ => if isSuccess status then none else some .connectIpRefused
  | .masque _ headers | .run headers =>
      (statusOf headers).bind fun status => if status.head? = some '2' then none else some .connectIpRefused
  | .late _ => some .noAnswer

/-- The message of the failure names its kind: a refusal over HTTP/2, or a status over HTTP/3 that says so
itself. -/
def Probe.Told : Probe → Prop
  | .h2 _ _ => True
  | .masque _ headers | .run headers =>
      ∀ status ∈ statusOf headers, contains (status.map Char.toLower) "connect-ip status" = true
  | .late _ => False

def Probe.failure (p : Probe) : Option ProbeFailure :=
  p.error.map ProbeFailure.of

/-! ## Texts -/

section Texts

variable {needle before text : Text}

/-- What stands in the middle of two texts stands behind the first, or reaches into it. -/
theorem infix_append_iff (hapart : ∀ i < before.length,
      needle.take (before.length - i) ≠ (before.drop i).take needle.length) :
    needle <:+: before ++ text ↔ needle <:+: text := by
  constructor
  · rintro ⟨left, right, heq⟩
    by_cases hleft : before.length ≤ left.length
    · -- the needle begins behind the first text
      obtain ⟨rest, rfl⟩ : before <+: left := by
        refine List.prefix_of_prefix_length_le (List.prefix_append before text) ?_ hleft
        exact ⟨needle ++ right, by rw [← List.append_assoc, heq]⟩
      refine ⟨rest, right, ?_⟩
      rw [List.append_assoc, List.append_assoc] at heq
      rw [List.append_assoc]
      exact List.append_cancel_left heq
    · exfalso
      have hlt : left.length < before.length := Nat.lt_of_not_le hleft
      refine hapart left.length hlt ?_
      have hdrop : needle ++ right = before.drop left.length ++ text := by
        have hdrop := congrArg (List.drop left.length) heq
        rw [List.append_assoc, List.drop_left, List.drop_append_of_le_length hlt.le] at hdrop
        exact hdrop
      -- both are the beginning that the two sides have in common
      calc
        needle.take (before.length - left.length)
            = (needle.take needle.length).take (before.length - left.length) := by rw [List.take_length]
        _ = (needle ++ right).take (min (before.length - left.length) needle.length) := by
            rw [List.take_take, List.take_append_of_le_length (Nat.min_le_right _ _)]
        _ = (before.drop left.length ++ text).take (min (before.length - left.length) needle.length) := by
            rw [hdrop]
        _ = (before.drop left.length).take needle.length := by
            rw [List.take_append_of_le_length (by rw [List.length_drop]; exact Nat.min_le_left _ _),
              min_comm, ← List.take_take]
            congr 1
            rw [← List.length_drop, List.take_length]
  · exact fun h => h.trans (List.suffix_append before text).isInfix

theorem contains_iff {text : Text} {needle : String} :
    contains text needle = true ↔ needle.toList <:+: text := by
  unfold contains
  exact decide_eq_true_iff

theorem contains_append_iff {needle : String} {before text : Text}
    (hapart : ∀ i < before.length,
      needle.toList.take (before.length - i) ≠ (before.drop i).take needle.toList.length) :
    contains (before ++ text) needle = true ↔ contains text needle = true := by
  rw [contains_iff, contains_iff]
  exact infix_append_iff hapart

end Texts

/-! ## What the messages are taken for -/

theorem ofText_eq_connectIpRefused_iff {text : Text} :
    ProbeFailure.ofText text = .connectIpRefused ↔ contains text "connect-ip status" = true := by
  unfold ProbeFailure.ofText
  constructor
  · intro h
    by_contra hnot
    rw [if_neg hnot] at h
    split at h
    · cases h
    split at h
    · cases h
    split at h <;> cases h
  · exact fun h => if_pos h

theorem toLower_literal {s : String} {t : Text} (h : s = String.ofList t) (ht : t.map Char.toLower = t) :
    s.toList.map Char.toLower = s.toList := by
  rw [toList_literal h, ht]

theorem of_masque (message : Text) :
    ProbeFailure.of (.masque (String.ofList message)) =
      ProbeFailure.ofText ("masque: ".toList ++ message.map Char.toLower) := by
  have hlower : "masque: ".toList.map Char.toLower = "masque: ".toList := toLower_literal rfl (by decide)
  have hmessage : (String.ofList message).toList = message := String.toList_ofList
  change ProbeFailure.ofText (("masque: " ++ String.ofList message).toList.map Char.toLower) = _
  rw [String.toList_append, hmessage, List.map_append, hlower]

theorem of_other (message : Text) :
    ProbeFailure.of (.other (String.ofList message)) =
      ProbeFailure.ofText ("other: ".toList ++ message.map Char.toLower) := by
  have hlower : "other: ".toList.map Char.toLower = "other: ".toList := toLower_literal rfl (by decide)
  have hmessage : (String.ofList message).toList = message := String.toList_ofList
  change ProbeFailure.ofText (("other: " ++ String.ofList message).toList.map Char.toLower) = _
  rw [String.toList_append, hmessage, List.map_append, hlower]

theorem of_connectIpStatus (rest : Text) :
    ProbeFailure.of (.masque (String.ofList ("h2 connect-ip status ".toList ++ rest))) =
      .connectIpRefused := by
  have hwords : "masque: ".toList ++ "h2 connect-ip status ".toList.map Char.toLower =
      "masque: h2 ".toList ++ "connect-ip status".toList ++ [' '] := by
    rw [toLower_literal rfl (by decide), toList_literal (s := "masque: ") rfl,
      toList_literal (s := "h2 connect-ip status ") rfl, toList_literal (s := "masque: h2 ") rfl,
      toList_literal (s := "connect-ip status") rfl]
    rfl
  rw [of_masque, ofText_eq_connectIpRefused_iff, contains_iff, List.map_append, ← List.append_assoc, hwords]
  exact ⟨"masque: h2 ".toList, [' '] ++ rest.map Char.toLower, (List.append_assoc _ _ _).symm⟩

/-- The message of a refusal over HTTP/2 has the words that are looked for, whatever the headers are. -/
theorem of_h2Refused (status : Nat) (headers : List (Text × Option Text)) :
    ProbeFailure.of (.masque (String.ofList (describeRefusal status headers))) = .connectIpRefused := by
  unfold describeRefusal
  exact of_connectIpStatus _

theorem of_masqueRefused (status : Text) :
    ProbeFailure.of (.other ("status " ++ String.ofList status)) = .connectIpRefused ↔
      contains (status.map Char.toLower) "connect-ip status" = true := by
  have hmessage : "status " ++ String.ofList status = String.ofList ("status ".toList ++ status) := by
    rw [String.ofList_append, String.ofList_toList]
  have hwords : "other: ".toList ++ "status ".toList.map Char.toLower = "other: status ".toList := by
    rw [toLower_literal rfl (by decide), toList_literal (s := "other: ") rfl, toList_literal (s := "status ") rfl,
      toList_literal (s := "other: status ") rfl]
    rfl
  have hlower : "other: ".toList ++ ("status ".toList ++ status).map Char.toLower =
      "other: status ".toList ++ status.map Char.toLower := by
    rw [List.map_append, ← List.append_assoc, hwords]
  rw [hmessage, of_other, ofText_eq_connectIpRefused_iff, hlower]
  refine contains_append_iff ?_
  rw [toList_literal (s := "other: status ") rfl, toList_literal (s := "connect-ip status") rfl]
  decide

theorem of_runRefused (status : Text) :
    ProbeFailure.of (.masque ("the edge refused connect-ip with status " ++ String.ofList status)) =
        .connectIpRefused ↔
      contains (status.map Char.toLower) "connect-ip status" = true := by
  -- the text of the error is put together behind a front without the words
  have hmessage : "the edge refused connect-ip with status " ++ String.ofList status =
      String.ofList ("the edge refused connect-ip with status ".toList ++ status) := by
    rw [String.ofList_append, String.ofList_toList]
  -- the front is in small letters already
  have hwords : "masque: ".toList ++ "the edge refused connect-ip with status ".toList.map Char.toLower =
      "masque: the edge refused connect-ip with status ".toList := by
    rw [toLower_literal rfl (by decide), toList_literal (s := "masque: ") rfl,
      toList_literal (s := "the edge refused connect-ip with status ") rfl,
      toList_literal (s := "masque: the edge refused connect-ip with status ") rfl]
    rfl
  have hlower : "masque: ".toList ++
      ("the edge refused connect-ip with status ".toList ++ status).map Char.toLower =
        "masque: the edge refused connect-ip with status ".toList ++ status.map Char.toLower := by
    rw [List.map_append, ← List.append_assoc, hwords]
  -- so the words stand in what the status says, or nowhere
  rw [hmessage, of_masque, ofText_eq_connectIpRefused_iff, hlower]
  refine contains_append_iff ?_
  rw [toList_literal (s := "masque: the edge refused connect-ip with status ") rfl,
    toList_literal (s := "connect-ip status") rfl]
  decide

/-- No message of a passed deadline has the words that are looked for. -/
theorem of_late (deadline : Deadline) : ProbeFailure.of deadline.error = .other := by
  cases deadline <;> decide +kernel

/-! ## What the headers end with -/

theorem statusOf_cons {name value : Bytes} {list : List Header} :
    statusOf ((name, value) :: list) =
      if name = STATUS then some (fromUtf8Lossy value) else statusOf list := by
  unfold statusOf
  rw [List.find?_cons]
  by_cases hname : name = STATUS
  · simp [hname]
  · simp [hname]

theorem head_200 : (fromUtf8Lossy (asciiBytes "200".toList)).head? = some '2' := by
  rw [fromUtf8Lossy_ascii (by decide)]
  rfl

section Headers

variable {headers : List Header} {status : Text}

theorem verifyMasque_of_refused (dataCheck : Bool) (hstatus : statusOf headers = some status)
    (hrefused : status.head? ≠ some '2') :
    verifyMasque dataCheck headers = some (.error (.other ("status " ++ String.ofList status))) := by
  induction headers with
  | nil => cases hstatus
  | cons header list ih =>
    obtain ⟨name, value⟩ := header
    rw [statusOf_cons] at hstatus
    rw [verifyMasque]
    split at hstatus
    case isTrue hname =>
      cases hstatus
      have hvalue : value ≠ asciiBytes "200".toList := by
        intro heq
        rw [heq] at hrefused
        exact hrefused head_200
      rw [if_pos hname, if_neg hvalue]
    case isFalse hname =>
      rw [if_neg hname]
      exact ih hstatus

theorem pollH3_of_refused (hstatus : statusOf headers = some status) (hrefused : status.head? ≠ some '2') :
    pollH3 headers =
      .error (.masque ("the edge refused connect-ip with status " ++ String.ofList status)) := by
  induction headers with
  | nil => cases hstatus
  | cons header list ih =>
    obtain ⟨name, value⟩ := header
    rw [statusOf_cons] at hstatus
    rw [pollH3]
    split at hstatus
    case isTrue hname =>
      cases hstatus
      rw [if_pos ⟨hname, hrefused⟩]
    case isFalse hname =>
      rw [if_neg (fun h => hname h.1)]
      exact ih hstatus

end Headers

/-! ## Which failures are classified by what happened -/

/-- Over HTTP/3 only a refusal has a kind, and it is the refusal of the status. -/
theorem kind_http3 {status : Option Text} {kind : ProbeFailure}
    (h : (status.bind fun status =>
      if status.head? = some '2' then none else some ProbeFailure.connectIpRefused) = some kind) :
    kind = .connectIpRefused ∧ ∃ text, status = some text ∧ text.head? ≠ some '2' := by
  obtain ⟨text, hstatus, hkind⟩ := Option.bind_eq_some_iff.mp h
  split at hkind
  case isTrue => cases hkind
  case isFalse hhead =>
    cases hkind
    exact ⟨rfl, text, hstatus, hhead⟩

theorem Probe.failure_eq_kind_iff (p : Probe) {kind : ProbeFailure} (hkind : p.kind = some kind) :
    p.failure = some kind ↔ p.Told := by
  -- over H2 the refusal has an error of its own; over H3 it is told by the text of the message
  cases p with
  | h2 status headers =>
    rw [Probe.kind] at hkind
    split at hkind
    case isTrue => cases hkind
    case isFalse hsuccess =>
      cases hkind
      rw [Probe.failure, Probe.error, verifyH2, if_neg hsuccess, Option.map_some, of_h2Refused]
      exact iff_of_true rfl trivial
  | masque dataCheck headers =>
    obtain ⟨rfl, status, hstatus, hrefused⟩ := kind_http3 hkind
    rw [Probe.failure, Probe.error, verifyMasque_of_refused dataCheck hstatus hrefused, Probe.Told, hstatus]
    simpa using of_masqueRefused status
  | run headers =>
    obtain ⟨rfl, status, hstatus, hrefused⟩ := kind_http3 hkind
    rw [Probe.failure, Probe.error, pollH3_of_refused hstatus hrefused, Probe.Told, hstatus]
    simpa using of_runRefused status
  | late deadline =>
    -- a deadline that runs out is of a kind that the text does not tell
    cases hkind
    rw [Probe.failure, Probe.error, Option.map_some, of_late]
    exact iff_of_false (by decide) id

/-- A failure is classified by what happened if its message names it, which no message of a passed deadline
does; and then it does not matter for the stop of the hunt which framing saw it. -/
theorem classified_iff (p : Probe) (ps : List Probe) :
    ((∀ kind, p.kind = some kind → p.failure = some kind) ↔ (p.kind.isSome → p.Told)) ∧
      ((∀ p ∈ ps, p.kind.isSome ∧ p.Told) →
        huntStop {} (ps.map Probe.failure) = huntStop {} (ps.map Probe.kind)) := by
  constructor
  · constructor
    · intro hclassified hsome
      obtain ⟨kind, hkind⟩ := Option.isSome_iff_exists.mp hsome
      exact (p.failure_eq_kind_iff hkind).mp (hclassified kind hkind)
    · intro htold kind hkind
      exact (p.failure_eq_kind_iff hkind).mpr (htold (by rw [hkind]; rfl))
  · intro htold
    have heq : ps.map Probe.failure = ps.map Probe.kind := by
      refine List.map_congr_left fun p hp => ?_
      obtain ⟨hsome, hp⟩ := htold p hp
      obtain ⟨kind, hkind⟩ := Option.isSome_iff_exists.mp hsome
      rw [hkind]
      exact (p.failure_eq_kind_iff hkind).mpr hp
    rw [heq]

/-- The same status 403 is a refusal of `connect-ip` over HTTP/2 and something else over HTTP/3, a passed
deadline is nothing in particular, and forty refusals stop a hunt over HTTP/2 alone. -/
theorem refusal_by_framing :
    let headers : List Header := [(STATUS, asciiBytes "403".toList)]
    (Probe.h2 403 []).failure = some .connectIpRefused ∧
      (Probe.masque true headers).failure = some .other ∧
      (Probe.run headers).failure = some .refused ∧
      (∀ deadline, (Probe.late deadline).failure = some .other) ∧
      huntStop {} ((List.replicate 40 (Probe.h2 403 [])).map Probe.failure) = some (.connectIpRefused, 40) ∧
      huntStop {} ((List.replicate 40 (Probe.masque true headers)).map Probe.failure) = none := by
  intro headers
  have hh2 : (Probe.h2 403 []).failure = some .connectIpRefused :=
    ((Probe.h2 403 []).failure_eq_kind_iff (by decide)).mpr trivial
  have hmasque : (Probe.masque true headers).failure = some .other := by decide
  have hrun : (Probe.run headers).failure = some .refused := by decide
  refine ⟨hh2, hmasque, hrun, fun deadline => congrArg some (of_late deadline), ?_, ?_⟩
  · rw [List.map_replicate, hh2]
    decide
  · rw [List.map_replicate, hmasque]
    decide

end Classify
end Engine
end AuroraVpn
