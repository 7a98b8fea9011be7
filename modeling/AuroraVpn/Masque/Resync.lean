import AuroraVpn.Masque.Receive

/-!
# Resync — when the receive buffer keeps step with an arbitrary peer

The peer may send capsules of any kind and any length, framed with varints of any width
(`WireCapsule`).  `InSync` says what a receiver of such a stream should do: deliver the same
datagrams however the stream is cut, read capsule headers at capsule boundaries only, and go on at
the next boundary behind a capsule it cannot hold.

`CapsuleParser` does not do that for every stream.  `push` empties the buffer when it would outgrow
`MAX_CAPSULE_BUF` and forgets how much of the current capsule is still to come, and a drain ends at
a malformed control capsule although whole capsules may stand behind it.  `inSync_iff` says exactly
which streams are safe from both.
-/

namespace AuroraVpn
namespace Masque

open Octets Framing

/-! ## Streams of capsules -/

/-- A capsule as a peer may write it: the two varints of its header have any width they fit. -/
structure WireCapsule where
  kind : Nat
  value : Bytes
  kindLen : Nat
  lengthLen : Nat
  kindLen_ok : IsVarintLen kindLen
  lengthLen_ok : IsVarintLen lengthLen
  kind_fits : kind < 64 * 256 ^ (kindLen - 1)
  length_fits : value.length < 64 * 256 ^ (lengthLen - 1)

namespace WireCapsule

def bytes (w : WireCapsule) : Bytes :=
  varintBytes w.kind w.kindLen ++ (varintBytes w.value.length w.lengthLen ++ w.value)

def toItem (w : WireCapsule) : CapsuleItem where
  bytes := w.bytes
  value := (w.kind, w.value)
  frame := by
    have hread := takeCapsule_wire w.kindLen_ok w.lengthLen_ok w.kind_fits w.length_fits []
    simpa [Frame, bytes] using hread

/-- A control capsule whose value `next` cannot read. -/
def Malformed (w : WireCapsule) : Prop :=
  malformed (w.kind, w.value) = true

/-- Every capsule has at least the two varints of its header. -/
theorem two_le_length (w : WireCapsule) : 2 ≤ w.bytes.length := by
  have hk : 1 ≤ w.kindLen := by rcases w.kindLen_ok with h | h | h | h <;> omega
  have hl : 1 ≤ w.lengthLen := by rcases w.lengthLen_ok with h | h | h | h <;> omega
  simp only [bytes, List.length_append, length_varintBytes w.kindLen_ok,
    length_varintBytes w.lengthLen_ok]
  omega

end WireCapsule

/-- The capsules of a peer, one behind the other. -/
def stream (ws : List WireCapsule) : Bytes :=
  wire (ws.map WireCapsule.toItem)

@[simp] theorem stream_nil : stream [] = [] := rfl

@[simp] theorem stream_cons (w : WireCapsule) (ws : List WireCapsule) :
    stream (w :: ws) = w.bytes ++ stream ws := rfl

@[simp] theorem stream_append (ws vs : List WireCapsule) :
    stream (ws ++ vs) = stream ws ++ stream vs := by
  simp [stream]

/-- Two capsules never start one byte apart. -/
theorem length_stream_ne_one (ws : List WireCapsule) : (stream ws).length ≠ 1 := by
  cases ws with
  | nil => simp
  | cons w ws =>
      have hw := w.two_le_length
      simp only [stream_cons, List.length_append]
      omega

/-- `o` is where a capsule of the stream starts, or where the last one ends. -/
def IsBoundary (ws : List WireCapsule) (o : Nat) : Prop :=
  ∃ done todo, ws = done ++ todo ∧ o = (stream done).length

/-! ## What the receiver delivers and where it reads headers -/

/-- The datagram payloads of a run from the empty buffer. -/
def delivered (cs : List Bytes) : List Bytes :=
  datagrams (receive .new cs).1

/-- The length of the buffer at each call of `next` in a drain that finds bytes to read a header
from. -/
def drainHeaders : Nat → CapsuleParser → List Nat
  | 0, _ => []
  | n + 1, p =>
      if p.buf.isEmpty then
        []
      else
        p.buf.length ::
          match p.next with
          | (.ok (some _), p') => drainHeaders n p'
          | _ => []

/-- The places in the stream at which a run reads capsule headers, `pushed` bytes into it. -/
def headerOffsets (pushed : Nat) (p : CapsuleParser) : List Bytes → List Nat
  | [] => []
  | c :: cs =>
      let q := p.push c
      (drainHeaders (q.buf.length + 1) q).map (fun len => pushed + c.length - len) ++
        headerOffsets (pushed + c.length) (drainCapsules q).2 cs

/-- What a receiver of the capsule protocol owes the stream `ws`. -/
structure InSync (ws : List WireCapsule) : Prop where
  /-- The datagrams do not depend on how the stream is cut. -/
  same : ∀ cs ds : List Bytes, cs.flatten = stream ws → ds.flatten = stream ws →
    delivered cs = delivered ds
  /-- No header is read from the middle of a capsule. -/
  aligned : ∀ cs : List Bytes, cs.flatten = stream ws →
    ∀ o ∈ headerOffsets 0 .new cs, IsBoundary ws o
  /-- Behind a capsule longer than the buffer, the next header read is that of the next one. -/
  resumes : ∀ cs : List Bytes, cs.flatten = stream ws →
    ∀ pre w post, ws = pre ++ w :: post → MAX_CAPSULE_BUF < w.bytes.length → post ≠ [] →
      (stream (pre ++ [w])).length ∈ headerOffsets 0 .new cs

/-- The streams the receive buffer is safe on: those that fit it as a whole and have no datagram
behind a malformed control capsule; and, one byte longer, a lone capsule or a stream without
datagrams. -/
def FitsBuffer (ws : List WireCapsule) : Prop :=
  ((stream ws).length ≤ MAX_CAPSULE_BUF ∧
      ∀ pre w post, ws = pre ++ w :: post → w.Malformed → ∀ v ∈ post, v.kind ≠ CAPSULE_DATAGRAM) ∨
    ((stream ws).length = MAX_CAPSULE_BUF + 1 ∧
      (ws.length = 1 ∨ ∀ w ∈ ws, w.kind ≠ CAPSULE_DATAGRAM))

/-! ## Reports and datagrams -/

/-- The datagrams among the capsules of a stream. -/
def payloads (ws : List WireCapsule) : List Bytes :=
  (ws.filter fun w => decide (w.kind = CAPSULE_DATAGRAM)).map WireCapsule.value

theorem payloads_append (ws vs : List WireCapsule) :
    payloads (ws ++ vs) = payloads ws ++ payloads vs := by
  simp [payloads]

theorem payloads_eq_nil {ws : List WireCapsule} :
    payloads ws = [] ↔ ∀ w ∈ ws, w.kind ≠ CAPSULE_DATAGRAM := by
  simp [payloads]

/-- `next` reports a datagram for datagram capsules only. -/
theorem interpret_ne_datagram {kind : Nat} (hkind : kind ≠ CAPSULE_DATAGRAM) (value : Bytes) :
    ∀ payload, interpret (kind, value) ≠ .ok (.datagram payload) := by
  intro payload h
  unfold interpret at h
  dsimp only at h
  split at h
  · cases hp : parseAddressAssign value <;> rw [hp] at h <;> cases h
  · split at h
    · cases h
    · split at h
      · cases hp : parseRouteAdvertisement value <;> rw [hp] at h <;> cases h
      · cases h

theorem datagrams_report (w : WireCapsule) :
    datagrams [w.toItem.report] = payloads [w] := by
  by_cases h0 : w.kind = CAPSULE_DATAGRAM
  · have hreport : w.toItem.report = .ok (.datagram w.value) := by
      show interpret (w.kind, w.value) = _
      rw [h0]
      rfl
    simp [hreport, datagrams, payloads, h0]
  · have hpay : payloads [w] = [] := by simp [payloads, h0]
    rw [hpay, datagrams, List.filterMap_eq_nil_iff]
    intro r hr
    rw [List.mem_singleton] at hr
    split
    · rename_i payload
      exact absurd hr.symm (interpret_ne_datagram h0 w.value payload)
    · rfl

theorem datagrams_reports (ws : List WireCapsule) :
    datagrams (ws.map fun w => w.toItem.report) = payloads ws := by
  induction ws with
  | nil => rfl
  | cons w ws ih =>
      have hsplit : datagrams ((w :: ws).map fun w => w.toItem.report) =
          datagrams [w.toItem.report] ++ datagrams (ws.map fun w => w.toItem.report) := by
        simp only [datagrams, ← List.filterMap_append]
        rfl
      rw [hsplit, ih, datagrams_report, ← payloads_append]
      rfl

/-- A split of the items of a stream is a split of its capsules. -/
theorem split_toItem {ws : List WireCapsule} {done todo : List CapsuleItem} :
    ws.map WireCapsule.toItem = done ++ todo →
      ∃ ds ts, ws = ds ++ ts ∧ done = ds.map WireCapsule.toItem ∧
        todo = ts.map WireCapsule.toItem := by
  intro h
  obtain ⟨ds, ts, hws, hds, hts⟩ := List.map_eq_append_iff.1 h
  exact ⟨ds, ts, hws, hds.symm, hts.symm⟩

/-! ## Runs without a reset -/

/-- What a run without a reset delivers, and what stays behind. -/
theorem delivered_frames {ws : List WireCapsule} {cs : List Bytes}
    (hcut : cs.flatten = stream ws) (hreset : resets .new cs = false) :
    ∃ done todo, ws = done ++ todo ∧ delivered cs = payloads done ∧
      (∀ w ∈ done, w.bytes.length ≤ MAX_CAPSULE_BUF) ∧
      (todo = [] ∨ ∃ w ∈ done.getLast?, w.Malformed) := by
  obtain ⟨done, todo, hws, hout, htodo, hfit, hend⟩ :=
    -- the capsules as they stand in the buffer, taken off one behind the other
    @receive_frames [] _ _ _ hreset (by simpa [CapsuleParser.new, stream] using hcut)
  obtain ⟨ds, ts, rfl, rfl, rfl⟩ := split_toItem hws
  refine ⟨ds, ts, rfl, ?_, ?_, ?_⟩
  · rw [delivered, hout, List.map_map]
    exact datagrams_reports ds
  · intro w hw
    exact hfit w.toItem (List.mem_map_of_mem hw)
  · rw [List.append_nil] at htodo
    -- nothing is left, or what is left is no whole capsule, or the last one taken off was malformed
    rcases hend with rfl | hnone | ⟨w, hw, hbad⟩
    · have hwire : wire (ts.map WireCapsule.toItem) = [] := by
        rw [← htodo]
        rfl
      exact Or.inl (by simpa using wire_eq_nil takeCapsule_incremental hwire)
    · rw [htodo] at hnone
      exact Or.inl (by simpa using eq_nil_of_none takeCapsule_incremental hnone)
    · rw [List.getLast?_map] at hw
      obtain ⟨v, hv, rfl⟩ := Option.mem_map.1 hw
      exact Or.inr ⟨v, hv, hbad⟩

/-- Every header of a drain is read where a capsule starts. -/
theorem drainHeaders_frames :
    ∀ {n : Nat} {p : CapsuleParser} {rest : Bytes} {ws : List CapsuleItem},
      p.buf ++ rest = wire ws → ∀ len ∈ drainHeaders n p,
        len ≤ p.buf.length ∧
          ∃ done todo, ws = done ++ todo ∧ len + rest.length = (wire todo).length := by
  intro n
  induction n with
  | zero =>
      intro p rest ws _ len hlen
      cases hlen
  | succ n ih =>
      intro p rest ws hwire len hlen
      unfold drainHeaders at hlen
      split at hlen
      · cases hlen
      -- this header stands at the front of the buffer
      · rcases List.mem_cons.1 hlen with rfl | hlen
        · refine ⟨le_rfl, [], ws, rfl, ?_⟩
          rw [← hwire, List.length_append]
        · split at hlen
          · rename_i p' hnext
            cases hb : takeCapsule p.buf with
            | none =>
                rw [CapsuleParser.next, hb] at hnext
                cases hnext
            | some kvr =>
                obtain ⟨kv, r⟩ := kvr
                have hp' : p' = { buf := r } := by
                  rw [CapsuleParser.next, hb] at hnext
                  exact (congrArg Prod.snd hnext).symm
                obtain ⟨w, ws', rfl, _, hrest⟩ := wire_decode takeCapsule_incremental hwire hb
                -- behind it the buffer is shorter, and the induction speaks of the capsules that are left
                have hshrink := takeCapsule_incremental.consume hb
                obtain ⟨hle, done, todo, rfl, htotal⟩ :=
                  ih (p := p') (by rw [hp']; exact hrest) len hlen
                rw [hp'] at hle
                exact ⟨le_trans hle hshrink.le, w :: done, todo, rfl, htotal⟩
          · cases hlen

/-- In a run without a reset every header is read where a capsule starts. -/
theorem headerOffsets_frames :
    ∀ {cs : List Bytes} {p : CapsuleParser} {pushed : Nat} {ws : List CapsuleItem},
      resets p cs = false → p.buf ++ cs.flatten = wire ws → p.buf.length ≤ pushed →
      ∀ o ∈ headerOffsets pushed p cs,
        ∃ done todo, ws = done ++ todo ∧ o + (wire todo).length = pushed + cs.flatten.length := by
  intro cs
  induction cs with
  | nil =>
      intro p pushed ws _ _ _ o ho
      cases ho
  | cons c cs ih =>
      intro p pushed ws hreset hwire hpushed o ho
      simp only [resets, Bool.or_eq_false_iff] at hreset
      have hbuf : (p.push c).buf = p.buf ++ c := by rw [push_of_not_overflows hreset.1]
      have hwire' : (p.push c).buf ++ cs.flatten = wire ws := by
        rw [hbuf, ← hwire]
        simp
      -- the chunk is counted on both sides
      have hlen := congrArg List.length hbuf
      rw [List.length_append] at hlen
      simp only [headerOffsets, List.mem_append, List.mem_map] at ho
      simp only [List.flatten_cons, List.length_append]
      -- a header of this drain, or of a later one
      rcases ho with ⟨len, hmem, rfl⟩ | ho
      · obtain ⟨hle, done, todo, hws, htotal⟩ := drainHeaders_frames hwire' len hmem
        exact ⟨done, todo, hws, by omega⟩
      · have hdrain := drainCapsules_length_le (p.push c)
        obtain ⟨done, todo, rfl, _, htodo, _, _⟩ := drainCapsules_frames hwire'
        obtain ⟨done', todo', rfl, htotal⟩ :=
          @ih _ _ todo hreset.2 htodo (by omega) o ho
        exact ⟨done ++ done', todo', by simp, by omega⟩

theorem aligned_of_not_resets {ws : List WireCapsule} {cs : List Bytes}
    (hcut : cs.flatten = stream ws) (hreset : resets .new cs = false) :
    ∀ o ∈ headerOffsets 0 .new cs, IsBoundary ws o := by
  intro o ho
  obtain ⟨done, todo, hws, htotal⟩ := @headerOffsets_frames _ _ _ (ws.map WireCapsule.toItem)
    hreset (by simpa [CapsuleParser.new, stream] using hcut) (Nat.zero_le _) o ho
  obtain ⟨ds, ts, rfl, rfl, rfl⟩ := split_toItem hws
  refine ⟨ds, ts, rfl, ?_⟩
  have hstream : (stream (ds ++ ts)).length = (stream ds).length + (stream ts).length := by simp
  rw [hcut, hstream] at htotal
  show o = (stream ds).length
  have hts : (wire (ts.map WireCapsule.toItem)).length = (stream ts).length := rfl
  omega

/-! ## Runs that fill the buffer to the last byte -/

theorem drainCapsules_of_none {p : CapsuleParser} (hnone : takeCapsule p.buf = none) :
    drainCapsules p = ([], p) := by
  simp [drainCapsules, drainLoop, CapsuleParser.next, hnone, pure, Except.pure]

theorem drainHeaders_of_none {n : Nat} {p : CapsuleParser} (hnone : takeCapsule p.buf = none) :
    ∀ len ∈ drainHeaders n p, len = p.buf.length := by
  intro len hlen
  cases n with
  | zero => cases hlen
  | succ n =>
      unfold drainHeaders at hlen
      split at hlen
      · cases hlen
      · simpa [CapsuleParser.next, hnone, pure, Except.pure] using hlen

/-- With nothing more to come, nothing happens. -/
theorem receive_of_flatten_nil :
    ∀ {cs : List Bytes} {pushed : Nat}, cs.flatten = [] →
      (receive .new cs).1 = [] ∧ headerOffsets pushed .new cs = [] := by
  intro cs
  induction cs with
  | nil =>
      intro pushed _
      exact ⟨rfl, rfl⟩
  | cons c cs ih =>
      intro pushed hnil
      simp only [List.flatten_cons, List.append_eq_nil_iff] at hnil
      obtain ⟨rfl, hcs⟩ := hnil
      -- an empty push changes nothing, and there is nothing to take off
      have hpush : CapsuleParser.new.push [] = .new := rfl
      have hdrain : drainCapsules .new = ([], .new) :=
        drainCapsules_of_none takeCapsule_incremental.nil_eq_none
      obtain ⟨hout, hheaders⟩ := @ih pushed hcs
      constructor
      · simp [receive, hpush, hdrain, hout]
      · have hnew : drainHeaders 1 .new = [] := rfl
        simp only [headerOffsets, hpush, hdrain]
        rw [show CapsuleParser.new.buf.length + 1 = 1 from rfl, hnew]
        simpa using hheaders

/-- A stream one byte longer than the buffer overflows it only if nothing was taken off before its
last byte, and then nothing is ever reported. -/
theorem receive_of_resets :
    ∀ {cs : List Bytes} {p : CapsuleParser} {pushed : Nat}, p.buf.length ≤ pushed →
      p.buf.length + cs.flatten.length ≤ MAX_CAPSULE_BUF + 1 → resets p cs = true →
      (receive p cs).1 = [] ∧ ∀ o ∈ headerOffsets pushed p cs, o = pushed - p.buf.length := by
  intro cs
  induction cs with
  | nil =>
      intro p pushed _ _ hreset
      cases hreset
  | cons c cs ih =>
      intro p pushed hpushed hle hreset
      simp only [List.flatten_cons, List.length_append] at hle
      cases hover : p.overflows c with
      | true =>
          have hlen : p.buf.length + c.length > MAX_CAPSULE_BUF := by
            simpa [CapsuleParser.overflows] using hover
          have hcs : cs.flatten = [] := List.eq_nil_of_length_eq_zero (by omega)
          have hpush : p.push c = .new := by simp [CapsuleParser.push, hover, CapsuleParser.new]
          have hdrain : drainCapsules .new = ([], .new) :=
            drainCapsules_of_none takeCapsule_incremental.nil_eq_none
          obtain ⟨hout, hheaders⟩ := @receive_of_flatten_nil _ (pushed + c.length) hcs
          have hnew : drainHeaders 1 .new = [] := rfl
          constructor
          · simp [receive, hpush, hdrain, hout]
          · intro o ho
            simp only [headerOffsets, hpush, hdrain, hheaders, List.append_nil] at ho
            rw [show CapsuleParser.new.buf.length + 1 = 1 from rfl, hnew] at ho
            cases ho
      | false =>
          simp only [resets, hover, Bool.false_or] at hreset
          have hbuf : (p.push c).buf = p.buf ++ c := by rw [push_of_not_overflows hover]
          have hlen := congrArg List.length hbuf
          rw [List.length_append] at hlen
          -- had the drain taken anything off, the rest would fit
          have hnone : takeCapsule (p.push c).buf = none := by
            cases hb : takeCapsule (p.push c).buf with
            | none => rfl
            | some kvr =>
                exfalso
                have hshrink : (drainCapsules (p.push c)).2.buf.length < (p.push c).buf.length := by
                  have hconsume := takeCapsule_incremental.consume (r := kvr.2) (a := kvr.1) hb
                  rw [drainCapsules, drainLoop_eq]
                  by_cases hbad : malformed kvr.1 = true
                  · simpa [drain, hb, hbad] using hconsume
                  · have hle' := drain_length_le takeCapsule_incremental malformed
                      (p.push c).buf.length kvr.2
                    simpa [drain, hb, hbad] using lt_of_le_of_lt hle' hconsume
                have hfits : resets (drainCapsules (p.push c)).2 cs = false :=
                  resets_eq_false_of_le (by omega)
                rw [hfits] at hreset
                cases hreset
          have hdrain := drainCapsules_of_none hnone
          rw [hdrain] at hreset
          obtain ⟨hout, hheaders⟩ :=
            @ih (p.push c) (pushed + c.length) (by omega) (by omega) hreset
          constructor
          · simp [receive, hdrain, hout]
          · intro o ho
            simp only [headerOffsets, hdrain, List.mem_append, List.mem_map] at ho
            rcases ho with ⟨len, hmem, rfl⟩ | ho
            · have hlen' := drainHeaders_of_none hnone len hmem
              omega
            · have ho' := hheaders o ho
              omega

/-! ## The streams that are safe -/

/-- A stream of at most one byte more than the buffer holds: a run resets and reports nothing, or
takes capsules off in order. -/
theorem delivered_cases {ws : List WireCapsule} {cs : List Bytes}
    (hlen : (stream ws).length ≤ MAX_CAPSULE_BUF + 1) (hcut : cs.flatten = stream ws) :
    (resets .new cs = true ∧ delivered cs = [] ∧ ∀ o ∈ headerOffsets 0 .new cs, o = 0) ∨
      resets .new cs = false := by
  cases hreset : resets .new cs with
  | false => exact Or.inr rfl
  | true =>
      obtain ⟨hout, hheaders⟩ := @receive_of_resets _ .new 0 (Nat.le_refl 0)
        (by rw [hcut, CapsuleParser.new, List.length_nil, Nat.zero_add]; exact hlen) hreset
      refine Or.inl ⟨rfl, ?_, ?_⟩
      · rw [delivered, hout]
        rfl
      · intro o ho
        simpa using hheaders o ho

theorem aligned_of_le {ws : List WireCapsule} {cs : List Bytes}
    (hlen : (stream ws).length ≤ MAX_CAPSULE_BUF + 1) (hcut : cs.flatten = stream ws) :
    ∀ o ∈ headerOffsets 0 .new cs, IsBoundary ws o := by
  rcases delivered_cases hlen hcut with ⟨_, _, hzero⟩ | hreset
  · intro o ho
    exact ⟨[], ws, rfl, hzero o ho⟩
  · exact aligned_of_not_resets hcut hreset

/-- In a stream that fits, what a run leaves behind holds no datagram. -/
theorem delivered_eq_payloads {ws : List WireCapsule} {cs : List Bytes}
    (hquiet : ∀ pre w post, ws = pre ++ w :: post → w.Malformed →
      ∀ v ∈ post, v.kind ≠ CAPSULE_DATAGRAM)
    (hcut : cs.flatten = stream ws) (hreset : resets .new cs = false) :
    delivered cs = payloads ws := by
  obtain ⟨done, todo, rfl, hout, _, hend⟩ := delivered_frames hcut hreset
  have htodo : payloads todo = [] := by
    rcases hend with rfl | ⟨w, hw, hbad⟩
    · rfl
    · have hdone : done.dropLast ++ [w] = done := List.dropLast_append_getLast? w hw
      have hws : done ++ todo = done.dropLast ++ w :: todo := by
        rw [List.append_cons, hdone]
      exact payloads_eq_nil.2 (hquiet _ w todo hws hbad)
  rw [hout, payloads_append, htodo, List.append_nil]

theorem inSync_of_fitsBuffer {ws : List WireCapsule} : FitsBuffer ws → InSync ws := by
  intro hfit
  -- one byte more than the buffer is the most that there is
  have hlen : (stream ws).length ≤ MAX_CAPSULE_BUF + 1 := by
    rcases hfit with ⟨hle, _⟩ | ⟨heq, _⟩ <;> omega
  have hval : ∃ out, ∀ cs : List Bytes, cs.flatten = stream ws → delivered cs = out := by
    -- below the limit nothing is reset; at it, the cut decides, and both ways give the same
    rcases hfit with ⟨hle, hquiet⟩ | ⟨heq, hlone | hnone⟩
    · refine ⟨payloads ws, fun cs hcut => delivered_eq_payloads hquiet hcut ?_⟩
      exact resets_eq_false_of_le (by rw [hcut, CapsuleParser.new]; simpa using hle)
    · refine ⟨[], fun cs hcut => ?_⟩
      rcases delivered_cases hlen hcut with ⟨_, hout, _⟩ | hreset
      · exact hout
      · -- the one capsule there is does not fit the buffer
        obtain ⟨done, todo, rfl, hout, hle, _⟩ := delivered_frames hcut hreset
        cases done with
        | nil => exact hout
        | cons w ds =>
            exfalso
            have hnil : ds ++ todo = [] := by simpa using hlone
            have hw := hle w (by simp)
            rw [List.cons_append, hnil] at heq
            simp only [stream_cons, stream_nil, List.append_nil] at heq
            omega
    · refine ⟨[], fun cs hcut => ?_⟩
      rcases delivered_cases hlen hcut with ⟨_, hout, _⟩ | hreset
      · exact hout
      · obtain ⟨done, todo, rfl, hout, _, _⟩ := delivered_frames hcut hreset
        rw [hout, payloads_eq_nil]
        intro w hw
        exact hnone w (List.mem_append_left _ hw)
  obtain ⟨out, hout⟩ := hval
  refine ⟨?_, ?_, ?_⟩
  · intro cs ds hcs hds
    rw [hout cs hcs, hout ds hds]
  · intro cs hcut
    exact aligned_of_le hlen hcut
  · -- a capsule longer than the buffer is all there is
    intro cs _ pre w post hws hlong hpost
    exfalso
    subst hws
    cases post with
    | nil => exact hpost rfl
    | cons v post =>
        have hv := v.two_le_length
        simp only [stream_append, stream_cons, List.length_append] at hlen
        omega

/-! ## The streams that are not -/

/-- Somewhere past the buffer's end a long stream has a byte that no capsule starts with. -/
theorem exists_not_boundary {ws : List WireCapsule}
    (hlong : MAX_CAPSULE_BUF + 2 ≤ (stream ws).length) :
    ∃ m, MAX_CAPSULE_BUF < m ∧ m < (stream ws).length ∧ ¬ IsBoundary ws m := by
  by_cases h₁ : IsBoundary ws (MAX_CAPSULE_BUF + 1)
  · obtain ⟨done, todo, rfl, hdone⟩ := h₁
    refine ⟨MAX_CAPSULE_BUF + 2, by omega, ?_, ?_⟩
    · have hne := length_stream_ne_one todo
      simp only [stream_append, List.length_append] at hlong ⊢
      omega
    · rintro ⟨done', todo', hsplit, hdone'⟩
      -- one of the two boundaries is a prefix of the other
      rcases List.append_eq_append_iff.1 hsplit with ⟨mid, rfl, _⟩ | ⟨mid, rfl, _⟩
      · have hne := length_stream_ne_one mid
        simp only [stream_append, List.length_append] at hdone'
        omega
      · simp only [stream_append, List.length_append] at hdone
        omega
  · exact ⟨MAX_CAPSULE_BUF + 1, by omega, by omega, h₁⟩

/-- The first of two pushes overflows, the second byte pushed is read as a header. -/
theorem mem_headerOffsets_of_overflow {front : Bytes} (hfront : MAX_CAPSULE_BUF < front.length)
    (x : UInt8) (tail : List Bytes) :
    front.length ∈ headerOffsets 0 .new (front :: [x] :: tail) := by
  have hover : CapsuleParser.new.overflows front = true := by
    simpa [CapsuleParser.overflows, CapsuleParser.new] using hfront
  have hpush : CapsuleParser.new.push front = .new := by
    rw [CapsuleParser.push, if_pos hover, CapsuleParser.new]
  have hdrain : drainCapsules .new = ([], .new) :=
    drainCapsules_of_none takeCapsule_incremental.nil_eq_none
  have hone : CapsuleParser.new.push [x] = { buf := [x] } := rfl
  simp only [headerOffsets, hpush, hdrain, hone, List.mem_append, List.mem_map]
  refine Or.inr (Or.inl ⟨1, ?_, by simp⟩)
  simp [drainHeaders]

theorem not_inSync_of_long {ws : List WireCapsule}
    (hlong : MAX_CAPSULE_BUF + 2 ≤ (stream ws).length) : ¬ InSync ws := by
  intro hsync
  obtain ⟨m, hlo, hhi, hmid⟩ := exists_not_boundary hlong
  obtain ⟨x, tail, hdrop⟩ : ∃ x tail, (stream ws).drop m = x :: tail := by
    cases h : (stream ws).drop m with
    | nil =>
        have hlen := congrArg List.length h
        simp only [List.length_drop, List.length_nil] at hlen
        omega
    | cons x tail => exact ⟨x, tail, rfl⟩
  have hfront : ((stream ws).take m).length = m := by
    rw [List.length_take]
    omega
  have hcut : [(stream ws).take m, [x], tail].flatten = stream ws := by
    have hsplit := List.take_append_drop m (stream ws)
    rw [hdrop] at hsplit
    simpa using hsplit
  have hread := @mem_headerOffsets_of_overflow ((stream ws).take m) (by omega) x [tail]
  rw [hfront] at hread
  exact hmid (hsync.aligned _ hcut m hread)

/-- Pushed capsule by capsule, a stream of capsules that each fit is reported whole. -/
theorem receive_capsulewise :
    ∀ {ws : List WireCapsule}, (∀ w ∈ ws, w.bytes.length ≤ MAX_CAPSULE_BUF) →
      (receive .new (ws.map WireCapsule.bytes)).1 = ws.map fun w => w.toItem.report := by
  intro ws
  induction ws with
  | nil => intro _; rfl
  | cons w ws ih =>
      intro hfit
      have hw := hfit w (by simp)
      -- the capsule fits, so the buffer is that capsule alone
      have hpush : CapsuleParser.new.push w.bytes = { buf := w.bytes } := by
        have hfits : CapsuleParser.new.overflows w.bytes = false := by
          simpa [CapsuleParser.overflows, CapsuleParser.new] using hw
        rw [push_of_not_overflows hfits]
        rfl
      have hwire : w.bytes ++ [] = wire [w.toItem] := by simp [WireCapsule.toItem]
      have htake : takeCapsule w.bytes = some ((w.kind, w.value), []) := w.toItem.frame
      have hdrain : drainCapsules { buf := w.bytes } = ([w.toItem.report], .new) := by
        rw [drainCapsules, drainLoop_eq]
        obtain ⟨n, hn⟩ : ∃ n, w.bytes.length = n + 1 :=
          ⟨w.bytes.length - 1, by have := w.two_le_length; omega⟩
        have hnil := takeCapsule_incremental.nil_eq_none
        -- a malformed capsule ends the loop, behind it the buffer is empty in both cases
        by_cases hbad : malformed (w.kind, w.value) = true <;>
          simp [hn, drain, htake, hnil, hbad, CapsuleItem.report, WireCapsule.toItem,
            CapsuleParser.new]
      have hrest := ih fun v hv => hfit v (List.mem_cons_of_mem _ hv)
      simp [receive, hpush, hdrain, hrest]

theorem delivered_capsulewise {ws : List WireCapsule}
    (hfit : ∀ w ∈ ws, w.bytes.length ≤ MAX_CAPSULE_BUF) :
    delivered (ws.map WireCapsule.bytes) = payloads ws := by
  rw [delivered, receive_capsulewise hfit, datagrams_reports]

theorem flatten_map_bytes (ws : List WireCapsule) :
    (ws.map WireCapsule.bytes).flatten = stream ws := by
  simp only [stream, wire, List.map_map]
  rfl

/-- Every capsule of a stream is at most as long as the stream. -/
theorem length_le_stream {ws : List WireCapsule} {w : WireCapsule} (hw : w ∈ ws) :
    w.bytes.length ≤ (stream ws).length := by
  obtain ⟨pre, post, rfl⟩ := List.append_of_mem hw
  simp only [stream_append, stream_cons, List.length_append]
  omega

/-- One push of a stream that fits, and one drain: the drain ends at the first malformed
capsule. -/
theorem delivered_single {ws : List WireCapsule} (hle : (stream ws).length ≤ MAX_CAPSULE_BUF) :
    ∃ done todo, ws = done ++ todo ∧ delivered [stream ws] = payloads done ∧
      ∀ w ∈ done.dropLast, ¬ w.Malformed := by
  have hfits : CapsuleParser.new.overflows (stream ws) = false := by
    simpa [CapsuleParser.overflows, CapsuleParser.new] using hle
  have hpush : CapsuleParser.new.push (stream ws) = { buf := stream ws } := by
    rw [push_of_not_overflows hfits]
    rfl
  obtain ⟨done, todo, hws, hout, _, hgo, _⟩ :=
    @drainCapsules_frames { buf := stream ws } (ws.map WireCapsule.toItem) [] (List.append_nil _)
  obtain ⟨ds, ts, rfl, rfl, rfl⟩ := split_toItem hws
  refine ⟨ds, ts, rfl, ?_, ?_⟩
  · simp only [delivered, receive, hpush, hout, List.append_nil, List.map_map]
    exact datagrams_reports ds
  · intro w hw hbad
    have hmem : w.toItem ∈ (ds.map WireCapsule.toItem).dropLast := by
      rw [← List.map_dropLast]
      exact List.mem_map_of_mem hw
    rw [WireCapsule.Malformed] at hbad
    rw [show malformed (w.kind, w.value) = false from hgo w.toItem hmem] at hbad
    cases hbad

theorem fitsBuffer_of_inSync {ws : List WireCapsule} : InSync ws → FitsBuffer ws := by
  intro hsync
  have hshort : (stream ws).length ≤ MAX_CAPSULE_BUF + 1 := by
    by_contra hlong
    exact not_inSync_of_long (by omega) hsync
  have hcut₁ : [stream ws].flatten = stream ws := by simp
  have hsame := hsync.same _ _ hcut₁ (flatten_map_bytes ws)
  by_cases hle : (stream ws).length ≤ MAX_CAPSULE_BUF
  · refine Or.inl ⟨hle, ?_⟩
    intro pre w post hws hbad v hv hdatagram
    have hall := @delivered_capsulewise ws fun u hu => (length_le_stream hu).trans hle
    obtain ⟨done, todo, hsplit, hout, hgo⟩ := delivered_single hle
    -- the drain of the single push does not get past the malformed capsule
    have hstop : ∃ mid, pre ++ [w] = done ++ mid := by
      rw [hws] at hsplit
      rcases List.append_eq_append_iff.1 (show (pre ++ [w]) ++ post = done ++ todo by
        simpa using hsplit) with ⟨mid, hdone, _⟩ | ⟨mid, hpre, _⟩
      · cases hmid : mid with
        | nil => exact ⟨[], by rw [hdone, hmid]; simp⟩
        | cons u us =>
            exfalso
            refine hgo w ?_ hbad
            rw [hdone, hmid, List.dropLast_append_of_ne_nil (List.cons_ne_nil u us)]
            simp
      · exact ⟨mid, hpre⟩
    obtain ⟨mid, hmid⟩ := hstop
    have hwhole : payloads ws = payloads done ++ (payloads mid ++ payloads post) := by
      rw [hws, show pre ++ w :: post = (pre ++ [w]) ++ post by simp, hmid, payloads_append,
        payloads_append, List.append_assoc]
    have hrest : payloads mid ++ payloads post = [] := by
      rw [hout, hall, hwhole] at hsame
      exact List.append_cancel_left (hsame.symm.trans (List.append_nil _).symm)
    exact payloads_eq_nil.1 (List.append_eq_nil_iff.1 hrest).2 v hv hdatagram
  · refine Or.inr ⟨by omega, ?_⟩
    by_cases hlone : ws.length = 1
    · exact Or.inl hlone
    · refine Or.inr (payloads_eq_nil.1 ?_)
      have hover : CapsuleParser.new.overflows (stream ws) = true := by
        simpa [CapsuleParser.overflows, CapsuleParser.new] using hle
      have hsingle : delivered [stream ws] = [] := by
        have hpush : CapsuleParser.new.push (stream ws) = .new := by
          rw [CapsuleParser.push, if_pos hover, CapsuleParser.new]
        have hdrain : drainCapsules .new = ([], .new) :=
          drainCapsules_of_none takeCapsule_incremental.nil_eq_none
        simp [delivered, receive, hpush, hdrain, datagrams]
      rw [← delivered_capsulewise ?_, ← hsame, hsingle]
      -- with two or more capsules, none of them takes the whole stream
      intro w hw
      obtain ⟨pre, post, rfl⟩ := List.append_of_mem hw
      have hother : 2 ≤ (stream pre).length + (stream post).length := by
        cases pre with
        | cons u us =>
            have hu := u.two_le_length
            simp only [stream_cons, List.length_append]
            omega
        | nil =>
            cases post with
            | nil => exact absurd rfl hlone
            | cons u us =>
                have hu := u.two_le_length
                simp only [stream_cons, List.length_append]
                omega
      simp only [stream_append, stream_cons, List.length_append] at hshort
      omega

/-- **Which streams the receive buffer keeps step with.** -/
theorem inSync_iff (ws : List WireCapsule) : InSync ws ↔ FitsBuffer ws :=
  ⟨fitsBuffer_of_inSync, inSync_of_fitsBuffer⟩

/-- An unknown capsule of 300,000 zero bytes, as the capsule protocol allows. -/
def longCapsule : WireCapsule where
  kind := 0x21
  value := List.replicate 300000 0
  kindLen := 1
  lengthLen := 4
  kindLen_ok := by decide
  lengthLen_ok := by decide
  kind_fits := by decide
  length_fits := by rw [List.length_replicate]; norm_num

/-- A small datagram capsule behind it. -/
def shortDatagram : WireCapsule where
  kind := CAPSULE_DATAGRAM
  value := [0x45]
  kindLen := 1
  lengthLen := 1
  kindLen_ok := by decide
  lengthLen_ok := by decide
  kind_fits := by decide
  length_fits := by decide

/-- A capsule longer than the buffer puts the receiver out of step. -/
theorem not_inSync_longCapsule : ¬ InSync [longCapsule, shortDatagram] := by
  refine not_inSync_of_long ?_
  have hlong : longCapsule.bytes.length = 300005 := by
    have hvalue : longCapsule.value.length = 300000 := List.length_replicate
    simp only [WireCapsule.bytes, List.length_append,
      length_varintBytes longCapsule.kindLen_ok, length_varintBytes longCapsule.lengthLen_ok,
      hvalue]
    rfl
  simp only [stream_cons, List.length_append, hlong, MAX_CAPSULE_BUF]
  omega

end Masque
end AuroraVpn
