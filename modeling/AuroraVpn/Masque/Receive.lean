import AuroraVpn.Masque.Capsule

/-!
# Receive — a run of the receive path over a stream of capsules

While no push empties the buffer, the buffer is always the part of the stream that was pushed and
not yet taken off it, so a run of the receive path is a drain of frames in instalments.

* `receive_frames`: what a run without a reset reports, and what it leaves in the buffer.
* `resets_eq_false_of_le`: a stream that fits the buffer as a whole never causes a reset.
* `resets_eq_false_of_frames`: neither does a stream of well-formed capsules, each of which fits
  the buffer together with any chunk.
-/

namespace AuroraVpn
namespace Masque

open Octets Framing

/-- A capsule on the wire, with its kind and value. -/
abbrev CapsuleItem := Framing.Item takeCapsule

/-- What `next` reports for a capsule. -/
def CapsuleItem.report (w : CapsuleItem) : Except AetherError Capsule :=
  interpret w.value

variable {p : CapsuleParser} {ws : List CapsuleItem} {cs : List Bytes} {c rest : Bytes}

theorem push_of_not_overflows (h : p.overflows c = false) : p.push c = { buf := p.buf ++ c } := by
  simp [CapsuleParser.push, h]

theorem drainCapsules_length_le (p : CapsuleParser) :
    (drainCapsules p).2.buf.length ≤ p.buf.length := by
  rw [drainCapsules, drainLoop_eq]
  exact drain_length_le takeCapsule_incremental malformed _ _

/-- One drain, on a buffer that is the front of a stream of capsules. -/
theorem drainCapsules_frames (hwire : p.buf ++ rest = wire ws) :
    ∃ done todo, ws = done ++ todo ∧ (drainCapsules p).1 = done.map CapsuleItem.report ∧
      (drainCapsules p).2.buf ++ rest = wire todo ∧
      (∀ w ∈ done.dropLast, malformed w.value = false) ∧
      (takeCapsule (drainCapsules p).2.buf = none ∨
        ∃ w ∈ done.getLast?, malformed w.value = true) := by
  obtain ⟨done, todo, hws, hvals, htodo, hgo, hend⟩ :=
    drain_step takeCapsule_incremental malformed (Nat.lt_succ_self p.buf.length) hwire
  refine ⟨done, todo, hws, ?_, ?_, hgo, ?_⟩
  · rw [drainCapsules, drainLoop_eq, hvals, List.map_map]
    rfl
  · rw [drainCapsules, drainLoop_eq]
    exact htodo
  · rw [drainCapsules, drainLoop_eq]
    exact hend

/-- What a drain takes off a buffer was in the buffer. -/
theorem length_le_of_mem_done {done todo : List CapsuleItem} {b b' : Bytes}
    (hwire : b ++ rest = wire (done ++ todo)) (htodo : b' ++ rest = wire todo) :
    ∀ w ∈ done, w.bytes.length ≤ b.length := by
  intro w hw
  have htotal := congrArg List.length hwire
  have hleft := congrArg List.length htodo
  have hpart : w.bytes.length ≤ (wire done).length := by
    obtain ⟨pre, post, rfl⟩ := List.append_of_mem hw
    simp only [wire_append, wire_cons, List.length_append]
    omega
  simp only [wire_append, List.length_append] at htotal hleft
  omega

/-- **A run without a reset takes whole capsules off the stream, in order.**  After the last drain
either nothing in the buffer decodes, or the last capsule taken off was malformed. -/
theorem receive_frames :
    ∀ {cs : List Bytes} {p : CapsuleParser} {ws : List CapsuleItem}, resets p cs = false →
      p.buf ++ cs.flatten ++ rest = wire ws →
      ∃ done todo, ws = done ++ todo ∧ (receive p cs).1 = done.map CapsuleItem.report ∧
        (receive p cs).2.buf ++ rest = wire todo ∧
        (∀ w ∈ done, w.bytes.length ≤ MAX_CAPSULE_BUF) ∧
        (cs = [] ∨ takeCapsule (receive p cs).2.buf = none ∨
          ∃ w ∈ done.getLast?, malformed w.value = true) := by
  intro cs
  induction cs with
  | nil =>
      intro p ws _ hwire
      exact ⟨[], ws, rfl, rfl, by simpa [receive] using hwire, by simp, Or.inl rfl⟩
  | cons c cs ih =>
      intro p ws hreset hwire
      simp only [resets, Bool.or_eq_false_iff] at hreset
      have hbuf : (p.push c).buf = p.buf ++ c := by rw [push_of_not_overflows hreset.1]
      -- the buffer in front of the chunk, and the chunk behind it
      have hwire' : (p.push c).buf ++ (cs.flatten ++ rest) = wire ws := by
        rw [hbuf, ← hwire]
        simp
      obtain ⟨done₁, todo₁, rfl, hout₁, htodo₁, _, hend₁⟩ := drainCapsules_frames hwire'
      obtain ⟨done₂, todo₂, rfl, hout₂, htodo₂, hfit₂, hend₂⟩ :=
        ih hreset.2 (by simpa using htodo₁)
      refine ⟨done₁ ++ done₂, todo₂, by simp, ?_, htodo₂, ?_, Or.inr ?_⟩
      · simp [receive, hout₁, hout₂]
      -- a capsule that was taken off fitted into the buffer it was taken from
      · intro w hw
        rcases List.mem_append.1 hw with hw | hw
        · have hlen := length_le_of_mem_done hwire' htodo₁ w hw
          have hfits := hreset.1
          simp only [CapsuleParser.overflows, decide_eq_false_iff_not] at hfits
          rw [hbuf, List.length_append] at hlen
          omega
        · exact hfit₂ w hw
      · show takeCapsule (receive (drainCapsules (p.push c)).2 cs).2.buf = none ∨ _
        -- the last drain is the one behind this chunk, or the one of the rest
        rcases hend₂ with rfl | hnone | ⟨w, hw, hbad⟩
        · -- the drain behind this chunk was the last one
          have hdone₂ : done₂ = [] := by simpa [receive] using hout₂.symm
          rw [hdone₂, List.append_nil]
          exact hend₁
        · exact Or.inl hnone
        · refine Or.inr ⟨w, ?_, hbad⟩
          rw [List.getLast?_append]
          simp [Option.mem_def.1 hw]

/-! ## Runs without a reset -/

/-- A stream no longer than the buffer never empties it, however it is cut. -/
theorem resets_eq_false_of_le :
    ∀ {cs : List Bytes} {p : CapsuleParser},
      p.buf.length + cs.flatten.length ≤ MAX_CAPSULE_BUF → resets p cs = false := by
  intro cs
  induction cs with
  | nil => intros; rfl
  | cons c cs ih =>
      intro p hle
      simp only [List.flatten_cons, List.length_append] at hle
      have hfits : p.overflows c = false := by
        simp only [CapsuleParser.overflows, decide_eq_false_iff_not]
        omega
      have hdrain := drainCapsules_length_le (p.push c)
      have hbuf : (p.push c).buf.length = p.buf.length + c.length := by
        simp [push_of_not_overflows hfits]
      simp only [resets, hfits, Bool.false_or]
      exact ih (by omega)

/-- When no capsule of the stream is malformed, every drain runs until nothing decodes. -/
theorem drainCapsules_exhausts (hok : ∀ w ∈ ws, malformed w.value = false)
    (hwire : p.buf ++ rest = wire ws) : takeCapsule (drainCapsules p).2.buf = none := by
  obtain ⟨done, todo, rfl, _, _, _, hnone | ⟨w, hw, hbad⟩⟩ := drainCapsules_frames hwire
  · exact hnone
  · have hmem : w ∈ done := List.mem_of_mem_getLast? hw
    rw [hok w (List.mem_append_left _ hmem)] at hbad
    cases hbad

/-- If every capsule of the stream fits the buffer together with any of the chunks, what a drain
leaves behind never gets in the way of the next chunk. -/
theorem resets_eq_false_of_frames :
    ∀ {cs : List Bytes} {p : CapsuleParser} {ws : List CapsuleItem},
      (∀ w ∈ ws, malformed w.value = false) →
      (∀ w ∈ ws, ∀ c ∈ cs, w.bytes.length + c.length ≤ MAX_CAPSULE_BUF + 1) →
      (∀ c ∈ cs, c.length ≤ MAX_CAPSULE_BUF) →
      takeCapsule p.buf = none → p.buf ++ cs.flatten ++ rest = wire ws →
      resets p cs = false := by
  intro cs
  induction cs with
  | nil => intros; rfl
  | cons c cs ih =>
      intro p ws hok hfit hchunk hnone hwire
      -- what the last drain left is less than one capsule, so the chunk fits beside it
      have hfits : p.overflows c = false := by
        simp only [CapsuleParser.overflows, decide_eq_false_iff_not, gt_iff_lt, not_lt]
        cases ws with
        | nil =>
            have hbuf : p.buf = [] := by
              simp only [wire_nil, List.append_eq_nil_iff] at hwire
              exact hwire.1.1
            simpa [hbuf] using hchunk c (by simp)
        | cons w ws =>
            have hlt := length_lt_of_none takeCapsule_incremental
              (show p.buf ++ ((c :: cs).flatten ++ rest) = wire (w :: ws) by
                simpa using hwire) hnone
            have hw := hfit w (by simp) c (by simp)
            omega
      have hwire' : (p.push c).buf ++ (cs.flatten ++ rest) = wire ws := by
        rw [push_of_not_overflows hfits, ← hwire]
        simp
      -- nothing malformed comes, so the drain goes on until nothing decodes
      have hnone' := drainCapsules_exhausts hok hwire'
      obtain ⟨done, todo, rfl, _, htodo, _, _⟩ := drainCapsules_frames hwire'
      simp only [resets, hfits, Bool.false_or]
      refine @ih _ todo ?_ ?_ ?_ hnone' (by simpa using htodo)
      · intro w hw
        exact hok w (List.mem_append_right _ hw)
      · intro w hw c' hc'
        exact hfit w (List.mem_append_right _ hw) c' (List.mem_cons_of_mem _ hc')
      · intro c' hc'
        exact hchunk c' (List.mem_cons_of_mem _ hc')

/-- **A whole stream of well-formed capsules is reported whole.** -/
theorem receive_all (hok : ∀ w ∈ ws, malformed w.value = false)
    (hwire : cs.flatten = wire ws) (hreset : resets .new cs = false) :
    (receive .new cs).1 = ws.map CapsuleItem.report := by
  obtain ⟨done, todo, rfl, hout, htodo, _, hend⟩ :=
    @receive_frames [] _ _ _ hreset (by simpa [CapsuleParser.new] using hwire)
  rw [List.append_nil] at htodo
  have htodo_nil : todo = [] := by
    rcases hend with rfl | hnone | ⟨w, hw, hbad⟩
    · refine wire_eq_nil takeCapsule_incremental (htodo.symm.trans ?_)
      rfl
    · rw [htodo] at hnone
      exact eq_nil_of_none takeCapsule_incremental hnone
    · have hmem : w ∈ done := List.mem_of_mem_getLast? hw
      rw [hok w (List.mem_append_left _ hmem)] at hbad
      cases hbad
  rw [hout, htodo_nil, List.append_nil]

end Masque
end AuroraVpn
