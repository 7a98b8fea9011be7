import AuroraVpn.WireGuard.TunnelTasks

/-!
# TunnelChecks — the timers and the health check of a tunnel

* `TimerTask.Marked.turn`, `HealthTask.Marked.turn`: what these two put on the wire.
* `HealthTask.Watched.turn`: how long a silent peer is put up with.
-/

namespace AuroraVpn
namespace WireGuard
namespace Tunnel

open Draws Noise

variable {clientId : List.Vector UInt8 3} {env : Env} {now : Nat} {held : Bool}

/-! ## The timers -/

/-- Nothing that the peer could take for a message. -/
def Apart (datagram : Bytes) : Prop :=
  ∀ first ∈ datagram.head?, ¬ (WG_MSG_TYPE_MIN ≤ first ∧ first ≤ WG_MSG_TYPE_MAX)

namespace TimerTask

variable {cfg : AetherNoizeConfig} {t t' : TimerTask}

def messages (log : List TimerEvent) : List Bytes :=
  log.flatMap fun
    | .message msg => [msg]
    | _ => []

def decoys (log : List TimerEvent) : List Bytes :=
  log.flatMap fun
    | .decoy datagram => [datagram]
    | _ => []

/-- The message that is yet to be sent. -/
def sending : TimerPc → List Bytes
  | .junk _ _ msg _ => [msg]
  | .sending msg _ => [msg]
  | _ => []

/-- The junk that is yet to be sent. -/
def due : TimerPc → List Bytes
  | .junk acts _ _ _ => Noise.datagrams acts
  | _ => []

structure Marked (clientId : List.Vector UInt8 3) (t : TimerTask) : Prop where
  messages : ∀ msg ∈ messages t.log ++ sending t.pc, Reserved clientId msg
  decoys : ∀ datagram ∈ decoys t.log ++ due t.pc, Apart datagram

/-- The task sends something, or comes to another await. -/
theorem Marked.note {pc : TimerPc} {event : TimerEvent} (h : Marked clientId t)
    (hmessages : ∀ msg ∈ TimerTask.messages [event] ++ sending pc, msg ∈ sending t.pc ∨ Reserved clientId msg)
    (hdecoys : ∀ datagram ∈ TimerTask.decoys [event] ++ due pc, datagram ∈ due t.pc ∨ Apart datagram) :
    Marked clientId { t.note event with pc := pc } where
  messages msg hmsg := by
    -- the log has one event more, and what is still to be sent was to be sent before or comes with it
    have hlog : TimerTask.messages (t.log ++ [event]) = TimerTask.messages t.log ++ TimerTask.messages [event] :=
      List.flatMap_append
    dsimp only [TimerTask.note] at hmsg
    rw [hlog, List.append_assoc] at hmsg
    rcases List.mem_append.1 hmsg with hold | hnew
    · exact h.messages msg (List.mem_append_left _ hold)
    · rcases hmessages msg hnew with hpending | hmarked
      · exact h.messages msg (List.mem_append_right _ hpending)
      · exact hmarked
  decoys datagram hmem := by
    have hlog : TimerTask.decoys (t.log ++ [event]) = TimerTask.decoys t.log ++ TimerTask.decoys [event] :=
      List.flatMap_append
    dsimp only [TimerTask.note] at hmem
    rw [hlog, List.append_assoc] at hmem
    rcases List.mem_append.1 hmem with hold | hnew
    · exact h.decoys datagram (List.mem_append_left _ hold)
    · rcases hdecoys datagram hnew with hpending | hapart
      · exact h.decoys datagram (List.mem_append_right _ hpending)
      · exact hapart

theorem Marked.goOn {pc : TimerPc} (h : Marked clientId t) (hmessages : ∀ msg ∈ sending pc, msg ∈ sending t.pc)
    (hdecoys : ∀ datagram ∈ due pc, datagram ∈ due t.pc) : Marked clientId { t with pc := pc } where
  messages msg hmsg := by
    rcases List.mem_append.1 hmsg with hold | hnew
    · exact h.messages msg (List.mem_append_left _ hold)
    · exact h.messages msg (List.mem_append_right _ (hmessages msg hnew))
  decoys datagram hmem := by
    rcases List.mem_append.1 hmem with hold | hnew
    · exact h.decoys datagram (List.mem_append_left _ hold)
    · exact h.decoys datagram (List.mem_append_right _ (hdecoys datagram hnew))

theorem Marked.updated {next : Nat} (h : Marked clientId t) :
    Marked clientId (t.updated cfg clientId env now next) := by
  unfold TimerTask.updated
  cases env.answer with
  | writeToNetwork pkt =>
      -- the message is marked before it is sent
      have hmarked : Reserved clientId (injectClientId pkt clientId) := reserved_setReserved clientId pkt
      dsimp only
      split_ifs
      · refine h.note ?_ ?_
        · intro msg hmsg
          rw [List.mem_singleton.1 hmsg]
          exact .inr hmarked
        · intro datagram hmem
          -- a decoy is what the generator yields, so it is apart whatever that is
          exact .inr (((keepaliveJunk_apart cfg).outcome env.yields).apart datagram hmem)
      · refine h.note ?_ fun datagram hmem => absurd hmem List.not_mem_nil
        intro msg hmsg
        rw [List.mem_singleton.1 hmsg]
        exact .inr hmarked
  | done => exact h.note (fun msg hmsg => absurd hmsg List.not_mem_nil) fun d hmem => absurd hmem List.not_mem_nil
  | err => exact h.note (fun msg hmsg => absurd hmsg List.not_mem_nil) fun d hmem => absurd hmem List.not_mem_nil
  | writeToTunnel pkt =>
      exact h.note (fun msg hmsg => absurd hmsg List.not_mem_nil) fun d hmem => absurd hmem List.not_mem_nil

theorem Marked.turn (h : Marked clientId t) (hturn : t.turn cfg clientId env now held = some t') :
    Marked clientId t' := by
  -- by the place in the code at which the task goes on
  unfold TimerTask.turn at hturn
  split at hturn
  next next hpc =>
    split_ifs at hturn
    cases hturn
    exact h.goOn (fun msg hmsg => absurd hmsg List.not_mem_nil) fun d hmem => absurd hmem List.not_mem_nil
  next next hpc =>
    split_ifs at hturn
    cases hturn
    exact h.updated
  -- the next of the acts of a tick
  next acts time msg next hpc =>
    split_ifs at hturn
    split at hturn
    next datagram rest =>
      cases hturn
      refine h.note ?_ ?_
      · intro other hother
        rw [hpc]
        exact .inl hother
      · intro other hother
        rw [hpc]
        exact .inl hother
    next millis rest =>
      cases hturn
      refine h.goOn ?_ ?_
      · intro other hother
        rw [hpc]
        exact hother
      · intro other hother
        rw [hpc]
        exact hother
    next =>
      cases hturn
      refine h.goOn ?_ fun d hmem => absurd hmem List.not_mem_nil
      intro other hother
      rw [hpc]
      exact hother
  next msg next hpc =>
    cases hturn
    refine h.note ?_ fun d hmem => absurd hmem List.not_mem_nil
    intro other hother
    rw [hpc]
    exact .inl hother

end TimerTask

/-! ## The health check -/

theorem healthCheckPause_bounds : Always healthCheckPause fun millis => 2500 ≤ millis ∧ millis ≤ 3500 := by
  apply always_bind (always_between (Nat.zero_le _))
  intro offset hoffset
  apply always_pure
  have hjitter : WG_HEALTHCHECK_JITTER * 2 = 1000 := rfl
  have hleast : WG_HEALTHCHECK_INTERVAL - WG_HEALTHCHECK_JITTER = 2500 := rfl
  omega

namespace HealthTask

variable {src : List.Vector UInt8 4} {staleTimeout heard heard' now' : Nat} {t t' : HealthTask}

def messages (log : List HealthEvent) : List Bytes :=
  log.flatMap fun
    | .message msg => [msg]
    | _ => []

def sending : HealthPc → List Bytes
  | .sending msg => [msg]
  | _ => []

/-- What has been sent, and is yet to be sent. -/
def Marked (clientId : List.Vector UInt8 3) (t : HealthTask) : Prop :=
  ∀ msg ∈ messages t.log ++ sending t.pc, Reserved clientId msg

/-- How the last look stands to when the peer was last heard. -/
structure Watched (staleTimeout heard now : Nat) (t : HealthTask) : Prop where
  looked_le : t.looked ≤ now
  alive : (∀ last, t.pc ≠ .ended last) → t.looked < heard + staleTimeout
  dead : ∀ last, t.pc = .ended last → last + staleTimeout ≤ t.looked
  paused : ∀ began until_, t.pc = .sleeping began until_ → t.looked ≤ began ∧ began ≤ now ∧ until_ ≤ began + 3500

theorem Watched.mono (h : Watched staleTimeout heard now t) (hheard : heard ≤ heard') (hnow : now ≤ now') :
    Watched staleTimeout heard' now' t where
  looked_le := h.looked_le.trans hnow
  alive hpc := (h.alive hpc).trans_le (Nat.add_le_add_right hheard _)
  dead := h.dead
  paused began until_ hpc := by
    obtain ⟨hlooked, hbegan, huntil⟩ := h.paused began until_ hpc
    exact ⟨hlooked, hbegan.trans hnow, huntil⟩

theorem messages_note (event : HealthEvent) : messages (t.note event).log = messages t.log ++ messages [event] :=
  List.flatMap_append

theorem Marked.rest {yields : Yield} (h : Marked clientId t) : Marked clientId (t.rest yields now) := by
  intro msg hmsg
  rcases List.mem_append.1 hmsg with hold | hnew
  · exact h msg (List.mem_append_left _ hold)
  · cases hnew

theorem Marked.note {event : HealthEvent} (h : Marked clientId t)
    (hevent : ∀ msg ∈ messages [event], msg ∈ sending t.pc) : Marked clientId (t.note event) := by
  intro msg hmsg
  rw [messages_note, List.append_assoc] at hmsg
  rcases List.mem_append.1 hmsg with hold | hnew
  · exact h msg (List.mem_append_left _ hold)
  · rcases List.mem_append.1 hnew with hsent | hpending
    · exact h msg (List.mem_append_right _ (hevent msg hsent))
    · exact h msg (List.mem_append_right _ hpending)

theorem Marked.turn (h : Marked clientId t)
    (hturn : t.turn clientId src staleTimeout heard env now = some t') : Marked clientId t' := by
  unfold HealthTask.turn at hturn
  split at hturn
  -- awake: the task looks at what was heard
  next began until_ hpc =>
    split_ifs at hturn
    cases hturn
    unfold look
    dsimp only
    split_ifs <;>
    · intro msg hmsg
      rcases List.mem_append.1 hmsg with hold | hnew
      · exact h msg (List.mem_append_left _ hold)
      · cases hnew
  next probe hpc =>
    cases hturn
    have hnoted : ∀ answer, Marked clientId (t.note (.encapsulated probe answer)) :=
      fun answer => h.note fun msg hmsg => absurd hmsg List.not_mem_nil
    unfold encapsulated
    -- only a packet for the network becomes a message
    cases env.answer with
    | writeToNetwork pkt =>
        intro msg hmsg
        rcases List.mem_append.1 hmsg with hold | hnew
        · exact hnoted _ msg (List.mem_append_left _ hold)
        · rw [List.mem_singleton.1 hnew]
          exact reserved_setReserved clientId pkt
    | done => exact (hnoted _).rest
    | err => exact (hnoted _).rest
    | writeToTunnel pkt => exact (hnoted _).rest
  next msg hpc =>
    cases hturn
    refine (h.note ?_).rest
    intro other hother
    rw [hpc]
    exact hother
  next => cases hturn

theorem Watched.rest {yields : Yield} (h : Watched staleTimeout heard now t) (hpc : ∀ last, t.pc ≠ .ended last) :
    Watched staleTimeout heard now (t.rest yields now) where
  looked_le := h.looked_le
  alive _ := h.alive hpc
  dead last hended := by cases hended
  paused began until_ hsleeping := by
    have hpause := healthCheckPause_bounds.outcome yields
    cases hsleeping
    exact ⟨h.looked_le, le_rfl, Nat.add_le_add_left hpause.2 now⟩

theorem Watched.turn (h : Watched staleTimeout heard now t) (hheard : heard ≤ now)
    (hturn : t.turn clientId src staleTimeout heard env now = some t') : Watched staleTimeout heard now t' := by
  unfold HealthTask.turn at hturn
  split at hturn
  -- awake: too long without a word, or not
  next began until_ hpc =>
    split_ifs at hturn
    cases hturn
    unfold look
    dsimp only
    split_ifs with hidle
    · refine ⟨le_rfl, fun hpc => absurd rfl (hpc heard), ?_, fun _ _ hpc => by cases hpc⟩
      intro last hlast
      cases hlast
      exact Nat.add_comm heard staleTimeout ▸ Nat.add_le_of_le_sub hheard hidle
    · exact ⟨le_rfl, fun _ => by dsimp only; omega, fun _ hpc => (by cases hpc), fun _ _ hpc => (by cases hpc)⟩
  next probe hpc =>
    cases hturn
    have hnoted : ∀ answer, Watched staleTimeout heard now (t.note (.encapsulated probe answer)) :=
      fun answer => ⟨h.looked_le, h.alive, h.dead, h.paused⟩
    -- a task that has something to encapsulate has not ended
    have hrunning : ∀ last, t.pc ≠ .ended last := by
      intro last hended
      rw [hpc] at hended
      cases hended
    unfold encapsulated
    cases env.answer with
    | writeToNetwork pkt =>
        exact ⟨h.looked_le, fun _ => h.alive hrunning, fun _ hpc => (by cases hpc), fun _ _ hpc => (by cases hpc)⟩
    | done => exact (hnoted _).rest hrunning
    | err => exact (hnoted _).rest hrunning
    | writeToTunnel pkt => exact (hnoted _).rest hrunning
  next msg hpc =>
    cases hturn
    have hnoted : Watched staleTimeout heard now (t.note (.message msg)) :=
      ⟨h.looked_le, h.alive, h.dead, h.paused⟩
    refine hnoted.rest ?_
    intro last hended
    dsimp only [HealthTask.note] at hended
    rw [hpc] at hended
    cases hended
  next => cases hturn

/-- A task that goes to sleep is woken later, and one that gives up has looked at what was heard. -/
theorem turn_leads (hturn : t.turn clientId src staleTimeout heard env now = some t') :
    (∀ began until_, t'.pc = .sleeping began until_ → now ≤ until_) ∧ (∀ last, t'.pc = .ended last → last = heard) := by
  unfold HealthTask.turn at hturn
  split at hturn
  next began until_ hpc =>
    split_ifs at hturn
    cases hturn
    -- it gives up at what it has looked at, or it goes on
    unfold look
    dsimp only
    split_ifs
    · refine ⟨fun _ _ hpc => (by cases hpc), fun last hpc => ?_⟩
      cases hpc
      rfl
    · exact ⟨fun _ _ hpc => (by cases hpc), fun _ hpc => (by cases hpc)⟩
  next probe hpc =>
    cases hturn
    unfold encapsulated
    cases env.answer with
    | writeToNetwork pkt => exact ⟨fun _ _ hpc => (by cases hpc), fun _ hpc => (by cases hpc)⟩
    -- nothing to send: the task sleeps again, from now on
    | _ =>
        refine ⟨fun _ _ hpc => ?_, fun _ hpc => (by cases hpc)⟩
        cases hpc
        exact Nat.le_add_right _ _
  next msg hpc =>
    cases hturn
    refine ⟨fun _ _ hpc => ?_, fun _ hpc => (by cases hpc)⟩
    cases hpc
    exact Nat.le_add_right _ _
  next => cases hturn

end HealthTask

end Tunnel
end WireGuard
end AuroraVpn
