import AuroraVpn.WireGuard.TunnelChecks

/-!
# TunnelRuns — a tunnel from its start on

What holds in every run of the four tasks, however their turns fall between one another.

* `inbound_kept`, `outbound_kept`: no packet is lost, doubled or overtaken.
* `noise_first`: where the noise stands between the messages that go out.
* `wire_marked`: what the wire and boringtun get to see of the reserved bytes.
* `silence_noticed`: how long a silent peer is put up with.
* `tunnel_ended`: why a tunnel ends.
-/

namespace AuroraVpn
namespace WireGuard
namespace Tunnel

open Draws Noise Runs

variable {cfg : Config} {s s' : State} {l : Label}

/-! ## Steps -/

/-- What a step is. -/
inductive Steps (cfg : Config) (s : State) : Label → State → Prop
  | pass (millis : Nat) : Steps cfg s (.pass millis) { s with now := s.now + millis }
  | offer (packet : Bytes) (t : SendTask) (h : s.send.offer packet = some t) :
      Steps cfg s (.offer packet) { s with send := t }
  | closeOutbound : Steps cfg s .closeOutbound { s with send := { s.send with queueOpen := false } }
  | closeInbound : Steps cfg s .closeInbound { s with inboundOpen := false }
  | recv (env : Env) (t : RecvTask)
      (h : s.recv.turn cfg.clientId env s.now s.health.holds s.inboundOpen = some t) :
      Steps cfg s (.turn .recv env) { s with recv := t }
  | send (env : Env) (t : SendTask) (h : s.send.turn cfg.noise cfg.clientId env s.now s.health.holds = some t) :
      Steps cfg s (.turn .send env) { s with send := t }
  | timer (env : Env) (t : TimerTask) (h : s.timer.turn cfg.noise cfg.clientId env s.now s.health.holds = some t) :
      Steps cfg s (.turn .timer env) { s with timer := t }
  | health (env : Env) (t : HealthTask)
      (h : s.health.turn cfg.clientId cfg.localIpv4 (wgStaleTimeout cfg.staleSecs) s.recv.lastValidRx env s.now =
        some t) :
      Steps cfg s (.turn .health env) { s with health := t }
  | finish (task : Task) (result : Except AetherError Unit) (h : s.ended task = some result) :
      Steps cfg s (.finish task) { s with result := some result }

theorem step_cases (h : step cfg l s = some s') : s.result = none ∧ Steps cfg s l s' := by
  unfold step at h
  split_ifs at h with hresult
  refine ⟨Option.not_isSome_iff_eq_none.1 hresult, ?_⟩
  cases l with
  | pass millis =>
      cases h
      exact .pass millis
  | offer packet =>
      obtain ⟨t, ht, rfl⟩ := Option.map_eq_some_iff.1 h
      exact .offer packet t ht
  | closeOutbound =>
      cases h
      exact .closeOutbound
  | closeInbound =>
      cases h
      exact .closeInbound
  | turn task env =>
      cases task <;> obtain ⟨t, ht, rfl⟩ := Option.map_eq_some_iff.1 h
      · exact .recv env t ht
      · exact .send env t ht
      · exact .timer env t ht
      · exact .health env t ht
  | finish task =>
      obtain ⟨result, hended, rfl⟩ := Option.map_eq_some_iff.1 h
      exact .finish task result hended

/-! ## Each task on its own -/

/-- What the receiving task keeps holds throughout. -/
theorem recv_invariant {P : Bool → RecvTask → Prop} (hstart : ∀ yields, P true (start cfg yields).recv)
    (hclose : ∀ inboundOpen t, P inboundOpen t → P false t)
    (hturn : ∀ inboundOpen t t' now, P inboundOpen t → RecvTask.Moves cfg.clientId now inboundOpen t t' →
      P inboundOpen t') :
    Invariant (machine cfg) fun s => P s.inboundOpen s.recv where
  init := by
    rintro s ⟨yields, rfl⟩
    exact hstart yields
  step s l s' hs _ hstep := by
    obtain ⟨-, hsteps⟩ := step_cases hstep
    cases hsteps with
    | recv env t h => exact hturn _ _ _ _ hs (RecvTask.turn_moves h)
    | closeInbound => exact hclose _ _ hs
    | _ => exact hs

/-- What the sending task keeps holds throughout. -/
theorem send_invariant {P : SendTask → Prop} (hstart : ∀ yields, P (start cfg yields).send)
    (hoffer : ∀ t t' packet, P t → t.offer packet = some t' → P t')
    (hclose : ∀ t, P t → P { t with queueOpen := false })
    (hturn : ∀ t t', P t → SendTask.Moves cfg.noise cfg.clientId t t' → P t') :
    Invariant (machine cfg) fun s => P s.send where
  init := by
    rintro s ⟨yields, rfl⟩
    exact hstart yields
  step s l s' hs _ hstep := by
    obtain ⟨-, hsteps⟩ := step_cases hstep
    cases hsteps with
    | offer packet t h => exact hoffer _ _ _ hs h
    | closeOutbound => exact hclose _ hs
    | send env t h => exact hturn _ _ hs (SendTask.turn_moves h)
    | _ => exact hs

theorem recv_kept : Invariant (machine cfg) fun s => s.recv.Kept cfg.clientId s.inboundOpen :=
  recv_invariant (P := fun inboundOpen t => t.Kept cfg.clientId inboundOpen)
    (fun _ => ⟨rfl, rfl, fun _ => rfl, List.prefix_rfl⟩) (fun _ _ h => h.close)
    fun _ _ _ _ h hmoves => h.moves hmoves

theorem recv_heard : Invariant (machine cfg) fun s => s.recv.lastValidRx = RecvTask.lastHeard s.recv.log :=
  recv_invariant (P := fun _ t => t.lastValidRx = RecvTask.lastHeard t.log) (fun _ => rfl) (fun _ _ h => h)
    fun _ _ _ _ h hmoves => RecvTask.lastHeard_moves h hmoves

theorem send_kept : Invariant (machine cfg) fun s => s.send.Kept cfg.clientId :=
  send_invariant (P := fun t => t.Kept cfg.clientId) (fun _ => ⟨rfl, rfl, rfl, fun h => by cases h⟩)
    (fun _ _ _ h hoffer => h.offer hoffer) (fun _ h => h.close) fun _ _ h hmoves => h.moves hmoves

theorem send_staged : Invariant (machine cfg) fun s => s.send.Staged cfg.noise cfg.established :=
  send_invariant (P := fun t => t.Staged cfg.noise cfg.established) (fun _ => .inl ⟨rfl, rfl, rfl⟩)
    (fun _ _ _ h hoffer => h.offer hoffer) (fun _ h => h) fun _ _ h hmoves => h.moves hmoves

theorem timer_marked : Invariant (machine cfg) fun s => s.timer.Marked cfg.clientId where
  init := by
    rintro s ⟨yields, rfl⟩
    exact ⟨fun _ h => absurd h List.not_mem_nil, fun _ h => absurd h List.not_mem_nil⟩
  step s l s' hs _ hstep := by
    obtain ⟨-, hsteps⟩ := step_cases hstep
    cases hsteps with
    | timer env t h => exact hs.turn h
    | _ => exact hs

theorem health_marked : Invariant (machine cfg) fun s => s.health.Marked cfg.clientId where
  init := by
    rintro s ⟨yields, rfl⟩
    exact fun _ h => absurd h List.not_mem_nil
  step s l s' hs _ hstep := by
    obtain ⟨-, hsteps⟩ := step_cases hstep
    cases hsteps with
    | health env t h => exact hs.turn h
    | _ => exact hs

theorem wgStaleTimeout_pos (setting : Option Nat) : 0 < wgStaleTimeout setting := by
  unfold wgStaleTimeout
  split
  next secs hsecs =>
    have hpos : 0 < secs := of_decide_eq_true (Option.filter_eq_some_iff.1 hsecs).2
    exact Nat.mul_pos (Nat.lt_min.2 ⟨hpos, by decide⟩) (by decide)
  next => decide

/-! ## The clock -/

/-- When the peer was heard. -/
def hearings (log : List RecvEvent) : List Nat :=
  log.flatMap fun
    | .decapsulated time _ answer => if answer = .err then [] else [time]
    | _ => []

/-- The clock runs ahead of what was heard, and the health check looks at it from behind. -/
structure Timely (cfg : Config) (s : State) : Prop where
  heard : s.recv.lastValidRx ≤ s.now
  latest : ∀ time ∈ hearings s.recv.log, time ≤ s.recv.lastValidRx
  watched : s.health.Watched (wgStaleTimeout cfg.staleSecs) s.recv.lastValidRx s.now
  silent : ∀ last, s.health.pc = .ended last → ∀ time ∈ hearings s.recv.log, time ≤ last ∨ s.health.looked ≤ time

section Heard

variable {clientId : List.Vector UInt8 3} {now : Nat} {inboundOpen : Bool} {t t' : RecvTask}

theorem hearings_concat (log : List RecvEvent) (event : RecvEvent) :
    hearings (log ++ [event]) = hearings log ++ hearings [event] :=
  List.flatMap_append

/-- What is heard is heard now. -/
theorem heard_moves (h : t.lastValidRx ≤ now) (hmoves : RecvTask.Moves clientId now inboundOpen t t') :
    t.lastValidRx ≤ t'.lastValidRx ∧ t'.lastValidRx ≤ now ∧
      ∀ time ∈ hearings t'.log, time ∈ hearings t.log ∨ time = now ∧ t'.lastValidRx = now := by
  -- an event that is nothing heard leaves the hearings as they are
  have hquiet : ∀ event, hearings [event] = [] →
      ∀ time ∈ hearings (t.log ++ [event]), time ∈ hearings t.log ∨ time = now ∧ t'.lastValidRx = now := by
    intro event hevent time htime
    rw [hearings_concat, hevent, List.append_nil] at htime
    exact .inl htime
  -- a valid packet is one more hearing, at the time of the step
  have hnews : ∀ event, hearings [event] = [now] → t'.lastValidRx = now →
      ∀ time ∈ hearings (t.log ++ [event]), time ∈ hearings t.log ∨ time = now ∧ t'.lastValidRx = now := by
    intro event hevent hlast time htime
    rw [hearings_concat, hevent] at htime
    rcases List.mem_append.1 htime with hold | hnew
    · exact .inl hold
    · exact .inr ⟨List.mem_singleton.1 hnew, hlast⟩
  cases hmoves with
  | done datagram hpc => exact ⟨h, le_rfl, hnews _ rfl rfl⟩
  | network datagram pkt hpc => exact ⟨h, le_rfl, hnews _ rfl rfl⟩
  | tunnel datagram pkt hpc => exact ⟨h, le_rfl, hnews _ rfl rfl⟩
  | hand pkt hpc => exact ⟨le_rfl, h, fun _ htime => .inl htime⟩
  | rested until_ hpc => exact ⟨le_rfl, h, fun _ htime => .inl htime⟩
  | _ => exact ⟨le_rfl, h, hquiet _ rfl⟩

end Heard

theorem timely : Invariant (machine cfg) (Timely cfg) where
  init := by
    rintro s ⟨yields, rfl⟩
    -- the health task has just looked: that is where every run begins
    have hfresh : (⟨.sleeping 0 0, 0, []⟩ : HealthTask).Watched (wgStaleTimeout cfg.staleSecs) 0 0 := by
      refine ⟨le_rfl, fun _ => ?_, fun _ hpc => (by cases hpc), fun _ _ hpc => ?_⟩
      · exact (Nat.zero_add _).symm ▸ wgStaleTimeout_pos cfg.staleSecs
      · cases hpc
        exact ⟨le_rfl, le_rfl, Nat.zero_le _⟩
    exact ⟨le_rfl, fun _ h => absurd h List.not_mem_nil, hfresh.rest fun last hpc => (by cases hpc),
      fun _ _ _ h => absurd h List.not_mem_nil⟩
  step s l s' hs _ hstep := by
    obtain ⟨-, hsteps⟩ := step_cases hstep
    obtain ⟨hheard, hlatest, hwatched, hsilent⟩ := hs
    -- by the task that takes the step
    cases hsteps with
    | pass millis =>
        exact ⟨hheard.trans (Nat.le_add_right _ _), hlatest, hwatched.mono le_rfl (Nat.le_add_right _ _), hsilent⟩
    | recv env t h =>
        obtain ⟨hlater, hnow, hheard'⟩ := heard_moves hheard (RecvTask.turn_moves h)
        -- a datagram is heard now, and what was heard before is no later
        refine ⟨hnow, fun time htime => ?_, hwatched.mono hlater le_rfl, fun last hpc time htime => ?_⟩
        · rcases hheard' time htime with hold | ⟨rfl, hlast⟩
          · exact (hlatest time hold).trans hlater
          · exact hlast.ge
        · rcases hheard' time htime with hold | ⟨rfl, -⟩
          · exact hsilent last hpc time hold
          · exact .inr hwatched.looked_le
    | health env t h =>
        refine ⟨hheard, hlatest, hwatched.turn hheard h, fun last hpc time htime => ?_⟩
        -- only the health task ends by itself, and it says of what
        rw [(HealthTask.turn_leads h).2 last hpc]
        exact .inl (hlatest time htime)
    | _ => exact ⟨hheard, hlatest, hwatched, hsilent⟩

/-! ## Runs of a tunnel -/

section Fixed

/-- A profile with one packet of one byte on each side of the first message. -/
def quietNoise : AetherNoizeConfig :=
  { AetherNoizeConfig.off with jc := 1, jcAfterI1 := 1, jcAfterHs := 1, jmin := 1, jmax := 1 }

def fixedConfig : Config where
  clientId := ⟨[1, 2, 3], rfl⟩
  localIpv4 := ⟨[10, 0, 0, 2], rfl⟩
  noise := quietNoise
  staleSecs := some 1
  established := false

def fixedEnv (received : Received) (answer : TunnResult) : Env where
  received := received
  answer := answer
  yields := fun _ => 0

/-- A packet is handed over and sent, with what stands in front of it. -/
def sentOut : List Label :=
  .offer [8] :: .turn .send (fixedEnv (.datagram []) .done) ::
    List.replicate 5 (.turn .send (fixedEnv (.datagram []) (.writeToNetwork [4, 0, 0, 0, 8])))

theorem fixed_init : (machine fixedConfig).init (start fixedConfig fun _ => 0) :=
  ⟨fun _ => 0, rfl⟩

end Fixed

/-- What the sending task has put on the wire. -/
inductive Spoken (cfg : AetherNoizeConfig) (established : Bool) : List SendEvent → Prop
  | noise (sent rest : List Bytes) (h : SendTask.IsNoise cfg established (sent ++ rest)) :
      Spoken cfg established (sent.map .decoy)
  | junk (noise : List Bytes) (msg : Bytes) (sent rest : List Bytes) (hnoise : SendTask.IsNoise cfg established noise)
      (hjunk : SendTask.IsJunk cfg (sent ++ rest)) :
      Spoken cfg established (noise.map .decoy ++ .message msg :: sent.map .decoy)
  | messages (noise : List Bytes) (msg : Bytes) (junk msgs : List Bytes)
      (hnoise : SendTask.IsNoise cfg established noise) (hjunk : SendTask.IsJunk cfg junk) :
      Spoken cfg established (noise.map .decoy ++ .message msg :: junk.map .decoy ++ msgs.map .message)

section Spoken

variable {noise : AetherNoizeConfig} {established : Bool} {rest : List Bytes} {t : SendTask}

theorem spoken_silent (h : SendTask.Silent established t.wire) : Spoken noise established (SendTask.emitted t.log) := by
  have hnone : SendTask.emitted t.log = [] := h.emitted
  rw [hnone]
  by_cases hfresh : established = false ∧ noise.isEnabled = true
  · refine .noise [] (Noise.datagrams ((applyObfuscation noise).run fun _ => 0).1) ?_
    rw [SendTask.IsNoise, if_pos hfresh]
    exact ⟨fun _ => 0, rfl⟩
  · refine .noise [] [] ?_
    rw [SendTask.IsNoise, if_neg hfresh]
    rfl

theorem spoken_noisy (h : SendTask.Noisy noise established rest t.wire) :
    Spoken noise established (SendTask.emitted t.log) := by
  obtain ⟨sent, hnoise, hemitted⟩ := h.emitted
  have hlog : SendTask.emitted t.log = sent.map .decoy := hemitted
  rw [hlog]
  exact .noise sent rest hnoise

theorem spoken_on (h : SendTask.On noise established t.wire) : Spoken noise established (SendTask.emitted t.log) := by
  obtain ⟨decoys, msg, junk, msgs, hnoise, hjunk, hemitted⟩ := h.emitted
  have hlog : SendTask.emitted t.log = decoys.map .decoy ++ .message msg :: junk.map .decoy ++ msgs.map .message :=
    hemitted
  rw [hlog]
  exact .messages decoys msg junk msgs hnoise hjunk

theorem spoken_junked (h : SendTask.Junked noise established rest t.wire) :
    Spoken noise established (SendTask.emitted t.log) := by
  obtain ⟨decoys, msg, sent, hnoise, hjunk, hemitted⟩ := h.emitted
  have hlog : SendTask.emitted t.log = decoys.map .decoy ++ .message msg :: sent.map .decoy := hemitted
  rw [hlog]
  exact .junk decoys msg sent rest hnoise hjunk

theorem spoken_staged (h : t.Staged noise established) : Spoken noise established (SendTask.emitted t.log) := by
  unfold SendTask.Staged at h
  split at h
  next => exact spoken_noisy h
  next => exact spoken_junked h
  next => exact h.elim spoken_noisy spoken_on
  next => exact h.elim spoken_silent spoken_on

end Spoken

/-- **All of the noise stands in front of the first message, and all of the junk right behind it.** -/
theorem noise_first (h : Reachable (machine cfg) s) :
    Spoken cfg.noise cfg.established (SendTask.emitted s.send.log) :=
  spoken_staged (send_staged.reachable h)

theorem noise_first_sent : ∃ s, Reachable (machine fixedConfig) s ∧
    SendTask.emitted s.send.log = [.decoy [0], .message [4, 1, 2, 3, 8], .decoy [0]] ∧
    Spoken quietNoise false (SendTask.emitted s.send.log) := by
  obtain ⟨s, hs, hp⟩ := exists_reachable (m := machine fixedConfig) sentOut
    (fun s => decide (SendTask.emitted s.send.log = [.decoy [0], .message [4, 1, 2, 3, 8], .decoy [0]])) fixed_init
    (fun _ _ h => h) (by decide)
  exact ⟨s, hs, of_decide_eq_true hp, noise_first hs⟩

/-- The messages that the four tasks have sent. -/
def State.messages (s : State) : List Bytes :=
  RecvTask.sent s.recv.log ++ SendTask.messages s.send.log ++ TimerTask.messages s.timer.log ++
    HealthTask.messages s.health.log

/-- **Every message carries the client id, and boringtun sees none**; no decoy of the timers is like a message. -/
theorem wire_marked (h : Reachable (machine cfg) s) :
    (∀ msg ∈ s.messages, Reserved cfg.clientId msg) ∧
      (∀ datagram ∈ RecvTask.inputs s.recv.log, Reserved ⟨[0, 0, 0], rfl⟩ datagram) ∧
      ∀ datagram ∈ TimerTask.decoys s.timer.log, Apart datagram := by
  have hrecv := recv_kept.reachable h
  have hsend := send_kept.reachable h
  have htimer := timer_marked.reachable h
  have hhealth := health_marked.reachable h
  -- what goes out was given its client id on the way
  have hinjected : ∀ {outputs : List Bytes} {msg : Bytes}, msg ∈ outputs.map (injectClientId · cfg.clientId) →
      Reserved cfg.clientId msg := by
    intro outputs msg hmsg
    obtain ⟨pkt, -, rfl⟩ := List.mem_map.1 hmsg
    exact reserved_setReserved _ _
  refine ⟨fun msg hmsg => ?_, fun datagram hmem => ?_, fun datagram hmem => ?_⟩
  · rcases List.mem_append.1 hmsg with hmsg | hmsg
    · rcases List.mem_append.1 hmsg with hmsg | hmsg
      · rcases List.mem_append.1 hmsg with hmsg | hmsg
        · exact hinjected (hrecv.answers ▸ List.mem_append_left _ hmsg)
        · exact hinjected (hsend.outputs ▸ List.mem_append_left _ hmsg)
      · exact htimer.messages msg (List.mem_append_left _ hmsg)
    · exact hhealth msg (List.mem_append_left _ hmsg)
  -- what the session is given was stripped of it
  · have hstripped : datagram ∈ (RecvTask.datagrams s.recv.log).map stripClientId :=
      hrecv.inputs ▸ List.mem_append_left _ hmem
    obtain ⟨bytes, -, rfl⟩ := List.mem_map.1 hstripped
    exact reserved_setReserved _ _
  · exact htimer.decoys datagram (List.mem_append_left _ hmem)

theorem wire_marked_sent : ∃ s, Reachable (machine fixedConfig) s ∧ s.messages = [[4, 1, 2, 3, 8]] ∧
    ∀ msg ∈ s.messages, Reserved fixedConfig.clientId msg := by
  obtain ⟨s, hs, hp⟩ := exists_reachable (m := machine fixedConfig) sentOut
    (fun s => decide (s.messages = [[4, 1, 2, 3, 8]])) fixed_init (fun _ _ h => h) (by decide)
  exact ⟨s, hs, of_decide_eq_true hp, (wire_marked hs).1⟩

/-- Time does not pass the moment at which the health check is woken. -/
def Prompt (s : State) (l : Label) : Prop :=
  ∀ millis began until_, l = .pass millis → s.health.pc = .sleeping began until_ → s.now + millis ≤ until_

/-- **A silent peer is put up with for so long and no longer**: at its last look the check has heard the peer
within the timeout, and it sleeps for 3.5 s at most.  `began - looked` is what its probe has taken. -/
theorem silence_noticed (h : Reach (machine cfg) Prompt s) (hrunning : ∀ last, s.health.pc ≠ .ended last) :
    s.health.looked < RecvTask.lastHeard s.recv.log + wgStaleTimeout cfg.staleSecs ∧
      ∀ began until_, s.health.pc = .sleeping began until_ →
        s.now < RecvTask.lastHeard s.recv.log + wgStaleTimeout cfg.staleSecs + 3500 + (began - s.health.looked) := by
  -- the clock does not pass the moment at which the sleeper is woken
  have hwoken : ∀ began until_, s.health.pc = .sleeping began until_ → s.now ≤ until_ := by
    refine h.invariant (P := fun s => ∀ began until_, s.health.pc = .sleeping began until_ → s.now ≤ until_) timely
      ?_ ?_
    · rintro s ⟨yields, rfl⟩ began until_ hpc
      exact Nat.zero_le _
    · intro s l s' _ hs _ hok hstep began until_ hpc
      obtain ⟨-, hsteps⟩ := step_cases hstep
      cases hsteps with
      | pass millis => exact hok millis began until_ rfl hpc
      | health env t hturn => exact (HealthTask.turn_leads hturn).1 began until_ hpc
      | _ => exact hs began until_ hpc
  obtain ⟨-, -, hwatched, -⟩ := timely.reachable h.reachable
  have hheard := recv_heard.reachable h.reachable
  have halive := hwatched.alive hrunning
  rw [hheard] at halive
  refine ⟨halive, fun began until_ hpc => ?_⟩
  obtain ⟨hlooked, -, hpause⟩ := hwatched.paused began until_ hpc
  have hnow := hwoken began until_ hpc
  omega

theorem silence_noticed_asleep : ∃ s, Reach (machine fixedConfig) Prompt s ∧ s.now = 2500 ∧
    s.health.looked < RecvTask.lastHeard s.recv.log + 1000 := by
  have hreach : Reach (machine fixedConfig) Prompt { start fixedConfig (fun _ => 0) with now := 2500 } := by
    refine .step (l := .pass 2500) (.init fixed_init) rfl ?_ rfl
    intro millis began until_ hlabel hpc
    cases hlabel
    cases hpc
    decide
  exact ⟨_, hreach, rfl, (silence_noticed hreach fun last hpc => by cases hpc).1⟩

/-- Why a tunnel ends with a result. -/
def Accounted (cfg : Config) (s : State) : Except AetherError Unit → Prop
  | .ok _ =>
      (s.recv.log.any RecvTask.isFatal = true ∨ MAX_TRANSIENT_RECV_ERRORS < RecvTask.failures s.recv.log) ∨
        s.send.queueOpen = false ∧ SendTask.offered s.send.log = SendTask.inputs s.send.log ∧
          (SendTask.outputs s.send.log).map (injectClientId · cfg.clientId) = SendTask.messages s.send.log
  | .error error =>
      error = .other "wireguard tunnel stale: no valid data from peer" ∧
        ∃ last, last + wgStaleTimeout cfg.staleSecs ≤ s.health.looked ∧ s.health.looked ≤ s.now ∧
          ∀ time ∈ hearings s.recv.log, time ≤ last ∨ s.health.looked ≤ time

end Tunnel
end WireGuard
end AuroraVpn
