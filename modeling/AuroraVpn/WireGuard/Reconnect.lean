import AuroraVpn.Engine.Probing
import AuroraVpn.WireGuard.Anchors

/-!
# Reconnect — which endpoint a WireGuard tunnel is started to

The loop of `run_wireguard` without a forced peer, with `hunt_wg_anchors`, `hunt_wg_peer` and
`hunt_wg_peer_sweep`.  What the probes, the verifications and the random generator answer, and how long
everything takes, is given for each round (`Round`).

* `round_kept_iff`: the rounds that return and dial no endpoint in cooldown.
* `not_excluded_of_sweep`: a sweep finds no endpoint that it is to leave out.
* `kept_iff`: the runs in which no endpoint in cooldown is returned or dialled.
* `cooldown_kept`: the same, and that no endpoint is dialled three times in a row.
-/

namespace AuroraVpn
namespace WireGuard

open Engine (IpScan ScanMode ProbeResult Strategy)

/-! ## Hunting -/

/-- An endpoint, and the obfuscation profile that it answered under. -/
abbrev Chosen := SocketAddr × Text

/-- What a run is configured with. -/
structure Config where
  zeroTrust : Bool
  /-- The profiles, by name. -/
  candidates : List Text
  mode : ScanMode
  ip : IpScan
  cooldownSecs : Option Nat

/-- `wg_endpoint_cooldown` in milliseconds, by what `AETHER_WG_ENDPOINT_COOLDOWN_SECS` is set to. -/
def wgEndpointCooldown (setting : Option Nat) : Nat :=
  match setting.filter fun secs => 0 < secs with
  | some secs => min secs 86400 * 1000
  | none => 300 * 1000

def Config.cooldown (cfg : Config) : Nat :=
  wgEndpointCooldown cfg.cooldownSecs

/-- A turn of the loop of `hunt_wg_endpoints`. -/
inductive Turn
  | ended (candidate : IpAddr × UInt16) (rtt : Option Nat)
  | timeUp
  deriving DecidableEq

/-- What the network and the random generator answer to a hunt. -/
structure Hunt where
  /-- The probes of the anchor pass that end before its deadline, in their order. -/
  anchorEnds : List (Chosen × Bool)
  hasIpv6 : Bool
  sampling : Text → Sampling
  steps : Text → Nat
  turns : Text → List Turn
  /-- How many profiles the sweep gets to before its time limit. -/
  limit : Nat

section Hunting

variable (cfg : Config) (hunt : Hunt)

/-- The probes of the anchor pass. -/
def passProbes : List Chosen :=
  anchorProbes cfg.candidates anchorPorts (anchorAddrs cfg.zeroTrust cfg.ip)

/-- `hunt_wg_anchors`: the first probe that ends with an answer. -/
def huntWgAnchors : Option Chosen :=
  (hunt.anchorEnds.find? fun ended => ended.2 ∧ ended.1 ∈ passProbes cfg).map Prod.fst

/-- The loop of `hunt_wg_endpoints` where one endpoint is wanted. -/
def huntTurns (st : Strategy) (candidates : List (IpAddr × UInt16)) :
    List Turn → List ProbeResult → List ProbeResult
  | [], verified => verified
  | .timeUp :: _, verified => verified
  | .ended _ none :: rest, verified => huntTurns st candidates rest verified
  | .ended candidate (some rtt) :: rest, verified =>
      if candidate ∈ candidates then
        let result : ProbeResult := ⟨.new candidate.1 candidate.2, rtt⟩
        if st.earlyExitFirst then [result]
        else if 0 < st.targetSuccesses ∧ st.targetSuccesses ≤ verified.length + 1 ∧ st.quietAfterFirstMs = 0 then
          verified ++ [result]
        else huntTurns st candidates rest (verified ++ [result])
      else huntTurns st candidates rest verified

def distinctByIp (found : List ProbeResult) : List ProbeResult :=
  (Engine.sortByRtt found).foldl
    (fun out result => if out.any fun other => other.peer.ip = result.peer.ip then out else out ++ [result]) []

/-- The addresses that are scanned, as far as the host has a route for them. -/
def effectiveIp (ip : IpScan) (hasIpv6 : Bool) : Option IpScan :=
  if ip.wantV6 ∧ ¬ hasIpv6 then if ip.wantV4 then some .v4 else none else some ip

/-- The candidates of a scan under a profile. -/
def scanCandidates (profile : Text) (excluded : List SocketAddr) : Option (List (IpAddr × UInt16)) :=
  (effectiveIp cfg.ip hunt.hasIpv6).bind fun ip =>
    buildWgCandidates cfg.zeroTrust (wgStrategy cfg.mode) WG_PORTS ip excluded (hunt.sampling profile)
      (hunt.steps profile)

/-- `hunt_wg_peer_with_profile`. -/
def huntWgPeerWithProfile (profile : Text) (excluded : List SocketAddr) : Option SocketAddr :=
  (scanCandidates cfg hunt profile excluded).bind fun candidates =>
    ((distinctByIp (huntTurns cfg.mode.wgStrategy candidates (hunt.turns profile) [])).head?).map ProbeResult.peer

/-- `hunt_wg_peer_sweep`, up to its time limit. -/
def huntWgPeerSweep (excluded : List SocketAddr) : Option Chosen :=
  (cfg.candidates.take hunt.limit).findSome? fun profile =>
    (huntWgPeerWithProfile cfg hunt profile excluded).map fun peer => (peer, profile)

/-- `hunt_wg_peer`. -/
def huntWgPeer (excluded : List SocketAddr) : Option Chosen :=
  (huntWgAnchors cfg hunt).or (huntWgPeerSweep cfg hunt excluded)

end Hunting

/-! ## The loop -/

def MAX_CONSECUTIVE_FAILS : Nat := 2

/-- The endpoint that is taken without a scan: the one that the organization assigned, under the first profile
that it passes with, or the cached one. -/
def quickConnect (candidates : List Text) (assigned : Option SocketAddr) (passes : Text → Bool)
    (cached : Option Chosen) (cachedWorks : Bool) : Option Chosen :=
  ((assigned.bind fun peer => (candidates.find? passes).map fun name => (peer, name))).or
    (if cachedWorks then cached else none)

structure Loop where
  clock : Nat := 0
  quick : Option Chosen
  lastGood : Option Chosen := none
  fails : Nat := 0
  cooldowns : List (SocketAddr × Nat) := []

/-- What becomes of a round: how long it is until the loop comes round, until an endpoint is found and until
the tunnel is started, and what is answered.  However a tunnel ends, it counts as a failure. -/
structure Round where
  idle : Nat
  hunting : Nat
  dialling : Nat
  /-- The last endpoint that worked passes the verification. -/
  retried : Bool
  hunt : Hunt

/-- What a round did: what it put into cooldown until when, what `hunt_wg_peer` returned when, and what a tunnel
was started to when. -/
structure Record where
  put : Option (SocketAddr × Nat)
  returned : Option (SocketAddr × Nat)
  started : Option (SocketAddr × Nat)
  deriving DecidableEq

namespace Loop

def peer? (s : Loop) : Option SocketAddr :=
  s.lastGood.map Prod.fst

/-- The time at which the loop comes round. -/
def now (s : Loop) (r : Round) : Nat :=
  s.clock + r.idle

/-- `endpoint_cooldowns` at the top of the loop, with what is put into it. -/
def put (cfg : Config) (s : Loop) (r : Round) : Option (SocketAddr × Nat) :=
  if MAX_CONSECUTIVE_FAILS ≤ s.fails then s.peer?.map fun peer => (peer, s.now r + cfg.cooldown) else none

/-- The top of the loop. -/
def rest (cfg : Config) (s : Loop) (r : Round) : Loop :=
  let kept := s.cooldowns.filter fun entry => s.now r < entry.2
  if MAX_CONSECUTIVE_FAILS ≤ s.fails then
    match s.lastGood with
    | some (peer, _) =>
        { s with
          lastGood := none, fails := 0,
          cooldowns := (peer, s.now r + cfg.cooldown) :: kept.filter fun entry => entry.1 ≠ peer }
    | none => { s with fails := 0, cooldowns := kept }
  else { s with cooldowns := kept }

def excluded (s : Loop) : List SocketAddr :=
  s.cooldowns.map Prod.fst

/-- The endpoint that is at hand without a hunt. -/
def atHand (s : Loop) (r : Round) : Option Chosen :=
  s.quick.or (if r.retried then s.lastGood else none)

/-- The endpoint of the round; `s` is the loop behind its top. -/
def choose (cfg : Config) (s : Loop) (r : Round) : Option Chosen :=
  (s.atHand r).or (huntWgPeer cfg r.hunt s.excluded)

/-- The loop behind a round; `s` is the one behind its top. -/
def dial (s : Loop) (now : Nat) (r : Round) : Option Chosen → Loop
  | none => { s with clock := now + r.hunting, quick := none }
  | some chosen =>
      { s with
        clock := now + r.hunting + r.dialling, quick := none, lastGood := some chosen,
        fails := (if s.peer? = some chosen.1 then s.fails else 0) + 1 }

def next (cfg : Config) (s : Loop) (r : Round) : Loop :=
  (s.rest cfg r).dial (s.now r) r ((s.rest cfg r).choose cfg r)

/-- What `hunt_wg_peer` returns in a round, and what a tunnel is started to; `s` is the loop behind its top. -/
def returned (cfg : Config) (s : Loop) (now : Nat) (r : Round) : Option (SocketAddr × Nat) :=
  if (s.atHand r).isNone then
    (huntWgPeer cfg r.hunt s.excluded).map fun chosen => (chosen.1, now + r.hunting)
  else none

def started (cfg : Config) (s : Loop) (now : Nat) (r : Round) : Option (SocketAddr × Nat) :=
  (s.choose cfg r).map fun chosen => (chosen.1, now + r.hunting + r.dialling)

def record (cfg : Config) (s : Loop) (r : Round) : Record where
  put := s.put cfg r
  returned := (s.rest cfg r).returned cfg (s.now r) r
  started := (s.rest cfg r).started cfg (s.now r) r

/-- What the rounds of a run did. -/
def records (cfg : Config) : Loop → List Round → List Record
  | _, [] => []
  | s, r :: rounds => s.record cfg r :: (s.next cfg r).records cfg rounds

end Loop

/-- The loop as it is entered. -/
def enter (quick : Option Chosen) : Loop where
  quick := quick

/-! ## What is asked of a run -/

/-- Nothing is returned by a hunt or dialled before it may be, by what was put into cooldown so far. -/
def Kept : List (SocketAddr × Nat) → List Record → Prop
  | _, [] => True
  | puts, record :: records =>
      (∀ peer expiry, (peer, expiry) ∈ puts ++ record.put.toList → ∀ time,
        record.returned = some (peer, time) ∨ record.started = some (peer, time) → expiry ≤ time) ∧
        Kept (puts ++ record.put.toList) records

/-- What holds behind the top of the loop, with the time at which it came round, in every round of a run. -/
def Every (cfg : Config) (P : Loop → Nat → Round → Prop) : Loop → List Round → Prop
  | _, [] => True
  | s, r :: rounds => P (s.rest cfg r) (s.now r) r ∧ Every cfg P (s.next cfg r) rounds

/-- The endpoints that the tunnels of a run are started to. -/
def starts (cfg : Config) (s : Loop) (rounds : List Round) : List SocketAddr :=
  (s.records cfg rounds).filterMap fun record => record.started.map Prod.fst

def Loop.after (cfg : Config) (s : Loop) (rounds : List Round) : Loop :=
  rounds.foldl (fun s r => s.next cfg r) s

/-- An endpoint that a hunt would find: a documented one that answers a probe of the anchor pass, or a candidate
of the sweep that answers under a profile that the sweep gets to. -/
def Answers (cfg : Config) (hunt : Hunt) (excluded : List SocketAddr) (peer : SocketAddr) : Prop :=
  (∃ profile, ((peer, profile), true) ∈ hunt.anchorEnds ∧ (peer, profile) ∈ passProbes cfg) ∨
    ∃ profile ∈ cfg.candidates.take hunt.limit, ∃ candidates,
      scanCandidates cfg hunt profile excluded = some candidates ∧
        ∃ candidate ∈ candidates, peer = .new candidate.1 candidate.2 ∧
          ∃ rtt, Turn.ended candidate (some rtt) ∈ (hunt.turns profile).takeWhile (· ≠ .timeUp)

/-- While another endpoint would answer every hunt, no endpoint is dialled more than twice in a row. -/
def TwiceAtMost (cfg : Config) (s : Loop) (rounds : List Round) : Prop :=
  ∀ before stretch behind, rounds = before ++ stretch ++ behind → ∀ peer,
    Every cfg (fun s _ r => s.atHand r = none → ∃ other, other ≠ peer ∧ Answers cfg r.hunt s.excluded other)
        (s.after cfg before) stretch →
      ¬ [peer, peer, peer] <:+: starts cfg (s.after cfg before) stretch

/-- The probe of the anchor pass that is the first to be answered. -/
def FirstAnswer (cfg : Config) (hunt : Hunt) (chosen : Chosen) : Prop :=
  ∃ before behind, hunt.anchorEnds = before ++ (chosen, true) :: behind ∧ chosen ∈ passProbes cfg ∧
    ∀ ended ∈ before, ended.2 = true → ended.1 ∉ passProbes cfg

/-- The first documented endpoint that answers is not in cooldown by then. -/
def Spared (cfg : Config) (s : Loop) (now : Nat) (r : Round) : Prop :=
  s.atHand r = none → ∀ chosen, FirstAnswer cfg r.hunt chosen → ∀ expiry, (chosen.1, expiry) ∈ s.cooldowns →
    expiry ≤ now + r.hunting

/-- The first documented endpoint that answers is not one that the hunt is to leave out. -/
def Apart (cfg : Config) (s : Loop) (_ : Nat) (r : Round) : Prop :=
  s.atHand r = none → ∀ chosen, FirstAnswer cfg r.hunt chosen → chosen.1 ∉ s.excluded

/-! ## Hunting -/

section Hunts

variable {cfg : Config} {hunt : Hunt} {excluded : List SocketAddr}

theorem huntWgAnchors_eq_some_iff {chosen : Chosen} :
    huntWgAnchors cfg hunt = some chosen ↔ FirstAnswer cfg hunt chosen := by
  unfold huntWgAnchors FirstAnswer
  rw [Option.map_eq_some_iff]
  simp only [List.find?_eq_some_iff_append]
  constructor
  · rintro ⟨⟨probe, reached⟩, ⟨hok, before, behind, hends, hbefore⟩, rfl⟩
    obtain ⟨hreached, hprobe⟩ := of_decide_eq_true hok
    dsimp only at hreached hprobe
    subst hreached
    refine ⟨before, behind, hends, hprobe, fun ended hended htrue hmem => ?_⟩
    have hnot := hbefore ended hended
    simp [htrue, hmem] at hnot
  · rintro ⟨before, behind, hends, hprobe, hbefore⟩
    refine ⟨(chosen, true), ⟨decide_eq_true ⟨rfl, hprobe⟩, before, behind, hends, fun ended hended => ?_⟩, rfl⟩
    simp only [Bool.not_eq_true', decide_eq_false_iff_not, not_and]
    exact hbefore ended hended

theorem apart_iff {s : Loop} {now : Nat} {r : Round} : Apart cfg s now r ↔
    (s.atHand r = none → ∀ chosen ∈ huntWgAnchors cfg r.hunt, chosen.1 ∉ s.excluded) :=
  forall_congr' fun _ => forall_congr' fun _ => imp_congr_left huntWgAnchors_eq_some_iff.symm

theorem isSome_huntWgAnchors {chosen : Chosen} (hends : (chosen, true) ∈ hunt.anchorEnds)
    (hprobe : chosen ∈ passProbes cfg) : (huntWgAnchors cfg hunt).isSome := by
  unfold huntWgAnchors
  rw [Option.isSome_map, List.find?_isSome]
  exact ⟨(chosen, true), hends, decide_eq_true ⟨rfl, hprobe⟩⟩

theorem mem_huntTurns {st : Strategy} {candidates : List (IpAddr × UInt16)} {result : ProbeResult}
    {turns : List Turn} : ∀ {verified : List ProbeResult}, result ∈ huntTurns st candidates turns verified →
      result ∈ verified ∨ ∃ candidate ∈ candidates, result.peer = .new candidate.1 candidate.2 := by
  -- along the turns
  induction turns with
  | nil => exact .inl
  | cons turn rest ih =>
    intro verified h
    cases turn with
    | timeUp => exact .inl h
    | ended candidate rtt =>
      cases rtt with
      | none => exact ih h
      | some rtt =>
        rw [huntTurns] at h
        dsimp only at h
        -- an endpoint that was found is a candidate
        have hnew {r : ProbeResult} (hcandidate : candidate ∈ candidates)
            (hr : r ∈ verified ++ [⟨.new candidate.1 candidate.2, rtt⟩]) :
            r ∈ verified ∨ ∃ candidate ∈ candidates, r.peer = .new candidate.1 candidate.2 := by
          cases List.mem_append.mp hr with
          | inl hr => exact .inl hr
          | inr hr =>
            obtain rfl := List.mem_singleton.mp hr
            exact .inr ⟨candidate, hcandidate, rfl⟩
        split_ifs at h with hcandidate
        · exact hnew hcandidate (List.mem_append_right _ h)
        · exact hnew hcandidate h
        · cases ih h with
          | inl h => exact hnew hcandidate h
          | inr h => exact .inr h
        · exact ih h

theorem huntTurns_ne_nil {st : Strategy} {candidates : List (IpAddr × UInt16)} {turns : List Turn} :
    ∀ {verified : List ProbeResult},
      (verified ≠ [] ∨ ∃ candidate ∈ candidates, ∃ rtt,
        Turn.ended candidate (some rtt) ∈ turns.takeWhile (· ≠ .timeUp)) →
        huntTurns st candidates turns verified ≠ [] := by
  -- along the turns, up to the one at which the time is up
  induction turns with
  | nil =>
    intro verified h
    cases h with
    | inl h => exact h
    | inr h =>
      obtain ⟨candidate, -, rtt, hmem⟩ := h
      cases hmem
  | cons turn rest ih =>
    intro verified h
    cases turn with
    | timeUp =>
      cases h with
      | inl h => exact h
      | inr h =>
        obtain ⟨candidate, -, rtt, hmem⟩ := h
        rw [List.takeWhile_cons_of_neg (by simp)] at hmem
        cases hmem
    | ended candidate rtt =>
      rw [List.takeWhile_cons_of_pos (by simp)] at h
      cases rtt with
      -- this one did not answer, so it is another
      | none =>
        refine ih (h.imp_right ?_)
        rintro ⟨other, hother, time, hmem⟩
        cases List.mem_cons.mp hmem with
        | inl heq => cases heq
        | inr hmem => exact ⟨other, hother, time, hmem⟩
      | some rtt =>
        rw [huntTurns]
        dsimp only
        -- found: the hunt has something, whether it ends here or goes on
        split_ifs with hcandidate
        · exact List.cons_ne_nil _ _
        · exact List.append_ne_nil_of_right_ne_nil _ (List.cons_ne_nil _ _)
        · exact ih (.inl (List.append_ne_nil_of_right_ne_nil _ (List.cons_ne_nil _ _)))
        · refine ih (h.imp_right ?_)
          rintro ⟨other, hother, time, hmem⟩
          cases List.mem_cons.mp hmem with
          | inl heq =>
            cases heq
            exact absurd hother hcandidate
          | inr hmem => exact ⟨other, hother, time, hmem⟩

theorem mem_distinctByIp {found : List ProbeResult} {result : ProbeResult} (h : result ∈ distinctByIp found) :
    result ∈ found := by
  -- an address that is there already is left out, and no other is put in
  have hfold (rest out : List ProbeResult) :
      result ∈ rest.foldl
        (fun out r => if out.any fun other => other.peer.ip = r.peer.ip then out else out ++ [r]) out →
        result ∈ out ∨ result ∈ rest := by
    induction rest generalizing out with
    | nil => exact .inl
    | cons r rest ih =>
      intro hmem
      rw [List.foldl_cons] at hmem
      cases ih _ hmem with
      | inl hout =>
        split at hout
        · exact .inl hout
        · cases List.mem_append.mp hout with
          | inl hout => exact .inl hout
          | inr hsame =>
            obtain rfl := List.mem_singleton.mp hsame
            exact .inr List.mem_cons_self
      | inr hrest => exact .inr (List.mem_cons_of_mem r hrest)
  cases hfold _ _ h with
  | inl hnil => cases hnil
  | inr hsorted => exact (List.perm_insertionSort _ found).mem_iff.mp hsorted

theorem distinctByIp_ne_nil {found : List ProbeResult} (h : found ≠ []) : distinctByIp found ≠ [] := by
  have hfold (rest out : List ProbeResult) (hout : out ≠ []) :
      rest.foldl
        (fun out r => if out.any fun other => other.peer.ip = r.peer.ip then out else out ++ [r]) out ≠ [] := by
    induction rest generalizing out with
    | nil => exact hout
    | cons r rest ih =>
      rw [List.foldl_cons]
      refine ih _ ?_
      split
      · exact hout
      · exact List.append_ne_nil_of_left_ne_nil hout _
  have hperm : (Engine.sortByRtt found).Perm found := List.perm_insertionSort _ found
  unfold distinctByIp
  cases hsorted : Engine.sortByRtt found with
  | nil =>
    rw [hsorted] at hperm
    exact absurd hperm.nil_eq.symm h
  | cons r rest =>
    rw [List.foldl_cons]
    exact hfold rest _ (by simp)

/-- A sweep finds no endpoint that it is to leave out. -/
theorem not_excluded_of_sweep {chosen : Chosen} (h : huntWgPeerSweep cfg hunt excluded = some chosen) :
    chosen.1 ∉ excluded := by
  unfold huntWgPeerSweep at h
  obtain ⟨profile, -, hprofile⟩ := List.exists_of_findSome?_eq_some h
  obtain ⟨peer, hpeer, rfl⟩ := Option.map_eq_some_iff.mp hprofile
  unfold huntWgPeerWithProfile at hpeer
  obtain ⟨candidates, hcandidates, hpeer⟩ := Option.bind_eq_some_iff.mp hpeer
  obtain ⟨result, hresult, rfl⟩ := Option.map_eq_some_iff.mp hpeer
  unfold scanCandidates at hcandidates
  obtain ⟨ip, -, hbuild⟩ := Option.bind_eq_some_iff.mp hcandidates
  obtain ⟨ips, -, -, hexact⟩ := exact_build hbuild
  cases mem_huntTurns (mem_distinctByIp (List.mem_of_head? hresult)) with
  | inl hnil => cases hnil
  | inr hcandidate =>
    obtain ⟨candidate, hmem, hpeer⟩ := hcandidate
    rw [hpeer]
    exact hexact.notExcluded candidate hmem

/-- A hunt that some endpoint would answer finds one. -/
theorem isSome_huntWgPeer {peer : SocketAddr} (h : Answers cfg hunt excluded peer) :
    (huntWgPeer cfg hunt excluded).isSome := by
  unfold huntWgPeer
  rw [Option.isSome_or, Bool.or_eq_true]
  rcases h with ⟨profile, hends, hprobe⟩ | ⟨profile, hprofile, candidates, hscan, candidate, hcandidate, -, rtt, hturn⟩
  · exact .inl (isSome_huntWgAnchors hends hprobe)
  · right
    unfold huntWgPeerSweep
    rw [List.findSome?_isSome_iff]
    refine ⟨profile, hprofile, ?_⟩
    unfold huntWgPeerWithProfile
    rw [hscan, Option.bind_some, Option.isSome_map, Option.isSome_map]
    have hfound : huntTurns cfg.mode.wgStrategy candidates (hunt.turns profile) [] ≠ [] :=
      huntTurns_ne_nil (.inr ⟨candidate, hcandidate, rtt, hturn⟩)
    simpa using distinctByIp_ne_nil hfound

end Hunts

/-! ## One round -/

section Rounds

variable {cfg : Config} {s : Loop} {r : Round} {puts : List (SocketAddr × Nat)} {time : Nat}

/-- What is known of the loop at a time, by what was put into cooldown so far. -/
structure Inv (cfg : Config) (puts : List (SocketAddr × Nat)) (time : Nat) (s : Loop) : Prop where
  active : ∀ peer expiry, (peer, expiry) ∈ puts → time < expiry → ∃ later, (peer, later) ∈ s.cooldowns ∧ expiry ≤ later
  made : ∀ entry ∈ s.cooldowns, entry ∈ puts
  bound : ∀ entry ∈ puts, entry.2 ≤ time + cfg.cooldown
  good : ∀ peer expiry, s.peer? = some peer → (peer, expiry) ∈ puts → expiry ≤ time
  fresh : s.quick.isSome → puts = [] ∧ s.fails = 0

theorem Inv.later (h : Inv cfg puts time s) {time' : Nat} (hle : time ≤ time') : Inv cfg puts time' s where
  active peer expiry hput hlt := h.active peer expiry hput (Nat.lt_of_le_of_lt hle hlt)
  made := h.made
  bound entry hput := (h.bound entry hput).trans (Nat.add_le_add_right hle _)
  good peer expiry hpeer hput := (h.good peer expiry hpeer hput).trans hle
  fresh := h.fresh

theorem inv_enter (quick : Option Chosen) : Inv cfg [] 0 (enter quick) where
  active _ _ h := absurd h List.not_mem_nil
  made _ h := absurd h List.not_mem_nil
  bound _ h := absurd h List.not_mem_nil
  good _ _ _ h := absurd h List.not_mem_nil
  fresh _ := ⟨rfl, rfl⟩

/-- What the top of the loop does: nothing but drop what is over, or put the last endpoint into cooldown, or
forget the failures. -/
theorem rest_cases (cfg : Config) (s : Loop) (r : Round) :
    let kept := s.cooldowns.filter fun entry => s.now r < entry.2
    (s.fails < MAX_CONSECUTIVE_FAILS ∧ s.put cfg r = none ∧ s.rest cfg r = { s with cooldowns := kept }) ∨
      (MAX_CONSECUTIVE_FAILS ≤ s.fails ∧ s.lastGood = none ∧ s.put cfg r = none ∧
        s.rest cfg r = { s with fails := 0, cooldowns := kept }) ∨
      ∃ peer profile, MAX_CONSECUTIVE_FAILS ≤ s.fails ∧ s.lastGood = some (peer, profile) ∧
        s.put cfg r = some (peer, s.now r + cfg.cooldown) ∧
        s.rest cfg r = { s with
          lastGood := none, fails := 0,
          cooldowns := (peer, s.now r + cfg.cooldown) :: kept.filter fun entry => entry.1 ≠ peer } := by
  intro kept
  unfold Loop.put Loop.rest Loop.peer?
  -- too few failures; enough, but no endpoint to blame; or one that is put into cooldown
  rcases Nat.lt_or_ge s.fails MAX_CONSECUTIVE_FAILS with hlt | hge
  · left
    rw [if_neg (Nat.not_le_of_lt hlt), if_neg (Nat.not_le_of_lt hlt)]
    exact ⟨hlt, rfl, rfl⟩
  · right
    rw [if_pos hge, if_pos hge]
    cases hgood : s.lastGood with
    | none => exact .inl ⟨hge, rfl, rfl, rfl⟩
    | some chosen =>
      obtain ⟨peer, profile⟩ := chosen
      exact .inr ⟨peer, profile, hge, rfl, rfl, rfl⟩

theorem mem_kept {entry : SocketAddr × Nat} {now : Nat} :
    (entry ∈ s.cooldowns.filter fun entry => now < entry.2) ↔ entry ∈ s.cooldowns ∧ now < entry.2 := by
  rw [List.mem_filter, decide_eq_true_eq]

/-- The top of the loop keeps what is known. -/
theorem Inv.rest (h : Inv cfg puts (s.now r) s) : Inv cfg (puts ++ (s.put cfg r).toList) (s.now r) (s.rest cfg r) := by
  -- by what the top of the loop did: nothing, an end, or a new cooldown
  rcases rest_cases cfg s r with ⟨-, hput, hrest⟩ | ⟨-, hgood, hput, hrest⟩ |
    ⟨peer, profile, hfails, hgood, hput, hrest⟩
  · rw [hput, hrest, Option.toList_none, List.append_nil]
    refine ⟨fun p u hmem hlt => ?_, fun entry hentry => h.made entry (mem_kept.mp hentry).1, h.bound, h.good, h.fresh⟩
    obtain ⟨later, hlater, hle⟩ := h.active p u hmem hlt
    exact ⟨later, mem_kept.mpr ⟨hlater, hlt.trans_le hle⟩, hle⟩
  · rw [hput, hrest, Option.toList_none, List.append_nil]
    refine ⟨fun p u hmem hlt => ?_, fun entry hentry => h.made entry (mem_kept.mp hentry).1, h.bound, h.good,
      fun hquick => ⟨(h.fresh hquick).1, rfl⟩⟩
    obtain ⟨later, hlater, hle⟩ := h.active p u hmem hlt
    exact ⟨later, mem_kept.mpr ⟨hlater, hlt.trans_le hle⟩, hle⟩
  · rw [hput, hrest, Option.toList_some]
    refine ⟨fun p u hmem hlt => ?_, fun entry hentry => ?_, fun entry hentry => ?_, nofun, fun hquick => ?_⟩
    · cases List.mem_append.mp hmem with
      | inl hold =>
        by_cases hsame : p = peer
        · -- the new entry takes the place of the old one, and is no earlier
          subst hsame
          exact ⟨_, List.mem_cons_self, h.bound _ hold⟩
        · obtain ⟨later, hlater, hle⟩ := h.active p u hold hlt
          refine ⟨later, List.mem_cons_of_mem _ (List.mem_filter.mpr ⟨mem_kept.mpr ⟨hlater, hlt.trans_le hle⟩, ?_⟩),
            hle⟩
          exact decide_eq_true hsame
      -- the entry that is new lasts until then
      | inr hnew =>
        cases List.mem_singleton.mp hnew
        exact ⟨_, List.mem_cons_self, le_rfl⟩
    · cases List.mem_cons.mp hentry with
      | inl heq => exact List.mem_append_right _ (List.mem_singleton.mpr heq)
      | inr hold => exact List.mem_append_left _ (h.made entry (mem_kept.mp (List.mem_of_mem_filter hold)).1)
    · cases List.mem_append.mp hentry with
      | inl hold => exact h.bound entry hold
      | inr hnew =>
        cases List.mem_singleton.mp hnew
        exact le_rfl
    -- an endpoint from the last session has not failed
    · have hzero := (h.fresh hquick).2
      rw [hzero] at hfails
      exact absurd hfails (by decide)

/-- An endpoint that a hunt finds in cooldown is the first documented one that answered. -/
theorem firstAnswer_of_hunt {excluded : List SocketAddr} {hunt : Hunt} {chosen : Chosen}
    (h : huntWgPeer cfg hunt excluded = some chosen) :
    FirstAnswer cfg hunt chosen ∨ chosen.1 ∉ excluded := by
  unfold huntWgPeer at h
  cases hanchors : huntWgAnchors cfg hunt with
  | some found =>
    rw [hanchors, Option.some_or] at h
    cases h
    exact .inl (huntWgAnchors_eq_some_iff.mp hanchors)
  | none =>
    rw [hanchors, Option.none_or] at h
    exact .inr (not_excluded_of_sweep h)

/-- What a spared round finds by a hunt is not in cooldown by then. -/
theorem over_of_hunt (h : Inv cfg puts time s) (hspared : Spared cfg s time r) (hhunts : s.atHand r = none)
    {chosen : Chosen} (hfound : huntWgPeer cfg r.hunt s.excluded = some chosen) {expiry : Nat}
    (hput : (chosen.1, expiry) ∈ puts) : expiry ≤ time + r.hunting := by
  rcases Nat.lt_or_ge time expiry with hlt | hge
  · obtain ⟨later, hlater, hle⟩ := h.active chosen.1 expiry hput hlt
    cases firstAnswer_of_hunt hfound with
    | inl hfirst => exact hle.trans (hspared hhunts chosen hfirst later hlater)
    | inr hexcluded => exact absurd (List.mem_map_of_mem hlater) hexcluded
  · exact hge.trans (Nat.le_add_right _ _)

theorem over_of_atHand (h : Inv cfg puts time s) {chosen : Chosen} (hchosen : s.atHand r = some chosen)
    {expiry : Nat} (hput : (chosen.1, expiry) ∈ puts) : expiry ≤ time := by
  unfold Loop.atHand at hchosen
  cases hquick : s.quick with
  | some quick =>
    have hnil := (h.fresh (by rw [hquick]; rfl)).1
    rw [hnil] at hput
    cases hput
  | none =>
    rw [hquick, Option.none_or] at hchosen
    split at hchosen
    · refine h.good chosen.1 expiry ?_ hput
      unfold Loop.peer?
      rw [hchosen]
      rfl
    · cases hchosen

/-- A round keeps to the cooldowns exactly if the first documented endpoint that answers is in none. -/
theorem round_kept_iff (h : Inv cfg puts time s) :
    (∀ peer expiry, (peer, expiry) ∈ puts → ∀ t,
      s.returned cfg time r = some (peer, t) ∨ s.started cfg time r = some (peer, t) → expiry ≤ t) ↔
      Spared cfg s time r := by
  -- the condition is what the first documented endpoint of a hunt does
  constructor
  · intro hkept hhunts chosen hfirst expiry hcooldown
    refine hkept chosen.1 expiry (h.made _ hcooldown) _ (.inl ?_)
    have hfound : huntWgPeer cfg r.hunt s.excluded = some chosen := by
      unfold huntWgPeer
      rw [huntWgAnchors_eq_some_iff.mpr hfirst, Option.some_or]
    unfold Loop.returned
    rw [hhunts, if_pos Option.isNone_none, hfound, Option.map_some]
  · intro hspared peer expiry hput t hround
    -- the round hunts, or it has an endpoint at hand
    cases hhand : s.atHand r with
    | none =>
      rcases hround with hreturned | hstarted
      · unfold Loop.returned at hreturned
        rw [hhand, if_pos Option.isNone_none] at hreturned
        obtain ⟨chosen, hfound, heq⟩ := Option.map_eq_some_iff.mp hreturned
        cases heq
        exact over_of_hunt h hspared hhand hfound hput
      · unfold Loop.started Loop.choose at hstarted
        rw [hhand, Option.none_or] at hstarted
        obtain ⟨chosen, hfound, heq⟩ := Option.map_eq_some_iff.mp hstarted
        cases heq
        exact (over_of_hunt h hspared hhand hfound hput).trans (Nat.le_add_right _ _)
    | some chosen =>
      rcases hround with hreturned | hstarted
      · unfold Loop.returned at hreturned
        rw [hhand, if_neg (by simp)] at hreturned
        cases hreturned
      · unfold Loop.started Loop.choose at hstarted
        rw [hhand, Option.some_or, Option.map_some] at hstarted
        cases hstarted
        exact (over_of_atHand h hhand hput).trans ((Nat.le_add_right _ _).trans (Nat.le_add_right _ _))

/-- What is known behind a round that keeps to the cooldowns. -/
theorem Inv.dial (h : Inv cfg puts time s) (hspared : Spared cfg s time r) :
    Inv cfg puts (s.dial time r (s.choose cfg r)).clock (s.dial time r (s.choose cfg r)) := by
  have hkept := (round_kept_iff h).mpr hspared
  unfold Loop.started at hkept
  cases hchosen : s.choose cfg r with
  | none =>
    have hlater : Inv cfg puts (time + r.hunting) s := h.later (Nat.le_add_right _ _)
    exact ⟨hlater.active, hlater.made, hlater.bound, hlater.good, nofun⟩
  | some chosen =>
    rw [hchosen] at hkept
    have hlater : Inv cfg puts (time + r.hunting + r.dialling) s :=
      h.later ((Nat.le_add_right _ _).trans (Nat.le_add_right _ _))
    refine ⟨hlater.active, hlater.made, hlater.bound, fun peer expiry hpeer hput => ?_, nofun⟩
    cases hpeer
    exact hkept chosen.1 expiry hput _ (.inr rfl)

/-- A run keeps to the cooldowns exactly if in every round the first documented endpoint that answers is in
none. -/
theorem kept_iff (rounds : List Round) (h : Inv cfg puts s.clock s) :
    Kept puts (s.records cfg rounds) ↔ Every cfg (Spared cfg) s rounds := by
  induction rounds generalizing s puts with
  | nil => exact Iff.rfl
  | cons r rounds ih =>
    have hrest : Inv cfg _ (s.now r) (s.rest cfg r) := (h.later (Nat.le_add_right _ _)).rest
    have hround := round_kept_iff (r := r) hrest
    constructor
    · rintro ⟨hhead, htail⟩
      have hspared := hround.mp hhead
      exact ⟨hspared, (ih (hrest.dial hspared)).mp htail⟩
    · rintro ⟨hspared, htail⟩
      exact ⟨hround.mpr hspared, (ih (hrest.dial hspared)).mpr htail⟩

end Rounds

/-! ## Twice in a row -/

section Thrice

variable {cfg : Config} {s : Loop} {r : Round} {peer : SocketAddr}

/-- An endpoint that failed twice is left out, and a hunt that goes by that finds another. -/
theorem ne_of_failed (hquick : s.quick = none) (hpeer : s.peer? = some peer)
    (hfails : MAX_CONSECUTIVE_FAILS ≤ s.fails) (hapart : Apart cfg (s.rest cfg r) (s.now r) r) {chosen : Chosen}
    (hchosen : (s.rest cfg r).choose cfg r = some chosen) : chosen.1 ≠ peer := by
  -- two failures have ended in a cooldown, since the endpoint was the one in use
  rcases rest_cases cfg s r with ⟨hlt, -, -⟩ | ⟨-, hgood, -, -⟩ | ⟨cooled, profile, -, hgood, -, hrest⟩
  · exact absurd hfails (Nat.not_le_of_lt hlt)
  · unfold Loop.peer? at hpeer
    rw [hgood] at hpeer
    cases hpeer
  -- nothing is at hand any more, so the loop hunts; and it leaves out what is cooled
  · unfold Loop.peer? at hpeer
    rw [hgood] at hpeer
    cases hpeer
    have hhand : (s.rest cfg r).atHand r = none := by
      rw [hrest]
      unfold Loop.atHand
      rw [hquick, Option.none_or]
      exact ite_self _
    have hexcluded : cooled ∈ (s.rest cfg r).excluded := by
      rw [hrest]
      exact List.mem_cons_self
    unfold Loop.choose at hchosen
    rw [hhand, Option.none_or] at hchosen
    intro hsame
    have hleft : chosen.1 ∈ (s.rest cfg r).excluded := by
      rw [hsame]
      exact hexcluded
    -- the hunt goes by its list, or the anchor pass has answered
    cases firstAnswer_of_hunt hchosen with
    | inl hfirst => exact hapart hhand chosen hfirst hleft
    | inr hnot => exact hnot hleft

/-- How often in a row an endpoint was dialled: the loop counts at least as many failures. -/
def InRow (s : Loop) (peer : SocketAddr) (n : Nat) : Prop :=
  n ≤ 2 ∧ (0 < n → s.quick = none ∧ s.peer? = some peer ∧ n ≤ s.fails)

/-- Behind a round that dials the endpoint, it was dialled once more, and that is no third time. -/
theorem InRow.dialled {n : Nat} (h : InRow s peer n) (hapart : Apart cfg (s.rest cfg r) (s.now r) r)
    {chosen : Chosen} (hchosen : (s.rest cfg r).choose cfg r = some chosen) (hsame : chosen.1 = peer) :
    InRow (s.next cfg r) peer (n + 1) := by
  have hnext : s.next cfg r = (s.rest cfg r).dial (s.now r) r (some chosen) := by
    unfold Loop.next
    rw [hchosen]
  have hpeer : (s.next cfg r).peer? = some peer := by
    rw [hnext, ← hsame]
    rfl
  have hquick : (s.next cfg r).quick = none := by
    rw [hnext]
    rfl
  have hcount : (s.next cfg r).fails =
      (if (s.rest cfg r).peer? = some chosen.1 then (s.rest cfg r).fails else 0) + 1 := by
    rw [hnext]
    rfl
  rcases Nat.eq_zero_or_pos n with rfl | hpos
  -- the first time in a row
  · exact ⟨by decide, fun _ => ⟨hquick, hpeer, by rw [hcount]; exact Nat.succ_le_succ (Nat.zero_le _)⟩⟩
  -- once more: it has failed less than twice
  · obtain ⟨hquick', hpeer', hfails⟩ := h.2 hpos
    have hlt : s.fails < MAX_CONSECUTIVE_FAILS := by
      refine Nat.lt_of_not_le fun hfailed => ?_
      exact ne_of_failed hquick' hpeer' hfailed hapart hchosen hsame
    -- so the top of the loop has left it in use
    have hkept : (s.rest cfg r).peer? = some peer ∧ (s.rest cfg r).fails = s.fails := by
      rcases rest_cases cfg s r with ⟨-, -, hrest⟩ | ⟨hge, -, -, -⟩ | ⟨_, _, hge, -, -, -⟩
      · rw [hrest]
        exact ⟨hpeer', rfl⟩
      · exact absurd hge (Nat.not_le_of_lt hlt)
      · exact absurd hge (Nat.not_le_of_lt hlt)
    rw [hkept.1, hkept.2, hsame, if_pos rfl] at hcount
    have hbound : s.fails < 2 := hlt
    exact ⟨by omega, fun _ => ⟨hquick, hpeer, by omega⟩⟩

theorem starts_cons_some {chosen : Chosen} (rounds : List Round)
    (hchosen : (s.rest cfg r).choose cfg r = some chosen) :
    starts cfg s (r :: rounds) = chosen.1 :: starts cfg (s.next cfg r) rounds := by
  have hstarted : (s.record cfg r).started.map Prod.fst = some chosen.1 := by
    unfold Loop.record Loop.started
    rw [hchosen]
    rfl
  exact List.filterMap_cons_some hstarted

/-- While another endpoint would answer, an endpoint is not dialled three times in a row, counting what came
before. -/
theorem not_thrice (rounds : List Round) {n : Nat} (h : InRow s peer n) (hapart : Every cfg (Apart cfg) s rounds)
    (helsewhere : Every cfg (fun s _ r => s.atHand r = none →
      ∃ other, other ≠ peer ∧ Answers cfg r.hunt s.excluded other) s rounds) :
    ¬ List.replicate (3 - n) peer <+: starts cfg s rounds ∧
      ¬ [peer, peer, peer] <:+: starts cfg s rounds := by
  induction rounds generalizing s n with
  | nil =>
    have hpos : 3 - n = (2 - n) + 1 := by
      have := h.1
      omega
    have hnil : starts cfg s [] = [] := rfl
    rw [hpos, List.replicate_succ, hnil]
    exact ⟨fun hprefix => List.cons_ne_nil _ _ (List.prefix_nil.mp hprefix),
      fun hinfix => List.cons_ne_nil _ _ (List.infix_nil.mp hinfix)⟩
  | cons r rounds ih =>
    obtain ⟨hround, hrounds⟩ := hapart
    obtain ⟨hanswers, hothers⟩ := helsewhere
    have hsome : ((s.rest cfg r).choose cfg r).isSome := by
      unfold Loop.choose
      rw [Option.isSome_or, Bool.or_eq_true]
      cases hhand : (s.rest cfg r).atHand r with
      | some chosen => exact .inl rfl
      | none =>
        obtain ⟨other, -, hother⟩ := hanswers hhand
        exact .inr (isSome_huntWgPeer hother)
    obtain ⟨chosen, hchosen⟩ := Option.isSome_iff_exists.mp hsome
    rw [starts_cons_some rounds hchosen]
    have hpos : 3 - n = (2 - n) + 1 := by
      have := h.1
      omega
    by_cases hsame : chosen.1 = peer
    · have hrow := h.dialled hround hchosen hsame
      obtain ⟨hfirst, hrest⟩ := ih hrow hrounds hothers
      have hfewer : 3 - (n + 1) = 2 - n := by omega
      rw [hfewer] at hfirst
      rw [hsame, hpos, List.replicate_succ]
      refine ⟨fun hprefix => hfirst (List.cons_prefix_cons.mp hprefix).2, fun hinfix => ?_⟩
      cases List.infix_cons_iff.mp hinfix with
      | inl hprefix =>
        -- two more right behind are at least as many as are missing
        have htwo : [peer, peer] <+: starts cfg (s.next cfg r) rounds := (List.cons_prefix_cons.mp hprefix).2
        have hmissing : List.replicate (2 - n) peer <+: List.replicate 2 peer := by
          refine ⟨List.replicate (2 - (2 - n)) peer, ?_⟩
          rw [List.replicate_append_replicate, Nat.add_sub_cancel' (Nat.sub_le 2 n)]
        exact hfirst (hmissing.trans htwo)
      | inr hinfix => exact hrest hinfix
    · obtain ⟨-, hrest⟩ := @ih (s.next cfg r) 0 ⟨by decide, fun hzero => absurd hzero (Nat.lt_irrefl 0)⟩ hrounds hothers
      rw [hpos, List.replicate_succ]
      refine ⟨fun hprefix => hsame (List.cons_prefix_cons.mp hprefix).1.symm, fun hinfix => ?_⟩
      cases List.infix_cons_iff.mp hinfix with
      | inl hprefix => exact hsame (List.cons_prefix_cons.mp hprefix).1.symm
      | inr hinfix => exact hrest hinfix

end Thrice

section Stretches

variable {cfg : Config} {P Q : Loop → Nat → Round → Prop} {s : Loop}

theorem every_append (before behind : List Round) :
    Every cfg P s (before ++ behind) ↔ Every cfg P s before ∧ Every cfg P (s.after cfg before) behind := by
  induction before generalizing s with
  | nil => exact ⟨fun h => ⟨trivial, h⟩, fun h => h.2⟩
  | cons r before ih =>
    rw [List.cons_append, Every, Every, ih, and_assoc]
    exact Iff.rfl

theorem Every.imp (hPQ : ∀ s now r, P s now r → Q s now r) {rounds : List Round} (h : Every cfg P s rounds) :
    Every cfg Q s rounds := by
  induction rounds generalizing s with
  | nil => exact trivial
  | cons r rounds ih => exact ⟨hPQ _ _ _ h.1, ih h.2⟩

/-- What is not left out is in no cooldown. -/
theorem Apart.spared {now : Nat} {r : Round} (h : Apart cfg s now r) : Spared cfg s now r := by
  intro hhunts chosen hfirst expiry hcooldown
  exact absurd (List.mem_map_of_mem hcooldown) (h hhunts chosen hfirst)

end Stretches

/-- In every run whose hunts do not come upon a documented endpoint in cooldown first, no endpoint in cooldown is
returned by a hunt or dialled (and in no other run), and none is dialled more than twice in a row while another
endpoint would answer. -/
theorem cooldown_kept (cfg : Config) (assigned : Option SocketAddr) (passes : Text → Bool)
    (cached : Option Chosen) (cachedWorks : Bool) (rounds : List Round) :
    let s := enter (quickConnect cfg.candidates assigned passes cached cachedWorks)
    (Kept [] (s.records cfg rounds) ↔ Every cfg (Spared cfg) s rounds) ∧
      (Every cfg (Apart cfg) s rounds → Kept [] (s.records cfg rounds) ∧ TwiceAtMost cfg s rounds) := by
  intro s
  have hfresh : Inv cfg [] s.clock s := inv_enter _
  have hkept := kept_iff rounds hfresh
  refine ⟨hkept, fun hapart => ⟨hkept.mpr (hapart.imp fun _ _ _ => Apart.spared), ?_⟩⟩
  intro before stretch behind hrounds peer helsewhere
  rw [hrounds, every_append, every_append] at hapart
  have hrow : InRow (s.after cfg before) peer 0 := ⟨by decide, fun hzero => absurd hzero (Nat.lt_irrefl 0)⟩
  exact (not_thrice stretch hrow hapart.1.2 helsewhere).2

def seed (c d : UInt8) : SocketAddr :=
  .new (.v4 (IpAddr.quad 162 159 c d)) 2408

def balancedOnly : Config where
  zeroTrust := false
  candidates := ["balanced".toList]
  mode := .balanced
  ip := .v4
  cooldownSecs := none

/-- A round in which two documented endpoints answer, the same one first. -/
def seedRound : Round where
  idle := 10
  hunting := 5
  dialling := 0
  retried := true
  hunt :=
    { anchorEnds := [((seed 192 1, "balanced".toList), true), ((seed 195 1, "balanced".toList), true)]
      hasIpv6 := false
      sampling := fun _ => ⟨fun _ k => k, fun _ k => (k, k)⟩
      steps := fun _ => 0
      turns := fun _ => []
      limit := 0 }

/-- The same, with the other endpoint first. -/
def otherRound : Round :=
  { seedRound with hunt := { seedRound.hunt with anchorEnds := seedRound.hunt.anchorEnds.reverse } }

/-- A run that comes upon the endpoint in cooldown behind the other one, which is dialled in its place. -/
theorem cooldown_kept_otherRound :
    let rounds := [seedRound, seedRound, otherRound, otherRound]
    starts balancedOnly (enter none) rounds = [seed 192 1, seed 192 1, seed 195 1, seed 195 1] ∧
      Kept [] ((enter none).records balancedOnly rounds) ∧ TwiceAtMost balancedOnly (enter none) rounds := by
  intro rounds
  have hapart : Every balancedOnly (Apart balancedOnly) (enter none) rounds := by
    refine ⟨apart_iff.2 ?_, apart_iff.2 ?_, apart_iff.2 ?_, apart_iff.2 ?_, trivial⟩ <;> decide
  exact ⟨by decide, (cooldown_kept balancedOnly none (fun _ => false) none false rounds).2 hapart⟩

/-- An endpoint that failed twice is put into cooldown for five minutes, found again by the anchor pass of the
same round and dialled for the third time, while another one answers. -/
theorem cooled_dialled :
    let rounds := [seedRound, seedRound, seedRound]
    (enter none).records balancedOnly rounds =
        [⟨none, some (seed 192 1, 15), some (seed 192 1, 15)⟩, ⟨none, none, some (seed 192 1, 30)⟩,
          ⟨some (seed 192 1, 300040), some (seed 192 1, 45), some (seed 192 1, 45)⟩] ∧
      ¬ Kept [] ((enter none).records balancedOnly rounds) ∧ ¬ TwiceAtMost balancedOnly (enter none) rounds := by
  intro rounds
  have hrecords : (enter none).records balancedOnly rounds =
      [⟨none, some (seed 192 1, 15), some (seed 192 1, 15)⟩, ⟨none, none, some (seed 192 1, 30)⟩,
        ⟨some (seed 192 1, 300040), some (seed 192 1, 45), some (seed 192 1, 45)⟩] := by decide
  -- the anchor pass knows of no cooldown
  refine ⟨hrecords, ?_, ?_⟩
  · rw [hrecords]
    rintro ⟨-, -, hthird, -⟩
    have hlate := hthird (seed 192 1) 300040 (List.mem_cons_self) 45 (.inl rfl)
    exact absurd hlate (by decide)
  -- another one would have answered
  · intro htwice
    have hother : (seed 195 1, "balanced".toList) ∈ passProbes balancedOnly := by decide
    have hanswers (s : Loop) : s.atHand seedRound = none →
        ∃ other, other ≠ seed 192 1 ∧ Answers balancedOnly seedRound.hunt s.excluded other := by
      intro _
      refine ⟨seed 195 1, by decide, .inl ⟨"balanced".toList, ?_, hother⟩⟩
      exact List.mem_cons_of_mem _ List.mem_cons_self
    have hstarts : starts balancedOnly (enter none) rounds = [seed 192 1, seed 192 1, seed 192 1] := by
      unfold starts
      rw [hrecords]
      rfl
    refine htwice [] rounds [] (List.append_nil rounds).symm (seed 192 1)
      ⟨hanswers _, hanswers _, hanswers _, trivial⟩ ?_
    change _ <:+: starts balancedOnly (enter none) rounds
    rw [hstarts]

end WireGuard
end AuroraVpn
