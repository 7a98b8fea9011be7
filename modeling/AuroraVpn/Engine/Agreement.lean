import AuroraVpn.Engine.Embedded

/-!
# Agreement — what a scan, a test and a preparation say of one address

An address that a scan or a test reports has passed a verification; `prepare_embedded` accepts a pinned
address by a verification of its own.

* `Agree`: the two are of one kind, for every answer of the network and of Cloudflare.
* `agree_iff`: this is so unless the tunnel is the nested MASQUE one, ECH is required and may be missing or
  may be there where the scan leaves it out, or HTTP/2 is dialled at an edge of its own.
-/

namespace AuroraVpn
namespace Engine

open Account (Identity Slot Family)
open Bridge (EmbeddedConfig Protocol)
open Program (Uses outcome made made_bind_left made_bind_right outcome_bind_ok)

/-! ## Verifications of one kind -/

/-- The same family of tunnel over the same framing, with the same ECH configuration, the identity of the
same slot, and the same edge. -/
structure Check.Same (c d : Check) : Prop where
  wire : c.wire = d.wire
  held : c.held = d.held
  dial : c.dial = d.dial

/-! ## What the surroundings say -/

def Answers.identity (answers : Answers) (loader : Family) (slot : Slot) : Except AetherError Identity :=
  answers (.load loader slot)

def Answers.verified (answers : Answers) (check : Check) : Except AetherError Nat :=
  answers (.verify check)

def Answers.Passes (answers : Answers) (check : Check) : Prop :=
  ∃ rtt, answers.verified check = .ok rtt

/-- The configuration that an attempt gets. -/
def Answers.ech (answers : Answers) (settings : Settings) : Option ECHConfigList :=
  if settings.h2Enabled then none
  else
    match settings.heldEch with
    | some held => held
    | none => if settings.echFetched then answers .fetchEch else settings.echGiven

/-- A configuration with an address that has to be used. -/
def pinned (config : EmbeddedConfig) (peer : SocketAddr) : EmbeddedConfig :=
  { config with peer := some peer, peerFallback := false }

def sampleIdentity : Identity where
  deviceId := []
  accessToken := []
  certPem := []
  keyPem := []
  certIssuedAt := 0
  ipv4 := "172.16.0.2".toList
  ipv6 := []
  wgPrivateKey := List.Vector.replicate 32 0
  wgPeerPublicKey := List.Vector.replicate 32 0
  clientId := List.Vector.replicate 3 0
  organization := []
  gatewayProxy := []
  assignedEndpoint := []
  refused := false

/-- The same surroundings, but that no verification passes except one, and that an account is there where
Cloudflare has refused one. -/
def Answers.passing (answers : Answers) (d : Check) : Answers
  | .verify check => if check = d then .ok 0 else .error .noCleanEndpoint
  | .load loader slot =>
      match answers.identity loader slot with
      | .ok identity => .ok identity
      | .error _ => .ok sampleIdentity
  | call => answers call

/-- `prepare_embedded` accepts a pinned address on the strength of one verification. -/
def AcceptsBy (answers : Answers) (settings : Settings) (config : EmbeddedConfig) (peer : SocketAddr)
    (d : Check) : Prop :=
  ∃ prepared, outcome (answers.passing d) (prepareEmbedded settings (pinned config peer)) = .ok prepared

/-- An address that a program reports has passed a verification of the kind by which `prepare_embedded`
accepts it. -/
def Usable (settings : Settings) (config : EmbeddedConfig) (answers : Answers) {α : Type}
    (program : Task α) (peer : SocketAddr) : Prop :=
  ∃ c d, .verify c ∈ made answers program ∧ answers.Passes c ∧ c.Same d ∧
    AcceptsBy answers settings config peer d

/-- The slots, with their loaders, that preparing or running a configuration may use. -/
def UsesSlot (settings : Settings) (config : EmbeddedConfig) (loader : Family) (slot : Slot) : Prop :=
  (∃ answers : Answers, .load loader slot ∈ made answers (prepareEmbedded settings config)) ∨
    ∃ answers : Answers, .load loader slot ∈ made answers (runEmbedded settings config)

/-- A program that loads or registers nothing that preparing or running would not use. -/
def KeepsToSlots (settings : Settings) (config : EmbeddedConfig) {α : Type} (program : Task α) : Prop :=
  Uses (I := engine)
    (fun c : Call => ∀ loader slot, c = .load loader slot → UsesSlot settings config loader slot)
    program.run

/-- Scanning, testing and preparing mean the same endpoint. -/
structure Agree (settings : Settings) (config : EmbeddedConfig) : Prop where
  scan : ∀ (answers : Answers) limit results,
    outcome answers (scanEmbedded settings config limit) = .ok results →
      ∀ r ∈ results, Usable settings config answers (scanEmbedded settings config limit) r.peer
  test : ∀ (answers : Answers) result,
    outcome answers (testEmbeddedPeer settings config) = .ok result →
      Usable settings config answers (testEmbeddedPeer settings config) result.peer
  dead : ∀ (answers : Answers) peer error, config.peer = some peer →
    outcome answers (testEmbeddedPeer settings config) = .error error →
      ∃ refusal, outcome answers (prepareEmbedded settings (pinned config peer)) = .error refusal
  scanSlots : ∀ limit, KeepsToSlots settings config (scanEmbedded settings config limit)
  testSlots : KeepsToSlots settings config (testEmbeddedPeer settings config)
  provisionSlots : KeepsToSlots settings config (provisionEmbedded config)

/-- Whatever the network answers, an attempt gets an ECH configuration. -/
def Settings.echCertain (settings : Settings) : Bool :=
  !settings.h2Enabled &&
    match settings.heldEch with
    | some held => held.isSome
    | none => !settings.echFetched && settings.echGiven.isSome

/-- An attempt may get an ECH configuration. -/
def Settings.echPossible (settings : Settings) : Bool :=
  !settings.h2Enabled &&
    match settings.heldEch with
    | some held => held.isSome
    | none => settings.echFetched || settings.echGiven.isSome

/-- The tunnel is not the nested MASQUE one; and where it is a single MASQUE hop, ECH is required only if it
is there, a scan that leaves it out is made only if there is none, and over HTTP/2 the edge that is dialled is
the peer, or the scan dials as the tunnel does. -/
structure OneKind (settings : Settings) (config : EmbeddedConfig) : Prop where
  single : config.protocolOf ≠ .masqueInMasque
  required : config.protocolOf = .masque → settings.echRequired → settings.echCertain
  leftOut : config.protocolOf = .masque → ScanMode.parse config.scanMode = .ironclad →
    settings.echPossible = false
  dial : config.protocolOf = .masque → settings.h2Enabled →
    settings.h2Override = none ∨ ScanMode.parse config.scanMode = .ironclad

section Proofs

variable {answers : Answers} {settings : Settings} {config : EmbeddedConfig} {held : Held}
  {peer : SocketAddr} {probe : SocketAddr → Task (Except AetherError Nat)}

/-! ## Outcomes -/

@[simp] theorem outcome_loadIdentity (loader : Family) (slot : Slot) :
    outcome answers (loadIdentity loader slot) = .ok (answers.identity loader slot) :=
  rfl

@[simp] theorem outcome_loadOrProvision (loader : Family) (slot : Slot) :
    outcome answers (loadOrProvision loader slot) =
      (answers.identity loader slot).map (Held.mk loader slot) := by
  simp [loadOrProvision, Except.bind]

@[simp] theorem outcome_attemptEch : outcome answers (attemptEch settings) = .ok (answers.ech settings) := by
  unfold attemptEch resolveEch Answers.ech
  split_ifs
  · rfl
  · cases settings.heldEch <;> rfl
  · cases settings.heldEch <;> rfl

theorem ech_isSome_of_certain (h : settings.echCertain) : (answers.ech settings).isSome := by
  simp only [Settings.echCertain, Bool.and_eq_true, Bool.not_eq_true'] at h
  obtain ⟨hh2, hsome⟩ := h
  unfold Answers.ech
  rw [hh2, if_neg Bool.false_ne_true]
  cases hheld : settings.heldEch with
  | some held =>
      rw [hheld] at hsome
      exact hsome
  | none =>
      simp only [hheld, Bool.and_eq_true, Bool.not_eq_true'] at hsome
      simp only [hsome.1, Bool.false_eq_true, if_false]
      exact hsome.2

theorem ech_eq_none (h : settings.echPossible = false) : answers.ech settings = none := by
  simp only [Settings.echPossible, Bool.and_eq_false_iff, Bool.not_eq_false'] at h
  unfold Answers.ech
  rcases h with hh2 | hnone
  · rw [hh2, if_pos rfl]
  · split_ifs
    · rfl
    all_goals
      cases hheld : settings.heldEch with
      | some held =>
          rw [hheld] at hnone
          exact Option.isSome_eq_false_iff.1 hnone |> Option.isNone_iff_eq_none.1
      | none => simp_all

@[simp] theorem outcome_verify (check : Check) :
    outcome answers (verify check) = .ok (answers.verified check) :=
  rfl

@[simp] theorem made_verify (check : Check) : made answers (verify check) = [.verify check] :=
  rfl

@[simp] theorem outcome_hostHasIpv6 : outcome answers hostHasIpv6 = .ok (answers .hostHasIpv6) :=
  rfl

@[simp] theorem outcome_course (family : Family) (mode : ScanMode) (ip : IpScan)
    (excluded : List SocketAddr) :
    outcome answers (course family mode ip excluded) = .ok (answers (.course family mode ip excluded)) :=
  rfl

theorem outcome_verifyMasquePeer : outcome answers (verifyMasquePeer settings held peer) =
    .ok ((answers.verified (masqueCheck settings held (answers.ech settings) peer)).mapError
      (validationFailed settings)) := by
  simp [verifyMasquePeer, Except.bind, Except.map]

theorem outcome_quickVerifyMasquePeer : outcome answers (quickVerifyMasquePeer settings held peer) =
    .ok (answers.verified (masqueCheck settings held (answers.ech settings) peer)).toOption.isSome := by
  simp only [quickVerifyMasquePeer, Program.outcome_bind, outcome_verifyMasquePeer, Except.bind,
    Program.outcome_pure]
  cases answers.verified (masqueCheck settings held (answers.ech settings) peer) <;> rfl

/-! ## What a scan reports -/

/-- An address that passed a probe, all of whose calls were made. -/
def Probed (answers : Answers) (probe : SocketAddr → Task (Except AetherError Nat)) (calls : List Call)
    (r : ProbeResult) : Prop :=
  outcome answers (probe r.peer) = .ok (.ok r.rtt) ∧ ∀ c ∈ made answers (probe r.peer), c ∈ calls

theorem mem_sortByRtt {results : List ProbeResult} {r : ProbeResult} :
    r ∈ sortByRtt results ↔ r ∈ results :=
  (List.perm_insertionSort _ results).mem_iff

theorem scanResults_ok {rest : List Turn} {results out : List ProbeResult}
    (h : scanResults rest results = .ok out) : out = results := by
  unfold scanResults at h
  split at h
  · cases h
  · split_ifs at h
    exact (Except.ok.inj h).symm

theorem Probed.mono {calls calls' : List Call} {r : ProbeResult} (h : Probed answers probe calls r)
    (hcalls : ∀ c ∈ calls, c ∈ calls') : Probed answers probe calls' r :=
  ⟨h.1, fun c hc => hcalls c (h.2 c hc)⟩

theorem mem_scanned {results : List ProbeResult} {r x : ProbeResult} (h : r ∈ scanned results x) :
    r ∈ results ∨ r = x := by
  unfold scanned at h
  split_ifs at h
  · exact .inl h
  · rw [mem_sortByRtt, List.mem_append, List.mem_singleton] at h
    exact h

theorem probed_scanned {calls : List Call} {results : List ProbeResult} {r : ProbeResult} {rtt : Nat}
    (hprobe : outcome answers (probe peer) = .ok (.ok rtt))
    (hcalls : ∀ c ∈ made answers (probe peer), c ∈ calls) (h : r ∈ scanned results ⟨peer, rtt⟩) :
    r ∈ results ∨ Probed answers probe calls r := by
  rcases mem_scanned h with hin | rfl
  · exact .inl hin
  · exact .inr ⟨hprobe, hcalls⟩

theorem scanLoop_probed {limit : Nat} {stopAtFirst : Bool} (turns : List Turn)
    (results out : List ProbeResult)
    (h : outcome answers (scanLoop probe limit stopAtFirst turns results) = .ok out) :
    ∀ r ∈ out, r ∈ results ∨
      Probed answers probe (made answers (scanLoop probe limit stopAtFirst turns results)) r := by
  -- along the turns, for whatever was found before them
  induction turns generalizing results with
  | nil =>
      rw [scanLoop, outcome_orFail] at h
      exact fun r hr => .inl (scanResults_ok h ▸ hr)
  | cons turn rest ih =>
      cases turn with
      | cancelled => cases h
      | timeUp =>
          rw [scanLoop, outcome_orFail] at h
          exact fun r hr => .inl (scanResults_ok h ▸ hr)
      -- a probe has ended: what follows is the rest of the scan
      | ended peer =>
          intro r hr
          rw [scanLoop] at h ⊢
          obtain ⟨answer, hprobe, hrest⟩ := outcome_bind_ok.1 h
          cases answer with
          -- a failed probe adds nothing
          | error e =>
              refine (ih results hrest r hr).imp_right fun hprobed => hprobed.mono fun c hc => ?_
              exact made_bind_right hprobe hc
          | ok rtt =>
              dsimp only at hrest
              -- the scan stops at its first result, or goes on with this one more
              split_ifs at hrest with hstop
              · rw [outcome_orFail] at hrest
                exact probed_scanned hprobe (fun c hc => made_bind_left hc) (scanResults_ok hrest ▸ hr)
              · rcases ih _ hrest r hr with hin | hprobed
                · exact probed_scanned hprobe (fun c hc => made_bind_left hc) hin
                · refine .inr (hprobed.mono fun c hc => ?_)
                  refine made_bind_right hprobe ?_
                  dsimp only
                  rw [if_neg hstop]
                  exact hc

theorem scanWgLoop_probed {limit : Nat} (turns : List Turn) (found out : List ProbeResult)
    (h : outcome answers (scanWgLoop probe limit turns found) = .ok out) :
    ∀ r ∈ out, r ∈ found ∨ Probed answers probe (made answers (scanWgLoop probe limit turns found)) r := by
  -- along the turns; a WireGuard scan that is stopped answers with what it has
  induction turns generalizing found with
  | nil =>
      cases h
      exact fun r hr => .inl hr
  | cons turn rest ih =>
      cases turn with
      | cancelled =>
          cases h
          exact fun r hr => .inl hr
      | timeUp =>
          cases h
          exact fun r hr => .inl hr
      | ended peer =>
          intro r hr
          rw [scanWgLoop] at h ⊢
          -- enough was found: the remaining probes are not looked at
          split_ifs at h ⊢ with hlimit
          · cases h
            exact .inl hr
          · obtain ⟨answer, hprobe, hrest⟩ := outcome_bind_ok.1 h
            cases answer with
            | error e =>
                refine (ih found hrest r hr).imp_right fun hprobed => hprobed.mono fun c hc => ?_
                exact made_bind_right hprobe hc
            | ok rtt =>
                rcases ih _ hrest r hr with hin | hprobed
                -- found by this probe, or found before it
                · rw [List.mem_append, List.mem_singleton] at hin
                  rcases hin with hin | rfl
                  · exact .inl hin
                  · exact .inr ⟨hprobe, fun c hc => made_bind_left hc⟩
                · exact .inr (hprobed.mono fun c hc => made_bind_right hprobe hc)

/-- **What the MASQUE scanner reports has passed its probe.** -/
theorem scanGateways_passes {p : MasqueProbe} {mode : ScanMode} {limit : Nat} {out : List ProbeResult}
    (h : outcome answers (scanGateways settings p mode limit) = .ok out) {r : ProbeResult} (hr : r ∈ out) :
    answers.Passes (verifyOne settings p mode r.peer) ∧
      .verify (verifyOne settings p mode r.peer) ∈ made answers (scanGateways settings p mode limit) := by
  obtain ⟨ip, hip, h⟩ := outcome_bind_ok.1 h
  obtain ⟨turns, hturns, h⟩ := outcome_bind_ok.1 h
  rcases scanLoop_probed turns [] out h r hr with hin | ⟨hpassed, hmade⟩
  · cases hin
  · rw [outcome_verify] at hpassed
    refine ⟨⟨r.rtt, Except.ok.inj hpassed⟩, ?_⟩
    apply made_bind_right hip
    apply made_bind_right hturns
    exact hmade _ (by simp)

theorem verifyOneWg_passes {p : WgProbe} {mode : ScanMode} {rtt : Nat}
    (h : outcome answers (verifyOneWg p mode peer) = .ok (.ok rtt)) :
    answers.Passes (wgCheck p mode peer) := by
  unfold verifyOneWg at h
  rw [Program.outcome_bind, outcome_verify] at h
  cases hverified : answers.verified (wgCheck p mode peer) with
  | error e =>
      rw [hverified] at h
      cases h
  | ok rtt => exact ⟨rtt, hverified⟩

theorem scanWgEndpoints_passes {p : WgProbe} {mode : ScanMode} {limit : Nat} {out : List ProbeResult}
    (h : outcome answers (scanWgEndpoints p mode limit) = .ok out) {r : ProbeResult} (hr : r ∈ out) :
    answers.Passes (wgCheck p mode r.peer) ∧
      .verify (wgCheck p mode r.peer) ∈ made answers (scanWgEndpoints p mode limit) := by
  obtain ⟨ip, hip, h⟩ := outcome_bind_ok.1 h
  obtain ⟨turns, hturns, h⟩ := outcome_bind_ok.1 h
  obtain ⟨found, hfound, h⟩ := outcome_bind_ok.1 h
  split_ifs at h
  · cases h
  · rw [Program.outcome_pure, Except.ok.injEq] at h
    rw [← h, mem_sortByRtt] at hr
    rcases scanWgLoop_probed turns [] found hfound r hr with hin | ⟨hpassed, hmade⟩
    · cases hin
    · refine ⟨verifyOneWg_passes hpassed, ?_⟩
      apply made_bind_right hip
      apply made_bind_right hturns
      apply made_bind_left
      exact hmade _ (made_bind_left (by simp))

/-! ## What a preparation accepts -/

/-- What `verify_wg_peer` comes to. -/
def Answers.wg (answers : Answers) (held : Held) (peer : SocketAddr) (profile : Text) :
    Except AetherError Nat :=
  match localIpv4 held with
  | none => .error (.other "invalid ipv4")
  | some _ => answers.verified ⟨.wg profile, held, peer, false, 8000⟩

@[simp] theorem outcome_verifyWgPeer (profile : Text) :
    outcome answers (verifyWgPeer held peer profile) = .ok (answers.wg held peer profile) := by
  unfold verifyWgPeer verifyEndpoint Answers.wg
  cases localIpv4 held <;> rfl

/-- A custom endpoint that does not pass is refused, where there is no fallback. -/
theorem outcome_selectEmbeddedPeer (hpeer : config.peer = some peer)
    (hfallback : config.peerFallback = false) :
    outcome answers (selectEmbeddedPeer settings held config) =
      match answers.verified (masqueCheck settings held (answers.ech settings) peer) with
      | .ok _ => .ok peer
      | .error _ => .error (customEndpointFailed "MASQUE") := by
  unfold selectEmbeddedPeer
  rw [hpeer]
  simp only [Program.outcome_bind, outcome_quickVerifyMasquePeer, hfallback]
  cases answers.verified (masqueCheck settings held (answers.ech settings) peer) <;> rfl

theorem outcome_firstProfile (profiles : List Text) :
    outcome answers (firstProfile held peer profiles) =
      .ok (profiles.find? fun profile => (answers.wg held peer profile).toOption.isSome) := by
  induction profiles with
  | nil => rfl
  | cons profile rest ih =>
      rw [firstProfile, Program.outcome_bind, outcome_verifyWgPeer, List.find?_cons]
      cases answers.wg held peer profile with
      | error e => exact ih
      | ok rtt => rfl

theorem outcome_selectEmbeddedWgPeer (hpeer : config.peer = some peer)
    (hfallback : config.peerFallback = false) :
    outcome answers (selectEmbeddedWgPeer settings held config) =
      match settings.wgProfileCandidates.find? fun profile =>
        (answers.wg held peer profile).toOption.isSome with
      | some profile => .ok (peer, profile)
      | none => .error (customEndpointFailed "WireGuard") := by
  unfold selectEmbeddedWgPeer
  rw [hpeer]
  simp only [Program.outcome_bind, outcome_firstProfile, hfallback, Except.bind]
  cases settings.wgProfileCandidates.find? fun profile =>
    (answers.wg held peer profile).toOption.isSome <;> rfl

theorem outcome_echPolicySatisfied : outcome answers (echPolicySatisfied settings) = .ok () ↔
    (settings.echRequired → (answers.ech settings).isSome) := by
  unfold echPolicySatisfied
  by_cases hrequired : settings.echRequired = true
  · rw [if_pos hrequired, Program.outcome_bind, outcome_attemptEch]
    cases answers.ech settings with
    | none => simp [hrequired, Except.bind]
    | some ech => simp [hrequired, Except.bind]
  · rw [if_neg hrequired]
    simp [hrequired]

@[simp] theorem outcome_outerIdentity (protocol : Protocol) :
    outcome answers (outerIdentity protocol) =
      (answers.identity (familyOf protocol) (identitySlot protocol)).map
        (Held.mk (familyOf protocol) (identitySlot protocol)) := by
  cases protocol <;> exact outcome_loadOrProvision _ _

theorem echPromise_masque {protocol : Protocol} (h : familyOf protocol = .masque) :
    echPromise settings protocol = echPolicySatisfied settings := by
  cases protocol <;> first | rfl | cases h

theorem echPromise_wg {protocol : Protocol} (h : familyOf protocol = .wireguard) :
    echPromise settings protocol = pure () := by
  cases protocol <;> first | rfl | cases h

theorem outerIdentity_ok {protocol : Protocol}
    (h : outcome answers (outerIdentity protocol) = .ok held) : ∃ identity,
      answers.identity (familyOf protocol) (identitySlot protocol) = .ok identity ∧
        held = ⟨familyOf protocol, identitySlot protocol, identity⟩ := by
  rw [outcome_outerIdentity] at h
  cases hidentity : answers.identity (familyOf protocol) (identitySlot protocol) with
  | error e =>
      rw [hidentity] at h
      cases h
  | ok identity =>
      rw [hidentity] at h
      exact ⟨identity, rfl, (Except.ok.inj h).symm⟩

/-- **The verification behind a MASQUE preparation** of a pinned address. -/
theorem prepareEmbedded_masque_ok (hfamily : familyOf config.protocolOf = .masque)
    (hpeer : config.peer = some peer) (hfallback : config.peerFallback = false)
    {prepared : EmbeddedPrepared}
    (h : outcome answers (prepareEmbedded settings config) = .ok prepared) :
    (settings.echRequired → (answers.ech settings).isSome) ∧ ∃ identity,
      answers.identity .masque (identitySlot config.protocolOf) = .ok identity ∧
        answers.Passes (masqueCheck settings ⟨.masque, identitySlot config.protocolOf, identity⟩
          (answers.ech settings) peer) := by
  -- the promise of ECH, the account, and the address, in the order of the preparation
  obtain ⟨⟨⟩, hpromise, h⟩ := outcome_bind_ok.1 h
  obtain ⟨held, hheld, h⟩ := outcome_bind_ok.1 h
  obtain ⟨selected, hselected, -⟩ := outcome_bind_ok.1 h
  rw [echPromise_masque hfamily] at hpromise
  obtain ⟨identity, hidentity, rfl⟩ := outerIdentity_ok hheld
  rw [hfamily] at hidentity hselected
  refine ⟨outcome_echPolicySatisfied.1 hpromise, identity, hidentity, ?_⟩
  rw [selectPeer_masque hfamily, outcome_selectEmbeddedPeer hpeer hfallback] at hselected
  -- the address is pinned and has no other to fall back to, so its verification decides
  cases hverified : answers.verified (masqueCheck settings
      ⟨.masque, identitySlot config.protocolOf, identity⟩ (answers.ech settings) peer) with
  | error e =>
      rw [hverified] at hselected
      cases hselected
  | ok rtt => exact ⟨rtt, hverified⟩

/-- **The profile behind a WireGuard preparation** of a pinned address. -/
theorem prepareEmbedded_wg_ok (hfamily : familyOf config.protocolOf = .wireguard)
    (hpeer : config.peer = some peer) (hfallback : config.peerFallback = false)
    {prepared : EmbeddedPrepared}
    (h : outcome answers (prepareEmbedded settings config) = .ok prepared) : ∃ identity,
      answers.identity .wireguard (identitySlot config.protocolOf) = .ok identity ∧
        settings.wgProfileCandidates.find? (fun profile => (answers.wg
          ⟨.wireguard, identitySlot config.protocolOf, identity⟩ peer profile).toOption.isSome) ≠ none := by
  obtain ⟨⟨⟩, -, h⟩ := outcome_bind_ok.1 h
  obtain ⟨held, hheld, h⟩ := outcome_bind_ok.1 h
  obtain ⟨selected, hselected, -⟩ := outcome_bind_ok.1 h
  obtain ⟨identity, hidentity, rfl⟩ := outerIdentity_ok hheld
  rw [hfamily] at hidentity hselected
  refine ⟨identity, hidentity, fun hnone => ?_⟩
  rw [selectPeer_wg hfamily, Program.outcome_map, outcome_selectEmbeddedWgPeer hpeer hfallback, hnone]
    at hselected
  cases hselected

/-! ### Surroundings in which few verifications pass -/

section Passing

variable {d : Check}

theorem passing_verified : (answers.passing d).verified d = .ok 0 :=
  if_pos rfl

theorem passing_passes {check : Check} (h : (answers.passing d).Passes check) : check = d := by
  obtain ⟨rtt, hrtt⟩ := h
  by_contra hother
  have hfails : (answers.passing d).verified check = .error .noCleanEndpoint := if_neg hother
  cases hfails.symm.trans hrtt

theorem passing_ech : (answers.passing d).ech settings = answers.ech settings :=
  rfl

theorem passing_identity {loader : Family} {slot : Slot} {identity : Identity}
    (h : answers.identity loader slot = .ok identity) :
    (answers.passing d).identity loader slot = .ok identity := by
  change (match answers.identity loader slot with
    | .ok identity => .ok identity
    | .error _ => .ok sampleIdentity : Except AetherError Identity) = .ok identity
  rw [h]

theorem exists_passing_identity (loader : Family) (slot : Slot) :
    ∃ identity, (answers.passing d).identity loader slot = .ok identity := by
  cases h : answers.identity loader slot with
  | ok identity => exact ⟨identity, passing_identity h⟩
  | error e =>
      refine ⟨sampleIdentity, ?_⟩
      change (match answers.identity loader slot with
        | .ok identity => .ok identity
        | .error _ => .ok sampleIdentity : Except AetherError Identity) = .ok sampleIdentity
      rw [h]

theorem exists_passing_held (loader : Family) (slot : Slot) :
    ∃ held, outcome (answers.passing d) (loadOrProvision loader slot) = .ok held := by
  have hpassing : ∃ identity, (answers.passing d).identity loader slot = .ok identity :=
    exists_passing_identity loader slot
  obtain ⟨identity, hidentity⟩ := hpassing
  rw [outcome_loadOrProvision, hidentity]
  exact ⟨_, rfl⟩

/-- Where the address is accepted, the preparation goes through: the inner account is there. -/
theorem prepareEmbedded_passing {identity : Identity} (peer : SocketAddr)
    (hpromise : outcome (answers.passing d) (echPromise settings config.protocolOf) = .ok ())
    (hidentity : answers.identity (familyOf config.protocolOf) (identitySlot config.protocolOf) = .ok identity)
    (hselected : outcome (answers.passing d) (selectPeer settings
      ⟨familyOf config.protocolOf, identitySlot config.protocolOf, identity⟩ config) = .ok peer) :
    ∃ prepared, outcome (answers.passing d) (prepareEmbedded settings config) = .ok prepared := by
  have hheld : outcome (answers.passing d) (outerIdentity config.protocolOf) =
      .ok ⟨familyOf config.protocolOf, identitySlot config.protocolOf, identity⟩ := by
    rw [outcome_outerIdentity, passing_identity hidentity]
    rfl
  have hsecondary : ∃ held, outcome (answers.passing d) (secondaryIdentity config.protocolOf) = .ok held := by
    cases config.protocolOf <;> exact exists_passing_held _ _
  obtain ⟨secondary, hsecondary⟩ := hsecondary
  unfold prepareEmbedded
  simp only [Program.outcome_bind, hpromise, hheld, hselected, Except.bind]
  split_ifs
  · rw [Program.outcome_bind, hsecondary]
    exact ⟨_, rfl⟩
  · exact ⟨_, rfl⟩

end Passing

/-- **A pinned MASQUE edge is accepted by the check that `masqueCheck` names.** -/
theorem acceptsBy_masque {identity : Identity} (hfamily : familyOf config.protocolOf = .masque)
    (hidentity : answers.identity .masque (identitySlot config.protocolOf) = .ok identity)
    (hpolicy : settings.echRequired → (answers.ech settings).isSome) (peer : SocketAddr) :
    AcceptsBy answers settings config peer (masqueCheck settings
      ⟨.masque, identitySlot config.protocolOf, identity⟩ (answers.ech settings) peer) := by
  have hfamily' : familyOf (pinned config peer).protocolOf = .masque := hfamily
  obtain ⟨d, hd⟩ : ∃ d, masqueCheck settings ⟨.masque, identitySlot config.protocolOf, identity⟩
    (answers.ech settings) peer = d := ⟨_, rfl⟩
  rw [hd]
  refine prepareEmbedded_passing peer ?_ (hfamily' ▸ hidentity) ?_
  · rw [echPromise_masque hfamily', outcome_echPolicySatisfied]
    exact hpolicy
  · have hpassed : (answers.passing d).verified (masqueCheck settings
        ⟨.masque, identitySlot (pinned config peer).protocolOf, identity⟩
        ((answers.passing d).ech settings) peer) = .ok 0 := by
      rw [passing_ech]
      exact (congrArg (answers.passing d).verified hd).trans passing_verified
    rw [selectPeer_masque hfamily', outcome_selectEmbeddedPeer rfl rfl, hfamily', hpassed]

theorem mem_wgProfileCandidates (settings : Settings) :
    settings.aethernoizeConfig ∈ settings.wgProfileCandidates := by
  unfold Settings.wgProfileCandidates
  dsimp only
  split_ifs <;> exact List.mem_cons_self

/-- **A pinned WireGuard endpoint is accepted by any of the profiles.** -/
theorem acceptsBy_wg {identity : Identity} {profile : Text} {ipv4 : IpAddr}
    (hfamily : familyOf config.protocolOf = .wireguard)
    (hidentity : answers.identity .wireguard (identitySlot config.protocolOf) = .ok identity)
    (hipv4 : localIpv4 ⟨.wireguard, identitySlot config.protocolOf, identity⟩ = some ipv4)
    (hprofile : profile ∈ settings.wgProfileCandidates) (peer : SocketAddr) :
    AcceptsBy answers settings config peer ⟨.wg profile,
      ⟨.wireguard, identitySlot config.protocolOf, identity⟩, peer, false, 8000⟩ := by
  have hfamily' : familyOf (pinned config peer).protocolOf = .wireguard := hfamily
  refine prepareEmbedded_passing peer ?_ (hfamily' ▸ hidentity) ?_
  · rw [echPromise_wg hfamily']
    rfl
  · rw [selectPeer_wg hfamily', Program.outcome_map, outcome_selectEmbeddedWgPeer rfl rfl, hfamily']
    -- the profile of the check passes under its own answers
    have hpassed : Answers.wg (answers.passing ⟨.wg profile,
        ⟨.wireguard, identitySlot config.protocolOf, identity⟩, peer, false, 8000⟩)
        ⟨.wireguard, identitySlot (pinned config peer).protocolOf, identity⟩ peer profile = .ok 0 := by
      have hlocal : localIpv4 ⟨.wireguard, identitySlot (pinned config peer).protocolOf, identity⟩ = some ipv4 := hipv4
      unfold Answers.wg
      rw [hlocal]
      exact passing_verified
    -- the first profile that passes is taken, and there is one
    cases hfound : settings.wgProfileCandidates.find? fun profile' => (Answers.wg (answers.passing ⟨.wg profile,
        ⟨.wireguard, identitySlot config.protocolOf, identity⟩, peer, false, 8000⟩)
        ⟨.wireguard, identitySlot (pinned config peer).protocolOf, identity⟩ peer profile').toOption.isSome with
    | some found => rfl
    | none =>
        have hmissed := List.find?_eq_none.1 hfound profile hprofile
        rw [hpassed] at hmissed
        exact absurd rfl hmissed

/-! ## Scans and tests report what a preparation accepts -/

/-- Where nothing is left out, a scan puts to the test what a preparation does. -/
theorem same_masque {p : MasqueProbe} {mode : ScanMode} (hech : p.echConfigList = answers.ech settings)
    (hnoize : p.noize = settings.noizeConfig) (hleftOut : mode = .ironclad → settings.echPossible = false)
    (hdial : settings.h2Enabled → settings.h2Override = none ∨ mode = .ironclad) :
    (verifyOne settings p mode peer).Same (masqueCheck settings p.held (answers.ech settings) peer) := by
  unfold verifyOne masqueHttpPing masqueCheck
  by_cases hmode : mode = .ironclad
  · simp only [hmode, if_true, hnoize, ech_eq_none (hleftOut hmode)]
    split_ifs <;> exact ⟨rfl, rfl, rfl⟩
  · simp only [hmode, if_false, hnoize, hech]
    split_ifs with hh2
    · -- The scan dials the edge itself.
      have hoverride : settings.h2Override = none := (hdial hh2).resolve_right hmode
      exact ⟨rfl, rfl, by simp [Settings.h2Peer, hoverride]⟩
    · exact ⟨rfl, rfl, rfl⟩

theorem OneKind.masque (h : OneKind settings config) (hfamily : familyOf config.protocolOf = .masque) :
    config.protocolOf = .masque := by
  revert hfamily
  cases hprotocol : config.protocolOf with
  | masque => exact fun _ => rfl
  | masqueInMasque => exact fun _ => absurd hprotocol h.single
  | wireGuard => exact nofun
  | warpInWarp => exact nofun

theorem OneKind.family (h : OneKind settings config) (hprotocol : config.protocolOf ≠ .masque) :
    familyOf config.protocolOf = .wireguard := by
  cases hfamily : familyOf config.protocolOf with
  | wireguard => rfl
  | masque => exact absurd (h.masque hfamily) hprotocol

theorem loadOrProvision_ok {loader : Family} {slot : Slot}
    (h : outcome answers (loadOrProvision loader slot) = .ok held) :
    ∃ identity, answers.identity loader slot = .ok identity ∧ held = ⟨loader, slot, identity⟩ := by
  rw [outcome_loadOrProvision] at h
  cases hidentity : answers.identity loader slot with
  | error e =>
      rw [hidentity] at h
      cases h
  | ok identity =>
      rw [hidentity] at h
      exact ⟨identity, rfl, (Except.ok.inj h).symm⟩

theorem outcome_masqueProbe (ip : IpScan) : outcome answers (masqueProbe settings held ip) =
    .ok ⟨held, answers.ech settings, settings.noizeConfig, ip⟩ := by
  simp [masqueProbe, Except.map]

theorem OneKind.policy (h : OneKind settings config) (hprotocol : config.protocolOf = .masque)
    (hrequired : settings.echRequired) : (answers.ech settings).isSome :=
  ech_isSome_of_certain (h.required hprotocol hrequired)

theorem scan_usable (h : OneKind settings config) {limit : Nat} {results : List ProbeResult}
    (hscan : outcome answers (scanEmbedded settings config limit) = .ok results) {r : ProbeResult}
    (hr : r ∈ results) : Usable settings config answers (scanEmbedded settings config limit) r.peer := by
  unfold scanEmbedded at hscan ⊢
  -- MASQUE or not: the two scans have nothing but the identity in common
  by_cases hprotocol : config.protocolOf = .masque
  · rw [if_neg (not_not.2 hprotocol)] at hscan ⊢
    obtain ⟨held, hheld, hscan⟩ := outcome_bind_ok.1 hscan
    obtain ⟨probe, hprobe, hscan⟩ := outcome_bind_ok.1 hscan
    obtain ⟨hpasses, hmade⟩ := scanGateways_passes hscan hr
    obtain ⟨identity, hidentity, rfl⟩ := loadOrProvision_ok hheld
    have hfamily : familyOf config.protocolOf = .masque := by rw [hprotocol]; rfl
    refine ⟨_, _, made_bind_right hheld (made_bind_right hprobe hmade), hpasses, ?_,
      acceptsBy_masque hfamily hidentity (h.policy hprotocol) r.peer⟩
    -- the probe of the scan is a check of the same kind as the one that will dial
    rw [outcome_masqueProbe, Except.ok.injEq] at hprobe
    subst hprobe
    exact same_masque rfl rfl (h.leftOut hprotocol) (h.dial hprotocol)
  · rw [if_pos hprotocol] at hscan ⊢
    obtain ⟨held, hheld, hscan⟩ := outcome_bind_ok.1 hscan
    obtain ⟨identity, hidentity, rfl⟩ := loadOrProvision_ok hheld
    -- without an address of its own a WireGuard identity probes nothing
    cases hipv4 : localIpv4 ⟨.wireguard, identitySlot config.protocolOf, identity⟩ with
    | none =>
        rw [hipv4] at hscan
        cases hscan
    | some ipv4 =>
        rw [hipv4] at hscan
        obtain ⟨hpasses, hmade⟩ := scanWgEndpoints_passes hscan hr
        have haccepts := acceptsBy_wg (h.family hprotocol) hidentity hipv4 (mem_wgProfileCandidates settings) r.peer
        refine ⟨_, _, made_bind_right hheld ?_, hpasses, ?_, haccepts⟩
        · rw [hipv4]
          exact hmade
        · exact ⟨rfl, rfl, rfl⟩

theorem testProfiles_ok {r : ProbeResult} (profiles : List Text) (last : AetherError)
    (h : outcome answers (testProfiles held peer profiles last) = .ok r) :
    r.peer = peer ∧ (localIpv4 held).isSome ∧ ∃ profile ∈ profiles,
      answers.Passes ⟨.wg profile, held, peer, false, 8000⟩ ∧
        .verify ⟨.wg profile, held, peer, false, 8000⟩ ∈
          made answers (testProfiles held peer profiles last) := by
  -- along the profiles: the first that passes is the answer
  induction profiles generalizing last with
  | nil => cases h
  | cons profile rest ih =>
      obtain ⟨answer, hanswer, h⟩ := outcome_bind_ok.1 h
      cases answer with
      | error e =>
          obtain ⟨hpeer, hlocal, profile', hmem, hpasses, hmade⟩ := ih e h
          exact ⟨hpeer, hlocal, profile', List.mem_cons_of_mem _ hmem, hpasses, made_bind_right hanswer hmade⟩
      | ok rtt =>
          cases h
          rw [outcome_verifyWgPeer, Except.ok.injEq] at hanswer
          unfold Answers.wg at hanswer
          -- the check of an identity without an address fails before anything is sent
          cases hipv4 : localIpv4 held with
          | none =>
              rw [hipv4] at hanswer
              cases hanswer
          | some ipv4 =>
              rw [hipv4] at hanswer
              refine ⟨rfl, rfl, profile, List.mem_cons_self, ⟨rtt, hanswer⟩, made_bind_left ?_⟩
              unfold verifyWgPeer verifyEndpoint
              rw [hipv4]
              exact List.mem_singleton.2 rfl

/-- A test that finds nothing has tried every profile that a preparation tries. -/
theorem testProfiles_error {e : AetherError} (profiles : List Text) (last : AetherError)
    (h : outcome answers (testProfiles held peer profiles last) = .error e) :
    profiles.find? (fun profile => (answers.wg held peer profile).toOption.isSome) = none := by
  induction profiles generalizing last with
  | nil => rfl
  | cons profile rest ih =>
      rw [testProfiles, Program.outcome_bind, outcome_verifyWgPeer] at h
      rw [List.find?_cons]
      cases hwg : answers.wg held peer profile with
      | error e =>
          rw [hwg] at h
          exact ih e h
      | ok rtt =>
          rw [hwg] at h
          cases h

theorem test_usable (h : OneKind settings config) {r : ProbeResult}
    (htest : outcome answers (testEmbeddedPeer settings config) = .ok r) :
    Usable settings config answers (testEmbeddedPeer settings config) r.peer := by
  unfold testEmbeddedPeer at htest ⊢
  cases hpeer : config.peer with
  | none =>
      rw [hpeer] at htest
      cases htest
  | some peer =>
      rw [hpeer] at htest
      dsimp only at htest ⊢
      -- MASQUE or not: one check, or one for each profile
      by_cases hprotocol : config.protocolOf = .masque
      · rw [if_neg (not_not.2 hprotocol)] at htest ⊢
        obtain ⟨held, hheld, htest⟩ := outcome_bind_ok.1 htest
        obtain ⟨identity, hidentity, rfl⟩ := loadOrProvision_ok hheld
        obtain ⟨answer, hanswer, htest⟩ := outcome_bind_ok.1 htest
        obtain ⟨rtt, hrtt, htest⟩ := outcome_bind_ok.1 htest
        cases htest
        have hfamily : familyOf config.protocolOf = .masque := by rw [hprotocol]; rfl
        refine ⟨_, _, made_bind_right hheld (made_bind_left ?_), ?_, ⟨rfl, rfl, rfl⟩,
          acceptsBy_masque hfamily hidentity (h.policy hprotocol) peer⟩
        -- the list of the server comes first, and then the check itself
        · exact made_bind_right outcome_attemptEch (made_bind_left (List.mem_singleton.2 rfl))
        · rw [outcome_verifyMasquePeer, Except.ok.injEq] at hanswer
          rw [outcome_orFail, ← hanswer] at hrtt
          -- the answer of the call is the answer of this check
          cases hverified : answers.verified (masqueCheck settings
              ⟨.masque, identitySlot config.protocolOf, identity⟩ (answers.ech settings) peer) with
          | error e =>
              rw [hverified] at hrtt
              cases hrtt
          | ok rtt => exact ⟨rtt, hverified⟩
      · rw [if_pos hprotocol] at htest ⊢
        obtain ⟨held, hheld, htest⟩ := outcome_bind_ok.1 htest
        obtain ⟨identity, hidentity, rfl⟩ := loadOrProvision_ok hheld
        obtain ⟨rfl, hlocal, profile, hmem, hpasses, hmade⟩ := testProfiles_ok _ _ htest
        obtain ⟨ipv4, hipv4⟩ := Option.isSome_iff_exists.1 hlocal
        exact ⟨_, _, made_bind_right hheld hmade, hpasses, ⟨rfl, rfl, rfl⟩,
          acceptsBy_wg (h.family hprotocol) hidentity hipv4 hmem _⟩

/-- **An address that a test finds dead is refused.** -/
theorem test_dead (hprotocol : config.protocolOf ≠ .masqueInMasque) (hpeer : config.peer = some peer)
    {e : AetherError} (htest : outcome answers (testEmbeddedPeer settings config) = .error e) :
    ∃ refusal, outcome answers (prepareEmbedded settings (pinned config peer)) = .error refusal := by
  cases hprepare : outcome answers (prepareEmbedded settings (pinned config peer)) with
  | error refusal => exact ⟨refusal, rfl⟩
  | ok prepared =>
      -- The verification behind the preparation is one that the test has made as well.
      exfalso
      unfold testEmbeddedPeer at htest
      rw [hpeer] at htest
      dsimp only at htest
      by_cases hmasque : config.protocolOf = .masque
      · have hfamily : familyOf (pinned config peer).protocolOf = .masque := by
          change familyOf config.protocolOf = .masque
          rw [hmasque]
          rfl
        obtain ⟨-, identity, hidentity, rtt, hrtt⟩ := prepareEmbedded_masque_ok hfamily rfl rfl hprepare
        change answers.identity .masque (identitySlot config.protocolOf) = .ok identity at hidentity
        change answers.verified (masqueCheck settings ⟨.masque, identitySlot config.protocolOf, identity⟩
          (answers.ech settings) peer) = .ok rtt at hrtt
        rw [if_neg (not_not.2 hmasque)] at htest
        simp only [Program.outcome_bind, outcome_loadOrProvision, hidentity, Except.map, Except.bind,
          outcome_verifyMasquePeer, hrtt, Except.mapError, outcome_orFail, Program.outcome_pure] at htest
        cases htest
      · have hfamily : familyOf (pinned config peer).protocolOf = .wireguard := by
          change familyOf config.protocolOf = .wireguard
          revert hprotocol hmasque
          cases config.protocolOf <;> simp [familyOf]
        obtain ⟨identity, hidentity, hfound⟩ := prepareEmbedded_wg_ok hfamily rfl rfl hprepare
        change answers.identity .wireguard (identitySlot config.protocolOf) = .ok identity at hidentity
        rw [if_pos hmasque] at htest
        simp only [Program.outcome_bind, outcome_loadOrProvision, hidentity, Except.map, Except.bind]
          at htest
        exact hfound (testProfiles_error _ _ htest)

/-! ## Slots -/

theorem Searches.keepsToSlots {α : Type} {p : Task α} (h : Searches p) : KeepsToSlots settings config p := by
  refine Uses.mono h fun c hc loader slot heq => ?_
  subst heq
  exact hc.elim

theorem searches_testProfiles (profiles : List Text) (last : AetherError) :
    Searches (testProfiles held peer profiles last) := by
  induction profiles generalizing last with
  | nil => exact searches_result _
  | cons profile rest ih =>
      refine (searches_verifyWgPeer profile).bind fun answer => ?_
      cases answer with
      | error e => exact ih e
      | ok rtt => exact searches_result _

/-- A program that loads one identity, from a slot that is used. -/
theorem keepsToSlots_load {α : Type} {loader : Family} {slot : Slot} {f : Held → Task α}
    (hslot : UsesSlot settings config loader slot) (hf : ∀ held, KeepsToSlots settings config (f held)) :
    KeepsToSlots settings config (loadOrProvision loader slot >>= f) := by
  refine Uses.bind_except (Uses.bind_except (Program.uses_ask ?_) fun r => ?_) hf
  · intro loader' slot' heq
    cases heq
    exact hslot
  · exact Uses.bind_except (Program.uses_ok r) fun _ => Program.uses_ok (.ok _)

theorem made_loadOrProvision (loader : Family) (slot : Slot) :
    .load loader slot ∈ made answers (loadOrProvision loader slot) :=
  made_bind_left (List.mem_singleton.2 rfl)

/-- Identities are there for the asking, the network has the given ECH configuration, scans take a given
course, and the verifications that pass are given. -/
def Answers.only (ech : Option ECHConfigList) (passes : List Check) (turns : List Turn) : Answers
  | .load _ _ => .ok sampleIdentity
  | .fetchEch => ech
  | .verify check => if check ∈ passes then .ok 0 else .error .noCleanEndpoint
  | .hostHasIpv6 => true
  | .course _ _ _ _ => turns
  | .anchors _ _ => []
  | .deviceEndpoint _ => none
  | .loadLastconn _ => none
  | .saveLastconn _ _ _ => ()
  | .establish _ => .error .noCleanEndpoint
  | .carry _ => .error .noCleanEndpoint
  | .draws => ⟨fun _ => 0, []⟩
  | .forwarder _ => .error .noCleanEndpoint

theorem only_verified {ech : Option ECHConfigList} {passes : List Check} {turns : List Turn} {check : Check}
    (h : check ∈ passes) : (Answers.only ech passes turns).verified check = .ok 0 :=
  if_pos h

theorem only_passes {ech : Option ECHConfigList} {passes : List Check} {turns : List Turn} {check : Check}
    (h : (Answers.only ech passes turns).Passes check) : check ∈ passes := by
  obtain ⟨rtt, hrtt⟩ := h
  by_contra hnot
  have hfails : (Answers.only ech passes turns).verified check = .error .noCleanEndpoint := if_neg hnot
  cases hfails.symm.trans hrtt

theorem localIpv4_sample (loader : Family) (slot : Slot) :
    localIpv4 ⟨loader, slot, sampleIdentity⟩ = some (.v4 ⟨[172, 16, 0, 2], rfl⟩) := by
  have : parseIpAddr sampleIdentity.ipv4 = some (.v4 ⟨[172, 16, 0, 2], rfl⟩) := by decide
  unfold localIpv4
  rw [this]

theorem usesSlot_outer (h : OneKind settings config) :
    UsesSlot settings config (familyOf config.protocolOf) (identitySlot config.protocolOf) := by
  refine .inl ⟨.only none [] [], made_bind_right (a := ⟨⟩) ?_ (made_bind_left ?_)⟩
  · cases hfamily : familyOf config.protocolOf with
    | wireguard =>
        rw [echPromise_wg hfamily]
        rfl
    | masque =>
        rw [echPromise_masque hfamily, outcome_echPolicySatisfied]
        exact h.policy (h.masque hfamily)
  · cases config.protocolOf <;> exact made_loadOrProvision _ _

def sampleEndpoint : SocketAddr :=
  .new (.v4 ⟨[162, 159, 192, 1], rfl⟩) 2408

/-- Surroundings in which every verification passes, and an endpoint is remembered. -/
def Answers.all : Answers
  | .verify _ => .ok 0
  | .loadLastconn _ => some ⟨some sampleEndpoint, [], {}⟩
  | call => Answers.only none [] [] call

theorem all_wg (loader : Family) (slot : Slot) (profile : Text) :
    Answers.all.wg ⟨loader, slot, sampleIdentity⟩ peer profile = .ok 0 := by
  unfold Answers.wg
  rw [localIpv4_sample]
  rfl

/-- Where every verification passes, an endpoint is found. -/
theorem all_selectEmbeddedWgPeer (settings : Settings) (config : EmbeddedConfig) (loader : Family)
    (slot : Slot) : ∃ found, outcome Answers.all
      (selectEmbeddedWgPeer settings ⟨loader, slot, sampleIdentity⟩ config) = .ok found := by
  unfold selectEmbeddedWgPeer
  cases config.peer with
  | some peer =>
      cases hfound : settings.wgProfileCandidates.find? fun profile =>
          (Answers.all.wg ⟨loader, slot, sampleIdentity⟩ peer profile).toOption.isSome with
      | some profile => exact ⟨(peer, profile), outcome_bind_ok.2 ⟨_, outcome_firstProfile _, by rw [hfound]; rfl⟩⟩
      | none =>
          have hmissed := List.find?_eq_none.1 hfound _ (mem_wgProfileCandidates settings)
          rw [all_wg] at hmissed
          exact absurd rfl hmissed
  | none =>
      refine ⟨(sampleEndpoint, []), outcome_bind_ok.2 ⟨some (sampleEndpoint, []), rfl, ?_⟩⟩
      refine outcome_bind_ok.2 ⟨_, outcome_verifyWgPeer _, ?_⟩
      rw [all_wg]
      rfl

theorem usesSlot_secondary (hprotocol : config.protocolOf = .warpInWarp) :
    UsesSlot settings config .wireguard (secondaryIdentitySlot .warpInWarp) := by
  have hfamily : familyOf config.protocolOf = .wireguard := by
    rw [hprotocol]
    rfl
  obtain ⟨found, hfound⟩ := all_selectEmbeddedWgPeer settings config .wireguard .wireguard
  refine .inl ⟨.all, made_bind_right (a := ⟨⟩) ?_ (made_bind_right
    (a := ⟨.wireguard, .wireguard, sampleIdentity⟩) ?_ (made_bind_right (a := found.1) ?_ ?_))⟩
  · rw [echPromise_wg hfamily]
    rfl
  · rw [outcome_outerIdentity, hprotocol]
    rfl
  · rw [selectPeer_wg hfamily, Program.outcome_map, hfound]
    rfl
  · rw [hprotocol]
    exact made_bind_left (made_loadOrProvision _ _)

theorem scan_slots (h : OneKind settings config) (limit : Nat) :
    KeepsToSlots settings config (scanEmbedded settings config limit) := by
  have hslot := usesSlot_outer h
  unfold scanEmbedded
  by_cases hprotocol : config.protocolOf = .masque
  · rw [if_neg (not_not.2 hprotocol)]
    rw [hprotocol] at hslot ⊢
    refine keepsToSlots_load hslot fun held => Searches.keepsToSlots ?_
    exact (searches_attemptEch.bind fun _ => searches_result _).bind fun _ => searches_scanGateways _ _ _
  · rw [if_pos hprotocol]
    rw [h.family hprotocol] at hslot
    refine keepsToSlots_load hslot fun held => Searches.keepsToSlots ?_
    cases localIpv4 held with
    | none => exact searches_result _
    | some ipv4 => exact searches_scanWgEndpoints _ _ _

theorem test_slots (h : OneKind settings config) :
    KeepsToSlots settings config (testEmbeddedPeer settings config) := by
  have hslot := usesSlot_outer h
  unfold testEmbeddedPeer
  cases config.peer with
  | none => exact Searches.keepsToSlots (searches_result _)
  | some peer =>
      dsimp only
      by_cases hprotocol : config.protocolOf = .masque
      · rw [if_neg (not_not.2 hprotocol)]
        rw [hprotocol] at hslot ⊢
        refine keepsToSlots_load hslot fun held => Searches.keepsToSlots ?_
        refine Searches.bind (searches_attemptEch.bind fun _ => ?_) fun _ => ?_
        · exact (searches_verify _).bind fun _ => searches_result _
        · exact (searches_result _).bind fun _ => searches_result (.ok _)
      · rw [if_pos hprotocol]
        rw [h.family hprotocol] at hslot
        exact keepsToSlots_load hslot fun held => (searches_testProfiles _ _).keepsToSlots

theorem provision_slots (h : OneKind settings config) :
    KeepsToSlots settings config (provisionEmbedded config) := by
  have hslot := usesSlot_outer h
  have hdone : ∀ ids : List Text, KeepsToSlots settings config (pure ids) := fun _ =>
    Searches.keepsToSlots (searches_result _)
  unfold provisionEmbedded
  cases hprotocol : config.protocolOf with
  | masque =>
      rw [hprotocol] at hslot
      exact keepsToSlots_load hslot fun held => hdone _
  | wireGuard =>
      rw [hprotocol] at hslot
      exact keepsToSlots_load hslot fun held => hdone _
  | warpInWarp =>
      rw [hprotocol] at hslot
      refine keepsToSlots_load hslot fun held => ?_
      exact keepsToSlots_load (usesSlot_secondary hprotocol) fun second => hdone _
  | masqueInMasque => exact absurd hprotocol h.single

/-- **Where the configuration is of one kind, scanning, testing and preparing agree.** -/
theorem OneKind.agree (h : OneKind settings config) : Agree settings config where
  scan _ _ _ hscan _ hr := scan_usable h hscan hr
  test _ _ htest := test_usable h htest
  dead _ _ _ hpeer htest := test_dead h.single hpeer htest
  scanSlots limit := scan_slots h limit
  testSlots := test_slots h
  provisionSlots := provision_slots h

/-! ## Where they disagree -/

section Only

variable {ech : Option ECHConfigList} {passes : List Check} {mode : ScanMode}

theorem outcome_effectiveIp_only {turns : List Turn} (ip : IpScan) :
    outcome (Answers.only ech passes turns) (effectiveIp ip) = .ok ip := by
  unfold effectiveIp
  by_cases hv6 : ip.wantV6 = true
  · rw [if_pos hv6]
    rfl
  · rw [if_neg hv6]
    rfl

/-- One probe that ends well is a scan that reports one address. -/
theorem scanGateways_only {p : MasqueProbe} (h : verifyOne settings p mode peer ∈ passes) :
    outcome (Answers.only ech passes [.ended peer]) (scanGateways settings p mode 1) = .ok [⟨peer, 0⟩] := by
  refine outcome_bind_ok.2 ⟨p.ip, outcome_effectiveIp_only _, ?_⟩
  refine outcome_bind_ok.2 ⟨[.ended peer], rfl, ?_⟩
  refine outcome_bind_ok.2 ⟨.ok 0, ?_, ?_⟩
  · rw [outcome_verify, only_verified h]
  · -- The one result is as many as were asked for.
    dsimp only
    rw [if_pos (.inl ⟨by simp [knows], by simp [scanned, knows, sortByRtt]⟩)]
    simp [scanResults, scanned, knows, sortByRtt]

theorem verifyOneWg_only {p : WgProbe} {turns : List Turn} (hcheck : wgCheck p mode peer ∈ passes)
    (hping : ⟨.wg p.aethernoize, p.held, peer, true, 10000⟩ ∈ passes) :
    outcome (Answers.only ech passes turns) (verifyOneWg p mode peer) = .ok (.ok 0) := by
  refine outcome_bind_ok.2 ⟨.ok 0, ?_, ?_⟩
  · rw [outcome_verify, only_verified hcheck]
  · by_cases hmode : mode = .ironclad
    · dsimp only
      rw [if_pos hmode, outcome_verify, only_verified hping]
    · dsimp only
      rw [if_neg hmode]
      rfl

theorem scanWgEndpoints_only {p : WgProbe} (hcheck : wgCheck p mode peer ∈ passes)
    (hping : ⟨.wg p.aethernoize, p.held, peer, true, 10000⟩ ∈ passes) :
    outcome (Answers.only ech passes [.ended peer]) (scanWgEndpoints p mode 1) = .ok [⟨peer, 0⟩] := by
  refine outcome_bind_ok.2 ⟨p.ip, outcome_effectiveIp_only _, ?_⟩
  refine outcome_bind_ok.2 ⟨[.ended peer], rfl, ?_⟩
  refine outcome_bind_ok.2 ⟨[⟨peer, 0⟩], ?_, rfl⟩
  exact outcome_bind_ok.2 ⟨.ok 0, verifyOneWg_only hcheck hping, rfl⟩

end Only

/-- What accepts a pinned MASQUE edge is the check that `masqueCheck` names. -/
theorem AcceptsBy.masque {d : Check} (h : AcceptsBy answers settings config peer d)
    (hfamily : familyOf config.protocolOf = .masque) :
    (settings.echRequired → (answers.ech settings).isSome) ∧
      ∃ held, d = masqueCheck settings held (answers.ech settings) peer := by
  obtain ⟨prepared, hprepared⟩ := h
  have hfamily' : familyOf (pinned config peer).protocolOf = .masque := hfamily
  obtain ⟨hpolicy, identity, -, hcheck⟩ := prepareEmbedded_masque_ok hfamily' rfl rfl hprepared
  exact ⟨hpolicy, _, (passing_passes hcheck).symm⟩

/-- **The nested MASQUE tunnel is scanned over WireGuard**, and verified over MASQUE. -/
theorem not_agree_of_masqueInMasque (hprotocol : config.protocolOf = .masqueInMasque) :
    ¬ Agree settings config := by
  intro h
  obtain ⟨p, hp⟩ : ∃ p : WgProbe, p = ⟨⟨.wireguard, .masque, sampleIdentity⟩, settings.aethernoizeConfig,
    .parse config.ipScan, []⟩ := ⟨_, rfl⟩
  obtain ⟨passes, hpasses⟩ : ∃ passes : List Check,
    passes = [wgCheck p (.parse config.scanMode) sampleEndpoint,
      ⟨.wg p.aethernoize, p.held, sampleEndpoint, true, 10000⟩] := ⟨_, rfl⟩
  have hscan : outcome (Answers.only none passes [.ended sampleEndpoint]) (scanEmbedded settings config 1) =
      .ok [⟨sampleEndpoint, 0⟩] := by
    unfold scanEmbedded scanEmbeddedWg
    rw [hprotocol, if_pos (by decide)]
    refine outcome_bind_ok.2 ⟨⟨.wireguard, .masque, sampleIdentity⟩, rfl, ?_⟩
    rw [localIpv4_sample, ← hp]
    exact scanWgEndpoints_only (by simp [hpasses]) (by simp [hpasses])
  obtain ⟨c, d, -, hc, hsame, haccepts⟩ := h.scan _ 1 _ hscan _ (List.mem_singleton.2 rfl)
  obtain ⟨-, held, rfl⟩ := haccepts.masque (by rw [hprotocol]; rfl)
  -- What has passed is a WireGuard exchange, and what is asked for is not.
  have hwireguard : c.wire = .wg p.aethernoize := by
    have hin := only_passes hc
    rw [hpasses, List.mem_pair] at hin
    rcases hin with rfl | rfl <;> rfl
  have hwire := hwireguard.symm.trans hsame.wire
  unfold masqueCheck at hwire
  split_ifs at hwire

theorem exists_ne_endpoint (o : SocketAddr) : ∃ peer : SocketAddr, peer ≠ o := by
  by_cases h : sampleEndpoint = o
  · exact ⟨{ sampleEndpoint with port := 443 }, fun heq => by cases h.trans heq.symm⟩
  · exact ⟨sampleEndpoint, h⟩

/-- What a scan of one MASQUE hop that reports an address leads to, whatever ECH configuration the network
has. -/
theorem Agree.masque (h : Agree settings config) (hprotocol : config.protocolOf = .masque)
    (ech : Option ECHConfigList) (peer : SocketAddr) :
    let attempt := (Answers.only ech [] []).ech settings
    (settings.echRequired → attempt.isSome) ∧
      ∃ p : MasqueProbe, p.echConfigList = attempt ∧ ∃ held,
        (verifyOne settings p (.parse config.scanMode) peer).Same (masqueCheck settings held attempt peer) := by
  intro attempt
  -- the one probe of the scan, with what the attempt got
  obtain ⟨p, hp⟩ : ∃ p : MasqueProbe, p = ⟨⟨.masque, .masque, sampleIdentity⟩, attempt,
    settings.noizeConfig, .parse config.ipScan⟩ := ⟨_, rfl⟩
  obtain ⟨passed, hpassed⟩ : ∃ passed : Check,
    passed = verifyOne settings p (.parse config.scanMode) peer := ⟨_, rfl⟩
  -- the network passes the one check of the scan, so the address is reported
  have hscan : outcome (Answers.only ech [passed] [.ended peer]) (scanEmbedded settings config 1) =
      .ok [⟨peer, 0⟩] := by
    unfold scanEmbedded
    rw [hprotocol, if_neg (by decide)]
    refine outcome_bind_ok.2 ⟨⟨.masque, .masque, sampleIdentity⟩, rfl, ?_⟩
    refine outcome_bind_ok.2 ⟨p, ?_, scanGateways_only (List.mem_singleton.2 hpassed.symm)⟩
    rw [outcome_masqueProbe, hp]
    rfl
  -- what was reported is accepted, and so the preparation makes the same check
  obtain ⟨c, d, -, hc, hsame, haccepts⟩ := h.scan _ 1 _ hscan _ (List.mem_singleton.2 rfl)
  obtain ⟨hpolicy, held, rfl⟩ := haccepts.masque (by rw [hprotocol]; rfl)
  obtain rfl := List.mem_singleton.1 (only_passes hc)
  exact ⟨hpolicy, p, by rw [hp], held, hpassed ▸ hsame⟩

/-- Without an answer of the network, an attempt gets only what is certain. -/
theorem certain_of_isSome (h : ((Answers.only none [] []).ech settings).isSome) : settings.echCertain := by
  unfold Answers.ech at h
  unfold Settings.echCertain
  -- over H2 there is no attempt; over H3 what is held counts, then what can be fetched
  cases hh2 : settings.h2Enabled with
  | true =>
      rw [hh2] at h
      cases h
  | false =>
      rw [hh2, if_neg Bool.false_ne_true] at h
      cases hheld : settings.heldEch with
      | some held =>
          rw [hheld] at h
          exact h
      | none =>
          rw [hheld] at h
          cases hfetched : settings.echFetched with
          | true =>
              simp only [hfetched, if_true] at h
              cases h
          | false =>
              simp only [hfetched, Bool.false_eq_true, if_false] at h
              exact h

/-- With one, it gets whatever is possible. -/
theorem possible_isSome (h : settings.echPossible) : ((Answers.only (some []) [] []).ech settings).isSome := by
  unfold Settings.echPossible at h
  unfold Answers.ech
  cases hh2 : settings.h2Enabled with
  | true =>
      rw [hh2] at h
      cases h
  | false =>
      rw [if_neg Bool.false_ne_true]
      cases hheld : settings.heldEch with
      | some held =>
          rw [hh2, hheld] at h
          exact h
      | none =>
          rw [hh2, hheld] at h
          cases hfetched : settings.echFetched with
          | true => rfl
          | false =>
              rw [hfetched] at h
              simp only [Bool.false_eq_true, if_false]
              exact h

theorem Agree.oneKind (h : Agree settings config) : OneKind settings config := by
  refine ⟨fun hprotocol => not_agree_of_masqueInMasque hprotocol h, fun hprotocol hrequired => ?_,
    fun hprotocol hmode => ?_, fun hprotocol hh2 => or_iff_not_imp_right.2 fun hmode => ?_⟩
  · exact certain_of_isSome ((h.masque hprotocol none sampleEndpoint).1 hrequired)
  · -- a scan that leaves a configuration out is not what a preparation does with it
    by_contra hpossible
    have hpossible : settings.echPossible = true := Bool.not_eq_false _ ▸ hpossible
    have hh2 : settings.h2Enabled = false := by
      simp only [Settings.echPossible, Bool.and_eq_true, Bool.not_eq_true'] at hpossible
      exact hpossible.1
    obtain ⟨-, p, -, held, hsame⟩ := h.masque hprotocol (some []) sampleEndpoint
    have hwire := hsame.wire
    simp only [verifyOne, masqueHttpPing, masqueCheck, hmode, hh2, if_true, Bool.false_eq_true, if_false,
      Wire.h3.injEq] at hwire
    have hsome := possible_isSome hpossible
    rw [← hwire.2] at hsome
    cases hsome
  · -- An edge of its own is not the one that is tried.
    -- the scan passes at the address itself, the preparation goes to the override
    cases hoverride : settings.h2Override with
    | none => rfl
    | some o =>
        obtain ⟨peer, hne⟩ := exists_ne_endpoint o
        obtain ⟨-, p, -, held, hsame⟩ := h.masque hprotocol none peer
        have hdial := hsame.dial
        simp only [verifyOne, masqueCheck, hmode, hh2, if_true, if_false, Settings.h2Peer, hoverride,
          Option.getD_some] at hdial
        exact absurd hdial hne

end Proofs

/-- **Scanning, testing and preparing mean the same endpoint exactly where a configuration is of one
kind.** -/
theorem agree_iff (settings : Settings) (config : EmbeddedConfig) :
    Agree settings config ↔ OneKind settings config :=
  ⟨Agree.oneKind, OneKind.agree⟩

/-- The nested MASQUE tunnel, as the app asks for it. -/
def nestedMasque : EmbeddedConfig where
  configPath := "/data/aether.toml".toList
  listen := (.new (.v4 (IpAddr.quad 127 0 0 1)) 1819)
  access := ⟨none⟩
  peer := none
  peerFallback := false
  scanMode := "balanced".toList
  ipScan := "v4".toList
  protocol := "mim".toList

/-- The addresses that a scan lists for it have answered over WireGuard. -/
theorem nestedMasque_disagrees : ¬ Agree {} nestedMasque :=
  not_agree_of_masqueInMasque (by decide)

end Engine
end AuroraVpn
