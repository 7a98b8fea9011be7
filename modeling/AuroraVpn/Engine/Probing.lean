import AuroraVpn.Engine.Calls
import Mathlib.Data.List.Sort

/-!
# Probing — verifications, scans and hunts

`prober.rs` and `wg_prober.rs`, and the functions of `lib.rs` that put one address to the test.  The
probes of a scan run side by side; here they stand in the order in which they end, which is the
network's (`Turn`).

* `verifyMasquePeer`, `verifyWgPeer`: one address.
* `scanGateways`, `scanWgEndpoints`: the lists that a user picks from.
* `huntMasquePeer`, `huntWgPeer`: one address that a connection is made to.
-/

namespace AuroraVpn
namespace Engine

open Account (Slot Family)
open Program (Uses)

/-! ## One address -/

/-- `identity.ipv4.parse()`. -/
def localIpv4 (held : Held) : Option IpAddr :=
  match parseIpAddr held.identity.ipv4 with
  | some (.v4 octets) => some (.v4 octets)
  | _ => none

/-- `verify_endpoint`, which begins with the address of the account. -/
def verifyEndpoint (held : Held) (peer : SocketAddr) (profile : Text) (timeoutMs : Nat) :
    Task (Except AetherError Nat) :=
  match localIpv4 held with
  | none => pure (.error (.other "invalid ipv4"))
  | some _ => verify ⟨.wg profile, held, peer, false, timeoutMs⟩

def verifyWgPeer (held : Held) (peer : SocketAddr) (profile : Text) : Task (Except AetherError Nat) :=
  verifyEndpoint held peer profile 8000

/-- What `verify_masque_peer` puts to the test. -/
def masqueCheck (settings : Settings) (held : Held) (ech : Option ECHConfigList) (peer : SocketAddr) :
    Check :=
  if settings.h2Enabled then ⟨.h2, held, settings.h2Peer peer, false, 5000⟩
  else ⟨.h3 settings.noizeConfig ech, held, peer, false, 5000⟩

def validationFailed (settings : Settings) (error : AetherError) : AetherError :=
  .other ((if settings.h2Enabled then "HTTP/2" else "HTTP/3") ++ " endpoint validation failed: " ++
    error.display)

def verifyMasquePeer (settings : Settings) (held : Held) (peer : SocketAddr) :
    Task (Except AetherError Nat) := do
  let ech ← attemptEch settings
  let r ← verify (masqueCheck settings held ech peer)
  pure (r.mapError (validationFailed settings))

def quickVerifyMasquePeer (settings : Settings) (held : Held) (peer : SocketAddr) : Task Bool := do
  let r ← verifyMasquePeer settings held peer
  pure r.toOption.isSome

/-! ## Probes -/

structure MasqueProbe where
  held : Held
  echConfigList : Option ECHConfigList
  noize : Text
  ip : IpScan

def masqueProbe (settings : Settings) (held : Held) (ip : IpScan) : Task MasqueProbe := do
  let ech ← attemptEch settings
  pure ⟨held, ech, settings.noizeConfig, ip⟩

/-- `masque_http_ping`. -/
def masqueHttpPing (settings : Settings) (probe : MasqueProbe) (peer : SocketAddr) : Check :=
  if settings.h2Enabled then ⟨.h2, probe.held, settings.h2Peer peer, true, 10000⟩
  else ⟨.h3 probe.noize none, probe.held, peer, true, 10000⟩

/-- What `verify_one` puts to the test. -/
def verifyOne (settings : Settings) (probe : MasqueProbe) (mode : ScanMode) (peer : SocketAddr) : Check :=
  if mode = .ironclad then masqueHttpPing settings probe peer
  else if settings.h2Enabled then ⟨.h2, probe.held, peer, false, mode.strategy.perProbeTimeoutMs⟩
  else ⟨.h3 probe.noize probe.echConfigList, probe.held, peer, false, mode.strategy.perProbeTimeoutMs⟩

structure WgProbe where
  held : Held
  aethernoize : Text
  ip : IpScan
  excluded : List SocketAddr

def wgCheck (probe : WgProbe) (mode : ScanMode) (peer : SocketAddr) : Check :=
  ⟨.wg probe.aethernoize, probe.held, peer, false, mode.wgStrategy.perProbeTimeoutMs⟩

/-- `verify_one_wg`: the session that was verified carries a request, where one is wanted. -/
def verifyOneWg (probe : WgProbe) (mode : ScanMode) (peer : SocketAddr) : Task (Except AetherError Nat) := do
  match ← verify (wgCheck probe mode peer) with
  | .error e => pure (.error e)
  | .ok rtt =>
      if mode = .ironclad then verify ⟨.wg probe.aethernoize, probe.held, peer, true, 10000⟩
      else pure (.ok rtt)

/-- A scan leaves IPv6 out where the host has no route for it. -/
def effectiveIp (ip : IpScan) : Task IpScan := do
  if ip.wantV6 then
    if ← hostHasIpv6 then pure ip
    else if ip.wantV4 then pure .v4
    else throw .noCleanEndpoint
  else
    pure ip

/-! ## Scans -/

def sortByRtt (results : List ProbeResult) : List ProbeResult :=
  results.insertionSort fun a b => a.rtt ≤ b.rtt

def knows (results : List ProbeResult) (peer : SocketAddr) : Bool :=
  results.any fun existing => existing.peer = peer

/-- What a scan holds once a probe has passed. -/
def scanned (results : List ProbeResult) (result : ProbeResult) : List ProbeResult :=
  if knows results result.peer then results else sortByRtt (results ++ [result])

/-- The results of a scan, unless it has been cancelled by then. -/
def scanResults (rest : List Turn) (results : List ProbeResult) : Except AetherError (List ProbeResult) :=
  match rest with
  | .cancelled :: _ => .error (.other "endpoint scan cancelled")
  | _ => if results = [] then .error .noCleanEndpoint else .ok results

/-- The loop of `scan_gateways`. -/
def scanLoop (probe : SocketAddr → Task (Except AetherError Nat)) (limit : Nat) (stopAtFirst : Bool) :
    List Turn → List ProbeResult → Task (List ProbeResult)
  | [], results => orFail (scanResults [] results)
  | .cancelled :: _, _ => throw (.other "endpoint scan cancelled")
  | .timeUp :: rest, results => orFail (scanResults rest results)
  | .ended peer :: rest, results => do
      match ← probe peer with
      | .error _ => scanLoop probe limit stopAtFirst rest results
      | .ok rtt =>
          let next := scanned results ⟨peer, rtt⟩
          if (¬ knows results peer ∧ limit ≤ next.length) ∨ stopAtFirst then
            orFail (scanResults rest next)
          else
            scanLoop probe limit stopAtFirst rest next

def scanGateways (settings : Settings) (probe : MasqueProbe) (mode : ScanMode) (limit : Nat) :
    Task (List ProbeResult) := do
  let ip ← effectiveIp probe.ip
  let turns ← course .masque mode ip []
  scanLoop (fun peer => verify (verifyOne settings probe mode peer)) (max 1 (min limit 16))
    (mode.strategy.quietAfterFirstMs = 0) turns []

/-- The loop of `scan_wg_endpoints`. -/
def scanWgLoop (probe : SocketAddr → Task (Except AetherError Nat)) (limit : Nat) :
    List Turn → List ProbeResult → Task (List ProbeResult)
  | [], found => pure found
  | .timeUp :: _, found => pure found
  | .cancelled :: _, found => pure found
  | .ended peer :: rest, found =>
      if 0 < limit ∧ limit ≤ found.length then pure found
      else do
        match ← probe peer with
        | .error _ => scanWgLoop probe limit rest found
        | .ok rtt => scanWgLoop probe limit rest (found ++ [⟨peer, rtt⟩])

def scanWgEndpoints (probe : WgProbe) (mode : ScanMode) (limit : Nat) : Task (List ProbeResult) := do
  let ip ← effectiveIp probe.ip
  let turns ← course .wireguard mode ip probe.excluded
  let found ← scanWgLoop (verifyOneWg probe mode) limit turns []
  if found = [] then throw .noCleanEndpoint else pure (sortByRtt found)

/-! ## Hunts -/

/-- Why a probe produced no gateway. -/
inductive ProbeFailure
  | noAnswer
  | refused
  | pinMismatch
  | tlsRejected
  | connectIpRefused
  | noDataPlane
  | other
  deriving DecidableEq, Repr

def contains (text : Text) (needle : String) : Bool :=
  needle.toList <:+: text

namespace ProbeFailure

/-- The kinds, in their order. -/
def all : List ProbeFailure :=
  [.noAnswer, .refused, .pinMismatch, .tlsRejected, .connectIpRefused, .noDataPlane, .other]

def label : ProbeFailure → String
  | .noAnswer => "no answer"
  | .refused => "refused"
  | .pinMismatch => "certificate not ours"
  | .tlsRejected => "tls refused"
  | .connectIpRefused => "connect-ip refused"
  | .noDataPlane => "opened, carried nothing"
  | .other => "other"

/-- Whether every address would fail this way. -/
def isCommonMode : ProbeFailure → Bool
  | .pinMismatch | .connectIpRefused => true
  | _ => false

/-- The kinds that only the message tells apart. -/
def ofText (text : Text) : ProbeFailure :=
  if contains text "connect-ip status" then .connectIpRefused
  else if contains text "before data-plane" || contains text "carried anything" then .noDataPlane
  else if contains text "timed out" || contains text "deadline" then .noAnswer
  else if contains text "refused" then .refused
  else .other

def of (error : AetherError) : ProbeFailure :=
  let text := error.display.toList.map Char.toLower
  match error with
  | .tls _ => if contains text "application verification" then .pinMismatch else .tlsRejected
  | .io .connectionRefused => .refused
  | .io .timedOut => .noAnswer
  | _ => ofText text

end ProbeFailure

def COMMON_MODE_SAMPLE : Nat := 40

structure FailureTally where
  counts : ProbeFailure → Nat := fun _ => 0
  total : Nat := 0

namespace FailureTally

def record (tally : FailureTally) (kind : ProbeFailure) : FailureTally where
  counts := Function.update tally.counts kind (tally.counts kind + 1)
  total := tally.total + 1

/-- The kind that nine tenths of a sample failed with, if it is one for which the address does not
matter. -/
def commonMode (tally : FailureTally) : Option (ProbeFailure × Nat) :=
  if tally.total < COMMON_MODE_SAMPLE then none
  else
    (ProbeFailure.all.find? fun kind => kind.isCommonMode && tally.total * 9 ≤ tally.counts kind * 10).map
      fun kind => (kind, tally.counts kind)

end FailureTally

/-- The error of a hunt that one answer has stopped. -/
def sameAnswer (kind : ProbeFailure) : AetherError :=
  .other ("every gateway answered the same way (" ++ kind.label ++
    "); this is not the                                      network")

def huntResult : Option ProbeResult → Except AetherError ProbeResult
  | some pr => .ok pr
  | none => .error .noCleanEndpoint

/-- The loop of `hunt_best_gateway`, and of `hunt_wg_endpoints` where one endpoint is wanted; that one
does not look for a common failure. -/
def huntLoop (st : Strategy) (commonMode : FailureTally → Option (ProbeFailure × Nat))
    (probe : SocketAddr → Task (Except AetherError Nat)) :
    List Turn → Option ProbeResult → Nat → FailureTally → Task ProbeResult
  | [], best, _, _ => orFail (huntResult best)
  | .timeUp :: _, best, _, _ => orFail (huntResult best)
  -- Nothing cancels a hunt.
  | .cancelled :: rest, best, found, tally => huntLoop st commonMode probe rest best found tally
  | .ended peer :: rest, best, found, tally => do
      match ← probe peer with
      | .error error =>
          let tally := tally.record (.of error)
          match best, commonMode tally with
          | none, some (kind, _) =>
              throw (sameAnswer kind)
          | _, _ => huntLoop st commonMode probe rest best found tally
      | .ok rtt =>
          if st.earlyExitFirst then pure ⟨peer, rtt⟩
          else
            let next : ProbeResult :=
              match best with
              | some current => if current.rtt ≤ rtt then current else ⟨peer, rtt⟩
              | none => ⟨peer, rtt⟩
            if 0 < st.targetSuccesses ∧ st.targetSuccesses ≤ found + 1 ∧ st.quietAfterFirstMs = 0 then
              pure next
            else huntLoop st commonMode probe rest (some next) (found + 1) tally

def huntBestGateway (settings : Settings) (probe : MasqueProbe) (mode : ScanMode) : Task ProbeResult := do
  let ip ← effectiveIp probe.ip
  let turns ← course .masque mode ip []
  huntLoop mode.strategy FailureTally.commonMode
    (fun peer => verify (verifyOne settings probe mode peer)) turns none 0 {}

def huntMasquePeer (settings : Settings) (held : Held) (mode : Text) (ip : IpScan) : Task SocketAddr := do
  let probe ← masqueProbe settings held ip
  let best ← huntBestGateway settings probe (.parse mode)
  pure best.peer

def huntBestWgEndpoint (probe : WgProbe) (mode : ScanMode) : Task ProbeResult := do
  let ip ← effectiveIp probe.ip
  let turns ← course .wireguard mode ip probe.excluded
  huntLoop mode.wgStrategy (fun _ => none) (verifyOneWg probe mode) turns none 0 {}

def huntWgPeerWithProfile (held : Held) (mode : Text) (ip : IpScan) (profile : Text)
    (excluded : List SocketAddr) : Task SocketAddr := do
  match localIpv4 held with
  | none => throw (.other "invalid ipv4")
  | some _ =>
      let best ← huntBestWgEndpoint ⟨held, profile, ip, excluded⟩ (.parse mode)
      pure best.peer

/-- The loop of `hunt_wg_anchors`. -/
def anchorLoop (held : Held) : List (Text × SocketAddr) → Task (Option (SocketAddr × Text))
  | [] => pure none
  | (profile, peer) :: rest => do
      match ← verify ⟨.wg profile, held, peer, false, 3000⟩ with
      | .ok _ => pure (some (peer, profile))
      | .error _ => anchorLoop held rest

def huntWgAnchors (held : Held) (candidates : List Text) (ip : IpScan) :
    Task (Option (SocketAddr × Text)) := do
  match localIpv4 held with
  | none => pure none
  | some _ => anchorLoop held (← anchors ip candidates)

def noWireguardEndpoint : AetherError :=
  .other "no WireGuard endpoint answered on this network. WireGuard needs UDP, which some networks block entirely -- MASQUE H2 runs over TCP and works where it does."

/-- `hunt_wg_peer_sweep`.  A sweep that is cut off ends as one in which nothing more answers does. -/
def huntWgPeerSweep (held : Held) (mode : Text) (ip : IpScan) (excluded : List SocketAddr) :
    List Text → Task (SocketAddr × Text)
  | [] => throw noWireguardEndpoint
  | profile :: rest =>
      tryCatch
        (do
          let peer ← huntWgPeerWithProfile held mode ip profile excluded
          pure (peer, profile))
        fun _ => huntWgPeerSweep held mode ip excluded rest

def huntWgPeer (held : Held) (candidates : List Text) (mode : Text) (ip : IpScan)
    (excluded : List SocketAddr) : Task (SocketAddr × Text) := do
  match ← huntWgAnchors held candidates ip with
  | some found => pure found
  | none => huntWgPeerSweep held mode ip excluded candidates

/-! ## What a search asks for -/

def Call.IsSearch : Call → Prop
  | .fetchEch | .verify _ | .hostHasIpv6 | .course _ _ _ _ | .anchors _ _ | .deviceEndpoint _ => True
  | _ => False

/-- A program that only looks for an endpoint. -/
def Searches {α : Type} (p : Task α) : Prop :=
  Uses (I := engine) Call.IsSearch p.run

section Searches

variable {α β : Type} {settings : Settings} {held : Held} {peer : SocketAddr}
  {probe : SocketAddr → Task (Except AetherError Nat)}

theorem Searches.bind {p : Task α} {f : α → Task β} (hp : Searches p) (hf : ∀ a, Searches (f a)) :
    Searches (p >>= f) :=
  Uses.bind_except hp hf

theorem searches_result (r : Except AetherError α) : Searches (ExceptT.mk (pure r)) :=
  Program.uses_ok r

theorem searches_ask {c : Call} (h : c.IsSearch) : Searches (ask c) :=
  Program.uses_ask h

theorem searches_attemptEch : Searches (attemptEch settings) := by
  unfold attemptEch resolveEch
  split_ifs
  · exact searches_result _
  · cases settings.heldEch with
    | some held => exact searches_result _
    | none => exact searches_ask trivial
  · cases settings.heldEch with
    | some held => exact searches_result _
    | none => exact searches_result _

theorem searches_verify (check : Check) : Searches (verify check) :=
  searches_ask trivial

theorem searches_hostHasIpv6 : Searches hostHasIpv6 :=
  searches_ask trivial

theorem searches_course (family : Family) (mode : ScanMode) (ip : IpScan) (excluded : List SocketAddr) :
    Searches (course family mode ip excluded) :=
  searches_ask trivial

theorem searches_verifyEndpoint (profile : Text) (timeoutMs : Nat) :
    Searches (verifyEndpoint held peer profile timeoutMs) := by
  unfold verifyEndpoint
  cases localIpv4 held with
  | none => exact searches_result _
  | some ipv4 => exact searches_verify _

theorem searches_verifyWgPeer (profile : Text) : Searches (verifyWgPeer held peer profile) :=
  searches_verifyEndpoint profile 8000

theorem searches_verifyOneWg (p : WgProbe) (mode : ScanMode) (peer : SocketAddr) :
    Searches (verifyOneWg p mode peer) := by
  refine (searches_verify _).bind fun answer => ?_
  cases answer with
  | error e => exact searches_result _
  | ok rtt =>
      dsimp only
      split_ifs
      · exact searches_verify _
      · exact searches_result _

theorem searches_effectiveIp (ip : IpScan) : Searches (effectiveIp ip) := by
  unfold effectiveIp
  by_cases hv6 : ip.wantV6 = true
  · rw [if_pos hv6]
    refine searches_hostHasIpv6.bind fun found => ?_
    split_ifs <;> exact searches_result _
  · rw [if_neg hv6]
    exact searches_result _

/-! ### Scans -/

theorem searches_scanLoop (hprobe : ∀ peer, Searches (probe peer)) {limit : Nat} {stopAtFirst : Bool}
    (turns : List Turn) (results : List ProbeResult) :
    Searches (scanLoop probe limit stopAtFirst turns results) := by
  induction turns generalizing results with
  | nil => exact searches_result _
  | cons turn rest ih =>
      cases turn with
      | cancelled => exact searches_result _
      | timeUp => exact searches_result _
      | ended peer =>
          refine (hprobe peer).bind fun answer => ?_
          cases answer with
          | error e => exact ih results
          | ok rtt =>
              dsimp only
              split_ifs
              · exact searches_result _
              · exact ih _

theorem searches_scanGateways (p : MasqueProbe) (mode : ScanMode) (limit : Nat) :
    Searches (scanGateways settings p mode limit) :=
  (searches_effectiveIp _).bind fun _ => (searches_course _ _ _ _).bind fun _ =>
    searches_scanLoop (fun _ => searches_verify _) _ _

theorem searches_scanWgLoop (hprobe : ∀ peer, Searches (probe peer)) {limit : Nat} (turns : List Turn)
    (found : List ProbeResult) : Searches (scanWgLoop probe limit turns found) := by
  induction turns generalizing found with
  | nil => exact searches_result _
  | cons turn rest ih =>
      cases turn with
      | cancelled => exact searches_result _
      | timeUp => exact searches_result _
      | ended peer =>
          rw [scanWgLoop]
          split_ifs
          · exact searches_result _
          · refine (hprobe peer).bind fun answer => ?_
            cases answer with
            | error e => exact ih found
            | ok rtt => exact ih _

theorem searches_scanWgEndpoints (p : WgProbe) (mode : ScanMode) (limit : Nat) :
    Searches (scanWgEndpoints p mode limit) := by
  refine (searches_effectiveIp _).bind fun _ => (searches_course _ _ _ _).bind fun _ => ?_
  refine (searches_scanWgLoop (fun _ => searches_verifyOneWg _ _ _) _ _).bind fun found => ?_
  split_ifs <;> exact searches_result _

/-! ### Hunts -/

end Searches

end Engine
end AuroraVpn
