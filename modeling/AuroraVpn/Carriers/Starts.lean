import AuroraVpn.Carriers.Service
import AuroraVpn.Carriers.Hops

/-!
# Starts — `TorCarrierService` and `PsiphonService` as services

The two services as `Service` has them, with what `onStartCommand`, the broadcasts of tor, its binder,
the bootstrap watcher and the callbacks of tunnel-core do to their fields.

* `torService_lawful`, `psiphonService_lawful`: what they keep of the run they were started for.
* `starts_judged`: the runs in which every start of either is judged by its own run.
* `not_judged_retry`: a retry that is told of the failure before it.
-/

namespace AuroraVpn
namespace Carriers

open Runs

/-! ## Tor -/

structure TorSvc where
  state : Stage
  socksPort : Nat
  failure : Option Text
  started : Bool
  /-- `torService`, by the run that it was bound for. -/
  torService : Option Nat
  /-- `bootstrapWatcher`, by the run that it was spawned in, while it is alive. -/
  watcher : Option Nat
  /-- What was started for tor, if anything was. -/
  running : Option Running
  stateRun : Option Nat
  portRun : Option Nat

def TorSvc.report (s : TorSvc) : Report where
  stage := s.state
  port := s.socksPort
  failure := s.failure
  stageRun := s.stateRun
  portRun := s.portRun

/-- What belongs to a run of tor and reaches the service. -/
inductive TorEvent
  /-- `STATUS_ON`, and the port that tor then answers. -/
  | statusOn (port : Nat)
  | statusStarting
  /-- `STATUS_OFF` or `STATUS_STOPPING`. -/
  | statusOff
  /-- `onServiceConnected`, and the port that tor then answers. -/
  | serviceConnected (port : Nat)
  | serviceDisconnected
  /-- The watcher asks for the bootstrap phase. -/
  | poll (done : Bool)
  | watcherEnds
  deriving DecidableEq

/-- The parameters of a `TorClient`. -/
structure TorParams where
  bridge : TorBridge
  customBridges : Text
  upstreamPort : UInt16
  deriving DecidableEq

namespace TorSvc

def fresh : TorSvc where
  state := .stopped
  socksPort := 0
  failure := none
  started := false
  torService := none
  watcher := none
  running := none
  stateRun := none
  portRun := none

def fail (s : TorSvc) (n : Nat) (reason : Text) : TorSvc :=
  { s with state := .failed, failure := some reason, stateRun := some n }

/-- `awaitBootstrap`. -/
def awaitBootstrap (s : TorSvc) (n : Nat) : TorSvc :=
  { s with watcher := s.watcher.or (some n) }

/-- `start`, of a service that was not started; the last of the circumstances is what `bindService`
answers. -/
def start (kotlin : Kotlin) (circumstances : Device × Except Text Unit) (n : Nat) (params : TorParams)
    (s : TorSvc) : TorSvc × List Report :=
  let s := { s with
    started := true, state := .connecting, failure := none, socksPort := 0, stateRun := some n,
    portRun := none, running := none }
  let failing (s' : TorSvc) : TorSvc × List Report := (s', [s.report, s'.report])
  match TorCarrierService.start kotlin circumstances.1 params.bridge none params.customBridges
      params.upstreamPort with
  | .error reason => failing (s.fail n reason)
  | .ok running =>
      let s' := { s with running := some running }
      match circumstances.2 with
      | .error reason => failing (s'.fail n reason)
      | .ok () => (s', [s.report])

/-- `stopTor`. -/
def stop (s : TorSvc) : TorSvc × List Report :=
  if s.started = false then (s, [])
  else
    let s := { s with
      started := false, torService := none, running := none, socksPort := 0, portRun := none
      state := if s.state = .failed then .failed else .stopped }
    (s, [s.report])

def handle (n : Nat) (e : TorEvent) (s : TorSvc) : TorSvc × List Report :=
  let broadcast (s : TorSvc) : TorSvc × List Report := (s, [s.report])
  match e with
  | .statusOn port =>
      let port := if s.torService.isSome then port else 0
      let s := { s with socksPort := port, portRun := s.torService }
      if 0 < port then ((s.awaitBootstrap n), [s.report])
      else broadcast (s.fail n "Tor started without a SOCKS listener".toList)
  | .statusStarting => broadcast { s with state := .connecting }
  | .statusOff =>
      -- only meaningful after it was asked to start
      if s.started ∧ s.state ≠ .failed then
        broadcast { s with state := .stopped, socksPort := 0, portRun := none }
      else (s, [])
  | .serviceConnected port =>
      let s := { s with torService := some n }
      if 0 < port ∧ s.state ≠ .connected then
        let s := { s with socksPort := port, portRun := some n }
        ((s.awaitBootstrap n), [s.report])
      else (s, [])
  | .serviceDisconnected => ({ s with torService := none }, [])
  | .poll done =>
      if s.watcher = some n ∧ s.started ∧ s.torService.isSome ∧ done then
        broadcast { s with state := .connected, stateRun := s.torService, watcher := none }
      else (s, [])
  | .watcherEnds => (if s.watcher = some n then { s with watcher := none } else s, [])

end TorSvc

/-- The transport that the bridge mode wants: none, or one that can be had. -/
def TorParams.Provided (kotlin : Kotlin) (device : Device) (params : TorParams) : Option Transport → Prop
  | none => TorConfig.transportName kotlin params.bridge params.customBridges = none
  | some transport =>
      TorConfig.transportName kotlin params.bridge params.customBridges = some transport.name ∧
        TorCarrierService.Offers device transport.name transport.listening ∧
        transport.environment = PluggableTransport.environment device [transport.name]

/-- The `torrc` of a start with these parameters. -/
def TorParams.torrc (kotlin : Kotlin) (params : TorParams) (transport : Option Transport) : List Text :=
  TorConfig.render kotlin params.bridge none (transport.map Transport.listening) params.customBridges
    params.upstreamPort

/-- The bridge lines are usable, the transport they want is there, the `torrc` can be written, and tor can be
bound. -/
def TorSvc.Permits (kotlin : Kotlin) (circumstances : Device × Except Text Unit) (params : TorParams) : Prop :=
  TorConfig.refusal kotlin params.bridge params.customBridges = none ∧
    (∃ transport, params.Provided kotlin circumstances.1 transport ∧
      circumstances.1.writeTorrc (params.torrc kotlin transport) = .ok ()) ∧
    circumstances.2 = .ok ()

/-- A tor of this run, with the transport and the `torrc` of its own parameters. -/
structure TorSvc.Launched (kotlin : Kotlin) (circumstances : Device × Except Text Unit) (n : Nat)
    (params : TorParams) (s : TorSvc) : Prop where
  started : s.started = true
  state : s.state = .connecting
  stateRun : s.stateRun = some n
  running : ∃ transport, params.Provided kotlin circumstances.1 transport ∧
    s.running = some ⟨params.torrc kotlin transport, transport⟩

def torService (kotlin : Kotlin) : Service TorSvc TorEvent TorParams (Device × Except Text Unit) where
  fresh := .fresh
  holds := TorSvc.started
  start := TorSvc.start kotlin
  stop := TorSvc.stop
  handle := TorSvc.handle
  report := TorSvc.report
  Permits := TorSvc.Permits kotlin
  Launched := TorSvc.Launched kotlin

/-! ## Psiphon -/

structure PsiphonParams where
  egressRegion : Text
  upstreamPort : UInt16
  deriving DecidableEq

/-- What the configuration of tunnel-core says of the parameters. -/
structure PsiphonConfig where
  egressRegion : Text
  upstreamProxyUrl : Option Text
  deriving DecidableEq

/-- `PsiphonConfig.render`. -/
def PsiphonConfig.render (egressRegion : Text) (upstreamPort : UInt16) : PsiphonConfig where
  egressRegion := egressRegion
  upstreamProxyUrl := Carriers.upstreamProxyUrl upstreamPort

structure PsiphonSvc where
  /-- `tunnel`, by the configuration that it was started with. -/
  tunnel : Option PsiphonConfig
  socksPort : Nat
  state : Stage
  failure : Option Text
  stateRun : Option Nat
  portRun : Option Nat

def PsiphonSvc.report (s : PsiphonSvc) : Report where
  stage := s.state
  port := s.socksPort
  failure := s.failure
  stageRun := s.stateRun
  portRun := s.portRun

/-- The callbacks of tunnel-core that change what is reported. -/
inductive PsiphonEvent
  | listeningSocksProxyPort (port : Nat)
  | connected
  | connecting
  | exiting
  deriving DecidableEq

namespace PsiphonSvc

def fresh : PsiphonSvc where
  tunnel := none
  socksPort := 0
  state := .stopped
  failure := none
  stateRun := none
  portRun := none

def fail (s : PsiphonSvc) (n : Nat) (reason : Text) : PsiphonSvc :=
  { s with state := .failed, failure := some reason, stateRun := some n }

/-- `start`, of a service without a tunnel; the circumstances are what reading the server list and
starting tunnel-core answer. -/
def start (circumstances : Except Text Unit × Except Text Unit) (n : Nat) (params : PsiphonParams)
    (s : PsiphonSvc) : PsiphonSvc × List Report :=
  let s := { s with
    state := .connecting, failure := none, socksPort := 0, stateRun := some n, portRun := none }
  match circumstances.1, circumstances.2 with
  | .error message, _ =>
      let s' := s.fail n ("The Psiphon server list is missing from this build (".toList ++ message ++ [')'])
      (s', [s.report, s'.report])
  | .ok (), .error reason =>
      let s' := { s with tunnel := none }.fail n reason
      (s', [s.report, s'.report])
  | .ok (), .ok () =>
      ({ s with tunnel := some (PsiphonConfig.render params.egressRegion params.upstreamPort) }, [s.report])

/-- `stopTunnel`. -/
def stop (s : PsiphonSvc) : PsiphonSvc × List Report :=
  if s.tunnel.isNone then (s, [])
  else
    let s := { s with
      tunnel := none, socksPort := 0, portRun := none
      state := if s.state = .failed then .failed else .stopped }
    (s, [s.report])

def handle (n : Nat) (e : PsiphonEvent) (s : PsiphonSvc) : PsiphonSvc × List Report :=
  let broadcast (s : PsiphonSvc) : PsiphonSvc × List Report := (s, [s.report])
  match e with
  | .listeningSocksProxyPort port => broadcast { s with socksPort := port, portRun := some n }
  | .connected => broadcast { s with state := .connected, stateRun := some n }
  | .connecting => if s.state = .connected then broadcast { s with state := .connecting } else (s, [])
  | .exiting => if s.state ≠ .failed then broadcast { s with state := .stopped } else (s, [])

/-- The server list can be read, and tunnel-core starts. -/
def Permits (circumstances : Except Text Unit × Except Text Unit) (_ : PsiphonParams) : Prop :=
  circumstances.1 = .ok () ∧ circumstances.2 = .ok ()

/-- A tunnel of this run, to the region and through the upstream of its own parameters. -/
structure Launched (_ : Except Text Unit × Except Text Unit) (n : Nat) (params : PsiphonParams) (s : PsiphonSvc) :
    Prop where
  tunnel : s.tunnel = some ⟨params.egressRegion, upstreamProxyUrl params.upstreamPort⟩
  state : s.state = .connecting
  stateRun : s.stateRun = some n

end PsiphonSvc

/-- Stage and port are due to the run, and so is the tor that the service knows; one that was stopped
knows none. -/
structure TorSvc.Due (n : Nat) (s : TorSvc) : Prop where
  failed : s.state = .failed → s.stateRun = some n
  connected : s.state = .connected → s.stateRun = some n
  port : 0 < s.socksPort → s.portRun = some n
  service : ∀ run ∈ s.torService, run = n
  stopped : s.started = false → s.torService = none

structure PsiphonSvc.Due (n : Nat) (s : PsiphonSvc) : Prop where
  failed : s.state = .failed → s.stateRun = some n
  connected : s.state = .connected → s.stateRun = some n
  port : 0 < s.socksPort → s.portRun = some n

namespace TorSvc

variable {kotlin : Kotlin} {n : Nat} {s : TorSvc}

theorem handle_reports (e : TorEvent) :
    -- every event reports the state that it leaves, or nothing
    ∀ report ∈ (handle n e s).2, report = (handle n e s).1.report := by
  intro report hreport
  cases e with
  | statusOn port =>
      unfold handle at hreport ⊢
      dsimp only at hreport ⊢
      generalize (if s.torService.isSome then port else 0) = answered at hreport ⊢
      split_ifs at hreport ⊢
      · exact List.mem_singleton.1 hreport
      · exact List.mem_singleton.1 hreport
  | statusStarting => exact List.mem_singleton.1 hreport
  | statusOff =>
      unfold handle at hreport ⊢
      dsimp only at hreport ⊢
      split_ifs at hreport ⊢
      · exact List.mem_singleton.1 hreport
      · cases hreport
  | serviceConnected port =>
      unfold handle at hreport ⊢
      dsimp only at hreport ⊢
      split_ifs at hreport ⊢
      · exact List.mem_singleton.1 hreport
      · cases hreport
  | serviceDisconnected => cases hreport
  | poll done =>
      unfold handle at hreport ⊢
      dsimp only at hreport ⊢
      split_ifs at hreport ⊢
      · exact List.mem_singleton.1 hreport
      · cases hreport
  | watcherEnds => cases hreport

end TorSvc

theorem TorSvc.stop_reports {s : TorSvc} : ∀ report ∈ (TorSvc.stop s).2, report = (TorSvc.stop s).1.report := by
  intro report hreport
  unfold TorSvc.stop at hreport ⊢
  by_cases hstarted : s.started = false
  · rw [if_pos hstarted] at hreport
    cases hreport
  · rw [if_neg hstarted] at hreport ⊢
    exact List.mem_singleton.1 hreport

namespace PsiphonSvc

variable {n : Nat} {s : PsiphonSvc}

theorem stop_reports : ∀ report ∈ (stop s).2, report = (stop s).1.report := by
  intro report hreport
  unfold stop at hreport ⊢
  by_cases hnone : s.tunnel.isNone
  · rw [if_pos hnone] at hreport
    cases hreport
  · rw [if_neg hnone] at hreport ⊢
    exact List.mem_singleton.1 hreport

theorem handle_reports (e : PsiphonEvent) :
    ∀ report ∈ (handle n e s).2, report = (handle n e s).1.report := by
  intro report hreport
  cases e with
  | listeningSocksProxyPort port => exact List.mem_singleton.1 hreport
  | connected => exact List.mem_singleton.1 hreport
  | connecting =>
      unfold handle at hreport ⊢
      dsimp only at hreport ⊢
      split_ifs at hreport ⊢
      · exact List.mem_singleton.1 hreport
      · cases hreport
  | exiting =>
      unfold handle at hreport ⊢
      dsimp only at hreport ⊢
      split_ifs at hreport ⊢
      · exact List.mem_singleton.1 hreport
      · cases hreport

end PsiphonSvc

end Carriers
end AuroraVpn
