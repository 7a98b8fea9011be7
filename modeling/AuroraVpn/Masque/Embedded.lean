import AuroraVpn.Masque.Candidates
import AuroraVpn.Masque.H2

/-!
# Embedded — a MASQUE tunnel that carries an endpoint of the app

`run_masque_tunnel_embedded` waits for a tunnel to signal `ready` before it takes the endpoint, and
`run_masque_in_masque_embedded` offers the endpoint to one inner edge after the other.  A tunnel is
one of the two event loops (`Quic`, `H2`), over the events there are until the startup period is
over.

* `startup_eq_ok`: the tunnels that end in success before they are ready.
* `carries_iff`: when success means that the endpoint was taken and `ready` signalled.
* `offersAll_iff`: when the endpoint is offered to every candidate up to the first that comes up.
-/

namespace AuroraVpn
namespace Masque
namespace Embedded

open EventLoop

/-! ## The tunnel -/

/-- A task that has been joined: its result, or what it panicked with. -/
abbrev Joined := Except String (Except AetherError Unit)

/-- The events of a tunnel up to the end of its startup period, which may also end in front of the
loop.  The embedded run holds the control
channel and the outbound queue of the tunnel until the tunnel is ready, so that none of them asks
for the close. -/
inductive Tunnel
  | quic (cfg : Quic.TunnelConfig) (setup : Except AetherError Unit) (turns : List Quic.Turn)
      (held : turns.any Quic.Turn.asks = false)
  | h2 (cfg : H2.TunnelConfig) (opening : H2.Opening) (turns : List H2.Turn)
      (held : turns.any H2.Turn.asks = false)
  | panicked (message : String)
  | stuckInFront

namespace Tunnel

/-- `tokio::time::timeout(shape.startup, ready_rx)`, and the task where it has exited. -/
def startup : Tunnel → Await Joined
  | .quic cfg setup turns _ =>
      match setup with
      | .error e => .exited (.ok (.error e))
      | .ok () =>
          (await (Quic.turn cfg) Quic.State.readyFired turns (Quic.init cfg)).map Except.ok
  | .h2 cfg opening turns _ =>
      match opening.outcome with
      | .error e => .exited (.ok (.error e))
      | .ok () => (await (H2.turn cfg) H2.State.readyFired turns (H2.init cfg)).map Except.ok
  | .panicked message => .exited (.error message)
  | .stuckInFront => .timedOut

/-- No event that the tunnel gets to has the edge close it early. -/
def NeverClosesEarly : Tunnel → Prop
  | .quic cfg setup turns _ => Quic.NeverClosesEarly cfg setup turns
  | .h2 cfg opening turns _ => H2.NeverClosesEarly cfg opening turns
  | .panicked _ => True
  | .stuckInFront => True

theorem ok_injective : Function.Injective (Except.ok : Except AetherError Unit → Joined) :=
  fun _ _ h => Except.ok.inj h

/-- **A tunnel that ends in success before it is ready was closed early.** -/
theorem startup_eq_ok (tunnel : Tunnel) :
    tunnel.startup = .exited (.ok (.ok ())) ↔ ¬ tunnel.NeverClosesEarly := by
  cases tunnel with
  -- the two event loops come to the same alternative, each by its own `honest_iff`
  | quic cfg setup turns held =>
      simp only [startup, NeverClosesEarly]
      rw [← Quic.honest_iff]
      cases setup with
      | error e =>
          constructor
          · intro h
            cases h
          · intro dishonest
            exact absurd (fun before t after s s' _ hrun => by cases hrun) dishonest
      | ok u =>
          rw [Await.map_eq_exited ok_injective]
          -- a loop that is past `ready` keeps it, so an early success is one without a ready signal
          exact await_unjustified (fun t s hready => Quic.turn_ready hready) held
  | h2 cfg opening turns held =>
      simp only [startup, NeverClosesEarly]
      rw [← H2.honest_iff]
      cases hopening : opening.outcome with
      | error e =>
          constructor
          · intro h
            cases h
          · intro dishonest
            refine absurd (fun before t after s s' _ hrun => ?_) dishonest
            rw [H2.run, hopening] at hrun
            cases hrun
      | ok u =>
          simp only [H2.Honest, H2.run, hopening]
          rw [Await.map_eq_exited ok_injective]
          exact await_unjustified (fun t s hready => H2.turn_ready hready) held
  | panicked message => simp [startup, NeverClosesEarly]
  | stuckInFront => simp [startup, NeverClosesEarly]

end Tunnel

/-! ## One hop -/

inductive EmbeddedEndpoint
  | socks
  | tun
  deriving DecidableEq, Repr

/-- What the caller lends to a hop: the endpoint, and whether there is a sender for `ready`. -/
structure Offer where
  endpoint : Option EmbeddedEndpoint
  ready : Bool
  signalled : Bool
  deriving DecidableEq, Repr

/-- How a hop that carries the endpoint ends: its endpoint could not be set up, or the tunnel or the
endpoint came to an end. -/
inductive Session
  | failed (e : AetherError)
  | tunnel (joined : Joined)
  | endpoint (joined : Joined)

/-- `embedded_tunnel_result`. -/
def embeddedTunnelResult (joined : Joined) (context : String) : Except AetherError Unit :=
  match joined with
  | .ok (.ok ()) => .ok ()
  | .ok (.error e) => .error (.other (context ++ ": " ++ e.display))
  | .error e => .error (.other (context ++ ": " ++ e))

def Session.result : Session → Except AetherError Unit
  | .failed e => .error e
  | .tunnel joined => embeddedTunnelResult joined "embedded tunnel exited"
  | .endpoint (.ok result) => result
  | .endpoint (.error e) => .error (.other ("embedded endpoint task failed: " ++ e))

/-- `run_masque_tunnel_embedded`. -/
def runMasqueTunnelEmbedded (label : String) (tunnel : Tunnel) (session : Session) (o : Offer) :
    Except AetherError Unit × Offer :=
  match tunnel.startup with
  | .exited joined =>
      (embeddedTunnelResult joined ("[" ++ label ++ "] tunnel exited before validation"), o)
  | .timedOut => (.error (.other ("[" ++ label ++ "] embedded tunnel startup timed out")), o)
  | .ready =>
      match o.endpoint with
      | none => (.error (.other ("[" ++ label ++ "] has no endpoint to carry")), o)
      | some _ => (session.result, ⟨none, false, o.signalled || o.ready⟩)

/-- Success means that the endpoint was taken and `ready` signalled to whoever waits for it. -/
def Carries (label : String) (tunnel : Tunnel) (session : Session) (o : Offer) : Prop :=
  let (result, o') := runMasqueTunnelEmbedded label tunnel session o
  result = .ok () → o.endpoint.isSome ∧ o'.endpoint = none ∧ (o.ready = true → o'.signalled = true)

/-- **Success means a hop that carried the endpoint exactly if the tunnel was not closed early.** -/
theorem carries_iff (label : String) (tunnel : Tunnel) (session : Session) (o : Offer) :
    Carries label tunnel session o ↔ tunnel.NeverClosesEarly := by
  unfold Carries runMasqueTunnelEmbedded
  -- the tunnel ends well before it is ready: this is the early close
  by_cases hearly : tunnel.startup = .exited (.ok (.ok ()))
  · have hclosed := (Tunnel.startup_eq_ok tunnel).1 hearly
    simp only [hearly, hclosed, iff_false]
    -- no endpoint was taken, so nothing can have been carried
    intro carries
    obtain ⟨hsome, hnone, -⟩ := carries rfl
    rw [hnone] at hsome
    cases hsome
  · have hnever : tunnel.NeverClosesEarly :=
      not_not.1 fun hclosed => hearly ((Tunnel.startup_eq_ok tunnel).2 hclosed)
    simp only [hnever, iff_true]
    cases hstartup : tunnel.startup with
    | timedOut => exact nofun
    | exited joined =>
        cases joined with
        | error e => exact nofun
        | ok result =>
            cases result with
            | error e => exact nofun
            | ok u => exact absurd hstartup hearly
    -- ready first: the endpoint is taken, unless another tunnel has it
    | ready =>
        cases hendpoint : o.endpoint with
        | none => exact nofun
        | some endpoint =>
            intro _
            refine ⟨rfl, rfl, fun hready => ?_⟩
            rw [hready]
            exact Bool.or_true _

/-! ## One inner edge after the other -/

/-- What becomes of a candidate: its forwarder, the tunnel through it, and the session. -/
structure Attempt where
  forwarder : Except AetherError Unit
  tunnel : Tunnel
  session : Session

/-- The loop over the candidates, with those that were offered the endpoint. -/
def offer (attempt : SocketAddr → Attempt) :
    List SocketAddr → Option AetherError → Offer → Except AetherError Unit × List SocketAddr × Offer
  | [], last, o =>
      (.error (last.getD (.other "no inner masque edge answered from inside the outer tunnel")), [], o)
  | candidate :: candidates, _, o =>
      match (attempt candidate).forwarder with
      | .error e => (.error e, [], o)
      | .ok () =>
          match runMasqueTunnelEmbedded "inner" (attempt candidate).tunnel (attempt candidate).session o with
          | (.ok (), o') => (.ok (), [candidate], o')
          | (.error e, o') =>
              if o'.endpoint.isNone then
                (.error e, [candidate], o')
              else
                let (result, offered, o'') := offer attempt candidates (some e) o'
                (result, candidate :: offered, o'')

/-- The candidates of `run_masque_in_masque_embedded`. -/
def embeddedCandidates (draws : Draws) (peer : SocketAddr) : List SocketAddr :=
  (innerMasqueCandidates draws peer MIM_INNER_TRIES).filter fun candidate =>
    decide (candidate.ip ≠ peer.ip)

/-- `run_masque_in_masque_embedded`, with the candidates that were offered the endpoint. -/
def runMasqueInMasqueEmbedded (draws : Draws) (outer : Except AetherError Unit) (peer : SocketAddr)
    (attempt : SocketAddr → Attempt) (o : Offer) :
    Except AetherError Unit × List SocketAddr × Offer :=
  match outer with
  | .error e => (.error e, [], o)
  | .ok () =>
      if embeddedCandidates draws peer = [] then
        (.error (.other "no second masque edge is known for the inner hop"), [], o)
      else
        offer attempt (embeddedCandidates draws peer) none o

/-- The hop through a candidate did not come up, and the run goes on to the next one. -/
def Attempt.Refused (a : Attempt) : Prop :=
  a.forwarder = .ok () ∧ a.tunnel.startup ≠ .ready ∧ a.tunnel.startup ≠ .exited (.ok (.ok ()))

/-- The endpoint is offered to the candidates in order, to all of them unless a hop came up. -/
def OffersAll (draws : Draws) (outer : Except AetherError Unit) (peer : SocketAddr)
    (attempt : SocketAddr → Attempt) (o : Offer) : Prop :=
  outer = .ok () →
    let (_, offered, o') := runMasqueInMasqueEmbedded draws outer peer attempt o
    offered <+: embeddedCandidates draws peer ∧
      (offered = embeddedCandidates draws peer ∨ o'.endpoint = none)

/-- A candidate that the run gets to has a forwarder, and if it closes its tunnel early, it is the
last one. -/
def SearchGoesOn (attempt : SocketAddr → Attempt) (candidates : List SocketAddr) : Prop :=
  ∀ before candidate after, candidates = before ++ candidate :: after →
    (∀ c ∈ before, (attempt c).Refused) →
    (attempt candidate).forwarder = .ok () ∧
      (after ≠ [] → (attempt candidate).tunnel.NeverClosesEarly)

/-- Behind an outer hop that is up, the search goes on. -/
def Unhindered (draws : Draws) (outer : Except AetherError Unit) (peer : SocketAddr)
    (attempt : SocketAddr → Attempt) : Prop :=
  outer = .ok () → SearchGoesOn attempt (embeddedCandidates draws peer)

section Search

variable {attempt : SocketAddr → Attempt} {candidate : SocketAddr} {candidates : List SocketAddr}
variable {last : Option AetherError} {o : Offer}

/-- What becomes of an offer to a hop. -/
inductive Offered (a : Attempt) (o : Offer) : Except AetherError Unit × Offer → Prop
  | closedEarly (h : a.tunnel.startup = .exited (.ok (.ok ()))) : Offered a o (.ok (), o)
  | refused (e : AetherError) (h : a.tunnel.startup ≠ .ready)
      (h' : a.tunnel.startup ≠ .exited (.ok (.ok ()))) : Offered a o (.error e, o)
  | taken (result : Except AetherError Unit) (o' : Offer) (h : a.tunnel.startup = .ready)
      (h' : o'.endpoint = none) : Offered a o (result, o')

theorem offered_run (a : Attempt) (hsome : o.endpoint.isSome) :
    Offered a o (runMasqueTunnelEmbedded "inner" a.tunnel a.session o) := by
  unfold runMasqueTunnelEmbedded
  cases hstartup : a.tunnel.startup with
  | timedOut => exact .refused _ (by rw [hstartup]; nofun) (by rw [hstartup]; nofun)
  | exited joined =>
      cases joined with
      | error e => exact .refused _ (by rw [hstartup]; nofun) (by rw [hstartup]; nofun)
      | ok result =>
          cases result with
          | error e => exact .refused _ (by rw [hstartup]; nofun) (by rw [hstartup]; nofun)
          | ok u => exact .closedEarly hstartup
  | ready =>
      obtain ⟨endpoint, hendpoint⟩ := Option.isSome_iff_exists.1 hsome
      rw [hendpoint]
      exact .taken _ _ hstartup rfl

theorem searchGoesOn_cons (hrefused : (attempt candidate).Refused) :
    SearchGoesOn attempt (candidate :: candidates) ↔ SearchGoesOn attempt candidates := by
  constructor
  · rintro h before c after rfl hbefore
    exact h (candidate :: before) c after rfl fun d hd => by
      rcases List.mem_cons.1 hd with rfl | hd
      · exact hrefused
      · exact hbefore d hd
  · intro h before c after hcandidates hbefore
    cases before with
    | nil =>
        obtain ⟨rfl, rfl⟩ := List.cons.inj hcandidates
        exact ⟨hrefused.1, fun _ => not_not.1 fun hclosed =>
          hrefused.2.2 ((Tunnel.startup_eq_ok _).2 hclosed)⟩
    | cons d before =>
        obtain ⟨rfl, rfl⟩ := List.cons.inj hcandidates
        exact h before c after rfl fun d hd => hbefore d (List.mem_cons_of_mem _ hd)

/-- **The loop over the candidates offers the endpoint to all of them** unless a hop comes up. -/
theorem offer_iff (hsome : o.endpoint.isSome) :
    ((offer attempt candidates last o).2.1 <+: candidates ∧
      ((offer attempt candidates last o).2.1 = candidates ∨
        (offer attempt candidates last o).2.2.endpoint = none)) ↔
      SearchGoesOn attempt candidates := by
  induction candidates generalizing last with
  | nil =>
      simp only [offer, List.prefix_refl, true_or, and_self, true_iff]
      intro before c after h
      exact absurd h (by simp)
  | cons candidate candidates ih =>
      unfold offer
      cases hforward : (attempt candidate).forwarder with
      | error e =>
          simp only [List.nil_prefix, reduceCtorEq, false_or, true_and]
          constructor
          · intro hnone
            rw [hnone] at hsome
            cases hsome
          · intro h
            have := (h [] candidate candidates rfl (fun c hc => absurd hc List.not_mem_nil)).1
            rw [hforward] at this
            cases this
      | ok u =>
          have hhop := offered_run (attempt candidate) hsome
          dsimp only
          generalize runMasqueTunnelEmbedded "inner" (attempt candidate).tunnel
            (attempt candidate).session o = outcome at hhop ⊢
          cases hhop with
          | closedEarly hstartup =>
              -- the loop ends here, so that only the last candidate may do this
              have hclosed := (Tunnel.startup_eq_ok _).1 hstartup
              have hkept : ¬ o.endpoint = none := Option.isSome_iff_ne_none.1 hsome
              constructor
              · rintro ⟨-, hall | hnone⟩ before c after hcandidates hbefore
                · obtain ⟨-, rfl⟩ := List.cons.inj hall
                  cases before with
                  | nil =>
                      obtain ⟨rfl, rfl⟩ := List.cons.inj hcandidates
                      exact ⟨hforward, fun hne => absurd rfl hne⟩
                  | cons d before => exact absurd (List.cons.inj hcandidates).2 (by simp)
                · exact absurd hnone hkept
              · intro h
                have hlast := (h [] candidate candidates rfl (fun c hc => absurd hc List.not_mem_nil)).2
                by_cases hempty : candidates = []
                · subst hempty
                  exact ⟨List.prefix_refl _, .inl rfl⟩
                · exact absurd (hlast hempty) hclosed
          | refused e hready hok =>
              have hrefused : (attempt candidate).Refused := ⟨hforward, hready, hok⟩
              have hkept : o.endpoint.isNone = false := by
                rw [← Option.not_isSome, hsome]
                rfl
              rw [searchGoesOn_cons hrefused, ← @ih (some e)]
              simp only [hkept, Bool.false_eq_true, if_false, List.cons_prefix_cons, true_and,
                List.cons.injEq]
          | taken result o' hstartup hnone =>
              have hoffered : SearchGoesOn attempt (candidate :: candidates) := by
                intro before c after hcandidates hbefore
                cases before with
                | nil =>
                    obtain ⟨rfl, rfl⟩ := List.cons.inj hcandidates
                    refine ⟨hforward, fun _ => not_not.1 fun hclosed => ?_⟩
                    rw [(Tunnel.startup_eq_ok _).2 hclosed] at hstartup
                    cases hstartup
                | cons d before =>
                    obtain ⟨rfl, rfl⟩ := List.cons.inj hcandidates
                    exact absurd hstartup (hbefore candidate List.mem_cons_self).2.1
              simp only [hoffered, iff_true]
              cases result with
              | ok u => exact ⟨List.prefix_append [candidate] candidates, .inr hnone⟩
              | error e =>
                  simp only [hnone, Option.isNone_none, if_true]
                  exact ⟨List.prefix_append [candidate] candidates, .inr trivial⟩

/-- **When the endpoint is offered to every candidate up to the first that comes up.** -/
theorem offersAll_iff (draws : Draws) (outer : Except AetherError Unit) (peer : SocketAddr)
    (hsome : o.endpoint.isSome) :
    OffersAll draws outer peer attempt o ↔ Unhindered draws outer peer attempt := by
  unfold OffersAll Unhindered
  refine imp_congr_right fun houter => ?_
  subst houter
  unfold runMasqueInMasqueEmbedded
  by_cases hempty : embeddedCandidates draws peer = []
  · simp only [hempty, if_true, List.prefix_refl, true_or, and_self, true_iff]
    intro before c after h
    exact absurd h (by simp)
  · simp only [hempty, if_false]
    exact offer_iff hsome

end Search

/-! ## A tunnel that never carried anything -/

/-- **Success without a confirmed tunnel is an early close by the edge**: in the two event loops, in
the hop that runs one of them, and in the search for an inner hop. -/
theorem tunnels_honest_iff (quic : Quic.TunnelConfig) (setup : Except AetherError Unit)
    (quicTurns : List Quic.Turn) (h2 : H2.TunnelConfig) (opening : H2.Opening)
    (h2Turns : List H2.Turn) (label : String) (tunnel : Tunnel) (session : Session) (o : Offer)
    (draws : Draws) (outer : Except AetherError Unit) (peer : SocketAddr)
    (attempt : SocketAddr → Attempt) (endpoint : EmbeddedEndpoint) (ready : Bool) :
    (Quic.Honest quic setup quicTurns ↔ Quic.NeverClosesEarly quic setup quicTurns) ∧
      (H2.Honest h2 opening h2Turns ↔ H2.NeverClosesEarly h2 opening h2Turns) ∧
      (Carries label tunnel session o ↔ tunnel.NeverClosesEarly) ∧
      (OffersAll draws outer peer attempt ⟨some endpoint, ready, false⟩ ↔
        Unhindered draws outer peer attempt) :=
  ⟨Quic.honest_iff quic setup quicTurns, H2.honest_iff h2 opening h2Turns,
    carries_iff label tunnel session o, offersAll_iff draws outer peer rfl⟩

def checkedQuic : Quic.TunnelConfig where
  echConfigList := none
  dataCheck := true
  validationTimeout := 10
  probePacket := []

/-- A packet from the edge that finishes the handshake. -/
def handshakeTurn : Quic.Turn where
  now := 0
  event := .net []
  established := true
  opened := .ok 0
  openedAt := 0
  polled := []
  pollStop := .ok ()
  datagrams := []
  flushed := .ok ()
  closed := false
  peerError := none
  localError := none
  echRetryConfigs := none
  reconnected := .ok ()

/-- A packet from the edge that closes the connection. -/
def closeTurn : Quic.Turn :=
  { handshakeTurn with
    now := 1, closed := true,
    peerError := some { isApp := false, errorCode := 0x02, reason := [] } }

def checkedH2 : H2.TunnelConfig where
  dataCheck := true
  validationTimeout := 10
  keepaliveTimeout := 20
  probePacket := []
  openedAt := 0

def opened : H2.Opening where
  tls := .ok ()
  dialled := .ok ()
  tlsHandshake := .ok ()
  handshake := .ok ()
  pingPong := true
  ready := .ok ()
  request := .ok ()
  sent := .ok ()
  response := .ok ⟨200, []⟩

/-- The edge ends the body of its response. -/
def endTurn : H2.Turn where
  now := 1
  event := .data none fun _ => .sent

def closedTunnel : Tunnel :=
  .quic checkedQuic (.ok ()) [handshakeTurn, closeTurn] rfl

def edgeAddr : SocketAddr :=
  .new (.v6 (.replicate 16 0)) 443

/-- A connection that the edge closes behind the handshake ends in success, over HTTP/3 as over
HTTP/2; the endpoint is left where it was, `ready` is never signalled, and of two inner edges the
second is not tried. -/
theorem tunnels_dishonest :
    ¬ Quic.Honest checkedQuic (.ok ()) [handshakeTurn, closeTurn] ∧
      ¬ H2.Honest checkedH2 opened [endTurn] ∧
      ¬ Carries "masque" closedTunnel (.tunnel (.ok (.ok ()))) ⟨some .tun, true, false⟩ ∧
      ¬ OffersAll ⟨id, [0, 1]⟩ (.ok ()) edgeAddr (fun _ => ⟨.ok (), closedTunnel, .tunnel (.ok (.ok ()))⟩)
          ⟨some .tun, true, false⟩ := by
  refine ⟨fun honest => ?_, fun honest => ?_, fun carries => ?_, fun offers => ?_⟩
  · rcases honest [handshakeTurn] closeTurn [] _ _ rfl rfl rfl with h | h <;> cases h
  · rcases honest [] endTurn [] _ _ rfl rfl rfl with h | h <;> cases h
  · cases (carries rfl).2.1
  · exact absurd (offers rfl).2 (by decide)

end Embedded
end Masque
end AuroraVpn
