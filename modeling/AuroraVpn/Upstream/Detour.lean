import AuroraVpn.Lib.Runs
import AuroraVpn.Upstream.Setting

/-!
# Detour — what the engine sends while an upstream proxy is set

The detours of `upstream.rs`, in whatever order relays fail, pumps end and guards are dropped, with the
sends of `quic.rs`, `noize.rs`, `wireguard.rs` and `dns.rs`; and how the engine dials by TCP, in
`masque_h2.rs`, `account.rs`, `apifront.rs` and `bridges.rs`.  A send asks the table of detours anew
where the socket is not connected, and the table loses a detour when its pump ends.

* `Inv.step`: the pump that runs for a socket is the one that the table and the socket know.
* `goesThrough_iff`: the runs in which nothing goes around the upstream.
-/

namespace AuroraVpn
namespace Upstream

open Runs

/-! ## State -/

structure Detour where
  id : BitVec 64
  shim : SocketAddr
  deriving DecidableEq

/-- A UDP socket of the engine. -/
structure Sock where
  peer : SocketAddr
  /-- `attach_detour` has returned. -/
  attached : Bool
  /-- The number of the detour that the socket's guard keeps. -/
  guard : Option Nat
  /-- The address that the socket is connected to. -/
  target : Option SocketAddr
  /-- The address that was asked for once, for all the baits. -/
  bait : Option SocketAddr
  deriving DecidableEq

/-- The guard is gone, if it was that of the detour. -/
def Sock.dropGuard (sock : Sock) (k : Nat) : Sock :=
  if sock.guard = some k then { sock with guard := none } else sock

structure State where
  /-- `AETHER_UPSTREAM`. -/
  setting : Option Text
  detours : SocketAddr → Option Detour
  /-- How many detours have an id. -/
  numbered : Nat
  /-- The shims of the pumps that run, by the number of their detour. -/
  pumps : Nat → Option SocketAddr
  /-- The sockets, by their local addresses. -/
  sockets : SocketAddr → Option Sock

def State.new (setting : Option Text) : State where
  setting := setting
  detours _ := none
  numbered := 0
  pumps _ := none
  sockets _ := none

/-- `configured`. -/
def State.configured (s : State) : Option Upstream :=
  fromEnv s.setting

/-- `relay_target`. -/
def State.relayTarget (s : State) (local_ intended : SocketAddr) : SocketAddr :=
  ((s.detours local_).map Detour.shim).getD intended

/-- `next_detour_id`, of the detour that `k` others got theirs before: `NEXT` starts at one, and wraps. -/
def nextDetourId (k : Nat) : BitVec 64 :=
  BitVec.ofNat 64 (k + 1)

/-- `forget_detour`. -/
def State.forgetDetour (s : State) (client : SocketAddr) (id : BitVec 64) : State :=
  match s.detours client with
  | some detour => if detour.id = id then { s with detours := Function.update s.detours client none } else s
  | none => s

/-! ## Steps -/

inductive Label
  /-- A socket is bound, for a peer. -/
  | bind (client peer : SocketAddr)
  /-- `attach_detour`; there is no shim if the relay or the shim could not be had. -/
  | attach (client : SocketAddr) (shim : Option SocketAddr)
  /-- The socket is connected to what `relay_target` answers. -/
  | connect (client : SocketAddr)
  /-- `relay_target` is asked for the baits of the version negotiation. -/
  | aim (client : SocketAddr)
  | sendBait (client : SocketAddr)
  /-- A datagram is sent, by `send` if the socket is connected, else to what `relay_target` answers. -/
  | send (client : SocketAddr)
  /-- `flush`, of a packet from a path of the connection; `pick` is some socket of the connection. -/
  | flush (path pick : SocketAddr)
  /-- A pump returns, and its shim is closed. -/
  | stops (k : Nat)
  /-- The task of a pump that has returned forgets the detour. -/
  | forgets (client : SocketAddr) (k : Nat)
  /-- A guard is dropped. -/
  | drop (client : SocketAddr) (k : Nat)
  | close (client : SocketAddr)
  /-- `masque_h2::dial`, for the tunnel and for the probes. -/
  | dial (peer : SocketAddr)
  /-- A request of the API, or one of the sign-in, by the HTTP client. -/
  | request
  /-- The same request over the camouflaged route, to some of the edges. -/
  | fetch (edges : List SocketAddr)
  /-- A bridge is tested for whether it answers. -/
  | answers (address : SocketAddr)

/-- The state behind `attach_detour`, on a socket. -/
def State.attach (s : State) (client : SocketAddr) (sock : Sock) (shim : Option SocketAddr) : State :=
  let plain := { s with sockets := Function.update s.sockets client (some { sock with attached := true }) }
  match s.configured with
  | none => plain
  | some proxy =>
      if Routing.isPrivate sock.peer.ip then plain
      else
        match if proxy.kind = .socks5 then shim else none with
        | some shim =>
            { s with
              detours := Function.update s.detours client (some ⟨nextDetourId s.numbered, shim⟩)
              numbered := s.numbered + 1
              pumps := Function.update s.pumps s.numbered (some shim)
              sockets := Function.update s.sockets client
                (some { sock with attached := true, guard := some s.numbered }) }
        -- the error goes up, and the socket with it
        | none => { s with sockets := Function.update s.sockets client none }

/-- A socket whose detour is attached, if it is open. -/
def State.ready (s : State) (client : SocketAddr) : Option Sock :=
  (s.sockets client).filter Sock.attached

def step (l : Label) (s : State) : Option State :=
  match l with
  | .bind client peer =>
      -- no two open sockets have the same address
      match s.sockets client with
      | some _ => none
      | none =>
          some { s with sockets := Function.update s.sockets client (some ⟨peer, false, none, none, none⟩) }
  | .attach client shim =>
      ((s.sockets client).filter fun sock => !sock.attached).map fun sock => s.attach client sock shim
  | .connect client =>
      (s.ready client).map fun sock =>
        { s with
          sockets := Function.update s.sockets client
            (some { sock with target := some (s.relayTarget client sock.peer) }) }
  | .aim client =>
      (s.ready client).map fun sock =>
        { s with
          sockets := Function.update s.sockets client
            (some { sock with bait := some (s.relayTarget client sock.peer) }) }
  | .stops k => some { s with pumps := Function.update s.pumps k none }
  | .forgets client k =>
      if k < s.numbered ∧ s.pumps k = none then some (s.forgetDetour client (nextDetourId k)) else none
  | .drop client k =>
      if k < s.numbered then
        let s' := { s with pumps := Function.update s.pumps k none }.forgetDetour client (nextDetourId k)
        some
          { s' with
            sockets := Function.update s'.sockets client
              ((s'.sockets client).map fun sock => sock.dropGuard k) }
      else none
  | .close client => some { s with sockets := Function.update s.sockets client none }
  | .sendBait _ | .send _ | .flush _ _ | .dial _ | .request | .fetch _ | .answers _ => some s

def machine : Machine State Label where
  init s := ∃ raw, s = .new (some raw)
  enabled _ _ := True
  step := step

/-! ## What leaves -/

/-- How a TCP connection is made. -/
inductive Route
  /-- By `Upstream::connect`. -/
  | connect
  /-- By the HTTP client, which is given the proxy. -/
  | client
  /-- By the operating system. -/
  | direct
  deriving DecidableEq, Repr

inductive Traffic
  | datagram (client dest : SocketAddr)
  | tcp (route : Route)
  /-- The name of a Cloudflare host is looked up on the local network. -/
  | lookup
  deriving DecidableEq

/-- Where `send_junk`, `flush` and the others send a datagram of a socket. -/
def State.destination (s : State) (client : SocketAddr) (sock : Sock) : SocketAddr :=
  sock.target.getD (s.relayTarget client sock.peer)

/-- The socket that `flush` sends on. -/
def State.flushed (s : State) (path pick : SocketAddr) : SocketAddr :=
  if (s.ready path).isSome then path else pick

/-- The datagram that leaves in a step: its socket, and where it goes. -/
def State.datagram (s : State) : Label → Option (SocketAddr × SocketAddr)
  | .send client => (s.ready client).map fun sock => (client, s.destination client sock)
  | .flush path pick =>
      let client := s.flushed path pick
      (s.ready client).map fun sock => (client, s.destination client sock)
  | .sendBait client =>
      (s.ready client).bind fun sock =>
        (sock.target.or sock.bait).map fun target => (client, target)
  | _ => none

def State.tcpRoute (s : State) : Route :=
  if s.configured.isSome then .connect else .direct

/-- What leaves the engine in a step. -/
def State.emits (s : State) (l : Label) : List Traffic :=
  match l with
  | .dial _ => [.tcp s.tcpRoute]
  | .request => if s.configured.isSome then [.tcp .client] else [.lookup, .tcp .direct]
  -- the edges, and behind them what the name of the host resolves to
  | .fetch edges => .lookup :: edges.map fun _ => .tcp s.tcpRoute
  | .answers _ => [.tcp .direct]
  | l => (s.datagram l).toList.map fun d => .datagram d.1 d.2

/-- The traffic goes through the upstream: a datagram towards a public peer to the shim of the socket's
detour, which runs; a TCP connection by `Upstream::connect`. -/
def State.Through (s : State) : Traffic → Prop
  | .datagram client dest => ∀ sock ∈ s.sockets client, Routing.isPrivate sock.peer.ip = false →
      ∃ k ∈ sock.guard, s.pumps k = some dest
  | .tcp route => route = .connect
  | .lookup => False

/-- All that leaves in a step goes through the upstream. -/
def GoesThrough (s : State) (l : Label) : Prop :=
  ∀ t ∈ s.emits l, s.Through t

/-- The detour that was set up for the socket still runs. -/
def State.Detoured (s : State) (client : SocketAddr) : Prop :=
  ∀ sock ∈ s.sockets client, Routing.isPrivate sock.peer.ip = false →
    ∃ k ∈ sock.guard, (s.pumps k).isSome

/-- A socket sends while its detour runs, the setting is understood where something is dialled, and
neither a request of the API nor the test of a bridge is made. -/
def Sound (s : State) (l : Label) : Prop :=
  match l with
  | .dial _ => s.configured.isSome
  | .request | .fetch _ | .answers _ => False
  | l => ∀ d ∈ s.datagram l, s.Detoured d.1

instance (s : State) (client : SocketAddr) : Decidable (s.Detoured client) :=
  inferInstanceAs (Decidable (∀ sock ∈ s.sockets client, _))

instance decidableSound (s : State) : (l : Label) → Decidable (Sound s l)
  | .dial _ => inferInstanceAs (Decidable (s.configured.isSome = true))
  | .request | .fetch _ | .answers _ => .isFalse id
  | .bind .. | .attach .. | .connect _ | .aim _ | .sendBait _ | .send _ | .flush .. | .stops _ | .forgets ..
  | .drop .. | .close _ => inferInstanceAs (Decidable (∀ d ∈ s.datagram _, s.Detoured d.1))

/-- No more detours have an id than there are ids. -/
def State.Few (s : State) : Prop :=
  s.numbered ≤ 2 ^ 64

instance (s : State) : Decidable s.Few :=
  Nat.decLe _ _

/-! ## What the sockets know of their detours -/

/-- The pump that runs for a socket is the one that the table names, and the one that the socket is
aimed at if it is aimed at anything. -/
structure Knows (s : State) (client : SocketAddr) (sock : Sock) (k : Nat) (shim : SocketAddr) :
    Prop where
  detour : s.detours client = some ⟨nextDetourId k, shim⟩
  target : ∀ t ∈ sock.target, t = shim
  bait : ∀ t ∈ sock.bait, t = shim

structure Inv (s : State) : Prop where
  /-- Numbers are not given twice. -/
  pumps : ∀ k, s.pumps k ≠ none → k < s.numbered
  guards : ∀ client sock, s.sockets client = some sock → ∀ k ∈ sock.guard, k < s.numbered
  unattached : ∀ client sock, s.sockets client = some sock → sock.attached = false →
    sock.guard = none ∧ sock.target = none ∧ sock.bait = none
  knows : ∀ client sock, s.sockets client = some sock → ∀ k ∈ sock.guard, ∀ shim,
    s.pumps k = some shim → Knows s client sock k shim

theorem inv_new (setting : Option Text) : Inv (.new setting) where
  pumps _ h := absurd rfl h
  guards _ _ h := nomatch h
  unattached _ _ h := nomatch h
  knows _ _ h := nomatch h

section Steps

variable {s s' : State} {client : SocketAddr} {sock sock' : Sock} {k : Nat} {id : BitVec 64}

/-- While there are few, an id is that of one detour. -/
theorem nextDetourId_inj {j : Nat} (hfew : s.Few) (hj : j < s.numbered) (hk : k < s.numbered)
    (hid : nextDetourId j = nextDetourId k) : j = k := by
  unfold State.Few at hfew
  have hnum := congrArg BitVec.toNat hid
  unfold nextDetourId at hnum
  rw [BitVec.toNat_ofNat, BitVec.toNat_ofNat] at hnum
  -- the last of the ids is zero
  omega

theorem forgetDetour_detours {other : SocketAddr} {detour : Detour} (h : s.detours other = some detour)
    (hid : detour.id ≠ id) : (s.forgetDetour client id).detours other = some detour := by
  unfold State.forgetDetour
  split
  · next found hfound =>
      split_ifs with hfid
      · -- the entry of another socket is forgotten
        have hne : other ≠ client := by
          rintro rfl
          rw [h] at hfound
          cases hfound
          exact hid hfid
        exact (Function.update_of_ne hne _ _).trans h
      · exact h
  · exact h

theorem forgetDetour_rest : (s.forgetDetour client id).pumps = s.pumps ∧
    (s.forgetDetour client id).sockets = s.sockets ∧ (s.forgetDetour client id).numbered = s.numbered := by
  unfold State.forgetDetour
  split
  · split_ifs <;> exact ⟨rfl, rfl, rfl⟩
  · exact ⟨rfl, rfl, rfl⟩

/-- What is in a table behind an update. -/
theorem update_eq_some {α β : Type} [DecidableEq α] {f : α → Option β} {a b : α} {v : Option β} {w : β}
    (h : Function.update f a v b = some w) : b = a ∧ v = some w ∨ b ≠ a ∧ f b = some w := by
  by_cases hb : b = a
  · subst hb
    rw [Function.update_self] at h
    exact .inl ⟨rfl, h⟩
  · rw [Function.update_of_ne hb] at h
    exact .inr ⟨hb, h⟩

/-- One socket is replaced by one that knows as much. -/
theorem Inv.replace (h : Inv s) (hguard : ∀ k ∈ sock.guard, k < s.numbered)
    (hattached : sock.attached = false → sock.guard = none ∧ sock.target = none ∧ sock.bait = none)
    (hknows : ∀ k ∈ sock.guard, ∀ shim, s.pumps k = some shim → Knows s client sock k shim) :
    Inv { s with sockets := Function.update s.sockets client (some sock) } where
  pumps := h.pumps
  guards other found hfound k hk := by
    obtain ⟨rfl, ⟨⟩⟩ | ⟨-, hfound⟩ := update_eq_some hfound
    · exact hguard k hk
    · exact h.guards other found hfound k hk
  unattached other found hfound hat := by
    obtain ⟨rfl, ⟨⟩⟩ | ⟨-, hfound⟩ := update_eq_some hfound
    · exact hattached hat
    · exact h.unattached other found hfound hat
  knows other found hfound k hk shim hshim := by
    obtain ⟨rfl, ⟨⟩⟩ | ⟨-, hfound⟩ := update_eq_some hfound
    · obtain ⟨hdetour, htarget, hbait⟩ := hknows k hk shim hshim
      exact ⟨hdetour, htarget, hbait⟩
    · obtain ⟨hdetour, htarget, hbait⟩ := h.knows other found hfound k hk shim hshim
      exact ⟨hdetour, htarget, hbait⟩

theorem Inv.close (h : Inv s) (client : SocketAddr) :
    Inv { s with sockets := Function.update s.sockets client none } where
  pumps := h.pumps
  guards other found hfound := by
    obtain ⟨-, ⟨⟩⟩ | ⟨-, hfound⟩ := update_eq_some hfound
    exact h.guards other found hfound
  unattached other found hfound := by
    obtain ⟨-, ⟨⟩⟩ | ⟨-, hfound⟩ := update_eq_some hfound
    exact h.unattached other found hfound
  knows other found hfound k hk shim hshim := by
    obtain ⟨-, ⟨⟩⟩ | ⟨-, hfound⟩ := update_eq_some hfound
    obtain ⟨hdetour, htarget, hbait⟩ := h.knows other found hfound k hk shim hshim
    exact ⟨hdetour, htarget, hbait⟩

/-- A pump ends. -/
theorem Inv.stop (h : Inv s) (k : Nat) : Inv { s with pumps := Function.update s.pumps k none } where
  pumps other hother := by
    refine h.pumps other fun hnone => hother ?_
    by_cases hk : other = k
    · subst hk
      exact Function.update_self ..
    · exact (Function.update_of_ne hk _ _).trans hnone
  guards := h.guards
  unattached := h.unattached
  knows client sock hsock other hother shim hshim := by
    obtain ⟨-, ⟨⟩⟩ | ⟨-, hshim⟩ := update_eq_some hshim
    obtain ⟨hdetour, htarget, hbait⟩ := h.knows client sock hsock other hother shim hshim
    exact ⟨hdetour, htarget, hbait⟩

/-- A detour whose pump has ended is forgotten. -/
theorem Inv.forget (h : Inv s) (hfew : s.Few) (hk : k < s.numbered) (hended : s.pumps k = none)
    (client : SocketAddr) : Inv (s.forgetDetour client (nextDetourId k)) := by
  obtain ⟨hpumps, hsockets, hnumbered⟩ := @forgetDetour_rest s client (nextDetourId k)
  refine ⟨?_, ?_, ?_, ?_⟩
  · rw [hpumps, hnumbered]
    exact h.pumps
  · rw [hsockets, hnumbered]
    exact h.guards
  · rw [hsockets]
    exact h.unattached
  · rw [hsockets, hpumps]
    intro other sock hsock found hfound shim hshim
    obtain ⟨hdetour, htarget, hbait⟩ := h.knows other sock hsock found hfound shim hshim
    have hne : nextDetourId found ≠ nextDetourId k := fun hid => by
      rw [nextDetourId_inj hfew (h.guards other sock hsock found hfound) hk hid, hended] at hshim
      cases hshim
    exact ⟨forgetDetour_detours hdetour hne, htarget, hbait⟩

/-- A socket gets a detour of its own. -/
theorem Inv.detour (h : Inv s) (hsock : s.sockets client = some sock) (hat : sock.attached = false)
    (shim : SocketAddr) :
    Inv { s with
      detours := Function.update s.detours client (some ⟨nextDetourId s.numbered, shim⟩)
      numbered := s.numbered + 1
      pumps := Function.update s.pumps s.numbered (some shim)
      sockets := Function.update s.sockets client
        (some { sock with attached := true, guard := some s.numbered }) } := by
  -- a socket without a detour has no target and no bait that it keeps to
  obtain ⟨-, htarget, hbait⟩ := h.unattached client sock hsock hat
  refine ⟨?_, ?_, ?_, ?_⟩
  · intro k hk
    change k < s.numbered + 1
    -- the new pump is the one with the newest number
    by_cases hne : k = s.numbered
    · omega
    · have hlt := h.pumps k fun hnone => hk ((Function.update_of_ne hne _ _).trans hnone)
      omega
  · intro other found hfound k hk
    change k < s.numbered + 1
    obtain ⟨rfl, ⟨⟩⟩ | ⟨-, hfound⟩ := update_eq_some hfound
    · cases hk
      omega
    · have hlt := h.guards other found hfound k hk
      omega
  -- a socket that has a detour is not one without
  · intro other found hfound hfat
    obtain ⟨rfl, ⟨⟩⟩ | ⟨-, hfound⟩ := update_eq_some hfound
    · cases hfat
    · exact h.unattached other found hfound hfat
  · intro other found hfound k hk shim' hshim'
    obtain ⟨rfl, ⟨⟩⟩ | ⟨hne, hfound⟩ := update_eq_some hfound
    · cases hk
      obtain ⟨-, ⟨⟩⟩ | ⟨hne, -⟩ := update_eq_some hshim'
      · refine ⟨Function.update_self .., ?_, ?_⟩
        · rw [show ({ sock with attached := true, guard := some s.numbered } : Sock).target = none from htarget]
          exact nofun
        · rw [show ({ sock with attached := true, guard := some s.numbered } : Sock).bait = none from hbait]
          exact nofun
      · exact absurd rfl hne
    · -- the numbers of the other sockets are older
      have hlt := h.guards other found hfound k hk
      obtain ⟨rfl, -⟩ | ⟨-, hshim'⟩ := update_eq_some hshim'
      · omega
      · obtain ⟨hdetour, htarget, hbait⟩ := h.knows other found hfound k hk shim' hshim'
        exact ⟨(Function.update_of_ne hne _ _).trans hdetour, htarget, hbait⟩

theorem dropGuard_cases (sock : Sock) (k : Nat) : sock.dropGuard k = sock ∨
    (sock.dropGuard k).guard = none ∧ (sock.dropGuard k).attached = sock.attached ∧
      (sock.dropGuard k).target = sock.target ∧ (sock.dropGuard k).bait = sock.bait := by
  unfold Sock.dropGuard
  split_ifs
  · exact .inr ⟨rfl, rfl, rfl, rfl⟩
  · exact .inl rfl

theorem ready_eq_some : s.ready client = some sock ↔ s.sockets client = some sock ∧ sock.attached = true :=
  Option.filter_eq_some_iff

/-- `relay_target` answers the shim of the detour that runs for the socket. -/
theorem Inv.relayTarget (h : Inv s) (hsock : s.sockets client = some sock) (hk : k ∈ sock.guard)
    {shim : SocketAddr} (hshim : s.pumps k = some shim) (intended : SocketAddr) :
    s.relayTarget client intended = shim := by
  unfold State.relayTarget
  rw [(h.knows client sock hsock k hk shim hshim).detour]
  rfl

theorem Inv.attach (h : Inv s) (hsock : s.sockets client = some sock) (hat : sock.attached = false)
    (shim : Option SocketAddr) : Inv (s.attach client sock shim) := by
  obtain ⟨hguard, -, -⟩ := h.unattached client sock hsock hat
  have hplain : Inv { s with
      sockets := Function.update s.sockets client (some { sock with attached := true }) } := by
    refine h.replace (h.guards client sock hsock) nofun ?_
    intro id hid
    rw [show ({ sock with attached := true } : Sock).guard = none from hguard] at hid
    cases hid
  unfold State.attach
  dsimp only
  split
  · exact hplain
  · split_ifs
    · exact hplain
    · split
      · exact h.detour hsock hat _
      · exact h.close client
    · exact h.close client

theorem Inv.step (h : Inv s) (hfew : s.Few) {l : Label} (hstep : step l s = some s') : Inv s' := by
  cases l with
  | bind client peer =>
      unfold Upstream.step at hstep
      dsimp only at hstep
      split at hstep
      · cases hstep
      · cases hstep
        exact h.replace nofun (fun _ => ⟨rfl, rfl, rfl⟩) nofun
  | attach client shim =>
      obtain ⟨sock, hsock, rfl⟩ := Option.map_eq_some_iff.1 hstep
      obtain ⟨hsock, hat⟩ := Option.filter_eq_some_iff.1 hsock
      exact h.attach hsock (by simpa using hat) shim
  | connect client =>
      obtain ⟨sock, hsock, rfl⟩ := Option.map_eq_some_iff.1 hstep
      obtain ⟨hsock, hat⟩ := ready_eq_some.1 hsock
      refine h.replace (h.guards client sock hsock) (fun hno => by rw [hat] at hno; cases hno) ?_
      intro id hid shim hshim
      obtain ⟨hdetour, -, hbait⟩ := h.knows client sock hsock id hid shim hshim
      refine ⟨hdetour, ?_, hbait⟩
      rintro _ ⟨⟩
      exact h.relayTarget hsock hid hshim _
  -- what a bait is sent to is looked up as a target is
  | aim client =>
      obtain ⟨sock, hsock, rfl⟩ := Option.map_eq_some_iff.1 hstep
      obtain ⟨hsock, hat⟩ := ready_eq_some.1 hsock
      refine h.replace (h.guards client sock hsock) (fun hno => by rw [hat] at hno; cases hno) ?_
      intro id hid shim hshim
      obtain ⟨hdetour, htarget, -⟩ := h.knows client sock hsock id hid shim hshim
      refine ⟨hdetour, htarget, ?_⟩
      rintro _ ⟨⟩
      exact h.relayTarget hsock hid hshim _
  | stops k =>
      cases hstep
      exact h.stop k
  | forgets client k =>
      unfold Upstream.step at hstep
      dsimp only at hstep
      split_ifs at hstep with hk
      cases hstep
      exact h.forget hfew hk.1 hk.2 client
  | drop client k =>
      unfold Upstream.step at hstep
      dsimp only at hstep
      split_ifs at hstep with hk
      cases hstep
      -- dropping a guard is ending its pump and forgetting its detour at once
      have hforgot := (h.stop k).forget hfew hk (Function.update_self ..) client
      generalize State.forgetDetour _ client (nextDetourId k) = s' at hforgot
      cases hsock : s'.sockets client with
      | none => exact hforgot.close client
      | some sock =>
          change Inv { s' with sockets := Function.update s'.sockets client (some (sock.dropGuard k)) }
          -- the guard is dropped of the socket that holds it
          obtain hsame | ⟨hnone, hrest⟩ := dropGuard_cases sock k
          · rw [hsame]
            exact hforgot.replace (hforgot.guards client sock hsock)
              (hforgot.unattached client sock hsock) (hforgot.knows client sock hsock)
          · refine hforgot.replace ?_ (fun hat => ?_) ?_
            · rw [hnone]
              exact nofun
            · rw [hrest.1] at hat
              rw [hrest.2.1, hrest.2.2]
              exact ⟨hnone, (hforgot.unattached client sock hsock hat).2⟩
            · rw [hnone]
              exact nofun
  | close client =>
      cases hstep
      exact h.close client
  -- the other labels send, and leave the state as it is
  | sendBait _ =>
      cases hstep
      exact h
  | send _ =>
      cases hstep
      exact h
  | flush _ _ =>
      cases hstep
      exact h
  | dial _ =>
      cases hstep
      exact h
  | request =>
      cases hstep
      exact h
  | fetch _ =>
      cases hstep
      exact h
  | answers _ =>
      cases hstep
      exact h

/-! ## Which runs go through -/

/-- **A datagram** goes to the shim of its socket's detour exactly if that detour runs. -/
theorem through_datagram_iff (h : Inv s) {l : Label} {d : SocketAddr × SocketAddr}
    (hd : d ∈ s.datagram l) : s.Through (.datagram d.1 d.2) ↔ s.Detoured d.1 := by
  -- wherever the address comes from, it is the shim as long as the pump runs
  have haimed : ∀ sock, s.sockets d.1 = some sock → ∀ id ∈ sock.guard, ∀ shim,
      s.pumps id = some shim → d.2 = shim := by
    intro sock hsock id hid shim hshim
    have hdestination : s.destination d.1 sock = shim := by
      unfold State.destination
      cases htarget : sock.target with
      | none => exact h.relayTarget hsock hid hshim _
      | some t => exact (h.knows d.1 sock hsock id hid shim hshim).target t htarget
    cases l with
    | send client =>
        obtain ⟨found, hfound, rfl⟩ := Option.map_eq_some_iff.1 hd
        have hsame := (ready_eq_some.1 hfound).1
        rw [hsock] at hsame
        cases hsame
        exact hdestination
    | flush path pick =>
        obtain ⟨found, hfound, rfl⟩ := Option.map_eq_some_iff.1 hd
        have hsame := (ready_eq_some.1 hfound).1
        rw [hsock] at hsame
        cases hsame
        exact hdestination
    | sendBait client =>
        obtain ⟨found, hfound, hd⟩ := Option.bind_eq_some_iff.1 hd
        obtain ⟨t, ht, rfl⟩ := Option.map_eq_some_iff.1 hd
        have hsame := (ready_eq_some.1 hfound).1
        rw [hsock] at hsame
        cases hsame
        have hknows := h.knows client sock hsock id hid shim hshim
        rcases Option.or_eq_some_iff.1 ht with ht | ⟨-, ht⟩
        · exact hknows.target t ht
        · exact hknows.bait t ht
    | _ => cases hd
  -- through a pump that runs, or to the peer itself
  constructor
  · intro hthrough sock hsock hpublic
    obtain ⟨id, hid, hshim⟩ := hthrough sock hsock hpublic
    exact ⟨id, hid, by rw [hshim]; rfl⟩
  · intro hdetoured sock hsock hpublic
    obtain ⟨id, hid, hruns⟩ := hdetoured sock hsock hpublic
    obtain ⟨shim, hshim⟩ := Option.isSome_iff_exists.1 hruns
    exact ⟨id, hid, by rw [hshim, haimed sock hsock id hid shim hshim]⟩

theorem tcpRoute_eq_connect : s.tcpRoute = .connect ↔ s.configured.isSome := by
  unfold State.tcpRoute
  split_ifs with h
  · exact iff_of_true rfl h
  · exact iff_of_false nofun h

theorem goesThrough_iff_sound (h : Inv s) (l : Label) : GoesThrough s l ↔ Sound s l := by
  -- the datagrams are the only traffic of the steps that name none themselves
  have hdatagrams : (∀ t ∈ (s.datagram l).toList.map fun d => Traffic.datagram d.1 d.2, s.Through t) ↔
      ∀ d ∈ s.datagram l, s.Detoured d.1 := by
    rw [List.forall_mem_map]
    constructor
    · exact fun hall d hd => (through_datagram_iff h hd).1 (hall d (Option.mem_toList.2 hd))
    · intro hall d hd
      have hd := Option.mem_toList.1 hd
      exact (through_datagram_iff h hd).2 (hall d hd)
  cases l with
  | dial peer =>
      refine Iff.trans ?_ tcpRoute_eq_connect
      exact ⟨fun hall => hall _ List.mem_cons_self, fun hroute t ht => by
        rw [List.mem_singleton.1 ht]
        exact hroute⟩
  -- a request goes out by the HTTP client, or directly behind a lookup; neither is the upstream
  | request =>
      refine iff_of_false (fun hall => ?_) id
      unfold GoesThrough State.emits at hall
      dsimp only at hall
      split_ifs at hall with hset
      · exact absurd (hall _ List.mem_cons_self) nofun
      · exact hall _ List.mem_cons_self
  | fetch edges => exact iff_of_false (fun hall => hall _ List.mem_cons_self) id
  | answers address =>
      exact iff_of_false (fun hall => absurd (hall _ List.mem_cons_self) nofun) id
  | _ => exact hdatagrams

end Steps

/-- **The runs that go around nothing**: every socket sends while its detour runs, nothing is dialled
under a setting that is not understood, and there is no request of the API and no test of a bridge. -/
theorem goesThrough_iff (setting : Option Text) (ls : List Label)
    (hfew : machine.Along (fun s _ => s.Few) ls (.new setting)) :
    machine.Along GoesThrough ls (.new setting) ↔ machine.Along Sound ls (.new setting) := by
  have hinv := inv_new setting
  constructor
  · intro hruns
    exact Along.imp (fun s l s' h hl hstep => h.step hl.1 hstep)
      (fun s l h hl => (goesThrough_iff_sound h l).1 hl.2) hinv (Along.and hfew hruns)
  · intro hruns
    exact Along.imp (fun s l s' h hl hstep => h.step hl.1 hstep)
      (fun s l h hl => (goesThrough_iff_sound h l).2 hl.2) hinv (Along.and hfew hruns)

/-! ## A relay that fails under a tunnel -/

/-- An address of four bytes. -/
def v4 (a b c d : UInt8) (port : UInt16) : SocketAddr :=
  .new (.v4 (IpAddr.quad a b c d)) port

/-- A tunnel over a connected socket, and the baits of a second socket, which is closed behind the end of its
pump; a third one is bound to the same address, and the edge is dialled by TCP as well. -/
def twoTunnels : List Label :=
  let first := v4 0 0 0 0 40000
  let second := v4 0 0 0 0 40001
  [.bind first (v4 162 159 198 1 443), .attach first (some (v4 127 0 0 1 50000)), .connect first, .send first,
    .bind second (v4 162 159 198 2 443), .attach second (some (v4 127 0 0 1 50001)), .aim second,
    .sendBait second, .flush first second, .stops 1, .forgets second 1, .drop second 1, .close second,
    .bind second (v4 162 159 198 3 443), .attach second (some (v4 127 0 0 1 50002)), .flush second first,
    .send first, .dial (v4 162 159 198 1 443)]

theorem goesThrough_iff_twoTunnels : (machine.runs twoTunnels (.new (some (loopback 1080)))).isSome ∧
    machine.Along GoesThrough twoTunnels (.new (some (loopback 1080))) :=
  ⟨by decide, (goesThrough_iff (some (loopback 1080)) twoTunnels (by decide)).2 (by decide)⟩

/-- The tunnel sends, the relay of its detour fails, and it sends again. -/
def relayFails : List Label :=
  let client := v4 0 0 0 0 40000
  [.bind client (v4 162 159 198 1 443), .attach client (some (v4 127 0 0 1 50000)), .send client,
    .stops 0, .forgets client 0, .send client]

/-- Behind the failure the datagrams of the tunnel leave for the peer itself. -/
theorem not_goesThrough_relayFails :
    ¬ machine.Along GoesThrough relayFails (.new (some (loopback 1080))) := by
  intro hruns
  have hsend := (((((hruns.2 _ rfl).2 _ rfl).2 _ rfl).2 _ rfl).2 _ rfl).1
  obtain ⟨id, hid, hpump⟩ := hsend (.datagram (v4 0 0 0 0 40000) (v4 162 159 198 1 443))
    (List.mem_singleton.2 rfl) _ rfl (by decide)
  cases hid
  exact absurd hpump (by decide)

end Upstream
end AuroraVpn
