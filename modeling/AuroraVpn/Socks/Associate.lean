import AuroraVpn.Socks.Doors

/-!
# Associate — UDP ASSOCIATE

`handle_udp_associate` of `socks.rs` as a function of what comes in: datagrams at the relay socket,
answers out of the tunnel, answers at the direct socket, and bytes on the control connection, in any
order.  What a name resolves to comes in with the datagram that names it.

* `parseUdpRequest_buildUdpReply`: what the relay sends is what it would take.
* `associate_guarded`: an association serves one client, and keeps to the rules and away from this
  machine.
-/

namespace AuroraVpn
namespace Socks

open BigEndian Routing Utf8

/-! ## The datagrams of a client -/

/-- A fixed number of bytes off the front. -/
def takeExact (n : Nat) (buf : Bytes) : Option (List.Vector UInt8 n × Bytes) :=
  if h : n ≤ buf.length then some (⟨buf.take n, by simp [h]⟩, buf.drop n) else none

def parseUdpTarget (atyp : UInt8) (buf : Bytes) : Option (Target × Bytes) :=
  if atyp = ATYP_V4 then do
    let (b, buf) ← takeExact 4 buf
    some (.ip (.v4 b), buf)
  else if atyp = ATYP_V6 then do
    let (b, buf) ← takeExact 16 buf
    some (.ip (.v6 b), buf)
  else if atyp = ATYP_DOMAIN then do
    let (len, buf) ← takeExact 1 buf
    let (name, buf) ← takeExact (len.get 0).toNat buf
    some (.domain (fromUtf8Lossy name.toList), buf)
  else
    none

/-- The target of a client's datagram, its port, and what is for it.  A fragment is not taken. -/
def parseUdpRequest : Bytes → Option (Target × UInt16 × Bytes)
  | _ :: _ :: frag :: atyp :: buf =>
      if frag ≠ 0 then
        none
      else do
        let (target, buf) ← parseUdpTarget atyp buf
        let (port, payload) ← takeExact 2 buf
        some (target, UInt16.ofNat (ofBe port.toList), payload)
  | _ => none

def buildUdpReply (src : SocketAddr) (data : Bytes) : Bytes :=
  [0x00, 0x00, 0x00] ++
    (match src.ip with
      | .v4 octets => ATYP_V4 :: octets.toList
      | .v6 octets => ATYP_V6 :: octets.toList) ++
    toBe 2 src.port.toNat ++ data

theorem takeExact_append {n : Nat} (b : List.Vector UInt8 n) (buf : Bytes) :
    takeExact n (b.toList ++ buf) = some (b, buf) := by
  have hlen : b.toList.length = n := b.toList_length
  unfold takeExact
  rw [dif_pos (by simp [hlen])]
  refine congrArg some (Prod.ext (List.Vector.eq _ _ ?_) ?_)
  · exact List.take_left' hlen
  · exact List.drop_left' hlen

/-- A reply is a request to the one it comes from. -/
theorem parseUdpRequest_buildUdpReply (src : SocketAddr) (data : Bytes) :
    parseUdpRequest (buildUdpReply src data) = some (.ip src.ip, src.port, data) := by
  obtain ⟨ip, port, flowinfo, scopeId, hbare⟩ := src
  let portBytes : List.Vector UInt8 2 := ⟨toBe 2 port.toNat, length_toBe 2 _⟩
  have hport : UInt16.ofNat (ofBe portBytes.toList) = port := by
    have hlt : port.toNat < 256 ^ 2 := port.toNat_lt
    change UInt16.ofNat (ofBe (toBe 2 port.toNat)) = port
    rw [ofBe_toBe, Nat.mod_eq_of_lt hlt]
    exact UInt16.ofNat_toNat
  have htail : takeExact 2 (toBe 2 port.toNat ++ data) = some (portBytes, data) :=
    takeExact_append portBytes data
  cases ip with
  | v4 octets =>
      have hhead := takeExact_append octets (toBe 2 port.toNat ++ data)
      simp [parseUdpRequest, buildUdpReply, parseUdpTarget, hhead, htail, hport]
  | v6 octets =>
      have hhead := takeExact_append octets (toBe 2 port.toNat ++ data)
      have hne : ATYP_V6 ≠ ATYP_V4 := by decide
      simp [parseUdpRequest, buildUdpReply, parseUdpTarget, hne, hhead, htail, hport]

/-! ## The association -/

/-- The address that an association serves: the one the client declares, if it declares one. -/
def expectedUdpSource (controlPeer : SocketAddr) : Target → IpAddr
  | .ip ip => if ip.isUnspecified then normalizeIp controlPeer.ip else normalizeIp ip
  | .domain _ => normalizeIp controlPeer.ip

def udpSourceAllowed (expectedIp : IpAddr) (latched : Option SocketAddr) (source : SocketAddr) :
    Bool :=
  match latched with
  | some known => known = source
  | none => normalizeIp source.ip = normalizeIp expectedIp

def directTargetAllowed (client address : IpAddr) : Bool :=
  let address := normalizeIp address
  if address.isLoopback || address.isUnspecified then (normalizeIp client).isLoopback else true

/-- What a read of a socket comes to: `none` is an error. -/
abbrev Received (α : Type) := Option α

/-- What the loop wakes up for. -/
inductive Incoming
  /-- at the relay socket: a datagram and its source.  `lookup` and `dns` are what the system's
  resolver and the tunnel's would say to a name. -/
  | relay (datagram : Received (Bytes × SocketAddr)) (lookup : Text → UInt16 → Option SocketAddr)
      (dns : Text → Except AetherError IpAddr)
  /-- out of the tunnel, until it closes -/
  | fromStack (answer : Option (SocketAddr × Bytes))
  /-- at the direct socket -/
  | direct (answer : Received (Bytes × SocketAddr))
  /-- how many bytes came on the control connection -/
  | control (count : Received Nat)

/-- What goes out.  A payload that is forwarded keeps where it came from and what it was for. -/
inductive Outgoing
  | direct (source : SocketAddr) (target : Target) (port : UInt16) (payload : Bytes) (addr : SocketAddr)
  | tunnel (source : SocketAddr) (target : Target) (port : UInt16) (payload : Bytes) (addr : SocketAddr)
  | reply (client : SocketAddr) (pkt : Bytes)
  deriving DecidableEq

structure Association where
  controlPeer : SocketAddr
  expectedIp : IpAddr
  client : Option SocketAddr
  deriving DecidableEq

section Associate

variable {ν ρ : Type} (crates : Crates ν ρ) (set : RuleSet ν ρ)

/-- What becomes of a datagram of the client. -/
def forward (a : Association) (source : SocketAddr) (lookup : Text → UInt16 → Option SocketAddr)
    (dns : Text → Except AetherError IpAddr) (buf : Bytes) : List Outgoing :=
  match parseUdpRequest buf with
  | none => []
  | some (dst, dstPort, payload) =>
      match set.decide crates (hostOf dst) dstPort with
      | .block => []
      | .direct =>
          -- an address goes out as it is, a name is looked up outside the tunnel
          let outside : Option SocketAddr :=
            match dst with
            | .ip ip => some (.new ip dstPort)
            | .domain name => lookup name dstPort
          match outside with
          | some addr =>
              -- an address of the device itself is for a local client only
              if directTargetAllowed a.controlPeer.ip addr.ip then
                [.direct source dst dstPort payload addr]
              else
                []
          | none => []
      -- a name is looked up inside the tunnel; without an answer the datagram is dropped
      | .proxy =>
          match dst with
          | .ip ip => [.tunnel source dst dstPort payload (.new ip dstPort)]
          | .domain name =>
              match dns name with
              | .ok ip => [.tunnel source dst dstPort payload (.new ip dstPort)]
              | .error _ => []

/-- A packet for the client, if there is one already. -/
def replyTo (a : Association) (src : SocketAddr) (data : Bytes) : List Outgoing :=
  match a.client with
  | some client => [.reply client (buildUdpReply src data)]
  | none => []

/-- One turn of the loop; `none` is the end of it. -/
def serveIncoming (a : Association) : Incoming → Option (Association × List Outgoing)
  | .relay none _ _ => none
  | .relay (some (buf, source)) lookup dns =>
      if udpSourceAllowed a.expectedIp a.client source then
        let a := { a with client := a.client.or (some source) }
        some (a, forward crates set a source lookup dns buf)
      else
        some (a, [])
  | .fromStack none => none
  | .fromStack (some (src, data)) => some (a, replyTo a src data)
  | .direct none => some (a, [])
  | .direct (some (buf, src)) => some (a, replyTo a src buf)
  | .control none => none
  | .control (some n) => if n = 0 then none else some (a, [])

/-- The loop, for as long as it wakes up. -/
def serveAll (a : Association) : List Incoming → List Outgoing
  | [] => []
  | incoming :: rest =>
      match serveIncoming crates set a incoming with
      | some (a, out) => out ++ serveAll a rest
      | none => []

/-- What the calls before the loop come to. -/
structure Openings where
  peerAddr : Except AetherError SocketAddr
  /-- the address of the relay socket -/
  relay : Except AetherError SocketAddr
  replyBound : Except AetherError Unit
  openUdp : Except AetherError Unit
  directRelay : Except AetherError Unit

/-- The association that stands when all of these have gone well. -/
def openAssociation (openings : Openings) (requested : Target) : Except AetherError Association := do
  let controlPeer ← openings.peerAddr
  let _relayAddr ← openings.relay
  openings.replyBound
  openings.openUdp
  openings.directRelay
  pure ⟨controlPeer, expectedUdpSource controlPeer requested, none⟩

/-- Everything that goes out. -/
def handleUdpAssociate (openings : Openings) (requested : Target) (incoming : List Incoming) :
    Except AetherError (List Outgoing) := do
  let a ← openAssociation openings requested
  pure (serveAll crates set a incoming)

end Associate

/-! ## One client -/

section Guarded

variable {ν ρ : Type} {crates : Crates ν ρ} {set : RuleSet ν ρ} {a : Association}
  {incoming : Incoming} {rest : List Incoming}

/-- Where the datagrams at the relay socket come from. -/
def sources : List Incoming → List SocketAddr
  | [] => []
  | .relay (some (_, source)) _ _ :: rest => source :: sources rest
  | _ :: rest => sources rest

/-- What an association may send, if it serves `client`. -/
def Outgoing.Guarded (crates : Crates ν ρ) (set : RuleSet ν ρ) (controlPeer : SocketAddr)
    (client : Option SocketAddr) : Outgoing → Prop
  | .direct source target port _ addr =>
      client = some source ∧ set.decide crates (hostOf target) port = .direct ∧
        ((normalizeIp addr.ip).isLoopback = true ∨ (normalizeIp addr.ip).isUnspecified = true →
          (normalizeIp controlPeer.ip).isLoopback = true)
  | .tunnel source target port _ _ =>
      client = some source ∧ set.decide crates (hostOf target) port = .proxy
  | .reply receiver _ => client = some receiver

/-- The client that an association has, or the first that it would accept. -/
def Association.clientAmong (a : Association) (found : List SocketAddr) : Option SocketAddr :=
  a.client.or (found.find? fun source => normalizeIp source.ip = normalizeIp a.expectedIp)

theorem forward_guarded {source : SocketAddr} {lookup : Text → UInt16 → Option SocketAddr}
    {dns : Text → Except AetherError IpAddr} {buf : Bytes} :
    ∀ out ∈ forward crates set a source lookup dns buf,
      out.Guarded crates set a.controlPeer (some source) := by
  intro out hout
  unfold forward at hout
  split at hout
  case h_1 => cases hout
  -- the header was read: the rules are asked about what it names
  case h_2 dst dstPort payload =>
    split at hout
    case h_1 => cases hout
    -- directly, and only where the guard on this machine allows it
    case h_2 hdirect =>
      dsimp only at hout
      split at hout
      case h_2 => cases hout
      case h_1 addr _ =>
        split at hout
        case isFalse => cases hout
        case isTrue hallowed =>
          obtain rfl := List.mem_singleton.mp hout
          refine ⟨rfl, hdirect, fun hlocal => ?_⟩
          simpa [directTargetAllowed, hlocal] using hallowed
    -- through the tunnel, to an address or to what a name resolves to
    case h_3 hproxy =>
      split at hout
      case h_1 =>
        obtain rfl := List.mem_singleton.mp hout
        exact ⟨rfl, hproxy⟩
      case h_2 =>
        split at hout
        case h_1 =>
          obtain rfl := List.mem_singleton.mp hout
          exact ⟨rfl, hproxy⟩
        case h_2 => cases hout

theorem replyTo_guarded {src : SocketAddr} {data : Bytes} :
    ∀ out ∈ replyTo a src data, out.Guarded crates set a.controlPeer a.client := by
  intro out hout
  unfold replyTo at hout
  split at hout
  case h_1 client hclient =>
    obtain rfl := List.mem_singleton.mp hout
    exact hclient
  case h_2 => cases hout

/-- A turn of the loop is about the client there is then, who stays, and who is the first accepted. -/
theorem serveIncoming_guarded {a' : Association} {out : List Outgoing}
    (h : serveIncoming crates set a incoming = some (a', out)) :
    a'.controlPeer = a.controlPeer ∧ a'.expectedIp = a.expectedIp ∧
      a'.clientAmong (sources rest) = a.clientAmong (sources (incoming :: rest)) ∧
      ∀ o ∈ out, o.Guarded crates set a.controlPeer a'.client := by
  cases incoming with
  | relay datagram lookup dns =>
      cases datagram with
      | none => cases h
      | some datagram =>
          obtain ⟨buf, source⟩ := datagram
          simp only [serveIncoming] at h
          split at h
          case isTrue hallowed =>
            obtain ⟨rfl, rfl⟩ := Prod.mk.inj (Option.some.inj h)
            -- accepted: latched now, or the latched one
            have hclient : a.client.or (some source) = some source := by
              cases hlatched : a.client with
              | none => rfl
              | some known => simpa [udpSourceAllowed, hlatched] using hallowed
            refine ⟨rfl, rfl, ?_, ?_⟩
            · cases hlatched : a.client with
              | none =>
                  have hmatch : normalizeIp source.ip = normalizeIp a.expectedIp := by
                    simpa [udpSourceAllowed, hlatched] using hallowed
                  simp [Association.clientAmong, sources, hlatched, hmatch]
              | some known => simp [Association.clientAmong, hlatched]
            · dsimp only
              rw [hclient]
              exact forward_guarded
          case isFalse hrefused =>
            obtain ⟨rfl, rfl⟩ := Prod.mk.inj (Option.some.inj h)
            refine ⟨rfl, rfl, ?_, by simp⟩
            cases hlatched : a.client with
            | none =>
                have hother : ¬normalizeIp source.ip = normalizeIp a.expectedIp := by
                  simpa [udpSourceAllowed, hlatched] using hrefused
                simp [Association.clientAmong, sources, hlatched, hother]
            | some known => simp [Association.clientAmong, hlatched]
  | fromStack answer =>
      cases answer with
      | none => cases h
      | some answer =>
          obtain ⟨rfl, rfl⟩ := Prod.mk.inj (Option.some.inj h)
          exact ⟨rfl, rfl, rfl, replyTo_guarded⟩
  | direct answer =>
      cases answer with
      | none =>
          obtain ⟨rfl, rfl⟩ := Prod.mk.inj (Option.some.inj h)
          exact ⟨rfl, rfl, rfl, by simp⟩
      | some answer =>
          obtain ⟨rfl, rfl⟩ := Prod.mk.inj (Option.some.inj h)
          exact ⟨rfl, rfl, rfl, replyTo_guarded⟩
  | control count =>
      cases count with
      | none => cases h
      | some n =>
          simp only [serveIncoming] at h
          split at h
          case isTrue => cases h
          case isFalse =>
            obtain ⟨rfl, rfl⟩ := Prod.mk.inj (Option.some.inj h)
            exact ⟨rfl, rfl, rfl, by simp⟩

/-- A client that is latched stays the one. -/
theorem Outgoing.Guarded.among {controlPeer : SocketAddr} {out : Outgoing}
    (h : out.Guarded crates set controlPeer a.client) (found : List SocketAddr) :
    out.Guarded crates set controlPeer (a.clientAmong found) := by
  have hlatched : ∀ {client}, a.client = some client → a.clientAmong found = some client := by
    intro client hclient
    simp [Association.clientAmong, hclient]
  cases out with
  | direct source target port payload addr => exact ⟨hlatched h.1, h.2⟩
  | tunnel source target port payload addr => exact ⟨hlatched h.1, h.2⟩
  | reply receiver pkt => exact hlatched h

theorem serveAll_guarded (incoming : List Incoming) :
    ∀ out ∈ serveAll crates set a incoming,
      out.Guarded crates set a.controlPeer (a.clientAmong (sources incoming)) := by
  induction incoming generalizing a with
  | nil => simp [serveAll]
  | cons first rest ih =>
      intro out hout
      unfold serveAll at hout
      split at hout
      case h_1 a' sent hturn =>
        obtain ⟨hpeer, -, hclient, hsent⟩ :=
          @serveIncoming_guarded _ _ crates set a first rest a' sent hturn
        rw [← hclient]
        rcases List.mem_append.mp hout with hout | hout
        · exact (hsent out hout).among (sources rest)
        · have hlater := @ih a' out hout
          rwa [hpeer] at hlater
      case h_2 => cases hout

/-- The address that the client has declared, or that of its control connection. -/
def servedIp (controlPeer : SocketAddr) : Target → IpAddr
  | .ip ip => if ip.isUnspecified then controlPeer.ip else ip
  | .domain _ => controlPeer.ip

theorem expectedUdpSource_eq (controlPeer : SocketAddr) (requested : Target) :
    expectedUdpSource controlPeer requested = normalizeIp (servedIp controlPeer requested) := by
  cases requested with
  | ip ip => cases hdeclared : ip.isUnspecified <;> simp [expectedUdpSource, servedIp, hdeclared]
  | domain name => rfl

/-- **An association serves one client**: whatever comes in and in whatever order, all that it
forwards comes from one address and all its replies go there, the first address from which a datagram
came with the IP address that the client has declared, or that of its control connection; what it
forwards the rules let through, by the way that they say; and nothing goes directly to this machine
but for a client on this machine. -/
theorem associate_guarded {openings : Openings} {requested : Target} {incoming : List Incoming}
    {sent : List Outgoing}
    (h : handleUdpAssociate crates set openings requested incoming = .ok sent) :
    ∃ controlPeer, openings.peerAddr = .ok controlPeer ∧
      ∀ out ∈ sent, out.Guarded crates set controlPeer
        ((sources incoming).find? fun source =>
          normalizeIp source.ip = normalizeIp (servedIp controlPeer requested)) := by
  obtain ⟨peerAddr, relay, replyBound, openUdp, directRelay⟩ := openings
  cases peerAddr with
  | error e => cases h
  | ok controlPeer =>
      refine ⟨controlPeer, rfl, ?_⟩
      -- each of the openings may fail, and then nothing is served
      have hopened : sent = serveAll crates set
          ⟨controlPeer, expectedUdpSource controlPeer requested, none⟩ incoming := by
        cases relay with
        | error e => cases h
        | ok relayAddr =>
            cases replyBound with
            | error e => cases h
            | ok _ =>
                cases openUdp with
                | error e => cases h
                | ok _ =>
                    cases directRelay with
                    | error e => cases h
                    | ok _ => exact (Except.ok.inj h).symm
      rw [hopened]
      have hguarded := @serveAll_guarded _ _ crates set
        ⟨controlPeer, expectedUdpSource controlPeer requested, none⟩ incoming
      simpa only [Association.clientAmong, Option.none_or, expectedUdpSource_eq,
        normalizeIp_normalizeIp] using hguarded

end Guarded

/-- A local client, behind a datagram from elsewhere. -/
theorem associate_guarded_local :
    let client : SocketAddr := .new (.v4 ⟨[127, 0, 0, 1], rfl⟩) 5000
    let server : SocketAddr := .new (.v4 ⟨[8, 8, 8, 8], rfl⟩) 53
    ∃ controlPeer : SocketAddr,
      (.ok (.new (.v4 ⟨[127, 0, 0, 1], rfl⟩) 40000) : Except AetherError SocketAddr) = .ok controlPeer ∧
      ∀ out ∈ ([.tunnel client (.ip server.ip) 53 [7] server,
          .reply client (buildUdpReply server [9])] : List Outgoing),
        out.Guarded hostCrates ⟨[], []⟩ controlPeer
          (([.new (.v4 ⟨[1, 2, 3, 4], rfl⟩) 9, client] : List SocketAddr).find? fun source =>
            normalizeIp source.ip = normalizeIp (servedIp controlPeer (.ip (.v4 ⟨[0, 0, 0, 0], rfl⟩)))) :=
  @associate_guarded _ _ hostCrates ⟨[], []⟩
    ⟨.ok (.new (.v4 ⟨[127, 0, 0, 1], rfl⟩) 40000), .ok (.new (.v4 ⟨[127, 0, 0, 1], rfl⟩) 40001), .ok (), .ok (),
      .ok ()⟩
    (.ip (.v4 ⟨[0, 0, 0, 0], rfl⟩))
    [.relay (some ([], .new (.v4 ⟨[1, 2, 3, 4], rfl⟩) 9)) (fun _ _ => none) fun _ => .error (.other ""),
      .relay (some ([0, 0, 0, 1, 8, 8, 8, 8, 0, 53, 7], .new (.v4 ⟨[127, 0, 0, 1], rfl⟩) 5000))
        (fun _ _ => none) fun _ => .error (.other ""),
      .fromStack (some (.new (.v4 ⟨[8, 8, 8, 8], rfl⟩) 53, [9]))]
    _ rfl

end Socks
end AuroraVpn
