import AuroraVpn.Socks.Connect

/-!
# Told — a client is told its outcome once

* `handleConnect_toldOnce_iff`: when the client gets one reply and then only what the remote side
  sent.
* `handleConnect_replies_twice`: a run in which the client gets a second reply.
-/

namespace AuroraVpn
namespace Socks

open Routing

section Said

variable {α γ : Type} {s s' : Session} {room : Nat} {full : List (Voice × UInt8)}

/-- The client has been told `full`, as far as it takes it. -/
def Said (room : Nat) (full : List (Voice × UInt8)) (s : Session) : Prop :=
  s.written = full.take room ∧ s.room = room - full.length

/-- The client has been told one reply and then what came from the remote side. -/
def Told (room : Nat) (s : Session) : Prop :=
  ∃ code bs, Said room (said .own (replyBytes code) ++ said .remote bs) s

/-- The bytes written are one reply and then bytes from the remote side, as far as the client took
them. -/
def ToldOnce (room : Nat) (written : List (Voice × UInt8)) : Prop :=
  ∃ code bs, written = (said .own (replyBytes code) ++ said .remote bs).take room

theorem Told.toldOnce : Told room s → ToldOnce room s.written := by
  rintro ⟨code, bs, hwritten, -⟩
  exact ⟨code, bs, hwritten⟩

theorem bind_ok {act : Serve α} {f : α → Serve γ} {a : α} (h : act s = (.ok a, s')) :
    (act >>= f) s = f a s' := by
  change (act >>= ExceptT.bindCont f : StateM Session _) s = _
  change ExceptT.bindCont f (act s).1 (act s).2 = _
  rw [h]
  rfl

theorem bind_error {act : Serve α} {f : α → Serve γ} {e : AetherError}
    (h : act s = (.error e, s')) : (act >>= f) s = (.error e, s') := by
  change ExceptT.bindCont f (act s).1 (act s).2 = _
  rw [h]
  rfl

theorem lift_ok (a : α) : (liftM (Except.ok a : Except AetherError α) : Serve α) s = (.ok a, s) := rfl

theorem get_ok : (get : Serve Session) s = (.ok s, s) := rfl

theorem Said.writeAll (h : Said room full s) (voice : Voice) (bs : Bytes) :
    Said room (full ++ said voice bs) (writeAll voice bs s).2 := by
  obtain ⟨hwritten, hroom⟩ := h
  constructor
  · simp [Socks.writeAll, hwritten, hroom, List.take_append, said, List.map_take]
  · simp [Socks.writeAll, hroom, said, Nat.sub_sub]

theorem attempt_snd (act : Serve Unit) (s : Session) : (attempt act s).2 = (act s).2 := by
  rw [attempt]
  split
  · rename_i h
    rw [h]
  · rename_i h
    rw [h]

theorem attempt_bind (act : Serve Unit) (f : Bool → Serve γ) (s : Session) :
    ∃ ok, (attempt act >>= f) s = f ok (act s).2 := by
  cases h : attempt act s with
  | mk result s' =>
      have hs' : s' = (act s).2 := by rw [← attempt_snd, h]
      cases result with
      | ok ok => exact ⟨ok, by rw [bind_ok h, hs']⟩
      | error e =>
          rw [attempt] at h
          split at h <;> cases h

theorem Told.remote (h : Told room s) (bs : Bytes) : Told room (writeAll .remote bs s).2 := by
  obtain ⟨code, bs', hsaid⟩ := h
  refine ⟨code, bs' ++ bs, ?_⟩
  simpa [said] using hsaid.writeAll .remote bs

theorem Told.relay (h : Told room s) (chunks : List Bytes) : Told room (relay chunks s).2 := by
  induction chunks generalizing s with
  | nil => exact h
  | cons chunk chunks ih =>
      obtain ⟨ok, hrun⟩ := attempt_bind (writeAll .remote chunk)
        (fun ok => if ok then Socks.relay chunks else pure ()) s
      have htold := h.remote chunk
      change Told room ((attempt (writeAll .remote chunk) >>=
        fun ok => if ok then Socks.relay chunks else pure ()) s).2
      rw [hrun]
      cases ok with
      | true => exact ih htold
      | false => exact htold

/-- The client has been told the outcome already, or nothing yet. -/
def Spoken (room : Nat) (replied : Bool) (s : Session) : Prop :=
  if replied then Told room s else Said room [] s

theorem told_reply (h : Said room [] s) (code : UInt8) : Told room (reply code s).2 := by
  refine ⟨code, [], ?_⟩
  rw [reply]
  simpa [said] using h.writeAll .own (replyBytes code)

theorem Spoken.refuse {replied : Bool} (h : Spoken room replied s) (code : UInt8) :
    Told room (refuse replied code s).2 := by
  cases replied with
  | true => exact h
  | false =>
      obtain ⟨ok, hrun⟩ := attempt_bind (reply code) (fun _ => pure ()) s
      change Told room ((attempt (reply code) >>= fun _ => pure ()) s).2
      rw [hrun]
      exact told_reply h code

theorem bind_cases (act : Serve α) (f : α → Serve γ) (s : Session) :
    (∃ a, (act >>= f) s = f a (act s).2) ∨ ∃ e, (act >>= f) s = (.error e, (act s).2) := by
  cases h : act s with
  | mk result s' =>
      cases result with
      | ok a => exact .inl ⟨a, bind_ok h⟩
      | error e => exact .inr ⟨e, bind_error h⟩

/-- What stands behind `confirm` starts from a client that has been told the outcome. -/
theorem Spoken.confirm {replied : Bool} (h : Spoken room replied s) {act : Serve Unit}
    (hact : ∀ s', Told room s' → Told room (act s').2) :
    Told room ((confirm replied >>= fun _ => act) s).2 := by
  have htold : Told room (Socks.confirm replied s).2 := by
    cases replied with
    | true => exact h
    | false => exact told_reply h REP_OK
  obtain ⟨_, hrun⟩ | ⟨_, hrun⟩ := bind_cases (Socks.confirm replied) (fun _ => act) s
  · rw [hrun]
    exact hact _ htold
  · rw [hrun]
    exact htold

theorem Told.deliver (h : Told room s) (channel : Channel) (head : Bytes) :
    Told room (deliver channel head s).2 := by
  rw [Socks.deliver]
  split_ifs
  · exact h
  · exact h.relay _
  · obtain ⟨ok, hrun⟩ := attempt_bind (writeAll .remote channel.leftover)
      (fun ok => if ok then Socks.relay channel.chunks else pure ()) s
    refine hrun ▸ ?_
    cases ok with
    | true => exact (h.remote _).relay _
    | false => exact h.remote _

end Said

/-! ## The exits -/

section Exits

variable {ν ρ : Type} {w : World ν ρ} {target : Target} {port : UInt16} {s : Session} {room : Nat}
  {replied : Bool} {head : Bytes} {named : Option Text}

/-- No connection through the tunnel: the gateway, where it is asked, fails, and so does the name
server or the connection without it. -/
def TunnelFails (w : World ν ρ) (healthy : Bool) (target : Target) (port : UInt16) : Prop :=
  (∀ proxy, viaGateway w healthy port = some proxy →
    ∃ e, w.openThroughGateway proxy target port = .error e) ∧
  ∀ ip, resolve w.dnsResolve target = .ok ip → ∃ e, w.openTcp (.new ip port) = .error e

theorem Spoken.handleDirect (h : Spoken room replied s) (hhead : head ≠ [] → replied = true)
    (hpeer : replied = false → ∃ client, w.peerAddr = .ok client) :
    Told room (handleDirect w target port head replied s).2 := by
  rw [Socks.handleDirect]
  cases haddr : w.peerAddr with
  | error e =>
      cases replied with
      -- told already, so nothing more is said
      | true => exact h
      | false =>
          obtain ⟨client, hclient⟩ := hpeer rfl
          rw [hclient] at haddr
          cases haddr
  | ok client =>
      rw [bind_ok (lift_ok client)]
      rcases w.connectDirect target port client with _ | (kind | upstream)
      · exact h.refuse _
      · exact h.refuse _
      · change Told room ((if (!head.isEmpty && !upstream.takesHead) = true then pure () else
          Socks.confirm replied >>= fun _ => Socks.relay upstream.chunks : Serve Unit) s).2
        split_ifs with hstop
        -- the head was not taken: there is one, so the client was told before
        · have hne : head ≠ [] := by
            rintro rfl
            simp at hstop
          rw [Spoken, hhead hne] at h
          exact h
        · exact h.confirm fun s' htold => htold.relay _

/-- A reply on the way out to an error. -/
theorem attempt_reply_throw (e : AetherError) (s : Session) :
    (attempt (reply REP_GENERAL) >>= fun _ => throw e : Serve Channel) s =
      (.error e, (reply REP_GENERAL s).2) := by
  obtain ⟨ok, hrun⟩ := attempt_bind (reply REP_GENERAL) (fun _ => throw e : Bool → Serve Channel) s
  exact hrun

/-- Without the gateway a connection is opened, or one more reply is written. -/
theorem openPlain_cases (w : World ν ρ) (target : Target) (port : UInt16) (s : Session) :
    ((∃ ip channel, resolve w.dnsResolve target = .ok ip ∧ w.openTcp (.new ip port) = .ok channel) ∧
      ∃ channel, openPlain w target port s = (.ok channel, s)) ∨
    ((∀ ip, resolve w.dnsResolve target = .ok ip → ∃ e, w.openTcp (.new ip port) = .error e) ∧
      ∃ e, openPlain w target port s = (.error e, (reply REP_GENERAL s).2)) := by
  rw [openPlain]
  cases hresolve : resolve w.dnsResolve target with
  | error e => exact .inr ⟨by simp, e, attempt_reply_throw e s⟩
  | ok ip =>
      cases htcp : w.openTcp (.new ip port) with
      | error e =>
          refine .inr ⟨?_, e, by simp only [htcp]; exact attempt_reply_throw e s⟩
          rintro _ ⟨⟩
          exact ⟨e, htcp⟩
      | ok channel => exact .inl ⟨⟨ip, channel, rfl, htcp⟩, _, by simp only [htcp]; rfl⟩

/-- A connection through the tunnel is opened, or one more reply is written. -/
theorem openChannel_cases (w : World ν ρ) (target : Target) (port : UInt16) (s : Session) :
    ∃ healthy, (¬TunnelFails w s.gatewayHealthy target port ∧
      ∃ channel, openChannel w target port s = (.ok channel, { s with gatewayHealthy := healthy })) ∨
    (TunnelFails w s.gatewayHealthy target port ∧ ∃ e, openChannel w target port s =
      (.error e, (reply REP_GENERAL { s with gatewayHealthy := healthy }).2)) := by
  rw [openChannel, bind_ok get_ok]
  -- the plain way is taken where the gateway is no way, and where it has failed
  have hplain : ∀ s' : Session, (∀ proxy, viaGateway w s.gatewayHealthy port = some proxy →
        ∃ e, w.openThroughGateway proxy target port = .error e) →
      (¬TunnelFails w s.gatewayHealthy target port ∧
        ∃ channel, openPlain w target port s' = (.ok channel, s')) ∨
      (TunnelFails w s.gatewayHealthy target port ∧ ∃ e, openPlain w target port s' =
        (.error e, (reply REP_GENERAL s').2)) := by
    intro s' hgateway
    obtain ⟨⟨ip, channel, hip, htcp⟩, hrun⟩ | ⟨hfail, hrun⟩ := openPlain_cases w target port s'
    · refine .inl ⟨fun hfails => ?_, hrun⟩
      obtain ⟨e, he⟩ := hfails.2 ip hip
      rw [htcp] at he
      cases he
    · exact .inr ⟨⟨hgateway, hfail⟩, hrun⟩
  cases hvia : viaGateway w s.gatewayHealthy port with
  | none => exact ⟨s.gatewayHealthy, hplain s (by simp [hvia])⟩
  | some proxy =>
      cases hopen : w.openThroughGateway proxy target port with
      | ok channel =>
          refine ⟨s.gatewayHealthy, .inl ⟨fun hfails => ?_, channel, by simp only [hopen]; rfl⟩⟩
          obtain ⟨e, he⟩ := hfails.1 proxy hvia
          rw [hopen] at he
          cases he
      -- a gateway that fails is retired before the plain way is tried
      | error e =>
          refine ⟨false, ?_⟩
          simp only [hopen]
          exact hplain { s with gatewayHealthy := false } (by simp [hvia, hopen])

theorem spoken_gatewayHealthy (healthy : Bool) :
    Spoken room replied { s with gatewayHealthy := healthy } ↔ Spoken room replied s := Iff.rfl

/-- **The exits that honour the early reply.** -/
theorem Spoken.dispatch (h : Spoken room replied s) (hhead : head ≠ [] → replied = true)
    (hproxy : decideRoute w.crates w.routes target named port = .proxy → replied = true →
      ¬TunnelFails w s.gatewayHealthy target port)
    (hdirect : decideRoute w.crates w.routes target named port = .direct → replied = false →
      ∃ client, w.peerAddr = .ok client) :
    Told room (dispatch w target port head replied named s).2 := by
  rw [Socks.dispatch]
  cases hroute : decideRoute w.crates w.routes target named port with
  | block => exact h.refuse _
  | direct => exact h.handleDirect hhead (hdirect hroute)
  | proxy =>
      -- the channel is open and the client is told, or the gateway refuses it
      obtain ⟨healthy, ⟨-, channel, hrun⟩ | ⟨hfails, e, hrun⟩⟩ := openChannel_cases w target port s
      · change Told room ((openChannel w target port >>= fun channel =>
          Socks.confirm replied >>= fun _ => Socks.deliver channel head) s).2
        rw [bind_ok hrun]
        exact ((spoken_gatewayHealthy healthy).2 h).confirm fun s' htold => htold.deliver _ _
      · change Told room ((openChannel w target port >>= fun channel =>
          Socks.confirm replied >>= fun _ => Socks.deliver channel head) s).2
        rw [bind_error hrun]
        -- told too early is what the condition leaves out
        cases replied with
        | true => exact absurd hfails (hproxy hroute rfl)
        | false => exact told_reply ((spoken_gatewayHealthy healthy).2 h) _

/-- Two replies, the second of which the client can see. -/
theorem not_toldOnce {code code' : UInt8} (hroom : 10 < room)
    (h : Said room (said .own (replyBytes code) ++ said .own (replyBytes code')) s) :
    ¬ToldOnce room s.written := by
  rintro ⟨code'', bs, hwritten⟩
  have htenth := congrArg (fun l => l[10]?) (h.1.symm.trans hwritten)
  simp only [List.getElem?_take, hroom, if_true] at htenth
  cases bs with
  | nil => simp [said, replyBytes] at htenth
  | cons b bs => simp [said, replyBytes] at htenth

end Exits

/-! ## Once -/

section Once

variable {ν ρ : Type} (w : World ν ρ) (target : Target) (port : UInt16) (healthy : Bool)

/-- The client has been told of success to get its first bytes, and then the tunnel fails. -/
def FailsAfterReply : Prop :=
  sniffs w.sniffEnabled w.routes target = true ∧ ∃ head, readSniffHead w = some head ∧
    decideRoute w.crates w.routes target (announced w head) port = .proxy ∧
    TunnelFails w healthy target port

/-- A client that has been told nothing is to be sent around the tunnel, and the system does not
know its address any more. -/
def LosesClient : Prop :=
  sniffs w.sniffEnabled w.routes target = false ∧
    decideRoute w.crates w.routes target none port = .direct ∧ ∃ e, w.peerAddr = .error e

variable {w target port healthy}

/-- A run that waits for the client's first bytes, and what it has said by then. -/
theorem handleConnect_of_sniffs {s : Session} (h : sniffs w.sniffEnabled w.routes target = true)
    (hroom : 10 ≤ s.room) :
    handleConnect w target port s =
      (match readSniffHead w with
      | some head => dispatch w target port head true (announced w head)
      | none => pure () : Serve Unit) (replyBound unspecified s).2 := by
  have hreply : replyBound unspecified s = (.ok (), (replyBound unspecified s).2) := by
    have hlen : (boundBytes unspecified).length ≤ s.room := hroom
    simp [replyBound, writeAll, hlen]
  rw [handleConnect, if_pos h]
  exact bind_ok hreply

/-- A client that does not take the whole first reply gets nothing else. -/
theorem told_of_cut {room : Nat} (h : sniffs w.sniffEnabled w.routes target = true)
    (hroom : ¬10 ≤ room) : Told room (handleConnect w target port ⟨room, [], healthy⟩).2 := by
  have hnothing : Said room [] ⟨room, [], healthy⟩ := ⟨by simp, by simp⟩
  have hreply : replyBound unspecified ⟨room, [], healthy⟩ =
      (.error (.io .brokenPipe), (reply REP_OK ⟨room, [], healthy⟩).2) := by
    have hlen : ¬(boundBytes unspecified).length ≤ room := hroom
    simp only [replyBound, writeAll, hlen, if_false]
    rfl
  rw [handleConnect, if_pos h]
  have hstop := bind_error (f := fun _ => (match readSniffHead w with
    | some head => dispatch w target port head true (announced w head)
    | none => pure () : Serve Unit)) hreply
  exact hstop ▸ told_reply hnothing REP_OK

/-- The exit that writes a second reply. -/
theorem said_of_failsAfterReply {room : Nat} (h : FailsAfterReply w target port healthy)
    (hroom : 10 ≤ room) :
    Said room (said .own (replyBytes REP_OK) ++ said .own (replyBytes REP_GENERAL))
      (handleConnect w target port ⟨room, [], healthy⟩).2 := by
  obtain ⟨hsniffs, head, hhead, hroute, hfails⟩ := h
  have hfirst : Said room (said .own (replyBytes REP_OK))
      (replyBound unspecified ⟨room, [], healthy⟩).2 := by
    have hnothing : Said room [] ⟨room, [], healthy⟩ := ⟨by simp, by simp⟩
    exact hnothing.writeAll .own (boundBytes unspecified)
  rw [handleConnect_of_sniffs hsniffs hroom, hhead]
  change Said room _ (dispatch w target port head true (announced w head) _).2
  rw [dispatch, hroute]
  obtain ⟨healthy', ⟨hnot, -⟩ | ⟨-, e, hrun⟩⟩ := openChannel_cases w target port
    (replyBound unspecified ⟨room, [], healthy⟩).2
  · exact absurd hfails hnot
  · change Said room _ ((openChannel w target port >>= fun channel =>
      confirm true >>= fun _ => deliver channel head) _).2
    rw [bind_error hrun]
    have hsame : Said room (said .own (replyBytes REP_OK))
        { (replyBound unspecified ⟨room, [], healthy⟩).2 with gatewayHealthy := healthy' } := hfirst
    exact hsame.writeAll .own (replyBytes REP_GENERAL)

/-- A client that is lost on the way is told nothing. -/
theorem written_of_losesClient {room : Nat} (h : LosesClient w target port) :
    (handleConnect w target port ⟨room, [], healthy⟩).2.written = [] := by
  obtain ⟨hsniffs, hroute, e, hpeer⟩ := h
  rw [handleConnect, if_neg (by simp [hsniffs]), dispatch, hroute]
  change (handleDirect w target port [] false _).2.written = []
  rw [handleDirect, hpeer]
  rfl

/-- Every other run tells the client its outcome once. -/
theorem told_handleConnect {room : Nat} (hreply : ¬FailsAfterReply w target port healthy)
    (hclient : ¬LosesClient w target port) :
    Told room (handleConnect w target port ⟨room, [], healthy⟩).2 := by
  have hnothing : Said room [] ⟨room, [], healthy⟩ := ⟨by simp, by simp⟩
  cases hsniffs : sniffs w.sniffEnabled w.routes target with
  | false =>
      rw [handleConnect, if_neg (by simp [hsniffs])]
      refine Spoken.dispatch hnothing (by simp) (by simp) fun hroute _ => ?_
      cases hpeer : w.peerAddr with
      | ok client => exact ⟨client, rfl⟩
      | error e => exact absurd ⟨hsniffs, hroute, e, hpeer⟩ hclient
  | true =>
      have hfirst := told_reply hnothing REP_OK
      by_cases hroom : 10 ≤ room
      · rw [handleConnect_of_sniffs hsniffs hroom]
        cases hhead : readSniffHead w with
        | none => exact hfirst
        | some head =>
            refine Spoken.dispatch hfirst (fun _ => rfl) (fun hroute _ hfails => ?_) (by simp)
            exact hreply ⟨hsniffs, head, hhead, hroute, hfails⟩
      · exact told_of_cut hsniffs hroom

theorem toldOnce_nil {room : Nat} : ToldOnce room [] ↔ room = 0 := by
  constructor
  · rintro ⟨code, bs, hwritten⟩
    have hlength := congrArg List.length hwritten
    simp only [List.length_nil, List.length_take, List.length_append, said, List.length_map,
      replyBytes, List.length_cons] at hlength
    omega
  · rintro rfl
    exact ⟨0, [], rfl⟩

/-- **When a client is told its outcome once.** -/
theorem handleConnect_toldOnce_iff (w : World ν ρ) (target : Target) (port : UInt16)
    (healthy : Bool) (room : Nat) :
    ToldOnce room (handleConnect w target port ⟨room, [], healthy⟩).2.written ↔
      ¬(FailsAfterReply w target port healthy ∧ 10 < room) ∧
        ¬(LosesClient w target port ∧ 0 < room) := by
  by_cases hreply : FailsAfterReply w target port healthy
  · have hclient : ¬LosesClient w target port := by
      rintro ⟨hsniffs, -⟩
      rw [hreply.1] at hsniffs
      cases hsniffs
    simp only [hreply, hclient, true_and, false_and, not_false_eq_true, and_true]
    constructor
    · intro htold hroom
      exact not_toldOnce hroom (said_of_failsAfterReply hreply (by omega)) htold
    · intro hroom
      -- the reply has ten bytes, and fits or is cut
      by_cases hfull : 10 ≤ room
      · have hten : room = 10 := by omega
        subst hten
        exact ⟨REP_OK, [], (said_of_failsAfterReply hreply hfull).1⟩
      · exact (told_of_cut hreply.1 hfull).toldOnce
  by_cases hclient : LosesClient w target port
  · rw [written_of_losesClient hclient, toldOnce_nil]
    simp [hreply, hclient]
  · simp only [hreply, hclient, false_and, not_false_eq_true, and_self, iff_true]
    exact (told_handleConnect hreply hclient).toldOnce

end Once

/-- A world in which a name can be sniffed but nothing can be reached. -/
def deadTunnel : World Empty Empty where
  crates := ⟨fun block => block.elim, fun pattern => pattern.elim, List.map Char.toLower⟩
  routes := ⟨[.domainFull "ads.example".toList], []⟩
  sniffEnabled := true
  peek := .timedOut
  hostname := fun _ => none
  gateway := none
  openThroughGateway := fun _ _ _ => .error (.other "unreachable")
  dnsResolve := fun _ => .error (.other "unreachable")
  openTcp := fun _ => .error (.other "unreachable")
  peerAddr := .ok (.v4 (IpAddr.quad 127 0 0 1))
  connectDirect := fun _ _ _ => none

/-- A client told of success is told of failure as well. -/
theorem handleConnect_replies_twice :
    (handleConnect deadTunnel (.ip (.v4 ⟨[1, 2, 3, 4], rfl⟩)) 443 ⟨1000, [], true⟩).2.written =
        said .own (replyBytes REP_OK ++ replyBytes REP_GENERAL) ∧
      ¬ToldOnce 1000
        (handleConnect deadTunnel (.ip (.v4 ⟨[1, 2, 3, 4], rfl⟩)) 443 ⟨1000, [], true⟩).2.written := by
  refine ⟨by decide, ?_⟩
  have hsaid : Said 1000 (said .own (replyBytes REP_OK) ++ said .own (replyBytes REP_GENERAL))
      (handleConnect deadTunnel (.ip (.v4 ⟨[1, 2, 3, 4], rfl⟩)) 443 ⟨1000, [], true⟩).2 :=
    ⟨by decide, by decide⟩
  exact not_toldOnce (by decide) hsaid

end Socks
end AuroraVpn
