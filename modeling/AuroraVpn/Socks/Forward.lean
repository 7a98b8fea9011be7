import AuroraVpn.Socks.RequestLine

/-!
# Forward — an HTTP request sent on to its origin

`handle_http_client` and `relay_http_direct` of `socks.rs`, as functions of what their surroundings do.
Either way the head is decoded, its first line replaced, and what that gives is written as text.

* `tailOf_fromUtf8Lossy`: the head is cut at the same place as text and as bytes.
* `forwards_iff`: the requests of which only the first line is changed.
-/

namespace AuroraVpn
namespace Socks

open IpAddr Routing Utf8
open AuroraVpn.Upstream (splitOnceAt)

/-! ## The model -/

/-- What was written to the client, and what was sent to the origin. -/
structure Exchange where
  answered : Bytes
  sent : Bytes
  deriving DecidableEq

abbrev Exchanging (α : Type) := ExceptT AetherError (StateM Exchange) α

/-- The rules, the connections to the origin, and whether the two ends take what is written. -/
structure Origins where
  decide : Host → UInt16 → Action
  /-- the bytes that came behind the gateway's answer -/
  openTunneled : Target → UInt16 → Except AetherError Bytes
  peerAddr : Except AetherError IpAddr
  /-- in time -/
  connectDirect : Text → UInt16 → IpAddr → Except IoErrorKind Unit
  clientTakes : Bool
  originTakes : Bool

def badRequest : Bytes :=
  asciiBytes "HTTP/1.1 400 Bad Request\r\nConnection: close\r\n\r\n".toList

def forbidden : Bytes :=
  asciiBytes "HTTP/1.1 403 Forbidden\r\nConnection: close\r\n\r\n".toList

def badGateway : Bytes :=
  asciiBytes "HTTP/1.1 502 Bad Gateway\r\nConnection: close\r\n\r\n".toList

def established : Bytes :=
  asciiBytes "HTTP/1.1 200 Connection established\r\n\r\n".toList

/-- `is_err()`, the other way round. -/
def taken (act : Exchanging Unit) : Exchanging Bool := fun s =>
  match act s with
  | (.ok (), s) => (.ok true, s)
  | (.error _, s) => (.ok false, s)

/-- `text.split_once("\r\n").map(|(_, tail)| tail).unwrap_or("")`. -/
def tailOf (text : Text) : Text :=
  ((splitOnceAt "\r\n".toList text).map Prod.snd).getD []

section Model

variable (w : Origins)

def answer (bs : Bytes) : Exchanging Unit := fun s =>
  if w.clientTakes then (.ok (), { s with answered := s.answered ++ bs }) else (.error (.io .brokenPipe), s)

def send (bs : Bytes) : Exchanging Unit := fun s =>
  if w.originTakes then (.ok (), { s with sent := s.sent ++ bs }) else (.error (.io .brokenPipe), s)

/-- Whether bytes, if there are any, were taken. -/
def handOn (write : Bytes → Exchanging Unit) (bs : Bytes) : Exchanging Bool :=
  if bs = [] then pure true else taken (write bs)

/-- The `match` on the new first line in `relay_http_direct`. -/
def openDirect (request : HttpRequestLine) (head : Bytes) : Exchanging Unit :=
  match request.rewritten with
  | some line => send w (encode (line ++ tailOf (fromUtf8Lossy head)))
  | none => answer w established

def sendEarly (early : Bytes) : Exchanging Unit :=
  if early = [] then pure () else send w early

/-- Whether what follows is relayed. -/
def relayHttpDirect (request : HttpRequestLine) (head early : Bytes) : Exchanging Bool := do
  let client ← ExceptT.mk (pure w.peerAddr)
  match w.connectDirect request.authority request.port client with
  | .error kind =>
      let _ ← taken (answer w (if kind = .permissionDenied then forbidden else badGateway))
      throw (.io kind)
  | .ok () =>
      openDirect w request head
      sendEarly w early
      pure true

/-- A request that is not sent on is answered here. -/
def openTunnel (request : HttpRequestLine) : Exchanging Unit :=
  match request.rewritten with
  | some _ => pure ()
  | none => answer w established

/-- `preamble`, sent. -/
def sendPreamble (request : HttpRequestLine) (text : Text) : Exchanging Bool :=
  match request.rewritten with
  | some line => taken (send w (encode (line ++ tailOf text)))
  | none => pure true

/-- `handle_http_client` from the channel to the origin on. -/
def tunnelHttp (request : HttpRequestLine) (text : Text) (leftover early : Bytes) : Exchanging Bool := do
  openTunnel w request
  if ← handOn (answer w) leftover then
    if ← sendPreamble w request text then handOn (send w) early else pure false
  else pure false

/-- `handle_http_client` behind the head. -/
def serveHead (head early : Bytes) : Exchanging Bool := do
  let text := fromUtf8Lossy head
  match parseRequestLine (firstLine text) with
  | none =>
      let _ ← taken (answer w badRequest)
      throw (.other ("unsupported http proxy request: " ++ String.ofList (firstLine text)))
  | some request =>
      let target := httpTarget request.authority
      match w.decide (hostOf target) request.port with
      | .block =>
          let _ ← taken (answer w forbidden)
          pure false
      | .direct => relayHttpDirect w request head early
      | .proxy =>
          match w.openTunneled target request.port with
          | .error error =>
              let _ ← taken (answer w badGateway)
              throw error
          | .ok leftover => tunnelHttp w request text leftover early

def handleHttpClient (reads : List Bytes) : Exchanging Bool := do
  let (head, early, _) ← ExceptT.mk (pure (readHead reads))
  serveHead w head early

/-- What is sent to the origin. -/
def sentBy (reads : List Bytes) : Bytes :=
  (handleHttpClient w reads ⟨[], []⟩).2.sent

end Model

/-! ## What the head becomes -/

/-- What stands behind the first CRLF. -/
def behindCrlf : Bytes → Bytes
  | 0x0D :: 0x0A :: rest => rest
  | _ :: rest => behindCrlf rest
  | [] => []

/-- The bytes are a text in UTF-8. -/
def WellFormed (bs : Bytes) : Prop :=
  ∃ t, encode t = bs

section Tail

variable {s t : Text} {pre rest : Bytes} {c : Char} {b : UInt8}

theorem tailOf_cons (h : ¬ (c = '\r' ∧ t.head? = some '\n')) : tailOf (c :: t) = tailOf t := by
  have hno : "\r\n".toList.isPrefixOf (c :: t) = false := by
    rw [Bool.eq_false_iff]
    intro hbegins
    obtain ⟨tail, htail⟩ := List.isPrefixOf_iff_prefix.1 hbegins
    cases htail
    exact h ⟨rfl, rfl⟩
  unfold tailOf
  rw [splitOnceAt, if_neg (by rw [hno]; exact Bool.false_ne_true)]
  cases splitOnceAt "\r\n".toList t with
  | none => rfl
  | some parts => rfl

theorem tailOf_crlf (t : Text) : tailOf ('\r' :: '\n' :: t) = t := rfl

theorem tailOf_append (h : '\r' ∉ s) (t : Text) : tailOf (s ++ t) = tailOf t := by
  induction s with
  | nil => rfl
  | cons c s ih =>
      have hc : c ≠ '\r' := fun hcr => h (hcr ▸ List.mem_cons_self)
      rw [List.cons_append, tailOf_cons fun hcr => hc hcr.1, ih fun hs => h (List.mem_cons_of_mem _ hs)]

theorem behindCrlf_cons (h : ¬ (b = 0x0D ∧ rest.head? = some 0x0A)) : behindCrlf (b :: rest) = behindCrlf rest := by
  exact behindCrlf.eq_2 b rest fun tail hb hrest => h ⟨hb, congrArg List.head? hrest⟩

theorem behindCrlf_append (h : 0x0D ∉ pre) (rest : Bytes) : behindCrlf (pre ++ rest) = behindCrlf rest := by
  induction pre with
  | nil => rfl
  | cons b pre ih =>
      have hb : b ≠ 0x0D := fun hcr => h (hcr ▸ List.mem_cons_self)
      rw [List.cons_append, behindCrlf_cons fun hcr => hb hcr.1, ih fun hpre => h (List.mem_cons_of_mem _ hpre)]

/-- A head is cut at the same place as text and as bytes. -/
theorem tailOf_fromUtf8Lossy (bs : Bytes) : tailOf (fromUtf8Lossy bs) = fromUtf8Lossy (behindCrlf bs) := by
  induction hlen : bs.length using Nat.strong_induction_on generalizing bs with
  | _ k ih =>
      have hfree : ∀ {pre : Bytes}, 0x0D ∉ pre → '\r' ∉ fromUtf8Lossy pre := fun hpre hmem =>
        hpre (mem_of_mem_fromUtf8Lossy (by decide) (by decide) hmem)
      by_cases hcr : 0x0D ∈ bs
      · -- up to the first CR nothing can be a CRLF
        obtain ⟨pre, rest, rfl, hpre⟩ := List.eq_append_cons_of_mem hcr
        rw [fromUtf8Lossy_append (by decide), tailOf_append (hfree hpre), behindCrlf_append hpre]
        change tailOf ('\r' :: fromUtf8Lossy rest) = fromUtf8Lossy (behindCrlf (0x0D :: rest))
        by_cases hlf : rest.head? = some 0x0A
        · obtain ⟨tail, rfl⟩ := List.head?_eq_some_iff.1 hlf
          have hdecoded : fromUtf8Lossy (0x0A :: tail) = '\n' :: fromUtf8Lossy tail :=
            fromUtf8Lossy_append (by decide) [] tail
          rw [hdecoded, tailOf_crlf]
          rfl
        -- no other byte is decoded to a line feed
        · have htext : (fromUtf8Lossy rest).head? ≠ some '\n' := fun htext =>
            hlf (head?_of_head?_fromUtf8Lossy (by decide) (by decide) htext)
          have hshort : rest.length < k := by
            rw [← hlen, List.length_append, List.length_cons]
            omega
          rw [tailOf_cons fun h => htext h.2, behindCrlf_cons fun h => hlf h.2, ih _ hshort rest rfl]
      -- without a CR neither has a CRLF, and nothing is behind it
      · calc tailOf (fromUtf8Lossy bs) = tailOf (fromUtf8Lossy bs ++ []) := by rw [List.append_nil]
          _ = [] := tailOf_append (hfree hcr) []
          _ = fromUtf8Lossy (behindCrlf (bs ++ [])) := by rw [behindCrlf_append hcr]; rfl
          _ = fromUtf8Lossy (behindCrlf bs) := by rw [List.append_nil]

/-- Well-formed bytes survive decoding, and no others do. -/
theorem encode_fromUtf8Lossy {bs : Bytes} : encode (fromUtf8Lossy bs) = bs ↔ WellFormed bs := by
  constructor
  · exact fun h => ⟨_, h⟩
  · rintro ⟨t, rfl⟩
    rw [fromUtf8Lossy_encode]

end Tail

/-! ## What is sent -/

/-- A request in absolute form, which is to be sent on with a new first line. -/
def Rewritten (head : Bytes) (request : HttpRequestLine) (line : Text) : Prop :=
  parseRequestLine (firstLine (fromUtf8Lossy head)) = some request ∧ request.rewritten = some line

/-- The tunnel takes the request. -/
structure Tunnels (w : Origins) (request : HttpRequestLine) : Prop where
  decided : w.decide (hostOf (httpTarget request.authority)) request.port = .proxy
  opened : ∃ leftover, w.openTunneled (httpTarget request.authority) request.port = .ok leftover
  clientTakes : w.clientTakes = true
  originTakes : w.originTakes = true

/-- The system's own network takes it. -/
structure GoesDirect (w : Origins) (request : HttpRequestLine) : Prop where
  decided : w.decide (hostOf (httpTarget request.authority)) request.port = .direct
  connected : ∃ client, w.peerAddr = .ok client ∧ w.connectDirect request.authority request.port client = .ok ()
  originTakes : w.originTakes = true

/-- Either way the origin is sent the new first line, what stands behind the old one, and the first bytes of
the body. -/
def ForwardsExactly (reads : List Bytes) : Prop :=
  ∀ head early unread, readHead reads = .ok (head, early, unread) → ∀ request line, Rewritten head request line →
    ∀ tunnel direct, Tunnels tunnel request → GoesDirect direct request →
      sentBy tunnel reads = sentBy direct reads ∧
        sentBy tunnel reads = encode line ++ behindCrlf head ++ early

section Sent

variable {α γ : Type} {x x' : Exchange} {w : Origins} {reads : List Bytes} {head early : Bytes}
  {unread : List Bytes} {request : HttpRequestLine}
  {line : Text}

theorem exchanging_bind {act : Exchanging α} {f : α → Exchanging γ} {a : α} (h : act x = (.ok a, x')) :
    (act >>= f) x = f a x' := by
  change ExceptT.bindCont f (act x).1 (act x).2 = _
  rw [h]
  rfl

theorem answer_run (bs : Bytes) (h : w.clientTakes = true) :
    answer w bs x = (.ok (), { x with answered := x.answered ++ bs }) :=
  if_pos h

theorem send_run (bs : Bytes) (h : w.originTakes = true) :
    send w bs x = (.ok (), { x with sent := x.sent ++ bs }) :=
  if_pos h

theorem taken_run {act : Exchanging Unit} (h : act x = (.ok (), x')) : taken act x = (.ok true, x') := by
  unfold taken
  rw [h]

theorem handleHttpClient_run (hread : readHead reads = .ok (head, early, unread)) :
    handleHttpClient w reads x = serveHead w head early x := by
  refine exchanging_bind (a := (head, early, unread)) ?_
  rw [hread]
  rfl

theorem handOn_answer (bs : Bytes) (h : w.clientTakes = true) :
    handOn (answer w) bs x = (.ok true, { x with answered := x.answered ++ bs }) := by
  unfold handOn
  split_ifs with hbs
  · rw [hbs, List.append_nil]
    rfl
  · exact taken_run (answer_run bs h)

theorem handOn_send (bs : Bytes) (h : w.originTakes = true) :
    handOn (send w) bs x = (.ok true, { x with sent := x.sent ++ bs }) := by
  unfold handOn
  split_ifs with hbs
  · rw [hbs, List.append_nil]
    rfl
  · exact taken_run (send_run bs h)

theorem tunnelHttp_run (hline : request.rewritten = some line) (text : Text) (leftover early : Bytes)
    (hclient : w.clientTakes = true) (horigin : w.originTakes = true) :
    tunnelHttp w request text leftover early x =
      (.ok true, ⟨x.answered ++ leftover, x.sent ++ encode (line ++ tailOf text) ++ early⟩) := by
  have hopen : openTunnel w request x = (.ok (), x) := by
    rw [openTunnel, hline]
    rfl
  have hpreamble : ∀ y, sendPreamble w request text y =
      (.ok true, { y with sent := y.sent ++ encode (line ++ tailOf text) }) := by
    intro y
    rw [sendPreamble, hline]
    exact taken_run (send_run _ horigin)
  refine (exchanging_bind hopen).trans ?_
  refine (exchanging_bind (handOn_answer leftover hclient)).trans ?_
  rw [if_pos rfl]
  refine (exchanging_bind (hpreamble _)).trans ?_
  rw [if_pos rfl]
  exact handOn_send early horigin

theorem relayHttpDirect_run (hline : request.rewritten = some line) {client : IpAddr} (hpeer : w.peerAddr = .ok client)
    (hconnected : w.connectDirect request.authority request.port client = .ok ()) (head early : Bytes)
    (horigin : w.originTakes = true) :
    relayHttpDirect w request head early x =
      (.ok true, { x with sent := x.sent ++ encode (line ++ tailOf (fromUtf8Lossy head)) ++ early }) := by
  -- the client is known, the head goes out rewritten, and then what came early
  have hclient : (ExceptT.mk (pure w.peerAddr) : Exchanging IpAddr) x = (.ok client, x) := by
    rw [hpeer]
    rfl
  have hopen : openDirect w request head x =
      (.ok (), { x with sent := x.sent ++ encode (line ++ tailOf (fromUtf8Lossy head)) }) := by
    rw [openDirect, hline]
    exact send_run _ horigin
  have hearly : ∀ y, sendEarly w early y = (.ok (), { y with sent := y.sent ++ early }) := by
    intro y
    unfold sendEarly
    split_ifs with hempty
    · rw [hempty, List.append_nil]
      rfl
    · exact send_run early horigin
  refine (exchanging_bind hclient).trans ?_
  rw [hconnected]
  refine (exchanging_bind hopen).trans ?_
  exact exchanging_bind (hearly _)

/-- The rest of the head is sent as it reads when it is decoded. -/
theorem sentBy_tunnel (hread : readHead reads = .ok (head, early, unread)) (hrequest : Rewritten head request line)
    (hw : Tunnels w request) :
    sentBy w reads = encode line ++ encode (fromUtf8Lossy (behindCrlf head)) ++ early := by
  obtain ⟨hparse, hline⟩ := hrequest
  obtain ⟨hdecided, ⟨leftover, hopened⟩, hclient, horigin⟩ := hw
  have hserve : serveHead w head early ⟨[], []⟩ =
      tunnelHttp w request (fromUtf8Lossy head) leftover early ⟨[], []⟩ := by
    unfold serveHead
    simp only [hparse, hdecided, hopened]
  rw [sentBy, handleHttpClient_run hread, hserve, tunnelHttp_run hline _ leftover early hclient horigin,
    tailOf_fromUtf8Lossy, encode_append]
  rfl

theorem sentBy_direct (hread : readHead reads = .ok (head, early, unread)) (hrequest : Rewritten head request line)
    (hw : GoesDirect w request) :
    sentBy w reads = encode line ++ encode (fromUtf8Lossy (behindCrlf head)) ++ early := by
  obtain ⟨hparse, hline⟩ := hrequest
  obtain ⟨hdecided, ⟨client, hpeer, hconnected⟩, horigin⟩ := hw
  have hserve : serveHead w head early ⟨[], []⟩ = relayHttpDirect w request head early ⟨[], []⟩ := by
    unfold serveHead
    simp only [hparse, hdecided]
  rw [sentBy, handleHttpClient_run hread, hserve, relayHttpDirect_run hline hpeer hconnected head early horigin,
    tailOf_fromUtf8Lossy, encode_append]
  rfl

/-- A tunnel that takes everything. -/
def tunnelled : Origins where
  decide _ _ := .proxy
  openTunneled _ _ := .ok []
  peerAddr := .ok (.v4 (IpAddr.quad 127 0 0 1))
  connectDirect _ _ _ := .ok ()
  clientTakes := true
  originTakes := true

theorem tunnels_tunnelled (request : HttpRequestLine) : Tunnels tunnelled request :=
  ⟨rfl, ⟨[], rfl⟩, rfl, rfl⟩

theorem goesDirect_direct (request : HttpRequestLine) :
    GoesDirect { tunnelled with decide := fun _ _ => .direct } request :=
  ⟨rfl, ⟨_, rfl, rfl⟩, rfl⟩

end Sent

/-- **The requests of which only the first line is changed**: those whose other lines are well-formed UTF-8. -/
theorem forwards_iff (reads : List Bytes) :
    ForwardsExactly reads ↔
      ∀ head early unread, readHead reads = .ok (head, early, unread) → (∃ request line, Rewritten head request line) →
        WellFormed (behindCrlf head) := by
  constructor
  · rintro h head early unread hread ⟨request, line, hrequest⟩
    have hsent := (h head early unread hread request line hrequest _ _ (tunnels_tunnelled request)
      (goesDirect_direct request)).2
    rw [sentBy_tunnel hread hrequest (tunnels_tunnelled request)] at hsent
    exact encode_fromUtf8Lossy.1 (List.append_cancel_left (List.append_cancel_right hsent))
  · intro h head early unread hread request line hrequest tunnel direct htunnel hdirect
    have hwell := encode_fromUtf8Lossy.2 (h head early unread hread ⟨request, line, hrequest⟩)
    rw [sentBy_tunnel hread hrequest htunnel, sentBy_direct hread hrequest hdirect, hwell]
    exact ⟨rfl, rfl⟩

/-- A header value of one byte that is no UTF-8. -/
def latinRequest : Bytes :=
  asciiBytes "GET http://a.b/ HTTP/1.1\r\nX: ".toList ++ 0xFF :: asciiBytes "\r\n\r\n".toList

/-- The byte arrives as three others. -/
theorem latin_garbled : ¬ ∀ reads, ForwardsExactly reads := by
  intro h
  have hsent := (h [latinRequest] latinRequest [] [] (by decide)
    ⟨"GET".toList, "a.b".toList, 80, some "GET / HTTP/1.1\r\n".toList⟩ "GET / HTTP/1.1\r\n".toList
    ⟨by decide, rfl⟩ _ _ (tunnels_tunnelled _) (goesDirect_direct _)).2
  exact absurd hsent (by decide)

end Socks
end AuroraVpn
