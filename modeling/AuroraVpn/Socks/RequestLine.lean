import AuroraVpn.Lib.Encode
import AuroraVpn.Lib.IpText
import AuroraVpn.Lib.Joined
import AuroraVpn.Socks.Connect
import AuroraVpn.Socks.Gate
import AuroraVpn.Socks.Head
import AuroraVpn.Upstream.Setting

/-!
# RequestLine — the first line of an HTTP request

`parse_authority` and `parse_request_line` of `socks.rs` read one, and `build_proxy_connect` writes one
for the gateway of an organisation.

* `parseAuthority_eq_some`: a host is a part of the text without blanks.
* `connect_exact_iff`: the names with which the gateway is asked for what the client asked for.
-/

namespace AuroraVpn
namespace Socks

open IpAddr Routing Utf8
open AuroraVpn.Upstream (rsplitOnce eq_of_rsplitOnce rsplitOnce_append parseU16_toDigits not_mem_toDigits
  digit_not_whitespace)

/-- `split_whitespace`. -/
def splitWhitespace (t : Text) : List Text :=
  (t.splitOnP isWhitespace).filter (· ≠ [])

/-- `strip_suffix` of one character, where it is there. -/
def stripLast (c : Char) (t : Text) : Text :=
  if t.getLast? = some c then t.dropLast else t

/-- `lines().next().unwrap_or_default()`. -/
def firstLine (t : Text) : Text :=
  match splitOnce '\n' t with
  | some (line, _) => stripLast '\r' line
  | none => t

structure HttpRequestLine where
  method : Text
  authority : Text
  port : UInt16
  rewritten : Option Text
  deriving DecidableEq

/-- What stands behind a bracket. -/
def parseBracketed (rest : Text) (defaultPort : UInt16) : Option (Text × UInt16) := do
  let (host, tail) ← splitOnce ']' rest
  if host = [] then none
  else
    match tail with
    | ':' :: value => (parseU16 value).map fun port => (host, port)
    | _ => some (host, defaultPort)

/-- A text with more than one colon is a host. -/
def parseUnbracketed (raw : Text) (defaultPort : UInt16) : Option (Text × UInt16) :=
  match rsplitOnce ':' raw with
  | some (host, port) =>
      if ':' ∈ host then some (raw, defaultPort)
      else if host = [] then none
      else (parseU16 port).map fun port => (host, port)
  | none => some (raw, defaultPort)

def parseAuthority (raw : Text) (defaultPort : UInt16) : Option (Text × UInt16) :=
  match trim raw with
  | [] => none
  | '[' :: rest => parseBracketed rest defaultPort
  | raw => parseUnbracketed raw defaultPort

/-- `strip_prefix` of either spelling. -/
def withoutScheme (target : Text) : Option Text :=
  if "http://".toList.isPrefixOf target ∨ "HTTP://".toList.isPrefixOf target then some (target.drop 7)
  else none

def parseRequestLine (line : Text) : Option HttpRequestLine :=
  match splitWhitespace line with
  | method :: target :: rest =>
      let version := rest.head?.getD "HTTP/1.1".toList
      if eqIgnoreAsciiCase method "CONNECT".toList then do
        let (authority, port) ← parseAuthority target 443
        some { method, authority, port, rewritten := none }
      else do
        let withoutScheme ← withoutScheme target
        let (authorityPart, path) :=
          if '/' ∈ withoutScheme then (withoutScheme.takeWhile (· ≠ '/'), withoutScheme.dropWhile (· ≠ '/'))
          else (withoutScheme, "/".toList)
        let (authority, port) ← parseAuthority authorityPart 80
        some
          { method, authority, port,
            rewritten := some (method ++ " ".toList ++ path ++ " ".toList ++ version ++ "\r\n".toList) }
  | _ => none

/-! ## Through the gateway -/

def UA_REGISTER : Text :=
  "WARP for Android".toList

/-- How the gateway is asked for a target. -/
def authorityOf : Target → Text
  | .domain name => name
  | .ip ip => ip.display

def proxyAuthority (target : Text) (port : UInt16) : Text :=
  if ':' ∈ target ∧ target.head? ≠ some '[' then
    "[".toList ++ target ++ "]:".toList ++ Nat.toDigits 10 port.toNat
  else
    target ++ ":".toList ++ Nat.toDigits 10 port.toNat

def buildProxyConnect (target : Text) (port : UInt16) : Bytes :=
  let authority := proxyAuthority target port
  encode ("CONNECT ".toList ++ authority ++ " HTTP/1.1\r\nHost: ".toList ++ authority ++
    "\r\nUser-Agent: ".toList ++ UA_REGISTER ++ "\r\n\r\n".toList)

/-- What is sent to a gateway that is there. -/
def gatewayRequest (gateway : Option SocketAddr) (target : Target) (port : UInt16) : Option Bytes :=
  (gateway.filter fun _ => shouldUseGateway port).map fun _ => buildProxyConnect (authorityOf target) port

/-- One head, which asks for the target and for nothing else. -/
structure AsksFor (wire : Bytes) (target : Text) (port : UInt16) : Prop where
  whole : findHeadEnd wire = some wire.length
  line : parseRequestLine (firstLine (fromUtf8Lossy wire)) =
    some { method := "CONNECT".toList, authority := target, port, rewritten := none }
  /-- the request line, `Host`, `User-Agent` and the empty line -/
  lines : wire.count 0x0D = 4 ∧ wire.count 0x0A = 4

/-- The names that are read as they are written. -/
structure Plain (name : Text) : Prop where
  nonempty : name ≠ []
  solid : ∀ c ∈ name, isWhitespace c = false
  unbracketed : name.head? ≠ some '['
  closes : ':' ∈ name → ']' ∉ name

def PlainTarget : Target → Prop
  | .ip _ => True
  | .domain name => Plain name

section Reading

variable {raw host line : Text} {port : UInt16}

theorem mem_splitWhitespace {part t : Text} (h : part ∈ splitWhitespace t) :
    part ≠ [] ∧ ∀ c ∈ part, isWhitespace c = false := by
  obtain ⟨hpart, hne⟩ := List.mem_filter.1 h
  exact ⟨of_decide_eq_true hne, fun c hc => (mem_of_mem_splitOnP hpart c hc).1⟩

theorem parseBracketed_eq_some {default : UInt16} (h : parseBracketed line default = some (host, port)) :
    host ≠ [] ∧ ∃ tail, splitOnce ']' line = some (host, tail) := by
  obtain ⟨⟨front, tail⟩, hsplit, h⟩ := Option.bind_eq_some_iff.1 h
  dsimp only at h
  split_ifs at h with hne
  suffices hfront : front = host from hfront ▸ ⟨hne, tail, hsplit⟩
  split at h
  · obtain ⟨_, _, heq⟩ := Option.map_eq_some_iff.1 h
    exact congrArg Prod.fst heq
  · exact congrArg Prod.fst (Option.some.inj h)

theorem parseUnbracketed_eq_some {default : UInt16} (hline : line ≠ [])
    (h : parseUnbracketed line default = some (host, port)) : host ≠ [] ∧ host <+: line := by
  unfold parseUnbracketed at h
  split at h
  · rename_i front back hsplit
    split_ifs at h with hcolon hne
    · cases h
      exact ⟨hline, List.prefix_rfl⟩
    · obtain ⟨_, _, heq⟩ := Option.map_eq_some_iff.1 h
      cases heq
      exact ⟨hne, _, (eq_of_rsplitOnce hsplit).symm⟩
  · cases h
    exact ⟨hline, List.prefix_rfl⟩

/-- A host is a part of the text. -/
theorem parseAuthority_eq_some {default : UInt16} (h : parseAuthority raw default = some (host, port)) :
    host ≠ [] ∧ ∀ c ∈ host, c ∈ raw := by
  have hraw : ∀ {t : Text}, trim raw = t → ∀ c ∈ t, c ∈ raw := by
    rintro _ rfl c hc
    exact trim_subset hc
  unfold parseAuthority at h
  split at h
  · cases h
  · rename_i rest htrim
    obtain ⟨hne, tail, hsplit⟩ := parseBracketed_eq_some h
    refine ⟨hne, fun c hc => hraw htrim c (List.mem_cons_of_mem _ ?_)⟩
    rw [eq_of_splitOnce hsplit]
    exact List.mem_append_left _ hc
  · rename_i hne _
    obtain ⟨hhost, hbegins⟩ := parseUnbracketed_eq_some hne h
    exact ⟨hhost, fun c hc => hraw rfl c (hbegins.subset hc)⟩

/-- A host is a word of the line, or a part of one. -/
theorem parseRequestLine_eq_some {request : HttpRequestLine} (h : parseRequestLine line = some request) :
    request.authority ≠ [] ∧ ∀ c ∈ request.authority, isWhitespace c = false := by
  unfold parseRequestLine at h
  split at h
  · rename_i method target rest hwords
    have hsolid : ∀ c ∈ target, isWhitespace c = false :=
      (mem_splitWhitespace (hwords ▸ List.mem_cons_of_mem _ List.mem_cons_self)).2
    dsimp only at h
    -- `CONNECT` has the authority as its target, any other method a URL
    split_ifs at h
    · obtain ⟨⟨host, port⟩, hparse, heq⟩ := Option.bind_eq_some_iff.1 h
      cases heq
      exact (parseAuthority_eq_some hparse).imp_right fun hsub c hc => hsolid c (hsub c hc)
    · obtain ⟨bare, hbare, h⟩ := Option.bind_eq_some_iff.1 h
      obtain ⟨⟨host, port⟩, hparse, heq⟩ := Option.bind_eq_some_iff.1 h
      cases heq
      unfold withoutScheme at hbare
      split_ifs at hbare
      cases hbare
      -- the host is what stands in front of the path
      have hpart : ∀ {s : Text} {path : Text}, (if '/' ∈ target.drop 7 then
          ((target.drop 7).takeWhile (· ≠ '/'), (target.drop 7).dropWhile (· ≠ '/'))
          else (target.drop 7, "/".toList)) = (s, path) → ∀ c ∈ s, c ∈ target := by
        intro s path hs c hc
        split_ifs at hs
        · cases hs
          exact List.drop_subset _ _ ((List.takeWhile_prefix _).subset hc)
        · cases hs
          exact List.drop_subset _ _ hc
      exact (parseAuthority_eq_some hparse).imp_right fun hsub c hc => hsolid c (hpart rfl c (hsub c hc))
  · cases h

end Reading

section Framing

variable {l rest : Bytes} {b : UInt8}

/-- A line that is not empty is passed over. -/
theorem position_line (hl : 0x0D ∉ l) (hb : b ≠ 0x0D) :
    position emptyLine (l ++ 0x0D :: 0x0A :: b :: rest) =
      (position emptyLine (b :: rest)).map (· + (l.length + 2)) := by
  induction l with
  | nil =>
      have hfirst : position emptyLine (0x0D :: 0x0A :: b :: rest) =
          (position emptyLine (0x0A :: b :: rest)).map (· + 1) :=
        if_neg (by simp [emptyLine, Ne.symm hb])
      have hsecond : position emptyLine (0x0A :: b :: rest) = (position emptyLine (b :: rest)).map (· + 1) :=
        if_neg (by simp [emptyLine])
      rw [List.nil_append, hfirst, hsecond, Option.map_map]
      rfl
  | cons a l ih =>
      have ha : a ≠ 0x0D := fun h => hl (h ▸ List.mem_cons_self)
      have hstep : position emptyLine (a :: l ++ 0x0D :: 0x0A :: b :: rest) =
          (position emptyLine (l ++ 0x0D :: 0x0A :: b :: rest)).map (· + 1) :=
        if_neg (by simp [emptyLine, Ne.symm ha])
      rw [hstep, ih fun h => hl (List.mem_cons_of_mem _ h), Option.map_map]
      rfl

theorem position_last (hl : 0x0D ∉ l) : position emptyLine (l ++ emptyLine) = some l.length := by
  induction l with
  | nil => rfl
  | cons a l ih =>
      have ha : a ≠ 0x0D := fun h => hl (h ▸ List.mem_cons_self)
      have hstep : position emptyLine (a :: l ++ emptyLine) = (position emptyLine (l ++ emptyLine)).map (· + 1) :=
        if_neg (by simp [emptyLine, Ne.symm ha])
      rw [hstep, ih fun h => hl (List.mem_cons_of_mem _ h)]
      rfl

theorem cr_not_mem_encode {t : Text} (h : ∀ c ∈ t, c ≠ '\r') : 0x0D ∉ encode t := by
  rw [mem_encode_iff (by decide)]
  exact fun hmem => h _ hmem rfl

end Framing

section Writing

variable {target : Text} {port : UInt16}

theorem proxyAuthority_solid (h : ∀ c ∈ target, isWhitespace c = false) (port : UInt16) :
    ∀ c ∈ proxyAuthority target port, isWhitespace c = false := by
  have hmarks : ∀ c ∈ "[]:".toList, isWhitespace c = false := by decide
  intro c hc
  unfold proxyAuthority at hc
  split_ifs at hc
  · rcases List.mem_append.1 hc with hc | hc
    · rcases List.mem_append.1 hc with hc | hc
      · rcases List.mem_append.1 hc with hc | hc
        · exact hmarks c (List.mem_of_mem_take (i := 1) hc)
        · exact h c hc
      · exact hmarks c (List.mem_of_mem_drop (i := 1) hc)
    · exact digit_not_whitespace hc
  · rcases List.mem_append.1 hc with hc | hc
    · rcases List.mem_append.1 hc with hc | hc
      · exact h c hc
      · exact hmarks c (List.mem_of_mem_drop (i := 2) hc)
    · exact digit_not_whitespace hc

/-- The three lines of the request. -/
theorem buildProxyConnect_eq (target : Text) (port : UInt16) :
    buildProxyConnect target port =
      encode ("CONNECT ".toList ++ proxyAuthority target port ++ " HTTP/1.1".toList) ++ 0x0D :: 0x0A ::
        0x48 :: (encode ("ost: ".toList ++ proxyAuthority target port) ++ 0x0D :: 0x0A ::
          0x55 :: (encode ("ser-Agent: ".toList ++ UA_REGISTER) ++ emptyLine)) := by
  have hfirst : encode " HTTP/1.1\r\nHost: ".toList =
      encode " HTTP/1.1".toList ++ 0x0D :: 0x0A :: 0x48 :: encode "ost: ".toList := by decide
  have hsecond : encode "\r\nUser-Agent: ".toList = 0x0D :: 0x0A :: 0x55 :: encode "ser-Agent: ".toList := by
    decide
  have hend : encode "\r\n\r\n".toList = emptyLine := by decide
  unfold buildProxyConnect
  simp only [encode_append, hfirst, hsecond, hend, List.append_assoc, List.cons_append]

/-- The request is one head. -/
theorem findHeadEnd_connect (h : ∀ c ∈ target, isWhitespace c = false) :
    findHeadEnd (buildProxyConnect target port) = some (buildProxyConnect target port).length := by
  -- neither the line nor a header has a CR, so the head ends at the empty line
  have hauthority : ∀ c ∈ proxyAuthority target port, c ≠ '\r' := by
    rintro c hc rfl
    exact absurd (proxyAuthority_solid h port _ hc) (by decide)
  have hline : 0x0D ∉ encode ("CONNECT ".toList ++ proxyAuthority target port ++ " HTTP/1.1".toList) := by
    refine cr_not_mem_encode fun c hc => ?_
    have hfront : ∀ c ∈ "CONNECT ".toList, c ≠ '\r' := by decide
    have hback : ∀ c ∈ " HTTP/1.1".toList, c ≠ '\r' := by decide
    rcases List.mem_append.1 hc with hc | hc
    · exact (List.mem_append.1 hc).elim (hfront c) (hauthority c)
    · exact hback c hc
  have hhost : 0x0D ∉ 0x48 :: encode ("ost: ".toList ++ proxyAuthority target port) := by
    have hfront : ∀ c ∈ "ost: ".toList, c ≠ '\r' := by decide
    exact List.not_mem_cons_of_ne_of_not_mem (by decide)
      (cr_not_mem_encode fun c hc => (List.mem_append.1 hc).elim (hfront c) (hauthority c))
  have hagent : 0x0D ∉ 0x55 :: encode ("ser-Agent: ".toList ++ UA_REGISTER) := by decide
  unfold findHeadEnd
  rw [buildProxyConnect_eq, position_line hline (by decide), ← List.cons_append,
    position_line hhost (by decide), ← List.cons_append, position_last hagent]
  simp only [Option.map_some, List.length_append, List.length_cons, emptyLine, List.length_nil]
  exact congrArg some (by omega)

theorem splitWhitespace_cons {word t : Text} {c : Char} (hne : word ≠ [])
    (hword : ∀ c ∈ word, isWhitespace c = false) (hc : isWhitespace c = true) :
    splitWhitespace (word ++ c :: t) = word :: splitWhitespace t := by
  unfold splitWhitespace
  rw [List.splitOnP_append_cons_of_forall_mem hword c hc]
  exact List.filter_cons_of_pos (decide_eq_true hne)

theorem splitWhitespace_single {word : Text} (hne : word ≠ []) (hword : ∀ c ∈ word, isWhitespace c = false) :
    splitWhitespace word = [word] := by
  unfold splitWhitespace
  rw [List.splitOnP_eq_singleton hword]
  exact List.filter_cons_of_pos (decide_eq_true hne)

theorem colon_mem_proxyAuthority : ':' ∈ proxyAuthority target port := by
  unfold proxyAuthority
  split_ifs <;> simp

theorem firstLine_connect (h : ∀ c ∈ target, isWhitespace c = false) :
    firstLine (fromUtf8Lossy (buildProxyConnect target port)) =
      "CONNECT".toList ++ ' ' :: (proxyAuthority target port ++ ' ' :: "HTTP/1.1".toList) := by
  -- no line feed stands in what is written in front of the first one
  have hlf : '\n' ∉ "CONNECT ".toList ++ proxyAuthority target port ++ " HTTP/1.1\r".toList := by
    have hfront : '\n' ∉ "CONNECT ".toList := by decide
    have hback : '\n' ∉ " HTTP/1.1\r".toList := by decide
    intro hmem
    rcases List.mem_append.1 hmem with hmem | hmem
    · rcases List.mem_append.1 hmem with hmem | hmem
      · exact hfront hmem
      · exact absurd (proxyAuthority_solid h port _ hmem) (by decide)
    · exact hback hmem
  have htext : "CONNECT ".toList ++ proxyAuthority target port ++ " HTTP/1.1\r\nHost: ".toList ++
      proxyAuthority target port ++ "\r\nUser-Agent: ".toList ++ UA_REGISTER ++ "\r\n\r\n".toList =
      ("CONNECT ".toList ++ proxyAuthority target port ++ " HTTP/1.1\r".toList) ++ '\n' ::
        ("Host: ".toList ++ (proxyAuthority target port ++ ("\r\nUser-Agent: ".toList ++
          (UA_REGISTER ++ "\r\n\r\n".toList)))) := by
    have hmid : " HTTP/1.1\r\nHost: ".toList = " HTTP/1.1\r".toList ++ '\n' :: "Host: ".toList := by decide
    simp only [hmid, List.append_assoc, List.cons_append]
  have hline : "CONNECT ".toList ++ proxyAuthority target port ++ " HTTP/1.1\r".toList =
      "CONNECT".toList ++ ' ' :: (proxyAuthority target port ++ ' ' :: "HTTP/1.1".toList) ++ ['\r'] := by
    simp
  unfold buildProxyConnect
  dsimp only
  rw [fromUtf8Lossy_encode, htext]
  unfold firstLine
  rw [splitOnce_append hlf, hline]
  unfold stripLast
  dsimp only
  rw [if_pos List.getLast?_concat, List.dropLast_concat]

theorem count_connect (h : ∀ c ∈ target, isWhitespace c = false) {b : UInt8} (hb : b = 0x0D ∨ b = 0x0A) :
    (buildProxyConnect target port).count b = 4 := by
  have hauthority : (encode (proxyAuthority target port)).count b = 0 := by
    rw [List.count_eq_zero]
    rcases hb with rfl | rfl
    all_goals
      rw [mem_encode_iff (by decide)]
      exact fun hmem => absurd (proxyAuthority_solid h port _ hmem) (by decide)
  have hrest : (encode "CONNECT ".toList).count b + (encode " HTTP/1.1\r\nHost: ".toList).count b +
      (encode "\r\nUser-Agent: ".toList).count b + (encode UA_REGISTER).count b +
      (encode "\r\n\r\n".toList).count b = 4 := by
    rcases hb with rfl | rfl <;> decide
  unfold buildProxyConnect
  simp only [encode_append, List.count_append, hauthority]
  omega

/-- Its first line names the authority. -/
theorem parseRequestLine_connect (h : ∀ c ∈ target, isWhitespace c = false) :
    parseRequestLine (firstLine (fromUtf8Lossy (buildProxyConnect target port))) =
      (parseAuthority (proxyAuthority target port) 443).map fun authority =>
        { method := "CONNECT".toList, authority := authority.1, port := authority.2, rewritten := none } := by
  have hwords : splitWhitespace (firstLine (fromUtf8Lossy (buildProxyConnect target port))) =
      ["CONNECT".toList, proxyAuthority target port, "HTTP/1.1".toList] := by
    rw [firstLine_connect h, splitWhitespace_cons (by decide) (by decide) (by decide),
      splitWhitespace_cons (List.ne_nil_of_mem colon_mem_proxyAuthority) (proxyAuthority_solid h port) (by decide),
      splitWhitespace_single (by decide) (by decide)]
  have hmethod : eqIgnoreAsciiCase "CONNECT".toList "CONNECT".toList = true := by decide
  unfold parseRequestLine
  rw [hwords]
  dsimp only
  rw [if_pos hmethod]
  cases parseAuthority (proxyAuthority target port) 443 <;> rfl

theorem parseBracketed_port {host : Text} (hne : host ≠ []) (hhost : ']' ∉ host) (default : UInt16) :
    parseBracketed (host ++ ']' :: ':' :: Nat.toDigits 10 port.toNat) default = some (host, port) := by
  unfold parseBracketed
  rw [splitOnce_append hhost]
  change (if host = [] then none else (parseU16 (Nat.toDigits 10 port.toNat)).map fun port => (host, port)) = _
  rw [if_neg hne, parseU16_toDigits]
  rfl

theorem parseUnbracketed_port {host : Text} (hhost : ':' ∉ host) (default : UInt16) :
    parseUnbracketed (host ++ ':' :: Nat.toDigits 10 port.toNat) default =
      if host = [] then none else some (host, port) := by
  unfold parseUnbracketed
  rw [rsplitOnce_append (not_mem_toDigits (by decide))]
  dsimp only
  rw [if_neg hhost, parseU16_toDigits]
  rfl

theorem parseAuthority_bracket {rest : Text} (h : ∀ c ∈ '[' :: rest, isWhitespace c = false)
    (default : UInt16) : parseAuthority ('[' :: rest) default = parseBracketed rest default := by
  unfold parseAuthority
  rw [trim_eq_self h]
  rfl

theorem parseAuthority_unbracketed {raw : Text} (h : ∀ c ∈ raw, isWhitespace c = false) (hne : raw ≠ [])
    (hbracket : raw.head? ≠ some '[') (default : UInt16) :
    parseAuthority raw default = parseUnbracketed raw default := by
  unfold parseAuthority
  rw [trim_eq_self h]
  split
  · exact absurd rfl hne
  · exact absurd rfl hbracket
  · rfl

theorem parseAuthority_proxyAuthority (h : ∀ c ∈ target, isWhitespace c = false) :
    parseAuthority (proxyAuthority target port) 443 = some (target, port) ↔ Plain target := by
  have hsolid := proxyAuthority_solid h port
  by_cases hbracket : target.head? = some '['
  · -- a bracket too much: what is read has one less
    obtain ⟨rest, rfl⟩ := List.head?_eq_some_iff.1 hbracket
    refine iff_of_false (fun hparse => ?_) fun hplain => hplain.unbracketed hbracket
    have hauthority : proxyAuthority ('[' :: rest) port = '[' :: (rest ++ ':' :: Nat.toDigits 10 port.toNat) := by
      unfold proxyAuthority
      rw [if_neg fun h => h.2 rfl]
      simp
    rw [hauthority] at hparse hsolid
    rw [parseAuthority_bracket hsolid] at hparse
    obtain ⟨-, tail, hsplit⟩ := parseBracketed_eq_some hparse
    have hcount := congrArg (List.count '[') (eq_of_splitOnce hsplit)
    have hdigits : (Nat.toDigits 10 port.toNat).count '[' = 0 :=
      List.count_eq_zero.2 (not_mem_toDigits (by decide))
    simp [hdigits] at hcount
    omega
  -- a name with a colon is put into brackets, which have to close behind it
  by_cases hcolon : ':' ∈ target
  · have hauthority : proxyAuthority target port =
        '[' :: (target ++ ']' :: ':' :: Nat.toDigits 10 port.toNat) := by
      unfold proxyAuthority
      rw [if_pos ⟨hcolon, hbracket⟩]
      simp
    rw [hauthority] at hsolid
    rw [hauthority, parseAuthority_bracket hsolid]
    constructor
    · intro hparse
      obtain ⟨hne, tail, hsplit⟩ := parseBracketed_eq_some hparse
      exact ⟨hne, h, hbracket, fun _ => not_mem_of_splitOnce hsplit⟩
    · intro hplain
      exact parseBracketed_port hplain.nonempty (hplain.closes hcolon) 443
  -- a plain name: the last colon is the one in front of the port
  · have hauthority : proxyAuthority target port = target ++ ':' :: Nat.toDigits 10 port.toNat := by
      unfold proxyAuthority
      rw [if_neg fun h => hcolon h.1]
      simp
    have hparse : parseAuthority (proxyAuthority target port) 443 =
        if target = [] then none else some (target, port) := by
      have hfront : (target ++ ':' :: Nat.toDigits 10 port.toNat).head? ≠ some '[' := by
        cases target with
        | nil => simp
        | cons c target => exact hbracket
      rw [hauthority] at hsolid ⊢
      rw [parseAuthority_unbracketed hsolid (by simp) hfront, parseUnbracketed_port hcolon]
    -- only the empty name is lost
    rw [hparse]
    constructor
    · intro hsome
      split_ifs at hsome with hne
      exact ⟨hne, h, hbracket, fun hmem => absurd hmem hcolon⟩
    · intro hplain
      rw [if_neg hplain.nonempty]

theorem asksFor_iff : AsksFor (buildProxyConnect target port) target port ↔ Plain target := by
  constructor
  · intro h
    have hsolid := (parseRequestLine_eq_some h.line).2
    have hline := h.line
    rw [parseRequestLine_connect hsolid] at hline
    obtain ⟨⟨host, port'⟩, hparse, heq⟩ := Option.map_eq_some_iff.1 hline
    cases heq
    exact (parseAuthority_proxyAuthority hsolid).1 hparse
  · intro h
    have hparse : parseAuthority (proxyAuthority target port) 443 = some (target, port) :=
      (parseAuthority_proxyAuthority h.solid).2 h
    refine ⟨findHeadEnd_connect h.solid, ?_, count_connect h.solid (.inl rfl), count_connect h.solid (.inr rfl)⟩
    rw [parseRequestLine_connect h.solid, hparse]
    rfl

/-- The text of an address is plain. -/
theorem plain_authorityOf (target : Target) : Plain (authorityOf target) ↔ PlainTarget target := by
  cases target with
  | domain name => exact Iff.rfl
  | ip ip =>
      have hexact : ∀ {c : Char}, ¬ IsAddrChar c → c ∉ ip.display := fun h hc => h (display_chars hc)
      have hclose : ¬ IsAddrChar ']' := by
        rintro (h | h | h) <;> exact absurd h (by decide)
      have hopen : ¬ IsAddrChar '[' := by
        rintro (h | h | h) <;> exact absurd h (by decide)
      refine iff_of_true ⟨display_ne_nil ip, fun c hc => ?_, fun h => hexact hopen (List.mem_of_head? h),
        fun _ => hexact hclose⟩ trivial
      rcases display_chars hc with hhex | rfl | rfl
      · exact isNetChar_not_whitespace (by simp [isNetChar, hhex])
      · decide
      · decide

end Writing

/-- **The gateway is asked for what the client asked for, for plain names and for no other.** -/
theorem connect_exact_iff (gateway : Option SocketAddr) (target : Target) (port : UInt16) :
    (∀ wire, gatewayRequest gateway target port = some wire → AsksFor wire (authorityOf target) port) ↔
      (gateway.isSome → shouldUseGateway port = true → PlainTarget target) := by
  cases gateway with
  | none => exact iff_of_true nofun nofun
  | some proxy =>
      by_cases hport : shouldUseGateway port = true
      · have hsent : gatewayRequest (some proxy) target port =
            some (buildProxyConnect (authorityOf target) port) := by
          simp [gatewayRequest, hport]
        have hasks : AsksFor (buildProxyConnect (authorityOf target) port) (authorityOf target) port ↔
            PlainTarget target := asksFor_iff.trans (plain_authorityOf target)
        rw [hsent, ← hasks]
        exact ⟨fun h _ _ => h _ rfl, fun h wire hwire => Option.some.inj hwire ▸ h rfl hport⟩
      · have hsent : gatewayRequest (some proxy) target port = none := by
          simp [gatewayRequest, hport]
        exact iff_of_true (by simp [hsent]) fun _ h => absurd h hport

/-- A name of two lines makes a header line of its second. -/
theorem connect_smuggled : ¬ ∀ (gateway : Option SocketAddr) (a : Address) (port : UInt16) (wire : Bytes),
    gatewayRequest gateway a.target port = some wire → AsksFor wire (authorityOf a.target) port := by
  intro h
  let twoLines : Address := .domain [0x61, 0x0D, 0x0A, 0x58, 0x3A, 0x62] (by decide)
  have htarget : twoLines.target = .domain "a\r\nX:b".toList := by decide
  have hasks := h (some (.new (.v4 ⟨[10, 0, 0, 1], rfl⟩) 8080)) twoLines 443 _ rfl
  rw [htarget] at hasks
  exact absurd ((asksFor_iff.1 hasks).solid '\r' (by decide)) (by decide)

end Socks
end AuroraVpn
