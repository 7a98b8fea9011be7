import AuroraVpn.Socks.Associate

/-!
# Header — the header of a datagram through a SOCKS5 proxy

`encode_address`, `encode_udp_header` and `decode_udp_header` of `upstream.rs`, which is the client of
another proxy, beside `build_udp_reply` and `parse_udp_request` of `socks.rs`, which is one.

* `takeExact_eq_some`: both take the parts of a header off the front.
* `udp_codecs_agree`: the two read the same headers, in the same way.
-/

namespace AuroraVpn
namespace Upstream

open BigEndian Utf8
open Socks (ATYP_V4 ATYP_V6 Target takeExact parseUdpTarget parseUdpRequest buildUdpReply takeExact_append
  parseUdpRequest_buildUdpReply)

def ATYP_NAME : UInt8 := 0x03

def encodeAddress (target : SocketAddr) : Bytes :=
  (match target.ip with
    | .v4 octets => ATYP_V4 :: octets.toList
    | .v6 octets => ATYP_V6 :: octets.toList) ++
    toBe 2 target.port.toNat

def encodeUdpHeader (target : SocketAddr) : Bytes :=
  [0x00, 0x00, 0x00] ++ encodeAddress target

/-- The source of a datagram and where its payload begins. -/
def decodeUdpHeader : Bytes → Option (SocketAddr × Nat)
  | _ :: _ :: frag :: atyp :: buf =>
      if frag ≠ 0 then none
      else if atyp = ATYP_V4 then do
        let (octets, buf) ← takeExact 4 buf
        let (port, _) ← takeExact 2 buf
        some (.new (.v4 octets) (UInt16.ofNat (ofBe port.toList)), 10)
      else if atyp = ATYP_V6 then do
        let (octets, buf) ← takeExact 16 buf
        let (port, _) ← takeExact 2 buf
        some (.new (.v6 octets) (UInt16.ofNat (ofBe port.toList)), 22)
      else if atyp = ATYP_NAME then do
        let (len, buf) ← takeExact 1 buf
        let (name, buf) ← takeExact (len.get 0).toNat buf
        let (port, _) ← takeExact 2 buf
        let ip ← parseIpAddr (← fromUtf8 name.toList)
        some (.new ip (UInt16.ofNat (ofBe port.toList)), 5 + (len.get 0).toNat + 2)
      else none
  | _ => none

/-- The target is the address, or its text. -/
def Names (target : Target) (ip : IpAddr) : Prop :=
  target = .ip ip ∨ ∃ name, target = .domain name ∧ parseIpAddr name = some ip

section Proofs

variable {n : Nat} {v : List.Vector UInt8 n} {buf rest more : Bytes}

theorem takeExact_eq_some : takeExact n buf = some (v, rest) ↔ buf = v.toList ++ rest := by
  constructor
  · intro h
    unfold takeExact at h
    split_ifs at h
    cases h
    exact (List.take_append_drop n buf).symm
  · rintro rfl
    exact takeExact_append v rest

theorem drop_of_takeExact {p : List.Vector UInt8 n × Bytes} (h : takeExact n buf = some p) :
    buf.drop n = p.2 := by
  rw [takeExact_eq_some.1 h]
  exact List.drop_left' p.1.toList_length

/-- A header is a target and a port, whatever follows. -/
theorem parseUdpTarget_append {atyp : UInt8} {target : Target}
    (h : parseUdpTarget atyp buf = some (target, rest)) :
    parseUdpTarget atyp (buf ++ more) = some (target, rest ++ more) := by
  unfold parseUdpTarget at h ⊢
  split_ifs at h ⊢
  · obtain ⟨⟨b, buf'⟩, hb, heq⟩ := Option.bind_eq_some_iff.1 h
    cases heq
    rw [takeExact_eq_some.1 hb, List.append_assoc, takeExact_append]
    rfl
  · obtain ⟨⟨b, buf'⟩, hb, heq⟩ := Option.bind_eq_some_iff.1 h
    cases heq
    rw [takeExact_eq_some.1 hb, List.append_assoc, takeExact_append]
    rfl
  · obtain ⟨⟨len, buf'⟩, hlen, h⟩ := Option.bind_eq_some_iff.1 h
    obtain ⟨⟨name, buf''⟩, hname, heq⟩ := Option.bind_eq_some_iff.1 h
    cases heq
    rw [takeExact_eq_some.1 hlen, takeExact_eq_some.1 hname, List.append_assoc, takeExact_append]
    change ((takeExact (len.get 0).toNat (name.toList ++ rest ++ more)).bind fun p =>
      some (Target.domain (fromUtf8Lossy p.1.toList), p.2)) = _
    rw [List.append_assoc, takeExact_append]
    rfl

theorem parseUdpRequest_append {target : Target} {port : UInt16} {payload : Bytes}
    (h : parseUdpRequest buf = some (target, port, payload)) :
    parseUdpRequest (buf ++ more) = some (target, port, payload ++ more) := by
  match buf with
  | a :: b :: frag :: atyp :: buf =>
      by_cases hfrag : frag = 0
      -- the target and the port are there, so more bytes go to the payload
      · obtain ⟨⟨t, buf'⟩, htarget, h⟩ := Option.bind_eq_some_iff.1 ((if_neg (not_not.2 hfrag)).symm.trans h)
        obtain ⟨⟨p, payload'⟩, hport, heq⟩ := Option.bind_eq_some_iff.1 h
        cases heq
        have htake : takeExact 2 (buf' ++ more) = some (p, payload ++ more) := by
          rw [takeExact_eq_some.1 hport, List.append_assoc, takeExact_append]
        calc parseUdpRequest (a :: b :: frag :: atyp :: buf ++ more)
            = (parseUdpTarget atyp (buf ++ more)).bind fun t => (takeExact 2 t.2).bind fun p =>
                some (t.1, UInt16.ofNat (ofBe p.1.toList), p.2) := if_neg (not_not.2 hfrag)
          _ = (takeExact 2 (buf' ++ more)).bind fun p =>
                some (target, UInt16.ofNat (ofBe p.1.toList), p.2) := by
              rw [parseUdpTarget_append htarget]
              rfl
          _ = some (target, UInt16.ofNat (ofBe p.toList), payload ++ more) := by
              rw [htake]
              rfl
      · exact absurd ((if_pos hfrag).symm.trans h) nofun

/-! ### By the kind of address -/

section Shapes

variable (a b : UInt8)

theorem decodeUdpHeader_v4 :
    decodeUdpHeader (a :: b :: 0 :: ATYP_V4 :: buf) = (takeExact 4 buf).bind fun octets =>
      (takeExact 2 octets.2).bind fun port =>
        some (SocketAddr.new (.v4 octets.1) (UInt16.ofNat (ofBe port.1.toList)), 10) :=
  rfl

theorem decodeUdpHeader_v6 :
    decodeUdpHeader (a :: b :: 0 :: ATYP_V6 :: buf) = (takeExact 16 buf).bind fun octets =>
      (takeExact 2 octets.2).bind fun port =>
        some (SocketAddr.new (.v6 octets.1) (UInt16.ofNat (ofBe port.1.toList)), 22) :=
  rfl

theorem parseUdpRequest_v4 :
    parseUdpRequest (a :: b :: 0 :: ATYP_V4 :: buf) = (takeExact 4 buf).bind fun octets =>
      (takeExact 2 octets.2).bind fun port =>
        some (.ip (.v4 octets.1), UInt16.ofNat (ofBe port.1.toList), port.2) := by
  cases h : takeExact 4 buf <;> simp [parseUdpRequest, parseUdpTarget, h]

theorem parseUdpRequest_v6 :
    parseUdpRequest (a :: b :: 0 :: ATYP_V6 :: buf) = (takeExact 16 buf).bind fun octets =>
      (takeExact 2 octets.2).bind fun port =>
        some (.ip (.v6 octets.1), UInt16.ofNat (ofBe port.1.toList), port.2) := by
  have hne : ATYP_V6 ≠ ATYP_V4 := by decide
  cases h : takeExact 16 buf <;> simp [parseUdpRequest, parseUdpTarget, h, hne]

theorem parseUdpRequest_name :
    parseUdpRequest (a :: b :: 0 :: ATYP_NAME :: buf) = (takeExact 1 buf).bind fun len =>
      (takeExact (len.1.get 0).toNat len.2).bind fun name =>
        (takeExact 2 name.2).bind fun port =>
          some (.domain (fromUtf8Lossy name.1.toList), UInt16.ofNat (ofBe port.1.toList), port.2) := by
  have htarget : parseUdpTarget ATYP_NAME buf = (takeExact 1 buf).bind fun len =>
      (takeExact (len.1.get 0).toNat len.2).bind fun name =>
        some (.domain (fromUtf8Lossy name.1.toList), name.2) := rfl
  cases hlen : takeExact 1 buf with
  | none => simp [parseUdpRequest, htarget, hlen]
  | some len =>
      cases h : takeExact (len.1.get 0).toNat len.2 <;> simp [parseUdpRequest, htarget, hlen, h]

theorem decodeUdpHeader_name :
    decodeUdpHeader (a :: b :: 0 :: ATYP_NAME :: buf) = (takeExact 1 buf).bind fun len =>
      (takeExact (len.1.get 0).toNat len.2).bind fun name =>
        (takeExact 2 name.2).bind fun port =>
          (fromUtf8 name.1.toList).bind fun text => (parseIpAddr text).bind fun ip =>
            some (SocketAddr.new ip (UInt16.ofNat (ofBe port.1.toList)), 5 + (len.1.get 0).toNat + 2) :=
  rfl

/-- Anything that is taken is one of the three kinds. -/
theorem atyp_of_parseUdpRequest {frag atyp : UInt8} {r : Target × UInt16 × Bytes}
    (h : parseUdpRequest (a :: b :: frag :: atyp :: buf) = some r) :
    frag = 0 ∧ (atyp = ATYP_V4 ∨ atyp = ATYP_V6 ∨ atyp = ATYP_NAME) := by
  by_cases hfrag : frag = 0
  · obtain ⟨t, htarget, _⟩ := Option.bind_eq_some_iff.1 ((if_neg (not_not.2 hfrag)).symm.trans h)
    refine ⟨hfrag, ?_⟩
    unfold parseUdpTarget at htarget
    split_ifs at htarget with h4 h6 hd
    · exact .inl h4
    · exact .inr (.inl h6)
    · exact .inr (.inr hd)
  · exact absurd ((if_pos hfrag).symm.trans h) nofun

theorem atyp_of_decodeUdpHeader {frag atyp : UInt8} {r : SocketAddr × Nat}
    (h : decodeUdpHeader (a :: b :: frag :: atyp :: buf) = some r) :
    frag = 0 ∧ (atyp = ATYP_V4 ∨ atyp = ATYP_V6 ∨ atyp = ATYP_NAME) := by
  by_cases hfrag : frag = 0
  · have h := (if_neg (not_not.2 hfrag)).symm.trans h
    split_ifs at h with h4 h6 hd
    · exact ⟨hfrag, .inl h4⟩
    · exact ⟨hfrag, .inr (.inl h6)⟩
    · exact ⟨hfrag, .inr (.inr hd)⟩
  · exact absurd ((if_pos hfrag).symm.trans h) nofun

end Shapes

/-- The flow and the scope of an IPv6 address are not in the header. -/
theorem decodeUdpHeader_encodeUdpHeader (target : SocketAddr) (data : Bytes) :
    decodeUdpHeader (encodeUdpHeader target ++ data) =
      some (.new target.ip target.port, (encodeUdpHeader target).length) := by
  obtain ⟨ip, port, flowinfo, scopeId, hbare⟩ := target
  have hport : UInt16.ofNat (ofBe (toBe 2 port.toNat)) = port := by
    have hlt : port.toNat < 256 ^ 2 := port.toNat_lt
    rw [ofBe_toBe, Nat.mod_eq_of_lt hlt]
    exact UInt16.ofNat_toNat
  let portBytes : List.Vector UInt8 2 := ⟨toBe 2 port.toNat, length_toBe 2 _⟩
  -- the two kinds differ in the length of the address, and so in the offset
  cases ip with
  | v4 octets =>
      have hdecode : decodeUdpHeader (0 :: 0 :: 0 :: ATYP_V4 :: (octets.toList ++ (portBytes.toList ++ data))) =
          some (.new (.v4 octets) (UInt16.ofNat (ofBe portBytes.toList)), 10) := by
        rw [decodeUdpHeader_v4, takeExact_append, Option.bind_some, takeExact_append]
        rfl
      have hlength : (encodeUdpHeader ⟨.v4 octets, port, flowinfo, scopeId, hbare⟩).length = 10 := by
        simp [encodeUdpHeader, encodeAddress, length_toBe]
      -- ten bytes: reserved, fragment and kind, then four and two
      rw [hlength]
      simpa [encodeUdpHeader, encodeAddress, portBytes, hport] using hdecode
  | v6 octets =>
      have hdecode : decodeUdpHeader (0 :: 0 :: 0 :: ATYP_V6 :: (octets.toList ++ (portBytes.toList ++ data))) =
          some (.new (.v6 octets) (UInt16.ofNat (ofBe portBytes.toList)), 22) := by
        rw [decodeUdpHeader_v6, takeExact_append, Option.bind_some, takeExact_append]
        rfl
      have hlength : (encodeUdpHeader ⟨.v6 octets, port, flowinfo, scopeId, hbare⟩).length = 22 := by
        simp [encodeUdpHeader, encodeAddress, length_toBe]
      rw [hlength]
      simpa [encodeUdpHeader, encodeAddress, portBytes, hport] using hdecode

/-- What one takes, the other takes as the same. -/
theorem parseUdpRequest_of_decode {source : SocketAddr} {offset : Nat}
    (h : decodeUdpHeader buf = some (source, offset)) :
    ∃ target, parseUdpRequest buf = some (target, source.port, buf.drop offset) ∧ Names target source.ip := by
  match buf with
  | a :: b :: frag :: atyp :: buf =>
      -- the two readers cut the same fields, so what is left is the same
      obtain ⟨rfl, rfl | rfl | rfl⟩ := atyp_of_decodeUdpHeader a b h
      · rw [decodeUdpHeader_v4] at h
        obtain ⟨octets, hoctets, h⟩ := Option.bind_eq_some_iff.1 h
        obtain ⟨port, hport, heq⟩ := Option.bind_eq_some_iff.1 h
        cases heq
        refine ⟨.ip (.v4 octets.1), ?_, .inl rfl⟩
        have hdrop : buf.drop (4 + 2) = port.2 := by
          rw [← List.drop_drop, drop_of_takeExact hoctets, drop_of_takeExact hport]
        rw [parseUdpRequest_v4, hoctets, Option.bind_some, hport, Option.bind_some]
        exact congrArg (fun rest => some (_, _, rest)) hdrop.symm
      · rw [decodeUdpHeader_v6] at h
        obtain ⟨octets, hoctets, h⟩ := Option.bind_eq_some_iff.1 h
        obtain ⟨port, hport, heq⟩ := Option.bind_eq_some_iff.1 h
        cases heq
        refine ⟨.ip (.v6 octets.1), ?_, .inl rfl⟩
        have hdrop : buf.drop (16 + 2) = port.2 := by
          rw [← List.drop_drop, drop_of_takeExact hoctets, drop_of_takeExact hport]
        rw [parseUdpRequest_v6, hoctets, Option.bind_some, hport, Option.bind_some]
        exact congrArg (fun rest => some (_, _, rest)) hdrop.symm
      · rw [decodeUdpHeader_name] at h
        obtain ⟨len, hlen, h⟩ := Option.bind_eq_some_iff.1 h
        obtain ⟨name, hname, h⟩ := Option.bind_eq_some_iff.1 h
        obtain ⟨port, hport, h⟩ := Option.bind_eq_some_iff.1 h
        obtain ⟨text, htext, h⟩ := Option.bind_eq_some_iff.1 h
        obtain ⟨ip, hip, heq⟩ := Option.bind_eq_some_iff.1 h
        cases heq
        -- the one resolves the name, the other one hands it on
        refine ⟨.domain text, ?_, .inr ⟨text, rfl, hip⟩⟩
        have hdrop : buf.drop (1 + (len.1.get 0).toNat + 2) = port.2 := by
          rw [← List.drop_drop, ← List.drop_drop, drop_of_takeExact hlen, drop_of_takeExact hname,
            drop_of_takeExact hport]
        have hoffset : 5 + (len.1.get 0).toNat + 2 = 1 + (len.1.get 0).toNat + 2 + 4 := by omega
        rw [parseUdpRequest_name, hlen, Option.bind_some, hname, Option.bind_some, hport, Option.bind_some,
          fromUtf8Lossy_of_fromUtf8 htext, hoffset]
        exact congrArg (fun rest => some (_, _, rest)) hdrop.symm

theorem decode_of_parseUdpRequest {ip : IpAddr} {port : UInt16} {payload : Bytes}
    (h : parseUdpRequest buf = some (.ip ip, port, payload)) :
    ∃ offset, decodeUdpHeader buf = some (.new ip port, offset) ∧ payload = buf.drop offset := by
  match buf with
  | a :: b :: frag :: atyp :: buf =>
      -- the three kinds of address, of which only two are addresses
      obtain ⟨rfl, rfl | rfl | rfl⟩ := atyp_of_parseUdpRequest a b h
      · rw [parseUdpRequest_v4] at h
        obtain ⟨octets, hoctets, h⟩ := Option.bind_eq_some_iff.1 h
        obtain ⟨port, hport, heq⟩ := Option.bind_eq_some_iff.1 h
        cases heq
        have hdrop : buf.drop (4 + 2) = port.2 := by
          rw [← List.drop_drop, drop_of_takeExact hoctets, drop_of_takeExact hport]
        refine ⟨10, ?_, hdrop.symm⟩
        rw [decodeUdpHeader_v4, hoctets, Option.bind_some, hport, Option.bind_some]
      · rw [parseUdpRequest_v6] at h
        obtain ⟨octets, hoctets, h⟩ := Option.bind_eq_some_iff.1 h
        obtain ⟨port, hport, heq⟩ := Option.bind_eq_some_iff.1 h
        cases heq
        have hdrop : buf.drop (16 + 2) = port.2 := by
          rw [← List.drop_drop, drop_of_takeExact hoctets, drop_of_takeExact hport]
        refine ⟨22, ?_, hdrop.symm⟩
        rw [decodeUdpHeader_v6, hoctets, Option.bind_some, hport, Option.bind_some]
      · -- a name is no address, not even where it is one's text
        rw [parseUdpRequest_name] at h
        obtain ⟨_, _, h⟩ := Option.bind_eq_some_iff.1 h
        obtain ⟨_, _, h⟩ := Option.bind_eq_some_iff.1 h
        obtain ⟨_, _, heq⟩ := Option.bind_eq_some_iff.1 h
        cases heq

/-- A header that is cut is taken by neither: with the rest it would be one, and that much longer. -/
theorem cut_refused {header : Bytes} {target : Target} {port : UInt16}
    (h : parseUdpRequest header = some (target, port, [])) {cut : Nat} (hcut : cut < header.length) :
    parseUdpRequest (header.take cut) = none ∧ decodeUdpHeader (header.take cut) = none := by
  have hparse : parseUdpRequest (header.take cut) = none := by
    refine Option.eq_none_iff_forall_ne_some.2 fun ⟨target', port', payload⟩ htake => ?_
    have hwhole : parseUdpRequest (header.take cut ++ header.drop cut) =
        some (target', port', payload ++ header.drop cut) := parseUdpRequest_append htake
    rw [List.take_append_drop, h] at hwhole
    cases List.append_eq_nil_iff.1 (congrArg (fun r => r.2.2) (Option.some.inj hwhole)).symm with
    | intro _ hdrop => exact absurd (List.drop_eq_nil_iff.1 hdrop) (Nat.not_le.2 hcut)
  refine ⟨hparse, Option.eq_none_iff_forall_ne_some.2 fun ⟨source, offset⟩ hdecode => ?_⟩
  obtain ⟨target', htarget, _⟩ := parseUdpRequest_of_decode hdecode
  exact absurd (hparse.symm.trans htarget) nofun

/-- **The two codecs agree.**  What the headers carry of a socket address is its IP address and its port. -/
theorem udp_codecs_agree :
    (∀ a d, parseUdpRequest (buildUdpReply a d) = some (.ip a.ip, a.port, d)) ∧
    (∀ a d, ∃ source offset, decodeUdpHeader (encodeUdpHeader a ++ d) = some (source, offset) ∧
      source.ip = a.ip ∧ source.port = a.port ∧ (a.flowinfo = 0 → a.scopeId = 0 → source = a) ∧
      (encodeUdpHeader a ++ d).drop offset = d) ∧
    (∀ b source offset, decodeUdpHeader b = some (source, offset) →
      ∃ target, parseUdpRequest b = some (target, source.port, b.drop offset) ∧ Names target source.ip) ∧
    (∀ b ip port payload, parseUdpRequest b = some (.ip ip, port, payload) →
      ∃ offset, decodeUdpHeader b = some (.new ip port, offset) ∧ payload = b.drop offset) ∧
    (∀ a b frag rest, frag ≠ 0 → parseUdpRequest (a :: b :: frag :: rest) = none ∧
      decodeUdpHeader (a :: b :: frag :: rest) = none) ∧
    ∀ header target port, parseUdpRequest header = some (target, port, []) → ∀ cut < header.length,
      parseUdpRequest (header.take cut) = none ∧ decodeUdpHeader (header.take cut) = none := by
  refine ⟨parseUdpRequest_buildUdpReply, fun a d => ?_, fun b source offset => parseUdpRequest_of_decode,
    fun b ip port payload => decode_of_parseUdpRequest, fun a b frag rest hfrag => ?_,
    fun header target port h cut => cut_refused h⟩
  · exact ⟨_, _, decodeUdpHeader_encodeUdpHeader a d, rfl, rfl,
      fun hflow hscope => (SocketAddr.eq_new hflow hscope).symm, List.drop_left⟩
  · match rest with
    | [] => exact ⟨rfl, rfl⟩
    | atyp :: rest => exact ⟨if_pos hfrag, if_pos hfrag⟩

/-- A link-local address on the third interface. -/
def linkLocal : SocketAddr :=
  ⟨.v6 ⟨[0xFE, 0x80, 0, 0, 0, 0, 0, 0, 0, 0, 0, 0, 0, 0, 0, 1], rfl⟩, 53, 0, 3, nofun⟩

/-- The scope of `[fe80::1%3]:53` is lost on the way. -/
theorem scope_dropped : parseSocketAddr "[fe80::1%3]:53".toList = some linkLocal ∧
    ¬ ∀ (a : SocketAddr) (d : Bytes), ∃ offset,
      decodeUdpHeader (encodeUdpHeader a ++ d) = some (a, offset) ∧
        (encodeUdpHeader a ++ d).drop offset = d := by
  refine ⟨by decide, fun h => ?_⟩
  obtain ⟨offset, hdecode, -⟩ := h linkLocal []
  rw [decodeUdpHeader_encodeUdpHeader] at hdecode
  have hscope : (0 : UInt32) = 3 := congrArg (fun r => r.1.scopeId) (Option.some.inj hdecode)
  exact absurd hscope (by decide)

end Proofs

end Upstream
end AuroraVpn
