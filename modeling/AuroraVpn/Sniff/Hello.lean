import AuroraVpn.Lib.BigEndian
import AuroraVpn.Sniff.Hostname
import Mathlib.Data.Vector.Basic

/-!
# Hello — the server name of a client hello

What `tls_sni` makes of a client hello that is written down as the protocol says, in one record.

* `tlsSni_record`: the first host name of the first extension for it, if that is plausible.
* `plausibleHost_host`: the names that are, and what becomes of them.
* `tlsSni_part`: what is found in any buffer stands there.
-/

namespace AuroraVpn
namespace Sniff

open BigEndian IpAddr Utf8

/-! ## A client hello on the wire -/

/-- A name in the extension. -/
structure ServerName where
  kind : UInt8
  name : Bytes
  fits : name.length < 65536

def ServerName.bytes (entry : ServerName) : Bytes :=
  entry.kind :: (toBe 2 entry.name.length ++ entry.name)

inductive Extension
  | serverName (entries : List ServerName) (fits : (entries.flatMap ServerName.bytes).length + 2 < 65536)
  | other (kind : UInt16) (data : Bytes) (differs : kind.toNat ≠ EXT_SERVER_NAME) (fits : data.length < 65536)

def Extension.kind : Extension → UInt16
  | .serverName _ _ => 0
  | .other kind _ _ _ => kind

def Extension.data : Extension → Bytes
  | .serverName entries _ =>
      toBe 2 (entries.flatMap ServerName.bytes).length ++ entries.flatMap ServerName.bytes
  | .other _ data _ _ => data

def Extension.bytes (extension : Extension) : Bytes :=
  toBe 2 extension.kind.toNat ++ (toBe 2 extension.data.length ++ extension.data)

theorem Extension.data_fits (extension : Extension) : extension.data.length < 65536 := by
  cases extension with
  | serverName entries hfits =>
      rw [Extension.data, List.length_append, length_toBe]
      omega
  | other kind data hdiffers hfits => exact hfits

structure ClientHello where
  version : List.Vector UInt8 2
  random : List.Vector UInt8 32
  session : Bytes
  ciphers : List UInt16
  compression : Bytes
  extensions : List Extension
  session_fits : session.length ≤ 32
  ciphers_fit : 2 * ciphers.length < 65536
  compression_fits : compression.length < 256
  extensions_fit : (extensions.flatMap Extension.bytes).length < 65536

/-- What stands before the extensions. -/
def ClientHello.front (hello : ClientHello) : Bytes :=
  hello.version.toList ++ (hello.random.toList ++ (UInt8.ofNat hello.session.length :: (hello.session ++
    (toBe 2 (2 * hello.ciphers.length) ++ (hello.ciphers.flatMap (fun cipher => toBe 2 cipher.toNat) ++
      (UInt8.ofNat hello.compression.length :: hello.compression))))))

def ClientHello.bytes (hello : ClientHello) : Bytes :=
  hello.front ++ (toBe 2 (hello.extensions.flatMap Extension.bytes).length ++
    hello.extensions.flatMap Extension.bytes)

/-- The handshake message. -/
def ClientHello.handshake (hello : ClientHello) : Bytes :=
  TLS_CLIENT_HELLO :: (toBe 3 hello.bytes.length ++ hello.bytes)

/-- A client hello in one record. -/
structure Record where
  version : List.Vector UInt8 2
  hello : ClientHello
  fits : hello.handshake.length < 65536

def Record.bytes (record : Record) : Bytes :=
  TLS_HANDSHAKE :: (record.version.toList ++ (toBe 2 record.hello.handshake.length ++ record.hello.handshake))

/-- The names of the first extension for them. -/
def namesIn (extensions : List Extension) : Option (List ServerName) :=
  extensions.findSome? fun extension =>
    match extension with
    | .serverName entries _ => some entries
    | .other _ _ _ _ => none

def ClientHello.serverNames (hello : ClientHello) : Option (List ServerName) :=
  namesIn hello.extensions

/-- The first host name in it. -/
def ClientHello.hostName (hello : ClientHello) : Option Bytes :=
  hello.serverNames.bind fun entries => (entries.find? (·.kind = SNI_HOST_NAME)).map (·.name)

/-- A dotted name of the characters that are taken, which is no address. -/
structure IsHost (name : Text) : Prop where
  chars : ∀ c ∈ name, isAllowed c = true
  short : name.length ≤ MAX_HOST_LEN
  dotted : '.' ∈ trimEndMatches '.' name
  no_address : parseIpAddr (trimEndMatches '.' name) = none

section Reading

variable {buf front part rest : Bytes} {pos n : Nat}

theorem byte_front {b : UInt8} (hbuf : buf = front ++ b :: rest) (hpos : pos = front.length) : buf[pos]? = some b := by
  rw [hbuf, hpos, List.getElem?_append_right (Nat.le_refl _), Nat.sub_self]
  rfl

theorem be16_front (hn : n < 65536) (hbuf : buf = front ++ (toBe 2 n ++ rest)) (hpos : pos = front.length) :
    be16 buf pos = some n := by
  have hvalue := ofBe_toBe 2 n
  match hbytes : toBe 2 n, length_toBe 2 n with
  | [hi, lo], _ =>
      rw [hbytes] at hbuf hvalue
      have hlo : buf = (front ++ [hi]) ++ lo :: rest := by
        rw [hbuf]
        simp
      refine Option.bind_eq_some_iff.2 ⟨hi, byte_front hbuf hpos, ?_⟩
      refine Option.bind_eq_some_iff.2 ⟨lo, byte_front hlo (by simp [hpos]), ?_⟩
      have hsum : hi.toNat * 256 + lo.toNat = n % 256 ^ 2 := by
        rw [← hvalue]
        simp [ofBe]
      exact congrArg some (hsum.trans (Nat.mod_eq_of_lt hn))

theorem be24_front (hn : n < 16777216) (hbuf : buf = front ++ (toBe 3 n ++ rest)) (hpos : pos = front.length) :
    be24 buf pos = some n := by
  have hvalue := ofBe_toBe 3 n
  match hbytes : toBe 3 n, length_toBe 3 n with
  | [a, b, c], _ =>
      rw [hbytes] at hbuf hvalue
      have hb : buf = (front ++ [a]) ++ b :: c :: rest := by
        rw [hbuf]
        simp
      have hc : buf = (front ++ [a, b]) ++ c :: rest := by
        rw [hbuf]
        simp
      refine Option.bind_eq_some_iff.2 ⟨a, byte_front hbuf hpos, ?_⟩
      refine Option.bind_eq_some_iff.2 ⟨b, byte_front hb (by simp [hpos]), ?_⟩
      refine Option.bind_eq_some_iff.2 ⟨c, byte_front hc (by simp [hpos]), ?_⟩
      have hsum : a.toNat * 65536 + b.toNat * 256 + c.toNat = n % 256 ^ 3 := by
        rw [← hvalue]
        simp [ofBe]
        omega
      exact congrArg some (hsum.trans (Nat.mod_eq_of_lt hn))

theorem getSlice_front {stop : Nat} (hbuf : buf = front ++ (part ++ rest)) (hpos : pos = front.length)
    (hstop : stop = front.length + part.length) : getSlice buf pos stop = some part := by
  have hfits : pos ≤ stop ∧ stop ≤ buf.length := by
    rw [hbuf, List.length_append, List.length_append]
    omega
  have htake : buf.take stop = front ++ part := by
    rw [hbuf, ← List.append_assoc]
    exact List.take_left' (by rw [List.length_append, hstop])
  unfold getSlice
  rw [if_pos hfits, htake, hpos, List.drop_left]

theorem serverNamesLoop_entries {entries : List ServerName} {listEnd : Nat}
    (hbuf : buf = front ++ (entries.flatMap ServerName.bytes ++ rest))
    (hend : listEnd = front.length + (entries.flatMap ServerName.bytes).length) :
    serverNamesLoop buf listEnd front.length =
      ((entries.find? (·.kind = SNI_HOST_NAME)).map (·.name)).bind plausibleHost := by
  induction entries generalizing front with
  | nil =>
      rw [serverNamesLoop, if_neg (by simp at hend; omega)]
      rfl
  | cons entry entries ih =>
      obtain ⟨kind, name, hfits⟩ := entry
      -- the buffer, cut in front of each field of the entry
      have hkind : buf = front ++ kind :: (toBe 2 name.length ++
          (name ++ (entries.flatMap ServerName.bytes ++ rest))) := by
        rw [hbuf]
        simp [ServerName.bytes]
      have hlen : buf = (front ++ [kind]) ++ (toBe 2 name.length ++
          (name ++ (entries.flatMap ServerName.bytes ++ rest))) := by
        rw [hkind]
        simp
      have hname : buf = (front ++ kind :: toBe 2 name.length) ++
          (name ++ (entries.flatMap ServerName.bytes ++ rest)) := by
        rw [hkind]
        simp
      have hnext : buf = (front ++ ServerName.bytes ⟨kind, name, hfits⟩) ++
          (entries.flatMap ServerName.bytes ++ rest) := by
        rw [hbuf]
        simp
      have hnextlen : (front ++ ServerName.bytes ⟨kind, name, hfits⟩).length = front.length + 3 + name.length := by
        simp [ServerName.bytes]
        omega
      have hbound : listEnd = front.length + 3 + name.length + (entries.flatMap ServerName.bytes).length := by
        rw [hend, List.flatMap_cons, List.length_append]
        simp only [ServerName.bytes, List.length_cons, List.length_append, length_toBe]
        omega
      rw [serverNamesLoop, if_pos (by omega), byte_front hkind rfl, be16_front hfits hlen (by simp)]
      dsimp only
      rw [if_neg (by omega)]
      -- the first entry of the host kind ends the loop, whatever its name is
      by_cases hhost : kind = SNI_HOST_NAME
      · have hfind : (ServerName.mk kind name hfits :: entries).find? (·.kind = SNI_HOST_NAME) =
            some ⟨kind, name, hfits⟩ := List.find?_cons_of_pos (decide_eq_true hhost)
        have hslice : getSlice buf (front.length + 3) (front.length + 3 + name.length) = some name :=
          getSlice_front hname (by simp) (by simp)
        rw [if_pos hhost, hslice, hfind]
        rfl
      · have hfind : (ServerName.mk kind name hfits :: entries).find? (·.kind = SNI_HOST_NAME) =
            entries.find? (·.kind = SNI_HOST_NAME) := List.find?_cons_of_neg (by simpa using hhost)
        rw [if_neg hhost, hfind, ← hnextlen]
        exact ih hnext (by rw [hbound, hnextlen])

theorem firstServerName_data {entries : List ServerName}
    (hfits : (entries.flatMap ServerName.bytes).length + 2 < 65536) :
    firstServerName (Extension.serverName entries hfits).data =
      ((entries.find? (·.kind = SNI_HOST_NAME)).map (·.name)).bind plausibleHost := by
  have hlen : be16 (Extension.serverName entries hfits).data 0 = some (entries.flatMap ServerName.bytes).length :=
    @be16_front _ [] _ _ _ (by omega) rfl rfl
  refine (congrArg (·.bind fun listLen => serverNamesLoop (Extension.serverName entries hfits).data
    (min (2 + listLen) (Extension.serverName entries hfits).data.length) 2) hlen).trans ?_
  have hdata : (Extension.serverName entries hfits).data =
      toBe 2 (entries.flatMap ServerName.bytes).length ++ (entries.flatMap ServerName.bytes ++ []) := by
    rw [List.append_nil]
    rfl
  have hfront : (toBe 2 (entries.flatMap ServerName.bytes).length).length = 2 := length_toBe 2 _
  have hend : min (2 + (entries.flatMap ServerName.bytes).length) (Extension.serverName entries hfits).data.length =
      (toBe 2 (entries.flatMap ServerName.bytes).length).length + (entries.flatMap ServerName.bytes).length := by
    rw [hdata, List.length_append, List.append_nil, hfront]
    omega
  have hloop := serverNamesLoop_entries hdata hend
  rwa [hfront] at hloop

theorem extensionsLoop_extensions {extensions : List Extension} {extensionsEnd : Nat}
    (hbuf : buf = front ++ (extensions.flatMap Extension.bytes ++ rest))
    (hend : extensionsEnd = front.length + (extensions.flatMap Extension.bytes).length) :
    extensionsLoop buf extensionsEnd front.length =
      ((namesIn extensions).bind fun entries =>
        (entries.find? (·.kind = SNI_HOST_NAME)).map (·.name)).bind plausibleHost := by
  induction extensions generalizing front with
  | nil =>
      rw [extensionsLoop, if_neg (by simp at hend; omega)]
      rfl
  | cons extension extensions ih =>
      -- the buffer, cut in front of each field of the extension
      have hkind : buf = front ++ (toBe 2 extension.kind.toNat ++ (toBe 2 extension.data.length ++
          (extension.data ++ (extensions.flatMap Extension.bytes ++ rest)))) := by
        rw [hbuf]
        simp [Extension.bytes]
      have hlen : buf = (front ++ toBe 2 extension.kind.toNat) ++ (toBe 2 extension.data.length ++
          (extension.data ++ (extensions.flatMap Extension.bytes ++ rest))) := by
        rw [hkind]
        simp
      have hdata : buf = (front ++ toBe 2 extension.kind.toNat ++ toBe 2 extension.data.length) ++
          (extension.data ++ (extensions.flatMap Extension.bytes ++ rest)) := by
        rw [hkind]
        simp
      have hnext : buf = (front ++ extension.bytes) ++ (extensions.flatMap Extension.bytes ++ rest) := by
        rw [hbuf]
        simp
      have hlength : extension.bytes.length = 4 + extension.data.length := by
        simp only [Extension.bytes, List.length_append, length_toBe]
        omega
      have hnextlen : (front ++ extension.bytes).length = front.length + 4 + extension.data.length := by
        rw [List.length_append, hlength, Nat.add_assoc]
      have hbound : extensionsEnd = front.length + 4 + extension.data.length +
          (extensions.flatMap Extension.bytes).length := by
        rw [hend, List.flatMap_cons, List.length_append, hlength]
        omega
      have hfound := be16_front extension.kind.toNat_lt hkind rfl
      have hsize : be16 buf (front.length + 2) = some extension.data.length :=
        be16_front extension.data_fits hlen (by simp)
      rw [extensionsLoop, if_pos (by omega), hfound, hsize]
      dsimp only
      rw [if_neg (by omega)]
      cases extension with
      | serverName entries hfits =>
          have hslice : getSlice buf (front.length + 4)
              (front.length + 4 + (Extension.serverName entries hfits).data.length) =
              some (Extension.serverName entries hfits).data :=
            getSlice_front hdata (by simp) (by rw [List.length_append, List.length_append, length_toBe, length_toBe])
          have hserver : (Extension.serverName entries hfits).kind.toNat = EXT_SERVER_NAME := rfl
          rw [if_pos hserver, hslice]
          exact firstServerName_data hfits
      -- an extension of another type is stepped over, by what its length says
      | other kind data hdiffers hfits =>
          have hother : (Extension.other kind data hdiffers hfits).kind.toNat ≠ EXT_SERVER_NAME := hdiffers
          rw [if_neg hother, ← hnextlen]
          exact ih hnext (by rw [hbound, hnextlen])

theorem ClientHello.length_ciphers (hello : ClientHello) :
    (hello.ciphers.flatMap fun cipher => toBe 2 cipher.toNat).length = 2 * hello.ciphers.length := by
  rw [List.length_flatMap]
  simp [length_toBe, Nat.mul_comm]

theorem ClientHello.length_front (hello : ClientHello) :
    hello.front.length = 2 + 32 + (1 + hello.session.length) + (2 + 2 * hello.ciphers.length) +
      (1 + hello.compression.length) := by
  simp only [ClientHello.front, List.length_append, List.length_cons, length_toBe, hello.length_ciphers,
    List.Vector.toList_length]
  omega

theorem helloName_bytes (hello : ClientHello) : helloName hello.bytes = hello.hostName.bind plausibleHost := by
  have hsessionbyte : (UInt8.ofNat hello.session.length).toNat = hello.session.length := by
    have hfits := hello.session_fits
    exact UInt8.toNat_ofNat_of_lt' (by rw [UInt8.size]; omega)
  have hcompressionbyte : (UInt8.ofNat hello.compression.length).toNat = hello.compression.length :=
    UInt8.toNat_ofNat_of_lt' hello.compression_fits
  -- each length is read at the end of what stands before it
  have hsessionat : hello.bytes = (hello.version.toList ++ hello.random.toList) ++
      UInt8.ofNat hello.session.length :: (hello.session ++ (toBe 2 (2 * hello.ciphers.length) ++
        (hello.ciphers.flatMap (fun cipher => toBe 2 cipher.toNat) ++ (UInt8.ofNat hello.compression.length ::
          (hello.compression ++ (toBe 2 (hello.extensions.flatMap Extension.bytes).length ++
            hello.extensions.flatMap Extension.bytes)))))) := by
    simp only [ClientHello.bytes, ClientHello.front, List.append_assoc, List.cons_append]
  have hciphersat : hello.bytes = (hello.version.toList ++ (hello.random.toList ++
      UInt8.ofNat hello.session.length :: hello.session)) ++ (toBe 2 (2 * hello.ciphers.length) ++
        (hello.ciphers.flatMap (fun cipher => toBe 2 cipher.toNat) ++ (UInt8.ofNat hello.compression.length ::
          (hello.compression ++ (toBe 2 (hello.extensions.flatMap Extension.bytes).length ++
            hello.extensions.flatMap Extension.bytes))))) := by
    simp only [ClientHello.bytes, ClientHello.front, List.append_assoc, List.cons_append]
  have hcompressionat : hello.bytes = (hello.version.toList ++ (hello.random.toList ++
      UInt8.ofNat hello.session.length :: (hello.session ++ (toBe 2 (2 * hello.ciphers.length) ++
        hello.ciphers.flatMap fun cipher => toBe 2 cipher.toNat)))) ++ UInt8.ofNat hello.compression.length ::
          (hello.compression ++ (toBe 2 (hello.extensions.flatMap Extension.bytes).length ++
            hello.extensions.flatMap Extension.bytes)) := by
    simp only [ClientHello.bytes, ClientHello.front, List.append_assoc, List.cons_append]
  have hsession : hello.bytes[2 + 32]? = some (UInt8.ofNat hello.session.length) :=
    byte_front hsessionat (by simp)
  have hciphers : be16 hello.bytes (2 + 32 + (1 + hello.session.length)) = some (2 * hello.ciphers.length) := by
    refine be16_front hello.ciphers_fit hciphersat ?_
    simp only [List.length_append, List.length_cons, List.Vector.toList_length]
    omega
  have hcompression : hello.bytes[2 + 32 + (1 + hello.session.length) + (2 + 2 * hello.ciphers.length)]? =
      some (UInt8.ofNat hello.compression.length) := by
    refine byte_front hcompressionat ?_
    simp only [List.length_append, List.length_cons, length_toBe, hello.length_ciphers, List.Vector.toList_length]
    omega
  have hextensions : be16 hello.bytes (2 + 32 + (1 + hello.session.length) + (2 + 2 * hello.ciphers.length) +
      (1 + hello.compression.length)) = some (hello.extensions.flatMap Extension.bytes).length :=
    be16_front hello.extensions_fit rfl hello.length_front.symm
  have hbytes : hello.bytes = (hello.front ++ toBe 2 (hello.extensions.flatMap Extension.bytes).length) ++
      (hello.extensions.flatMap Extension.bytes ++ []) := by
    rw [List.append_nil, List.append_assoc]
    rfl
  have hpos : (hello.front ++ toBe 2 (hello.extensions.flatMap Extension.bytes).length).length =
      2 + 32 + (1 + hello.session.length) + (2 + 2 * hello.ciphers.length) + (1 + hello.compression.length) + 2 := by
    rw [List.length_append, hello.length_front, length_toBe]
  have hend : min (2 + 32 + (1 + hello.session.length) + (2 + 2 * hello.ciphers.length) +
      (1 + hello.compression.length) + 2 + (hello.extensions.flatMap Extension.bytes).length) hello.bytes.length =
      (hello.front ++ toBe 2 (hello.extensions.flatMap Extension.bytes).length).length +
        (hello.extensions.flatMap Extension.bytes).length := by
    rw [hbytes, List.length_append, List.append_nil, hpos, Nat.min_self]
  have hloop := extensionsLoop_extensions hbytes hend
  rw [hpos] at hloop
  simp only [helloName, hsession, hsessionbyte, hciphers, hcompression, hcompressionbyte, hextensions,
    Option.bind_eq_bind, Option.bind_some]
  exact hloop

/-- The first host name of the first extension for it. -/
theorem tlsSni_record (record : Record) (rest : Bytes) :
    tlsSni (record.bytes ++ rest) = record.hello.hostName.bind plausibleHost := by
  obtain ⟨version, hello, hfits⟩ := record
  generalize hbytes : Record.bytes ⟨version, hello, hfits⟩ ++ rest = buf
  -- the record, cut in front of its length and of the handshake
  have h1 : buf = [] ++ TLS_HANDSHAKE :: (version.toList ++ (toBe 2 hello.handshake.length ++
      (hello.handshake ++ rest))) := by
    rw [← hbytes]
    simp [Record.bytes]
  have h2 : buf = (TLS_HANDSHAKE :: version.toList) ++ (toBe 2 hello.handshake.length ++
      (hello.handshake ++ rest)) := by
    rw [h1]
    simp
  have h3 : buf = (TLS_HANDSHAKE :: version.toList ++ toBe 2 hello.handshake.length) ++ (hello.handshake ++ rest) := by
    rw [h1]
    simp
  have hfront : (TLS_HANDSHAKE :: version.toList ++ toBe 2 hello.handshake.length).length = 5 := by
    simp
  have hhead : buf.head? = some TLS_HANDSHAKE := by
    rw [h1]
    rfl
  have hrecordread : be16 buf 3 = some hello.handshake.length := be16_front hfits h2 (by simp)
  have hrecordend : min (5 + hello.handshake.length) buf.length = 5 + hello.handshake.length := by
    rw [h3, List.length_append, hfront, List.length_append]
    omega
  have hbody : getSlice buf 5 (5 + hello.handshake.length) = some hello.handshake :=
    getSlice_front h3 hfront.symm (by rw [hfront])
  -- the length of the hello has three bytes
  have hhelloread : be24 hello.handshake 1 = some hello.bytes.length := by
    have hsize : hello.handshake.length = 4 + hello.bytes.length := by
      simp [ClientHello.handshake]
      omega
    exact @be24_front _ [TLS_CLIENT_HELLO] _ _ _ (by omega) rfl rfl
  have hhelloend : min (4 + hello.bytes.length) hello.handshake.length = 4 + hello.bytes.length := by
    simp [ClientHello.handshake]
    omega
  have hhandshake : hello.handshake = (TLS_CLIENT_HELLO :: toBe 3 hello.bytes.length) ++ (hello.bytes ++ []) := by
    simp [ClientHello.handshake]
  have hhello : getSlice hello.handshake 4 (4 + hello.bytes.length) = some hello.bytes :=
    getSlice_front hhandshake (by simp) (by simp)
  have hhellohead : hello.handshake.head? = some TLS_CLIENT_HELLO := rfl
  have hname := helloName_bytes hello
  simp only [tlsSni, hhead, hrecordread, hrecordend, hbody, hhellohead, hhelloread, hhelloend, hhello,
    Option.bind_eq_bind, Option.bind_some, ne_eq, not_true_eq_false, if_false]
  exact hname

/-! ## Where the name comes from -/

theorem getSlice_part {stop : Nat} (h : getSlice buf pos stop = some part) : part <:+: buf := by
  unfold getSlice at h
  split_ifs at h
  cases h
  exact (List.drop_suffix _ _).isInfix.trans (List.take_prefix _ _).isInfix

theorem serverNamesLoop_part {name : Text} {stop : Nat} (h : serverNamesLoop buf stop pos = some name) :
    ∃ raw, raw <:+: buf ∧ plausibleHost raw = some name := by
  induction hleft : stop - pos using Nat.strong_induction_on generalizing pos with
  | _ left ih =>
      rw [serverNamesLoop] at h
      split_ifs at h with hpos
      cases hkind : buf[pos]? with
      | none =>
          rw [hkind] at h
          cases h
      | some kind =>
          cases hlen : be16 buf (pos + 1) with
          | none =>
              rw [hkind, hlen] at h
              cases h
          | some len =>
              rw [hkind, hlen] at h
              dsimp only at h
              split_ifs at h with hfits hhost
              -- the name is cut out of the buffer as it stands
              · obtain ⟨raw, hraw, hname⟩ := Option.bind_eq_some_iff.1 h
                exact ⟨raw, getSlice_part hraw, hname⟩
              · exact ih _ (by omega) h rfl

theorem extensionsLoop_part {name : Text} {stop : Nat} (h : extensionsLoop buf stop pos = some name) :
    ∃ raw, raw <:+: buf ∧ plausibleHost raw = some name := by
  induction hleft : stop - pos using Nat.strong_induction_on generalizing pos with
  | _ left ih =>
      rw [extensionsLoop] at h
      split_ifs at h with hpos
      cases hkind : be16 buf pos with
      | none =>
          rw [hkind] at h
          cases h
      | some kind =>
          cases hlen : be16 buf (pos + 2) with
          | none =>
              rw [hkind, hlen] at h
              cases h
          | some len =>
              rw [hkind, hlen] at h
              dsimp only at h
              split_ifs at h with hfits hserver
              · obtain ⟨data, hdata, hname⟩ := Option.bind_eq_some_iff.1 h
                -- the names stand in the data of the extension, which is a part of the buffer
                obtain ⟨listLen, -, hname⟩ := Option.bind_eq_some_iff.1 hname
                obtain ⟨raw, hraw, hname⟩ := serverNamesLoop_part hname
                exact ⟨raw, hraw.trans (getSlice_part hdata), hname⟩
              · exact ih _ (by omega) h rfl

/-- The name stands in the buffer. -/
theorem tlsSni_part {name : Text} (h : tlsSni buf = some name) :
    ∃ raw, raw <:+: buf ∧ plausibleHost raw = some name := by
  unfold tlsSni at h
  split_ifs at h
  obtain ⟨recordLen, -, h⟩ := Option.bind_eq_some_iff.1 h
  obtain ⟨body, hbody, h⟩ := Option.bind_eq_some_iff.1 h
  split_ifs at h
  obtain ⟨helloLen, -, h⟩ := Option.bind_eq_some_iff.1 h
  obtain ⟨hello, hhello, h⟩ := Option.bind_eq_some_iff.1 h
  obtain ⟨sessionLen, -, h⟩ := Option.bind_eq_some_iff.1 h
  obtain ⟨cipherLen, -, h⟩ := Option.bind_eq_some_iff.1 h
  obtain ⟨compressionLen, -, h⟩ := Option.bind_eq_some_iff.1 h
  obtain ⟨extensionsLen, -, h⟩ := Option.bind_eq_some_iff.1 h
  obtain ⟨raw, hraw, hname⟩ := extensionsLoop_part h
  exact ⟨raw, (hraw.trans (getSlice_part hhello)).trans (getSlice_part hbody), hname⟩

end Reading

/-! ## The names that are taken -/

theorem ascii_of_isAllowed {c : Char} (h : isAllowed c = true) : c.toNat < 128 := by
  delta isAllowed Char.isAlphanum Char.isAlpha Char.isUpper Char.isLower Char.isDigit at h
  simp only [Bool.or_eq_true, Bool.and_eq_true, decide_eq_true_eq, ge_iff_le, UInt32.le_iff_toNat_le] at h
  change c.val.toNat < 128
  rcases h with (((((h | h) | h) | rfl) | rfl) | rfl)
  · exact h.2.trans_lt (by decide)
  · exact h.2.trans_lt (by decide)
  · exact h.2.trans_lt (by decide)
  all_goals decide

theorem not_isWhitespace_of_isAllowed {c : Char} (h : isAllowed c = true) : isWhitespace c = false := by
  have hall : ∀ n < 128, isAllowed (Char.ofNat n) = true → isWhitespace (Char.ofNat n) = false := by decide
  have hc := hall _ (ascii_of_isAllowed h)
  rw [Char.ofNat_toNat] at hc
  exact hc h

theorem trimEndMatches_subset {c d : Char} {t : Text} (h : d ∈ trimEndMatches c t) : d ∈ t :=
  List.mem_reverse.1 ((List.dropWhile_sublist _).subset (List.mem_reverse.1 h))

theorem length_trimEndMatches_le (c : Char) (t : Text) : (trimEndMatches c t).length ≤ t.length := by
  have hle := (List.dropWhile_sublist (· = c) (l := t.reverse)).length_le
  rw [List.length_reverse] at hle
  rwa [trimEndMatches, List.length_reverse]

theorem plausibleHost_host {name : Text} (h : IsHost name) :
    plausibleHost (asciiBytes name) = some ((trimEndMatches '.' name).map Char.toLower) := by
  have hascii : ∀ c ∈ name, c.toNat < 128 := fun c hc => ascii_of_isAllowed (h.chars c hc)
  have hkept : ∀ c ∈ trimEndMatches '.' name, isAllowed c = true := fun c hc =>
    h.chars c (trimEndMatches_subset hc)
  -- one byte a character: the name is ASCII
  have hlen : (asciiBytes name).length = name.length := List.length_map _
  have hraw : ¬ (asciiBytes name = [] ∨ MAX_HOST_LEN < (asciiBytes name).length) := by
    rw [hlen, not_or]
    refine ⟨fun hnil => ?_, Nat.not_lt.2 h.short⟩
    exact absurd (trimEndMatches_subset h.dotted) (by rw [List.map_eq_nil_iff.1 hnil]; exact List.not_mem_nil)
  have htext : fromUtf8 (asciiBytes name) = some name := by
    rw [← encode_ascii hascii, fromUtf8_encode]
  have htrim : trim name = name := trim_eq_self fun c hc => not_isWhitespace_of_isAllowed (h.chars c hc)
  have hencoded : (encode (trimEndMatches '.' name)).length = (trimEndMatches '.' name).length := by
    rw [encode_ascii fun c hc => ascii_of_isAllowed (hkept c hc)]
    exact List.length_map _
  have hshort : ¬ (trimEndMatches '.' name = [] ∨ MAX_HOST_LEN < (encode (trimEndMatches '.' name)).length) := by
    rw [hencoded, not_or]
    exact ⟨List.ne_nil_of_mem h.dotted, Nat.not_lt.2 ((length_trimEndMatches_le '.' name).trans h.short)⟩
  have hchars : ¬ ((trimEndMatches '.' name).all isAllowed = false ∨ '.' ∉ trimEndMatches '.' name) := by
    rw [not_or, Bool.not_eq_false, List.all_eq_true, not_not]
    exact ⟨hkept, h.dotted⟩
  have haddress : ¬ (parseIpAddr (trimEndMatches '.' name)).isSome = true := by
    rw [h.no_address]
    exact Bool.false_ne_true
  -- the five checks in the order of the source
  unfold plausibleHost
  rw [if_neg hraw, htext]
  dsimp only
  rw [htrim, if_neg hshort, if_neg hchars, if_neg haddress]

example : plausibleHost (asciiBytes "WWW.Example.org.".toList) = some "www.example.org".toList := by decide

/-- **The server name of every client hello**: the name that stands first in the first extension for it, in
small letters and without the dots at its end, where it is a dotted name that is taken.  Without the extension
there is none, and what is found in a buffer stands there. -/
theorem tlsSni_serverName :
    (∀ (record : Record) (rest : Bytes) (name : Text),
      record.hello.hostName = some (asciiBytes name) → IsHost name →
        tlsSni (record.bytes ++ rest) = some ((trimEndMatches '.' name).map Char.toLower)) ∧
    (∀ (record : Record) (rest : Bytes), record.hello.serverNames = none → tlsSni (record.bytes ++ rest) = none) ∧
    (∀ (buf : Bytes) (name : Text), tlsSni buf = some name → ∃ raw, raw <:+: buf ∧ plausibleHost raw = some name) := by
  refine ⟨fun record rest name hname hhost => ?_, fun record rest hnone => ?_, fun buf name h => tlsSni_part h⟩
  · rw [tlsSni_record, hname]
    exact plausibleHost_host hhost
  · rw [tlsSni_record, ClientHello.hostName, hnone]
    rfl

/-- A client hello for one name, with nothing else in it. -/
def helloFor (name : Bytes) (fits : name.length < 1000) : Record where
  version := ⟨[3, 1], rfl⟩
  hello :=
    { version := ⟨[3, 3], rfl⟩
      random := List.Vector.replicate 32 0
      session := []
      ciphers := [0x1301]
      compression := [0]
      extensions := [.serverName [⟨SNI_HOST_NAME, name, fits.trans (by decide)⟩] (by
        simp [ServerName.bytes]
        omega)]
      session_fits := by decide
      ciphers_fit := by decide
      compression_fits := by decide
      extensions_fit := by
        simp [Extension.bytes, Extension.data, ServerName.bytes]
        omega }
  fits := by
    simp [ClientHello.handshake, ClientHello.bytes, ClientHello.front, Extension.bytes, Extension.data,
      ServerName.bytes]
    omega

/-- A client hello with extensions of other kinds in front, and an entry of another kind before the name. -/
def helloBehind : Record where
  version := ⟨[3, 1], rfl⟩
  hello :=
    { version := ⟨[3, 3], rfl⟩
      random := List.Vector.replicate 32 7
      session := [1, 2, 3, 4]
      ciphers := [0x1301, 0x1302]
      compression := [0]
      extensions :=
        [.other 16 [0, 3, 2, 104, 50] (by decide) (by decide),
          .serverName [⟨1, [9], by decide⟩, ⟨SNI_HOST_NAME, asciiBytes "WWW.Example.org.".toList, by decide⟩]
            (by decide),
          .other 43 [2, 3, 4] (by decide) (by decide)]
      session_fits := by decide
      ciphers_fit := by decide
      compression_fits := by decide
      extensions_fit := by decide }
  fits := by decide

theorem tlsSni_serverName_behind : ∃ record : Record, ∃ name : Text,
    record.hello.extensions.length = 3 ∧ record.hello.hostName = some (asciiBytes name) ∧ IsHost name ∧
      tlsSni (record.bytes ++ [0x17, 3, 3]) = some "www.example.org".toList := by
  have hhost : IsHost "WWW.Example.org.".toList :=
    ⟨by decide, by decide, by decide, by decide⟩
  exact ⟨helloBehind, "WWW.Example.org.".toList, rfl, rfl, hhost,
    (tlsSni_serverName.1 helloBehind [0x17, 3, 3] "WWW.Example.org.".toList rfl hhost).trans (by decide)⟩

/-- The name `a!b.com` is dotted, ASCII and no address, and it is not taken. -/
theorem dotted_unheard : ¬ ∀ (record : Record) (rest : Bytes) (name : Text),
    record.hello.hostName = some (asciiBytes name) → (∀ c ∈ name, c.toNat < 128) → '.' ∈ name →
      name.length ≤ MAX_HOST_LEN → parseIpAddr name = none →
        tlsSni (record.bytes ++ rest) = some ((trimEndMatches '.' name).map Char.toLower) := by
  intro h
  have hname := h (helloFor (asciiBytes "a!b.com".toList) (by decide)) [] "a!b.com".toList rfl (by decide) (by decide)
    (by decide) (by decide)
  rw [tlsSni_record] at hname
  exact absurd hname (by decide)

end Sniff
end AuroraVpn
