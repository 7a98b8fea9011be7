import AuroraVpn.Lib.Encode
import AuroraVpn.Lib.IpAddr
import AuroraVpn.Lib.Joined
import AuroraVpn.Routing.Rules
import AuroraVpn.Upstream.Setting
import Mathlib.Data.List.Infix

/-!
# Hostname — the name in the first bytes of a connection

`sniff.rs`: the server name of a TLS client hello, or the host of an HTTP request.  Every read is one that
may find nothing.
-/

namespace AuroraVpn
namespace Sniff

open IpAddr Routing Utf8
open AuroraVpn.Upstream (rsplitOnce)

def TLS_HANDSHAKE : UInt8 := 0x16
def TLS_CLIENT_HELLO : UInt8 := 0x01
def EXT_SERVER_NAME : Nat := 0x0000
def SNI_HOST_NAME : UInt8 := 0x00

def MAX_HOST_LEN : Nat := 253
def PEEK_BUDGET : Nat := 4096

def be16 (buf : Bytes) (pos : Nat) : Option Nat := do
  let hi ← buf[pos]?
  let lo ← buf[pos + 1]?
  some (hi.toNat * 256 + lo.toNat)

def be24 (buf : Bytes) (pos : Nat) : Option Nat := do
  let a ← buf[pos]?
  let b ← buf[pos + 1]?
  let c ← buf[pos + 2]?
  some (a.toNat * 65536 + b.toNat * 256 + c.toNat)

/-- `buf.get(start..stop)`. -/
def getSlice (buf : Bytes) (start stop : Nat) : Option Bytes :=
  if start ≤ stop ∧ stop ≤ buf.length then some ((buf.take stop).drop start) else none

/-- A letter or a digit of ASCII, a hyphen, a dot or an underscore. -/
def isAllowed (c : Char) : Bool :=
  c.isAlphanum || c = '-' || c = '.' || c = '_'

def plausibleHost (raw : Bytes) : Option Text :=
  if raw = [] ∨ MAX_HOST_LEN < raw.length then none
  else
    match fromUtf8 raw with
    | none => none
    | some text =>
        let name := trimEndMatches '.' (trim text)
        if name = [] ∨ MAX_HOST_LEN < (encode name).length then none
        else if name.all isAllowed = false ∨ '.' ∉ name then none
        else if (parseIpAddr name).isSome then none
        else some (name.map Char.toLower)

/-! ## TLS -/

/-- The loop over the names of a list. -/
def serverNamesLoop (data : Bytes) (listEnd pos : Nat) : Option Text :=
  if pos + 3 ≤ listEnd then
    match data[pos]?, be16 data (pos + 1) with
    | some kind, some len =>
        if listEnd < pos + 3 + len then none
        else if kind = SNI_HOST_NAME then (getSlice data (pos + 3) (pos + 3 + len)).bind plausibleHost
        else serverNamesLoop data listEnd (pos + 3 + len)
    | _, _ => none
  else none
termination_by listEnd - pos

def firstServerName (data : Bytes) : Option Text := do
  let listLen ← be16 data 0
  serverNamesLoop data (min (2 + listLen) data.length) 2

/-- The loop over the extensions. -/
def extensionsLoop (hello : Bytes) (extensionsEnd pos : Nat) : Option Text :=
  if pos + 4 ≤ extensionsEnd then
    match be16 hello pos, be16 hello (pos + 2) with
    | some kind, some len =>
        if extensionsEnd < pos + 4 + len then none
        else if kind = EXT_SERVER_NAME then (getSlice hello (pos + 4) (pos + 4 + len)).bind firstServerName
        else extensionsLoop hello extensionsEnd (pos + 4 + len)
    | _, _ => none
  else none
termination_by extensionsEnd - pos

/-- What stands behind the header of the handshake. -/
def helloName (hello : Bytes) : Option Text := do
  let sessionLen ← hello[2 + 32]?
  let pos := 2 + 32 + (1 + sessionLen.toNat)
  let cipherLen ← be16 hello pos
  let pos := pos + (2 + cipherLen)
  let compressionLen ← hello[pos]?
  let pos := pos + (1 + compressionLen.toNat)
  let extensionsLen ← be16 hello pos
  let pos := pos + 2
  extensionsLoop hello (min (pos + extensionsLen) hello.length) pos

def tlsSni (buf : Bytes) : Option Text :=
  if buf.head? ≠ some TLS_HANDSHAKE then none
  else do
    let recordLen ← be16 buf 3
    let body ← getSlice buf 5 (min (5 + recordLen) buf.length)
    if body.head? ≠ some TLS_CLIENT_HELLO then none
    else do
      let helloLen ← be24 body 1
      let hello ← getSlice body 4 (min (4 + helloLen) body.length)
      helloName hello

/-! ## HTTP -/

/-- `split("\r\n")`. -/
def splitCrlf : Text → List Text
  | '\r' :: '\n' :: t => [] :: splitCrlf t
  | c :: t => (splitCrlf t).modifyHead (c :: ·)
  | [] => [[]]

def METHODS : List Text :=
  ["GET ".toList, "POST ".toList, "PUT ".toList, "HEAD ".toList, "DELETE ".toList, "OPTIONS ".toList,
    "PATCH ".toList, "TRACE ".toList, "CONNECT ".toList]

def looksLikeHttp (line : Text) : Bool :=
  METHODS.any (fun method => method.isPrefixOf line) && decide ("HTTP/".toList <:+: line)

/-- A value without the port, where that is a port. -/
def withoutPort (value : Text) : Text :=
  match rsplitOnce ':' value with
  | some (host, port) => if port.all Char.isDigit then host else value
  | none => value

/-- What a line says of the host, if it does. -/
def hostValue (line : Text) : Option Text :=
  match splitOnce ':' line with
  | some (name, value) =>
      if eqIgnoreAsciiCase name "host".toList then some (withoutPort (trim value)) else none
  | none => none

/-- The loop over the header lines. -/
def headerHost : List Text → Option Text
  | [] => none
  | line :: lines =>
      if line = [] then none
      else
        match hostValue line with
        | some host => plausibleHost (encode host)
        | none => headerHost lines

def httpHost (buf : Bytes) : Option Text :=
  match splitCrlf (fromUtf8Lossy (buf.take PEEK_BUDGET)) with
  | requestLine :: lines => if looksLikeHttp requestLine then headerHost lines else none
  | [] => none

def hostname (buf : Bytes) : Option Text :=
  (tlsSni buf).or (httpHost buf)

end Sniff
end AuroraVpn
