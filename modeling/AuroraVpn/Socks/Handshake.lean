import AuroraVpn.Lib.BigEndian
import AuroraVpn.Lib.Conversation
import AuroraVpn.Lib.IpAddr
import AuroraVpn.Lib.Utf8

/-!
# Handshake — how the SOCKS server of `socks.rs` takes in a client

`read_request`: the greeting, the username/password exchange when the server has credentials, and
the request, each read off the socket with `read_exact` and answered with `write_all`.
-/

namespace AuroraVpn
namespace Socks

open BigEndian Conversation Utf8
open Talk (readExact writeAll fail)

def VER : UInt8 := 0x05
def ATYP_V4 : UInt8 := 0x01
def ATYP_DOMAIN : UInt8 := 0x03
def ATYP_V6 : UInt8 := 0x04

def AUTH_NONE : UInt8 := 0x00
def AUTH_USERPASS : UInt8 := 0x02
def AUTH_UNACCEPTABLE : UInt8 := 0xFF
/-- The version of the username/password exchange. -/
def AUTH_SUBVER : UInt8 := 0x01

/-- `str::as_bytes`. -/
def asBytes (s : String) : Bytes :=
  s.toUTF8.data.toList

def constantTimeEq (a b : Bytes) : Bool :=
  if a.length ≠ b.length then
    false
  else
    (a.zip b).foldl (fun diff xy => diff ||| (xy.1 ^^^ xy.2)) 0 == 0

structure Credentials where
  username : String
  password : String
  deriving DecidableEq, Repr

def Credentials.matches (c : Credentials) (username password : Bytes) : Bool :=
  constantTimeEq (asBytes c.username) username && constantTimeEq (asBytes c.password) password

structure Access where
  credentials : Option Credentials
  deriving DecidableEq, Repr

inductive Target
  | ip (addr : IpAddr)
  | domain (name : Text)
  deriving DecidableEq

/-- What the server says and hears on a client's socket. -/
abbrev Io (α : Type) := Talk UInt8 AetherError α

def faults : Faults AetherError where
  unexpectedEof := .io .unexpectedEof
  brokenPipe := .io .brokenPipe

/-- The username/password exchange. -/
def authenticate (credentials : Credentials) : Io Unit := do
  let head ← readExact 2
  if head.get 0 ≠ AUTH_SUBVER then
    fail (.other "bad auth version")
  else
    let username ← readExact (head.get 1).toNat
    let plen ← readExact 1
    let password ← readExact (plen.get 0).toNat
    if !credentials.matches username.toList password.toList then
      writeAll [AUTH_SUBVER, 0x01]
      fail (.other "bad socks credentials")
    else
      writeAll [AUTH_SUBVER, 0x00]

def handshake (access : Access) : Io Unit := do
  let head ← readExact 2
  if head.get 0 ≠ VER then
    fail (.other "bad greeting version")
  else
    let methods ← readExact (head.get 1).toNat
    match access.credentials with
    | none => writeAll [VER, AUTH_NONE]
    | some credentials =>
        if AUTH_USERPASS ∉ methods.toList then
          -- answered rather than dropped, so that the client can say why
          writeAll [VER, AUTH_UNACCEPTABLE]
          fail (.other "client offered no password method")
        else
          writeAll [VER, AUTH_USERPASS]
          authenticate credentials

def readTarget (atyp : UInt8) : Io (Target × UInt16) := do
  let target ←
    if atyp = ATYP_V4 then do
      let b ← readExact 4
      pure (Target.ip (.v4 b))
    else if atyp = ATYP_V6 then do
      let b ← readExact 16
      pure (Target.ip (.v6 b))
    else if atyp = ATYP_DOMAIN then do
      let len ← readExact 1
      let name ← readExact (len.get 0).toNat
      pure (Target.domain (fromUtf8Lossy name.toList))
    else
      fail (.other "bad atyp")
  let port ← readExact 2
  pure (target, UInt16.ofNat (ofBe port.toList))

def readRequest (access : Access) : Io (UInt8 × Target × UInt16) := do
  handshake access
  let head ← readExact 4
  if head.get 0 ≠ VER then
    fail (.other "bad socks version")
  else
    let (target, port) ← readTarget (head.get 3)
    pure (head.get 1, target, port)

/-! ## Credentials -/

theorem or_eq_zero {a b : UInt8} : a ||| b = 0 ↔ a = 0 ∧ b = 0 := by
  simp only [← UInt8.toBitVec_inj, UInt8.toBitVec_or]
  exact BitVec.or_eq_zero_iff

/-- The comparison accumulates every difference, so it is zero only when there was none. -/
theorem foldl_diff_eq_zero {a b : Bytes} (h : a.length = b.length) (d : UInt8) :
    (a.zip b).foldl (fun diff xy => diff ||| (xy.1 ^^^ xy.2)) d = 0 ↔ d = 0 ∧ a = b := by
  induction a generalizing b d with
  | nil =>
      cases b with
      | nil => simp
      | cons y b => simp at h
  | cons x a ih =>
      cases b with
      | nil => simp at h
      | cons y b =>
          have hxy : x ^^^ y = 0 ↔ x = y := UInt8.xor_eq_zero_iff
          simp only [List.zip_cons_cons, List.foldl_cons, List.cons.injEq]
          rw [ih (by simpa using h), or_eq_zero, hxy, and_assoc]

theorem constantTimeEq_iff {a b : Bytes} : constantTimeEq a b = true ↔ a = b := by
  by_cases h : a.length = b.length
  · simp [constantTimeEq, h, foldl_diff_eq_zero h]
  · have hne : a ≠ b := fun hab => h (by rw [hab])
    simp [constantTimeEq, h, hne]

theorem Credentials.matches_iff {c : Credentials} {username password : Bytes} :
    c.matches username password = true ↔
      username = asBytes c.username ∧ password = asBytes c.password := by
  rw [Credentials.matches, Bool.and_eq_true, constantTimeEq_iff, constantTimeEq_iff]
  exact and_congr eq_comm eq_comm

end Socks
end AuroraVpn
