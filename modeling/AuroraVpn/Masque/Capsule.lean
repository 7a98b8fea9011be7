import AuroraVpn.Lib.Framing
import AuroraVpn.Masque.Octets

/-!
# Capsule — the capsules of the HTTP/2 CONNECT-IP tunnel

Writing (`appendCapsule`) and the receive buffer (`CapsuleParser`) of `masque.rs`, with the loop in
which `masque_h2.rs` drains the buffer after every push.

* `next` splits one capsule off the buffer (`takeCapsule`) and gives its value a meaning by kind
  (`interpret`); the two steps are separate here because only the first one decides the framing.
* `push` refuses to let the buffer outgrow `MAX_CAPSULE_BUF`: it empties the buffer and drops the
  new bytes.
* `drainCapsules` calls `next` until the buffer holds no whole capsule or a capsule is malformed.
-/

namespace AuroraVpn
namespace Masque

open Octets

def CAPSULE_ADDRESS_ASSIGN : Nat := 0x01
def CAPSULE_ADDRESS_REQUEST : Nat := 0x02
def CAPSULE_ROUTE_ADVERTISEMENT : Nat := 0x03
def CAPSULE_DATAGRAM : Nat := 0x00

def CONNECT_IP_CONTEXT_ID : Nat := 0

def MAX_CAPSULE_BUF : Nat := 256 * 1024

structure AssignedAddress where
  requestId : Nat
  ipVersion : UInt8
  address : Bytes
  prefixLen : UInt8
  deriving DecidableEq, Repr

structure RouteAdvertisement where
  ipVersion : UInt8
  start : Bytes
  stop : Bytes
  protocol : UInt8
  deriving DecidableEq, Repr

inductive Capsule
  | addressAssign (addrs : List AssignedAddress)
  | addressRequest
  | datagram (payload : Bytes)
  | routeAdvertisement (routes : List RouteAdvertisement)
  | unknown (kind : Nat) (payload : Bytes)
  deriving DecidableEq, Repr

/-- `oct`: the text of the crate's only error. -/
def oct : AetherError :=
  .capsule "BufferTooShortError"

/-! ## Writing -/

/-- `varint_len` of `masque.rs`. -/
def varintLen (v : Nat) : Nat :=
  if v < 64 then 1
  else if v < 16384 then 2
  else if v < 1073741824 then 4
  else 8

def capsuleLen (kind : Nat) (value : Bytes) : Nat :=
  varintLen kind + varintLen value.length + value.length

/-- `append_capsule`: each write is into the room that was made for the whole capsule, and a write
that did not fit would be ignored. -/
def appendCapsule (out : Bytes) (kind : Nat) (value : Bytes) : Bytes :=
  let b := OctetsMut.withSlice (capsuleLen kind value)
  let b := (b.putVarint kind).getD b
  let b := (b.putVarint value.length).getD b
  let b := (b.putBytes value).getD b
  out ++ b.slice

def encodeCapsule (kind : Nat) (value : Bytes) : Bytes :=
  appendCapsule [] kind value

def encodeDatagramCapsule (ipPacket : Bytes) : Bytes :=
  encodeCapsule CAPSULE_DATAGRAM ipPacket

def appendDatagramCapsule (out : Bytes) (ipPacket : Bytes) : Bytes :=
  appendCapsule out CAPSULE_DATAGRAM ipPacket

/-! ## Datagram payloads -/

def looksLikeIpPacket (data : Bytes) : Bool :=
  match data.head? with
  | some first => (first >>> 4 == 4 || first >>> 4 == 6) && decide (data.length ≥ 20)
  | none => false

/-- `strip_datagram_context`: a context id is taken off only if an IP packet stands behind it. -/
def stripDatagramContext (payload : Bytes) : Option Bytes :=
  if payload.isEmpty then
    none
  else
    let asItStands := if looksLikeIpPacket payload then some payload else none
    match getVarint payload with
    | some (ctx, inner) =>
        if ctx = CONNECT_IP_CONTEXT_ID ∧ looksLikeIpPacket inner = true then some inner
        else asItStands
    | none => asItStands

/-! ## Control capsules -/

/-- `while b.cap() > 0 { .. }` of the two control-capsule parsers.  Every entry takes bytes off the
buffer, so as many turns as there are bytes are enough (`parseEntries_step`). -/
def parseEntries {α : Type} (entry : Bytes → Except AetherError (α × Bytes)) :
    Nat → Bytes → Except AetherError (List α)
  | 0, _ => pure []
  | n + 1, b =>
      if b.isEmpty then
        pure []
      else do
        let (e, r) ← entry b
        let es ← parseEntries entry n r
        pure (e :: es)

/-- A read of the `octets` crate whose failure becomes a capsule error. -/
def orShort {α : Type} (read : Option α) : Except AetherError α :=
  match read with
  | some a => pure a
  | none => throw oct

def addrLen (ipVersion : UInt8) : Except AetherError Nat :=
  match ipVersion with
  | 4 => pure 4
  | 6 => pure 16
  | v => throw (.capsule ("bad ip version " ++ toString v.toNat))

def assignedEntry (b : Bytes) : Except AetherError (AssignedAddress × Bytes) := do
  let (requestId, b) ← orShort (getVarint b)
  let (ipVersion, b) ← orShort (getU8 b)
  let len ← addrLen ipVersion
  let (address, b) ← orShort (getBytes len b)
  let (prefixLen, b) ← orShort (getU8 b)
  pure ({ requestId, ipVersion, address, prefixLen }, b)

def parseAddressAssign (value : Bytes) : Except AetherError (List AssignedAddress) :=
  parseEntries assignedEntry value.length value

def routeEntry (b : Bytes) : Except AetherError (RouteAdvertisement × Bytes) := do
  let (ipVersion, b) ← orShort (getU8 b)
  let len ← addrLen ipVersion
  let (start, b) ← orShort (getBytes len b)
  let (stop, b) ← orShort (getBytes len b)
  let (protocol, b) ← orShort (getU8 b)
  pure ({ ipVersion, start, stop, protocol }, b)

def parseRouteAdvertisement (value : Bytes) : Except AetherError (List RouteAdvertisement) :=
  parseEntries routeEntry value.length value

/-! ## The receive buffer -/

structure CapsuleParser where
  buf : Bytes
  deriving DecidableEq, Repr

/-- Kind and value of the capsule at the front of the buffer, and the bytes behind it. -/
def takeCapsule (b : Bytes) : Option ((Nat × Bytes) × Bytes) := do
  let (kind, b) ← getVarint b
  let (len, b) ← getVarint b
  if b.length < len then
    none
  else
    let (value, b) ← getBytes len b
    pure ((kind, value), b)

/-- What `next` makes of a capsule it has taken off the buffer. -/
def interpret (kv : Nat × Bytes) : Except AetherError Capsule :=
  let (kind, value) := kv
  if kind = CAPSULE_ADDRESS_ASSIGN then (parseAddressAssign value).map .addressAssign
  else if kind = CAPSULE_ADDRESS_REQUEST then pure .addressRequest
  else if kind = CAPSULE_ROUTE_ADVERTISEMENT then
    (parseRouteAdvertisement value).map .routeAdvertisement
  else if kind = CAPSULE_DATAGRAM then pure (.datagram value)
  else pure (.unknown kind value)

namespace CapsuleParser

/-- `new`. -/
def new : CapsuleParser :=
  { buf := [] }

/-- The guard of `push`. -/
def overflows (p : CapsuleParser) (data : Bytes) : Bool :=
  decide (p.buf.length + data.length > MAX_CAPSULE_BUF)

def push (p : CapsuleParser) (data : Bytes) : CapsuleParser :=
  if p.overflows data then { buf := [] } else { buf := p.buf ++ data }

def next (p : CapsuleParser) : Except AetherError (Option Capsule) × CapsuleParser :=
  match takeCapsule p.buf with
  | none => (pure none, p)
  | some (kv, rest) => ((interpret kv).map some, { buf := rest })

end CapsuleParser

/-- The loop of `drain_capsules`: what each call of `next` reports, up to the first one that finds
no whole capsule or a malformed one.  Every capsule takes bytes off the buffer, so a turn more than
it has bytes is enough. -/
def drainLoop : Nat → CapsuleParser → List (Except AetherError Capsule) × CapsuleParser
  | 0, p => ([], p)
  | n + 1, p =>
      match p.next with
      | (.ok none, p') => ([], p')
      | (.ok (some c), p') =>
          let (cs, p'') := drainLoop n p'
          (.ok c :: cs, p'')
      | (.error e, p') => ([.error e], p')

def drainCapsules (p : CapsuleParser) : List (Except AetherError Capsule) × CapsuleParser :=
  drainLoop (p.buf.length + 1) p

/-- Chunks pushed one by one, with a drain behind each. -/
def receive (p : CapsuleParser) : List Bytes → List (Except AetherError Capsule) × CapsuleParser
  | [] => ([], p)
  | c :: cs =>
      let (os, p') := drainCapsules (p.push c)
      let (os', p'') := receive p' cs
      (os ++ os', p'')

/-- Whether some push of the run empties the buffer. -/
def resets (p : CapsuleParser) : List Bytes → Bool
  | [] => false
  | c :: cs => p.overflows c || resets (drainCapsules (p.push c)).2 cs

/-- The payloads of the datagram capsules among what `next` reported. -/
def datagrams (os : List (Except AetherError Capsule)) : List Bytes :=
  os.filterMap fun
    | .ok (.datagram payload) => some payload
    | _ => none

/-! ## Framing -/

theorem takeCapsule_eq_some {b rest : Bytes} {kv : Nat × Bytes} :
    takeCapsule b = some (kv, rest) ↔
      ∃ r₁ r₂ len, getVarint b = some (kv.1, r₁) ∧ getVarint r₁ = some (len, r₂) ∧
        getBytes len r₂ = some (kv.2, rest) := by
  constructor
  · intro h
    unfold takeCapsule at h
    obtain ⟨⟨kind, r₁⟩, hkind, h⟩ := Option.bind_eq_some_iff.1 h
    obtain ⟨⟨len, r₂⟩, hlen, h⟩ := Option.bind_eq_some_iff.1 h
    dsimp only at h
    split at h
    · cases h
    · obtain ⟨⟨value, r₃⟩, hvalue, h⟩ := Option.bind_eq_some_iff.1 h
      cases h
      exact ⟨r₁, r₂, len, hkind, hlen, hvalue⟩
  · rintro ⟨r₁, r₂, len, hkind, hlen, hvalue⟩
    have hroom : ¬ r₂.length < len := by
      intro hlt
      simp [getBytes, hlt] at hvalue
    simp [takeCapsule, hkind, hlen, hroom, hvalue]

theorem takeCapsule_incremental : Framing.Incremental takeCapsule where
  extend := by
    intro b rest kv h x
    obtain ⟨r₁, r₂, len, hkind, hlen, hvalue⟩ := takeCapsule_eq_some.1 h
    exact takeCapsule_eq_some.2 ⟨r₁ ++ x, r₂ ++ x, len, getVarint_extend hkind x,
      getVarint_extend hlen x, getBytes_extend hvalue x⟩
  consume := by
    intro b rest kv h
    obtain ⟨r₁, r₂, len, hkind, hlen, hvalue⟩ := takeCapsule_eq_some.1 h
    have h₁ := getVarint_length hkind
    have h₂ := getVarint_length hlen
    have h₃ := getBytes_length hvalue
    omega

/-- A capsule header written with varints of any length, and its value behind it. -/
theorem takeCapsule_wire {kind lk lv : Nat} {value : Bytes} (hlk : IsVarintLen lk)
    (hlv : IsVarintLen lv) (hkind : kind < 64 * 256 ^ (lk - 1))
    (hvalue : value.length < 64 * 256 ^ (lv - 1)) (rest : Bytes) :
    takeCapsule (varintBytes kind lk ++ (varintBytes value.length lv ++ (value ++ rest))) =
      some ((kind, value), rest) := by
  refine takeCapsule_eq_some.2 ⟨_, _, value.length, getVarint_varintBytes hlk hkind _,
    getVarint_varintBytes hlv hvalue _, ?_⟩
  exact getBytes_append value rest

/-! ## What `appendCapsule` writes -/

theorem varintLen_eq_octets (v : Nat) : varintLen v = Octets.varintLen v := by
  unfold varintLen Octets.varintLen
  split_ifs <;> omega

theorem isVarintLen_varintLen (v : Nat) : IsVarintLen (varintLen v) := by
  unfold varintLen IsVarintLen
  split_ifs <;> simp

/-- `varint_len` picks a length the number fits in, up to `MAX_VAR_INT`. -/
theorem varintLen_fits {v : Nat} : v < 64 * 256 ^ 7 → v < 64 * 256 ^ (varintLen v - 1) := by
  intro hv
  unfold varintLen
  split_ifs <;> norm_num <;> omega

theorem putVarint_of_room {b : OctetsMut} {v : Nat} :
    varintLen v ≤ b.room →
      b.putVarint v = some { written := b.written ++ varintBytes v (varintLen v),
                             room := b.room - varintLen v } := by
  intro hroom
  have hlen := length_varintBytes (isVarintLen_varintLen v) v
  have hfits : ¬ b.room < varintLen v := Nat.not_lt.2 hroom
  rw [OctetsMut.putVarint, ← varintLen_eq_octets, if_neg hfits, OctetsMut.putBytes, hlen,
    if_neg hfits]

/-- The room made for a capsule is exactly what its header and value fill. -/
theorem appendCapsule_eq (out : Bytes) (kind : Nat) (value : Bytes) :
    appendCapsule out kind value =
      out ++ (varintBytes kind (varintLen kind) ++
        (varintBytes value.length (varintLen value.length) ++ value)) := by
  have hroom : varintLen kind + varintLen value.length + value.length - varintLen kind -
      varintLen value.length = value.length := by omega
  unfold appendCapsule capsuleLen OctetsMut.withSlice
  dsimp only
  rw [putVarint_of_room (v := kind) (Nat.le_add_right_of_le (Nat.le_add_right _ _)),
    Option.getD_some]
  dsimp only
  rw [putVarint_of_room (v := value.length) (by dsimp only; omega), Option.getD_some]
  simp [OctetsMut.putBytes, OctetsMut.slice, hroom]

theorem appendCapsule_append (out : Bytes) (kind : Nat) (value : Bytes) :
    appendCapsule out kind value = out ++ encodeCapsule kind value := by
  simp [encodeCapsule, appendCapsule_eq]

/-! ## The drain loop as a drain of frames -/

/-- `interpret` fails, which ends a drain. -/
def malformed (kv : Nat × Bytes) : Bool :=
  match interpret kv with
  | .ok _ => false
  | .error _ => true

theorem drainLoop_eq (n : Nat) (p : CapsuleParser) :
    drainLoop n p =
      ((Framing.drain takeCapsule malformed n p.buf).1.map interpret,
        { buf := (Framing.drain takeCapsule malformed n p.buf).2 }) := by
  induction n generalizing p with
  | zero => rfl
  | succ n ih =>
      simp only [drainLoop, CapsuleParser.next, Framing.drain]
      cases hb : takeCapsule p.buf with
      | none => rfl
      | some kvr =>
          obtain ⟨kv, rest⟩ := kvr
          cases hkv : interpret kv with
          | error e => simp [malformed, hkv, Except.map]
          | ok c => simp [malformed, hkv, ih, Except.map]

/-! ## Reads that end -/

theorem orShort_eq_ok {α : Type} {read : Option α} {a : α} :
    orShort read = .ok a ↔ read = some a := by
  cases read with
  | none => simp [orShort, throw, throwThe, MonadExceptOf.throw]
  | some b => simp [orShort, pure, Except.pure]

theorem bind_eq_ok {ε α γ : Type} {x : Except ε α} {f : α → Except ε γ} {c : γ} :
    x >>= f = .ok c ↔ ∃ a, x = .ok a ∧ f a = .ok c := by
  cases x with
  | error e => simp [bind, Except.bind]
  | ok a => simp [bind, Except.bind]

end Masque
end AuroraVpn
