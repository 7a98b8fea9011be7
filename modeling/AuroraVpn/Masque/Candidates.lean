import AuroraVpn.Lib.IpAddr
import Mathlib.Data.List.Basic

/-!
# Candidates — where the inner hop of a nested MASQUE tunnel may go

`inner_masque_candidates` derives the edges to try for the inner hop from the outer one.  What the
random generator yields is a parameter (`Draws`).
-/

namespace AuroraVpn
namespace Masque

def MASQUE_INNER_PORT : UInt16 := 443
def MIM_INNER_TRIES : Nat := 6

/-- What the random generator yields: a number for every step of the shuffle, and the numbers of the
loop that draws segments.  A list that ends early stands for a loop that is still drawing. -/
structure Draws where
  index : Nat → Nat
  segments : List Nat

section Shuffle

variable {α : Type}

def swap (hosts : List α) (i j : Nat) : List α :=
  match hosts[i]?, hosts[j]? with
  | some a, some b => (hosts.set i b).set j a
  | _, _ => hosts

/-- `for index in (1..hosts.len()).rev() { .. }`. -/
def shuffle (draw : Nat → Nat) : Nat → List α → List α
  | 0, hosts => hosts
  | index + 1, hosts =>
      shuffle draw index (swap hosts (index + 1) (draw (index + 1) % (index + 2)))

end Shuffle

/-! ## IPv4 -/

def candidateHosts (own : UInt8) : List UInt8 :=
  ((List.range 254).map fun i => UInt8.ofNat (i + 1)).filter fun host => host != own

/-! ## IPv6 -/

def lastSegment (octets : List.Vector UInt8 16) : Nat :=
  256 * (octets.get 14).toNat + (octets.get 15).toNat

def withLastSegment (octets : List.Vector UInt8 16) (segment : Nat) : List.Vector UInt8 16 :=
  (octets.set 14 (UInt8.ofNat (segment / 256))).set 15 (UInt8.ofNat segment)

/-- `while out.len() < count && seen.len() < count * 8 { .. }`. -/
def drawSegments (last count : Nat) : List Nat → List Nat → List Nat → List Nat
  | [], _, out => out
  | draw :: draws, seen, out =>
      if out.length < count ∧ seen.length < count * 8 then
        let candidate := 1 + draw % 65535
        if candidate = last ∨ candidate ∈ seen then
          drawSegments last count draws seen out
        else
          drawSegments last count draws (candidate :: seen) (out ++ [candidate])
      else
        out

/-! ## The candidates -/

/-- `inner_masque_candidates`. -/
def innerMasqueCandidates (draws : Draws) (outer : SocketAddr) (count : Nat) : List SocketAddr :=
  match outer.ip with
  | .v4 octets =>
      let hosts := candidateHosts (octets.get 3)
      ((shuffle draws.index (hosts.length - 1) hosts).take count).map fun host =>
        .new (.v4 (octets.set 3 host)) MASQUE_INNER_PORT
  | .v6 octets =>
      (drawSegments (lastSegment octets) count draws.segments [] []).map fun segment =>
        .new (.v6 (withLastSegment octets segment)) MASQUE_INNER_PORT

end Masque
end AuroraVpn
