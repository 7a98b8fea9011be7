import AuroraVpn.Lib.IpAddr
import Mathlib.Data.List.Infix

/-!
# Rules — the rule sets of `routing.rs`

A rule set holds the rules that block and those that send around the tunnel, and decides on a host
as the client gave it, an address or a name, and a port.

* `decide_eq_block`, `decide_eq_direct`, `decide_eq_proxy`: the action, from which rules of the two lists
  hit the host and the port.
-/

namespace AuroraVpn
namespace Routing

inductive Action
  | proxy
  | direct
  | block
  deriving DecidableEq, Repr

inductive Host
  | domain (name : Text)
  | ip (addr : IpAddr)
  deriving DecidableEq

/-- What the rules use of the crates `ipnet` and `regex`, and of Unicode: networks `ν` with
`IpNet::contains`, patterns `ρ` with `Regex::is_match`, and `str::to_lowercase`. -/
structure Crates (ν ρ : Type) where
  contains : ν → IpAddr → Bool
  isMatch : ρ → Text → Bool
  toLowercase : Text → Text

inductive Matcher (ν ρ : Type)
  | domainSuffix (suffix : Text)
  | domainFull (full : Text)
  | domainKeyword (needle : Text)
  | domainRegex (pattern : ρ)
  | net (block : ν)
  | ports (lo hi : UInt16)
  | isPrivate

/-- `str::eq_ignore_ascii_case`. -/
def eqIgnoreAsciiCase (a b : Text) : Bool :=
  a.map Char.toLower == b.map Char.toLower

/-- Segment `i` of an IPv6 address. -/
def segment (octets : List.Vector UInt8 16) (i : Fin 8) : UInt16 :=
  (octets.get ⟨2 * i, by omega⟩).toUInt16 <<< 8 ||| (octets.get ⟨2 * i + 1, by omega⟩).toUInt16

/-- The IPv4 tests of `std::net` that `is_private` asks. -/
def isPrivateV4 (o : List.Vector UInt8 4) : Bool :=
  o.get 0 == 10 || (o.get 0 == 172 && 16 ≤ o.get 1 && o.get 1 ≤ 31) ||
    (o.get 0 == 192 && o.get 1 == 168)

def isLinkLocal (o : List.Vector UInt8 4) : Bool :=
  o.get 0 == 169 && o.get 1 == 254

def isDocumentation (o : List.Vector UInt8 4) : Bool :=
  (o.get 0 == 192 && o.get 1 == 0 && o.get 2 == 2) ||
    (o.get 0 == 198 && o.get 1 == 51 && o.get 2 == 100) ||
    (o.get 0 == 203 && o.get 1 == 0 && o.get 2 == 113)

def isPrivate : IpAddr → Bool
  | .v4 o =>
      isPrivateV4 o || o.get 0 == 127 || isLinkLocal o || o.toList == [255, 255, 255, 255] ||
        isDocumentation o || o.toList == [0, 0, 0, 0] ||
        (o.get 0 == 100 && 64 ≤ o.get 1 && o.get 1 < 128)
  | .v6 o =>
      o.toList == List.replicate 15 0 ++ [1] || o.toList == List.replicate 16 0 ||
        segment o 0 &&& 0xFE00 == 0xFC00 || segment o 0 &&& 0xFFC0 == 0xFE80

section Decide

variable {ν ρ : Type} (crates : Crates ν ρ)

def Matcher.matches (rule : Matcher ν ρ) (host : Host) (port : UInt16) : Bool :=
  match rule, host with
  | .ports lo hi, _ => lo ≤ port && port ≤ hi
  | .isPrivate, .ip ip => Routing.isPrivate ip
  | .isPrivate, .domain name => eqIgnoreAsciiCase name "localhost".toList
  | .net block, .ip ip => crates.contains block ip
  | .net _, .domain _ => false
  | .domainSuffix suffix, .domain name =>
      crates.toLowercase name == suffix || ('.' :: suffix).isSuffixOf (crates.toLowercase name)
  | .domainSuffix _, .ip _ => false
  | .domainFull full, .domain name => eqIgnoreAsciiCase name full
  | .domainFull _, .ip _ => false
  | .domainKeyword needle, .domain name => decide (needle <:+: crates.toLowercase name)
  | .domainKeyword _, .ip _ => false
  | .domainRegex pattern, .domain name => crates.isMatch pattern name
  | .domainRegex _, .ip _ => false

structure RuleSet (ν ρ : Type) where
  block : List (Matcher ν ρ)
  direct : List (Matcher ν ρ)

def Matcher.isDomainRule : Matcher ν ρ → Bool
  | .domainSuffix _ | .domainFull _ | .domainKeyword _ | .domainRegex _ => true
  | .net _ | .ports _ _ | .isPrivate => false

def RuleSet.hasDomainRules (set : RuleSet ν ρ) : Bool :=
  (set.block ++ set.direct).any Matcher.isDomainRule

def RuleSet.decide (set : RuleSet ν ρ) (host : Host) (port : UInt16) : Action :=
  if set.block.any (fun rule => rule.matches crates host port) then .block
  else if set.direct.any (fun rule => rule.matches crates host port) then .direct
  else .proxy

/-! ## Which rules hit -/

/-- One of the rules is for the port, whatever the host. -/
def PortHit (rules : List (Matcher ν ρ)) (port : UInt16) : Prop :=
  ∃ lo hi, Matcher.ports lo hi ∈ rules ∧ lo ≤ port ∧ port ≤ hi

/-- One of the rules is for the host, whatever the port. -/
def HostHit (rules : List (Matcher ν ρ)) (host : Host) : Prop :=
  ∃ rule ∈ rules, (∀ lo hi, rule ≠ .ports lo hi) ∧ ∀ port, rule.matches crates host port = true

variable {crates} {rules : List (Matcher ν ρ)} {set : RuleSet ν ρ} {host host' : Host}
  {port : UInt16}

/-- Only port rules look at the port. -/
theorem matches_port_irrelevant {rule : Matcher ν ρ} (h : ∀ lo hi, rule ≠ .ports lo hi)
    (port port' : UInt16) : rule.matches crates host port = rule.matches crates host port' := by
  cases rule with
  | ports lo hi => exact absurd rfl (h lo hi)
  | _ => cases host <;> rfl

theorem any_matches_iff :
    rules.any (fun rule => rule.matches crates host port) = true ↔
      PortHit rules port ∨ HostHit crates rules host := by
  rw [List.any_eq_true]
  constructor
  · rintro ⟨rule, hmem, hmatch⟩
    by_cases hports : ∃ lo hi, rule = .ports lo hi
    · obtain ⟨lo, hi, rfl⟩ := hports
      exact .inl ⟨lo, hi, hmem, by simpa [Matcher.matches] using hmatch⟩
    · push Not at hports
      exact .inr ⟨rule, hmem, hports, fun port' => matches_port_irrelevant hports port port' ▸ hmatch⟩
  · rintro (⟨lo, hi, hmem, hrange⟩ | ⟨rule, hmem, -, hmatch⟩)
    · exact ⟨_, hmem, by simpa [Matcher.matches] using hrange⟩
    · exact ⟨rule, hmem, hmatch port⟩

theorem decide_eq_block :
    set.decide crates host port = .block ↔ PortHit set.block port ∨ HostHit crates set.block host := by
  rw [← any_matches_iff, RuleSet.decide]
  split_ifs with hb hd <;> simp [hb]

theorem decide_eq_direct :
    set.decide crates host port = .direct ↔
      ¬(PortHit set.block port ∨ HostHit crates set.block host) ∧
        (PortHit set.direct port ∨ HostHit crates set.direct host) := by
  rw [← any_matches_iff, ← any_matches_iff, RuleSet.decide]
  split_ifs with hb hd
  · simp [hb]
  · simp [hb, hd]
  · simp [hd]

theorem decide_eq_proxy :
    set.decide crates host port = .proxy ↔
      ¬(PortHit set.block port ∨ HostHit crates set.block host) ∧
        ¬(PortHit set.direct port ∨ HostHit crates set.direct host) := by
  rw [← any_matches_iff, ← any_matches_iff, RuleSet.decide]
  split_ifs with hb hd
  · simp [hb]
  · simp [hd]
  · simp [hb, hd]

end Decide

end Routing
end AuroraVpn
