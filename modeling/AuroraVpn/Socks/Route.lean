import AuroraVpn.Routing.Rules
import AuroraVpn.Socks.Handshake

/-!
# Route — from a target to a routing decision and an address

The steps of `socks.rs` between a target and the connection made for it: the host it is decided on,
the decision, and the address it is dialled at.

`blockWins_iff` says when a block of the target or of the announced name is what is decided.
-/

namespace AuroraVpn
namespace Socks

open Routing

variable {ν ρ : Type}

def hostOf : Target → Host
  | .domain name => .domain name
  | .ip addr => .ip addr

/-- A name the client's first bytes announced is decided on first. -/
def decideRoute (crates : Crates ν ρ) (set : RuleSet ν ρ) (target : Target) (sniffed : Option Text)
    (port : UInt16) : Action :=
  match sniffed with
  | some name =>
      match set.decide crates (.domain name) port with
      | .proxy => set.decide crates (hostOf target) port
      | decided => decided
  | none => set.decide crates (hostOf target) port

/-- When `handle_connect` waits for the client's first bytes before it decides. -/
def sniffs (sniffEnabled : Bool) (set : RuleSet ν ρ) : Target → Bool
  | .ip _ => sniffEnabled && set.hasDomainRules
  | .domain _ => false

/-- `dns` stands for `dns_resolve`, the query through the tunnel. -/
def resolve (dns : Text → Except AetherError IpAddr) : Target → Except AetherError IpAddr
  | .ip addr => .ok addr
  | .domain name =>
      match parseIpAddr name with
      | some addr => .ok addr
      | none => dns name

def normalizeIp : IpAddr → IpAddr
  | .v6 octets =>
      match IpAddr.toIpv4Mapped octets with
      | some v4 => .v4 v4
      | none => .v6 octets
  | .v4 octets => .v4 octets

/-- How `handle_http_client` reads the authority of a request. -/
def httpTarget (authority : Text) : Target :=
  match parseIpAddr authority with
  | some addr => .ip addr
  | none => .domain authority

theorem normalizeIp_normalizeIp (addr : IpAddr) : normalizeIp (normalizeIp addr) = normalizeIp addr := by
  cases addr with
  | v4 octets => rfl
  | v6 octets =>
      cases h : IpAddr.toIpv4Mapped octets with
      | some v4 => simp [normalizeIp, h]
      | none => simp [normalizeIp, h]

/-- A name that the rules do not decide on makes no difference, and neither does none. -/
theorem decideRoute_eq_decide {crates : Crates ν ρ} {set : RuleSet ν ρ} {target : Target}
    {sniffed : Option Text} {port : UInt16} :
    decideRoute crates set target sniffed port = set.decide crates (hostOf target) port ↔
      ∀ name ∈ sniffed, set.decide crates (.domain name) port = .proxy ∨
        set.decide crates (.domain name) port = set.decide crates (hostOf target) port := by
  cases sniffed with
  | none => simp [decideRoute]
  | some name =>
      cases h : set.decide crates (.domain name) port with
      | _ => simp [decideRoute, h]

/-! ## A block and the name in front of it -/

/-- A block of either the target or the announced name is the decision. -/
def BlockWins (crates : Crates ν ρ) (set : RuleSet ν ρ) (target : Target) (sniffed : Option Text)
    (port : UInt16) : Prop :=
  (set.decide crates (hostOf target) port = .block ∨
      ∃ name ∈ sniffed, set.decide crates (.domain name) port = .block) →
    decideRoute crates set target sniffed port = .block

/-- The announced name takes a blocked host around the tunnel: the rules block the target for its
host, and not for the port, leave the name alone and send the name or the port direct. -/
def LiftsBlock (crates : Crates ν ρ) (set : RuleSet ν ρ) (target : Target) (name : Text)
    (port : UInt16) : Prop :=
  HostHit crates set.block (hostOf target) ∧
    ¬ (PortHit set.block port ∨ HostHit crates set.block (.domain name)) ∧
    (PortHit set.direct port ∨ HostHit crates set.direct (.domain name))

variable {crates : Crates ν ρ} {set : RuleSet ν ρ} {target : Target} {name : Text}
  {sniffed : Option Text} {port : UInt16}

theorem liftsBlock_iff :
    LiftsBlock crates set target name port ↔
      set.decide crates (hostOf target) port = .block ∧
        set.decide crates (.domain name) port = .direct := by
  unfold LiftsBlock
  rw [decide_eq_block, decide_eq_direct]
  constructor
  · rintro ⟨htarget, hname⟩
    exact ⟨.inr htarget, hname⟩
  · rintro ⟨hport | htarget, hname⟩
    -- a block rule for the port blocks the name as well
    · exact absurd (.inl hport) hname.1
    · exact ⟨htarget, hname⟩

/-- **When a block wins**: unless the announced name lifts it. -/
theorem blockWins_iff (crates : Crates ν ρ) (set : RuleSet ν ρ) (target : Target)
    (sniffed : Option Text) (port : UInt16) :
    BlockWins crates set target sniffed port ↔
      ∀ name ∈ sniffed, ¬ LiftsBlock crates set target name port := by
  unfold BlockWins
  cases sniffed with
  | none =>
      have hnobody : ∀ name ∈ (none : Option Text), ¬ LiftsBlock crates set target name port :=
        fun _ hin => absurd hin (by simp)
      refine ⟨fun _ => hnobody, fun _ => ?_⟩
      rintro (htarget | ⟨name, hin, -⟩)
      · exact htarget
      · cases hin
  | some name =>
      simp only [Option.mem_some_iff, forall_eq', exists_eq_left', liftsBlock_iff, not_and]
      unfold decideRoute
      cases hname : set.decide crates (.domain name) port with
      | proxy => simp [hname]
      | block => simp [hname]
      | direct => simp [hname]

/-- The name of a client's choice takes it to an address that is blocked. -/
theorem not_blockWins_direct :
    ¬ @BlockWins (List.Vector UInt8 4) Empty
      { contains := fun net addr => addr == .v4 net
        isMatch := nofun
        toLowercase := List.map Char.toLower }
      { block := [.net ⟨[203, 0, 113, 7], rfl⟩], direct := [.domainSuffix "lan.example".toList] }
      (.ip (.v4 ⟨[203, 0, 113, 7], rfl⟩)) (some "lan.example".toList) 443 := by
  intro h
  have hblocked := h (.inl (by decide))
  revert hblocked
  decide

end Socks
end AuroraVpn
