import AuroraVpn.Socks.Route

/-!
# Doors — the ways a destination can be handed to the proxy

The same address can come in by SOCKS CONNECT, by UDP ASSOCIATE or by the HTTP proxy, as an
address, as its text, or as an IPv4-mapped IPv6 address.  All of these are dialled at one address,
but only the HTTP proxy looks for an address in a text before it asks the rules, and nobody takes
the mapping off first.

* `sameAtEveryDoor_iff`: when the rules give one action for all of them.  A rule for addresses sees no text
  and a rule for names sees no address, so each spelling has to be looked at (`Covers`, `Spares`).
* `sameAtEveryDoor_not`: a rule that blocks one address, which its text and its mapped form pass.
-/

namespace AuroraVpn
namespace Socks

open Routing

variable {ν ρ : Type}

inductive Door
  | connect (target : Target)
  | udpAssociate (target : Target)
  | httpProxy (authority : Text)

/-- The address that a host stands for without a name server, in its IPv4 form if it has one. -/
def addressOf : Host → Option IpAddr
  | .ip addr => some (normalizeIp addr)
  | .domain name => (parseIpAddr name).map normalizeIp

def Door.address : Door → Option IpAddr
  | .connect target => addressOf (hostOf target)
  | .udpAssociate target => addressOf (hostOf target)
  | .httpProxy authority => addressOf (.domain authority)

/-- The action taken at a door.  `announced` is the name in the client's first bytes, which only
CONNECT may come to see. -/
def Door.action (crates : Crates ν ρ) (set : RuleSet ν ρ) (sniffEnabled : Bool)
    (announced : Option Text) (port : UInt16) : Door → Action
  | .connect target =>
      decideRoute crates set target (if sniffs sniffEnabled set target then announced else none) port
  | .udpAssociate target => set.decide crates (hostOf target) port
  | .httpProxy authority => set.decide crates (hostOf (httpTarget authority)) port

/-- The name that a client's first bytes can bring into the decision. -/
def heard (set : RuleSet ν ρ) (sniffEnabled : Bool) (announced : Option Text) : Option Text :=
  if sniffEnabled && set.hasDomainRules then announced else none

/-! ## The spellings of an address -/

/-- The addresses that are dialled at one address. -/
def forms : IpAddr → List IpAddr
  | .v4 octets => [.v4 octets, .v6 (IpAddr.toIpv6Mapped octets)]
  | .v6 octets => [.v6 octets]

theorem mem_forms {addr ip : IpAddr} : addr ∈ forms (normalizeIp ip) ↔ normalizeIp addr = normalizeIp ip := by
  have hplain := normalizeIp_normalizeIp ip
  generalize normalizeIp ip = plain at hplain
  -- a mapped address has two forms, any other one itself only
  cases plain with
  | v4 octets =>
      cases addr with
      | v4 other => simp [forms, normalizeIp]
      | v6 other =>
          cases h : IpAddr.toIpv4Mapped other with
          | none =>
              have hother : other ≠ IpAddr.toIpv6Mapped octets := by
                intro heq
                rw [IpAddr.toIpv4Mapped_eq_some.2 heq] at h
                cases h
              simp [forms, normalizeIp, h, hother]
          | some v4 =>
              simp only [forms, normalizeIp, h, List.mem_cons, List.not_mem_nil, reduceCtorEq, IpAddr.v6.injEq,
                IpAddr.v4.injEq, false_or, or_false]
              rw [← IpAddr.toIpv4Mapped_eq_some, h, Option.some.injEq]
  | v6 octets =>
      -- a normalized address is not a mapped one any more
      have hunmapped : IpAddr.toIpv4Mapped octets = none := by
        cases h : IpAddr.toIpv4Mapped octets with
        | none => rfl
        | some v4 => simp [normalizeIp, h] at hplain
      cases addr with
      | v4 other => simp [forms, normalizeIp]
      | v6 other =>
          cases h : IpAddr.toIpv4Mapped other with
          | none => simp [forms, normalizeIp, h]
          | some v4 =>
              have hother : other ≠ octets := by
                rintro rfl
                rw [hunmapped] at h
                cases h
              simp [forms, normalizeIp, h, hother]

/-- The spellings are the forms, and the texts of the forms. -/
theorem forall_spelled {ip : IpAddr} {p : Host → Prop} :
    (∀ host, addressOf host = some (normalizeIp ip) → p host) ↔
      (∀ form ∈ forms (normalizeIp ip), p (.ip form)) ∧
        ∀ text, ∀ form ∈ forms (normalizeIp ip), parseIpAddr text = some form → p (.domain text) := by
  simp only [mem_forms]
  constructor
  · intro h
    refine ⟨fun form hform => h _ (congrArg some hform), fun text form hform hparse => h _ ?_⟩
    simp [addressOf, hparse, hform]
  · rintro ⟨hforms, htexts⟩ host hhost
    cases host with
    | ip form => exact hforms form (Option.some.inj hhost)
    | domain text =>
        obtain ⟨form, hparse, hform⟩ := Option.map_eq_some_iff.1 hhost
        exact htexts text form hform hparse

/-! ## What the rules see of an address -/

section Rules

variable (crates : Crates ν ρ) (rules : List (Matcher ν ρ))

/-- A rule for networks hits the address, or the one for private addresses does. -/
def AddrHit (addr : IpAddr) : Prop :=
  (∃ block, .net block ∈ rules ∧ crates.contains block addr = true) ∨
    .isPrivate ∈ rules ∧ isPrivate addr = true

/-- A rule for names hits the text, or the one for private addresses does. -/
def NameHit (name : Text) : Prop :=
  (∃ rule ∈ rules, rule.isDomainRule = true ∧ ∀ port, rule.matches crates (.domain name) port = true) ∨
    .isPrivate ∈ rules ∧ eqIgnoreAsciiCase name "localhost".toList = true

/-- However the address is spelled, a rule hits it: one for addresses each of its forms, and one for
names each of their texts. -/
structure Covers (addr : IpAddr) : Prop where
  forms : ∀ form ∈ forms addr, AddrHit crates rules form
  texts : ∀ text, ∀ form ∈ Socks.forms addr, parseIpAddr text = some form → NameHit crates rules text

/-- However the address is spelled, no rule hits it. -/
structure Spares (addr : IpAddr) : Prop where
  forms : ∀ form ∈ forms addr, ¬ AddrHit crates rules form
  texts : ∀ text, ∀ form ∈ Socks.forms addr, parseIpAddr text = some form → ¬ NameHit crates rules text

variable {crates rules} {addr ip : IpAddr} {name : Text}

theorem hostHit_ip : HostHit crates rules (.ip addr) ↔ AddrHit crates rules addr := by
  constructor
  · rintro ⟨rule, hmem, hports, hmatch⟩
    have hit := hmatch 0
    cases rule with
    | net block => exact .inl ⟨block, hmem, hit⟩
    | isPrivate => exact .inr ⟨hmem, hit⟩
    | ports lo hi => exact absurd rfl (hports lo hi)
    | _ => cases hit
  · rintro (⟨block, hmem, hit⟩ | ⟨hmem, hit⟩)
    · exact ⟨.net block, hmem, fun _ _ h => (by cases h), fun _ => hit⟩
    · exact ⟨.isPrivate, hmem, fun _ _ h => (by cases h), fun _ => hit⟩

theorem hostHit_domain : HostHit crates rules (.domain name) ↔ NameHit crates rules name := by
  constructor
  · rintro ⟨rule, hmem, hports, hmatch⟩
    cases rule with
    | net block => cases hmatch 0
    | isPrivate => exact .inr ⟨hmem, hmatch 0⟩
    | ports lo hi => exact absurd rfl (hports lo hi)
    | _ => exact .inl ⟨_, hmem, rfl, hmatch⟩
  · rintro (⟨rule, hmem, hdomain, hmatch⟩ | ⟨hmem, hit⟩)
    · refine ⟨rule, hmem, ?_, hmatch⟩
      rintro lo hi rfl
      cases hdomain
    · exact ⟨.isPrivate, hmem, fun _ _ h => (by cases h), fun _ => hit⟩

theorem covers_iff : Covers crates rules (normalizeIp ip) ↔
    ∀ host, addressOf host = some (normalizeIp ip) → HostHit crates rules host := by
  simp only [forall_spelled, hostHit_ip, hostHit_domain]
  exact ⟨fun h => ⟨h.forms, h.texts⟩, fun h => ⟨h.1, h.2⟩⟩

theorem spares_iff : Spares crates rules (normalizeIp ip) ↔
    ∀ host, addressOf host = some (normalizeIp ip) → ¬ HostHit crates rules host := by
  simp only [forall_spelled, hostHit_ip, hostHit_domain]
  exact ⟨fun h => ⟨h.forms, h.texts⟩, fun h => ⟨h.1, h.2⟩⟩

end Rules

section Doors

variable (crates : Crates ν ρ) (set : RuleSet ν ρ) (sniffEnabled : Bool) (announced : Option Text)
  (ip : IpAddr) (port : UInt16)

/-- The action for an address does not depend on the door it comes in by. -/
def SameAtEveryDoor : Prop :=
  ∀ door door' : Door, door.address = some (normalizeIp ip) → door'.address = some (normalizeIp ip) →
    door.action crates set sniffEnabled announced port =
      door'.action crates set sniffEnabled announced port

/-- What the rules have to be like: each list hits every spelling of the address or none, as far as it is
looked at, and a name that is heard runs into no rule that would do otherwise. -/
inductive RulesSeeOneAddress : Prop
  | blockedPort (hport : PortHit set.block port)
  | blocked (hblock : Covers crates set.block (normalizeIp ip))
      (hname : ∀ name ∈ heard set sniffEnabled announced,
        NameHit crates set.block name ∨ ¬ PortHit set.direct port ∧ ¬ NameHit crates set.direct name)
  | direct (hblock : Spares crates set.block (normalizeIp ip))
      (hdirect : PortHit set.direct port ∨ Covers crates set.direct (normalizeIp ip))
      (hname : ∀ name ∈ heard set sniffEnabled announced, ¬ NameHit crates set.block name)
  | proxied (hblock : Spares crates set.block (normalizeIp ip))
      (hdirect : Spares crates set.direct (normalizeIp ip))
      (hname : ∀ name ∈ heard set sniffEnabled announced,
        ¬ NameHit crates set.block name ∧ ¬ NameHit crates set.direct name)

/-- Every spelling gets one action, and so does a name that is heard unless it is left to the proxy. -/
def SettledOn (action : Action) : Prop :=
  (∀ host, addressOf host = some (normalizeIp ip) → set.decide crates host port = action) ∧
    ∀ name ∈ heard set sniffEnabled announced,
      set.decide crates (.domain name) port = .proxy ∨ set.decide crates (.domain name) port = action

variable {crates set sniffEnabled announced ip port}

theorem addressOf_plain : addressOf (.ip (normalizeIp ip)) = some (normalizeIp ip) := by
  rw [addressOf, normalizeIp_normalizeIp]

/-- Where the rules have settled on an action, every door takes it. -/
theorem SettledOn.action_eq {action : Action} (h : SettledOn crates set sniffEnabled announced ip port action)
    {door : Door} (hdoor : door.address = some (normalizeIp ip)) :
    door.action crates set sniffEnabled announced port = action := by
  obtain ⟨hspell, hname⟩ := h
  cases door with
  | connect target =>
      have hhost := hspell _ hdoor
      rw [← hhost, Door.action, decideRoute_eq_decide, hhost]
      intro name hmem
      cases target with
      | domain t => simp [sniffs] at hmem
      | ip addr => exact hname name hmem
  | udpAssociate target => exact hspell _ hdoor
  | httpProxy authority =>
      -- this door finds the address in the text before it asks
      obtain ⟨addr, hparse, haddr⟩ := Option.map_eq_some_iff.1 hdoor
      have hhost : hostOf (httpTarget authority) = .ip addr := by simp [httpTarget, hparse, hostOf]
      rw [Door.action, hhost]
      exact hspell _ (congrArg some haddr)

theorem sameAtEveryDoor_settled :
    SameAtEveryDoor crates set sniffEnabled announced ip port ↔
      ∃ action, SettledOn crates set sniffEnabled announced ip port action := by
  constructor
  · intro h
    have hplain : (Door.udpAssociate (.ip (normalizeIp ip))).address = some (normalizeIp ip) := addressOf_plain
    refine ⟨set.decide crates (.ip (normalizeIp ip)) port, fun host hhost => ?_, ?_⟩
    · cases host with
      | ip addr => exact h (.udpAssociate (.ip addr)) _ hhost hplain
      | domain t => exact h (.udpAssociate (.domain t)) _ hhost hplain
    · have hconnect : decideRoute crates set (.ip (normalizeIp ip)) (heard set sniffEnabled announced) port =
          set.decide crates (.ip (normalizeIp ip)) port := h (.connect (.ip (normalizeIp ip))) _ hplain hplain
      exact decideRoute_eq_decide.1 hconnect
  · rintro ⟨action, h⟩ door door' hdoor hdoor'
    rw [h.action_eq hdoor, h.action_eq hdoor']

theorem settledOn_block : SettledOn crates set sniffEnabled announced ip port .block ↔
    (PortHit set.block port ∨ Covers crates set.block (normalizeIp ip)) ∧
      ∀ name ∈ heard set sniffEnabled announced, PortHit set.block port ∨ NameHit crates set.block name ∨
        ¬ PortHit set.direct port ∧ ¬ NameHit crates set.direct name := by
  have hspell : (∀ host, addressOf host = some (normalizeIp ip) → set.decide crates host port = .block) ↔
      PortHit set.block port ∨ Covers crates set.block (normalizeIp ip) := by
    simp only [decide_eq_block, covers_iff]
    constructor
    · intro h
      by_cases hport : PortHit set.block port
      · exact .inl hport
      · exact .inr fun host hhost => (h host hhost).resolve_left hport
    · rintro (hport | hcovers) host hhost
      · exact .inl hport
      · exact .inr (hcovers host hhost)
  refine and_congr hspell (forall₂_congr fun name _ => ?_)
  rw [decide_eq_block, decide_eq_proxy, hostHit_domain, hostHit_domain, not_or, not_or]
  by_cases hport : PortHit set.block port
  · simp [hport]
  by_cases hname : NameHit crates set.block name <;> simp [hport, hname]

theorem settledOn_direct : SettledOn crates set sniffEnabled announced ip port .direct ↔
    ¬ PortHit set.block port ∧ Spares crates set.block (normalizeIp ip) ∧
      (PortHit set.direct port ∨ Covers crates set.direct (normalizeIp ip)) ∧
      ∀ name ∈ heard set sniffEnabled announced, ¬ NameHit crates set.block name := by
  simp only [SettledOn, decide_eq_direct, decide_eq_proxy, not_or, hostHit_domain, covers_iff, spares_iff]
  constructor
  · rintro ⟨hspell, hname⟩
    have hblock := (hspell _ addressOf_plain).1.1
    refine ⟨hblock, fun host hhost => (hspell host hhost).1.2, ?_, fun name hin => ?_⟩
    · by_cases hround : PortHit set.direct port
      · exact .inl hround
      · exact .inr fun host hhost => (hspell host hhost).2.resolve_left hround
    · rcases hname name hin with ⟨⟨-, hfree⟩, -⟩ | ⟨⟨-, hfree⟩, -⟩ <;> exact hfree
  · rintro ⟨hblock, hspares, hdirect, hname⟩
    refine ⟨fun host hhost => ⟨⟨hblock, hspares host hhost⟩, hdirect.imp_right fun h => h host hhost⟩, ?_⟩
    intro name hin
    by_cases hround : PortHit set.direct port ∨ NameHit crates set.direct name
    · exact .inr ⟨⟨hblock, hname name hin⟩, hround⟩
    · exact .inl ⟨⟨hblock, hname name hin⟩, not_or.1 hround⟩

theorem settledOn_proxy : SettledOn crates set sniffEnabled announced ip port .proxy ↔
    ¬ PortHit set.block port ∧ Spares crates set.block (normalizeIp ip) ∧
      ¬ PortHit set.direct port ∧ Spares crates set.direct (normalizeIp ip) ∧
      ∀ name ∈ heard set sniffEnabled announced,
        ¬ NameHit crates set.block name ∧ ¬ NameHit crates set.direct name := by
  simp only [SettledOn, decide_eq_proxy, or_self, not_or, hostHit_domain, spares_iff]
  constructor
  · rintro ⟨hspell, hname⟩
    obtain ⟨⟨hblock, -⟩, hround, -⟩ := hspell _ addressOf_plain
    exact ⟨hblock, fun host hhost => (hspell host hhost).1.2, hround, fun host hhost => (hspell host hhost).2.2,
      fun name hin => ⟨(hname name hin).1.2, (hname name hin).2.2⟩⟩
  · rintro ⟨hblock, hspares, hround, hspares', hname⟩
    exact ⟨fun host hhost => ⟨⟨hblock, hspares host hhost⟩, hround, hspares' host hhost⟩,
      fun name hin => ⟨⟨hblock, (hname name hin).1⟩, hround, (hname name hin).2⟩⟩

/-- **When the door does not matter.** -/
theorem sameAtEveryDoor_iff :
    SameAtEveryDoor crates set sniffEnabled announced ip port ↔
      RulesSeeOneAddress crates set sniffEnabled announced ip port := by
  rw [sameAtEveryDoor_settled]
  constructor
  · rintro ⟨action, h⟩
    cases action with
    | block =>
        obtain ⟨hblock, hname⟩ := settledOn_block.1 h
        by_cases hport : PortHit set.block port
        · exact .blockedPort hport
        · exact .blocked (hblock.resolve_left hport) fun name hin => (hname name hin).resolve_left hport
    | direct =>
        obtain ⟨-, hblock, hdirect, hname⟩ := settledOn_direct.1 h
        exact .direct hblock hdirect hname
    | proxy =>
        obtain ⟨-, hblock, -, hdirect, hname⟩ := settledOn_proxy.1 h
        exact .proxied hblock hdirect hname
  · intro h
    -- a port rule decides in front of all the others
    by_cases hport : PortHit set.block port
    · exact ⟨.block, settledOn_block.2 ⟨.inl hport, fun _ _ => .inl hport⟩⟩
    cases h with
    | blockedPort hblock => exact absurd hblock hport
    | blocked hblock hname =>
        exact ⟨.block, settledOn_block.2 ⟨.inr hblock, fun name hin => .inr (hname name hin)⟩⟩
    | direct hblock hdirect hname => exact ⟨.direct, settledOn_direct.2 ⟨hport, hblock, hdirect, hname⟩⟩
    | proxied hblock hdirect hname =>
        by_cases hround : PortHit set.direct port
        · exact ⟨.direct, settledOn_direct.2 ⟨hport, hblock, .inl hround, fun name hin => (hname name hin).1⟩⟩
        · exact ⟨.proxy, settledOn_proxy.2 ⟨hport, hblock, hround, hdirect, hname⟩⟩

end Doors

/-- Networks of one address each, and no patterns. -/
def hostCrates : Crates IpAddr Empty where
  contains := (· == ·)
  isMatch := fun pattern _ => pattern.elim
  toLowercase := List.map Char.toLower

/-- A rule that blocks one address does not block its text, nor its mapped form. -/
theorem sameAtEveryDoor_not :
    let addr : IpAddr := .v4 ⟨[1, 2, 3, 4], rfl⟩
    let set : RuleSet IpAddr Empty := ⟨[.net addr], []⟩
    (Door.connect (.ip addr)).action hostCrates set true none 443 = .block ∧
    (Door.connect (.domain "1.2.3.4".toList)).action hostCrates set true none 443 = .proxy ∧
    (Door.httpProxy "::ffff:1.2.3.4".toList).action hostCrates set true none 443 = .proxy ∧
    ¬SameAtEveryDoor hostCrates set true none addr 443 := by
  refine ⟨by decide, by decide, by decide, fun h => ?_⟩
  have := h (.connect (.ip (.v4 ⟨[1, 2, 3, 4], rfl⟩))) (.connect (.domain "1.2.3.4".toList))
    (by decide) (by decide)
  revert this
  decide

end Socks
end AuroraVpn
