import AuroraVpn.Masque.Embedded

/-!
# Nested — how much the inner hop of a nested MASQUE tunnel may carry

`masque_tunnel_mtu` and `mim_inner_budget`, and what `run_masque_in_masque_embedded` and
`run_masque_in_masque` log for the inner edges that they try.

* `masqueTunnelMtu_bounds`: the MTU of the outer hop.
* `warned_iff`: when a packet of the inner hop fits in the outer one or is warned about.
-/

namespace AuroraVpn
namespace Masque
namespace Nested

open Embedded
open IpAddr (readNumber)

/-! ## Sizes -/

def MASQUE_MTU : Nat := 1280
def H2_TUNNEL_MTU : Nat := 1500
def MAX_DATAGRAM_SIZE : Nat := 1350
def MIN_DATAGRAM_SIZE : Nat := 1200
def MASQUE_DATAGRAM_OVERHEAD : Nat := MAX_DATAGRAM_SIZE - MASQUE_MTU

/-- `str::parse::<usize>`, on 64 bits. -/
def parseUsize (t : Text) : Option Nat :=
  let digits := if t.head? = some '+' then t.tail else t
  match readNumber 10 digits.length (2 ^ 64) true digits with
  | some (n, []) => some n
  | _ => none

/-- `masque_tunnel_mtu`, by what `AETHER_MASQUE_MTU` is set to. -/
def masqueTunnelMtu (setting : Option Text) (h2 : Bool) : Nat :=
  match (setting.bind fun value => parseUsize (trim value)).filter fun mtu => 576 ≤ mtu ∧ mtu ≤ 1500 with
  | some mtu => mtu
  | none => if h2 then H2_TUNNEL_MTU else MASQUE_MTU

def clamp (low high n : Nat) : Nat :=
  if n < low then low else if high < n then high else n

def isIpv4 : IpAddr → Bool
  | .v4 _ => true
  | .v6 _ => false

/-- `mim_inner_budget`: the datagrams of the inner hop, and its MTU. -/
def mimInnerBudget (outerMtu : Nat) (innerPeer : SocketAddr) (h2 : Bool) : Nat × Nat :=
  if h2 then (MAX_DATAGRAM_SIZE, clamp 576 1500 (outerMtu - 100))
  else
    let headers := if isIpv4 innerPeer.ip then 28 else 48
    let datagram := clamp MIN_DATAGRAM_SIZE MAX_DATAGRAM_SIZE (outerMtu - headers)
    (datagram, clamp 576 1500 (datagram - MASQUE_DATAGRAM_OVERHEAD))

/-- What IP and UDP put in front of a datagram. -/
def ipUdpHeaders : IpAddr → Nat
  | .v4 _ => 20 + 8
  | .v6 _ => 40 + 8

/-- A datagram of the inner hop fits in the outer one, and a packet of the inner hop in a datagram. -/
def Fits (outerMtu : Nat) (innerPeer : SocketAddr) : Prop :=
  let (datagram, mtu) := mimInnerBudget outerMtu innerPeer false
  datagram + ipUdpHeaders innerPeer.ip ≤ outerMtu ∧ mtu + MASQUE_DATAGRAM_OVERHEAD ≤ datagram

instance (outerMtu : Nat) (innerPeer : SocketAddr) : Decidable (Fits outerMtu innerPeer) :=
  inferInstanceAs (Decidable (_ ∧ _))

/-! ## The drivers -/

inductive Line
  /-- "the outer link carries ... bytes, too little for an inner quic datagram" -/
  | tooLittle (outerMtu : Nat)
  | trying
  | established
  | notServing (e : AetherError)
  deriving DecidableEq

/-- What `run_masque_in_masque_embedded` logs in front of a candidate. -/
def embeddedWarning (outerMtu : Nat) (innerPeer : SocketAddr) (h2 : Bool) : List Line :=
  if ¬ h2 ∧ outerMtu < (mimInnerBudget outerMtu innerPeer h2).1 + 28 then [.tooLittle outerMtu] else []

/-- What `run_masque_in_masque` logs there. -/
def desktopWarning (outerMtu : Nat) (innerPeer : SocketAddr) (h2 : Bool) : List Line :=
  let (innerDatagram, _) := mimInnerBudget outerMtu innerPeer h2
  if ¬ h2 ∧ outerMtu < innerDatagram + 28 then [.tooLittle outerMtu] else []

/-- The log of `run_masque_in_masque_embedded`, candidate by candidate. -/
def embeddedLog (outerMtu : Nat) (h2 : Bool) (attempt : SocketAddr → Attempt) :
    List SocketAddr → Offer → List (SocketAddr × List Line)
  | [], _ => []
  | candidate :: candidates, o =>
      let warning := embeddedWarning outerMtu candidate h2
      match (attempt candidate).forwarder with
      | .error _ => [(candidate, warning)]
      | .ok () =>
          match runMasqueTunnelEmbedded "inner" (attempt candidate).tunnel (attempt candidate).session o with
          | (.ok (), _) => [(candidate, warning ++ [.trying])]
          | (.error e, o') =>
              if o'.endpoint.isNone then
                [(candidate, warning ++ [.trying])]
              else
                (candidate, warning ++ [.trying, .notServing e]) ::
                  embeddedLog outerMtu h2 attempt candidates o'

/-- What becomes of a candidate of `run_masque_in_masque`: its forwarder, and the hop through it. -/
structure Hop where
  forwarder : Except AetherError Unit
  established : Except AetherError Unit

/-- The log of `run_masque_in_masque`, candidate by candidate. -/
def desktopLog (outerMtu : Nat) (h2 : Bool) (hop : SocketAddr → Hop) :
    List SocketAddr → List (SocketAddr × List Line)
  | [] => []
  | candidate :: candidates =>
      let warning := desktopWarning outerMtu candidate h2
      match (hop candidate).forwarder with
      | .error _ => [(candidate, warning)]
      | .ok () =>
          match (hop candidate).established with
          | .ok () => [(candidate, warning ++ [.trying, .established])]
          | .error e =>
              (candidate, warning ++ [.trying, .notServing e]) :: desktopLog outerMtu h2 hop candidates

/-! ## What fits -/

theorem masqueTunnelMtu_bounds (setting : Option Text) (h2 : Bool) :
    576 ≤ masqueTunnelMtu setting h2 ∧ masqueTunnelMtu setting h2 ≤ 1500 := by
  unfold masqueTunnelMtu
  split
  case h_1 mtu hmtu =>
    obtain ⟨-, hrange⟩ := Option.filter_eq_some_iff.mp hmtu
    exact of_decide_eq_true hrange
  case h_2 => cases h2 <;> decide

/-- The warning of an edge is right: it stands in the log exactly where something does not fit. -/
structure WarnedRight (outerMtu : Nat) (entry : SocketAddr × List Line) : Prop where
  warned : Fits outerMtu entry.1 ∨ .tooLittle outerMtu ∈ entry.2
  quiet : Fits outerMtu entry.1 → .tooLittle outerMtu ∉ entry.2

/-- The inner edge is one of IPv4, or the outer link is not one of those that carry a datagram with the
headers of IPv4 alone. -/
def Told (outerMtu : Nat) (innerPeer : SocketAddr) : Prop :=
  isIpv4 innerPeer.ip = true ∨ outerMtu < 1228 ∨ 1248 ≤ outerMtu

theorem fits_iff {outerMtu : Nat} {innerPeer : SocketAddr} :
    Fits outerMtu innerPeer ↔ MIN_DATAGRAM_SIZE + ipUdpHeaders innerPeer.ip ≤ outerMtu := by
  have hmin : MIN_DATAGRAM_SIZE = 1200 := rfl
  have hmax : MAX_DATAGRAM_SIZE = 1350 := rfl
  have hoverhead : MASQUE_DATAGRAM_OVERHEAD = 70 := rfl
  obtain ⟨ip, port, flowinfo, scopeId, hbare⟩ := innerPeer
  unfold Fits mimInnerBudget clamp
  cases ip with
  | v4 octets =>
    simp only [isIpv4, ipUdpHeaders, Bool.false_eq_true, if_false, if_true]
    split_ifs <;> omega
  | v6 octets =>
    simp only [isIpv4, ipUdpHeaders, Bool.false_eq_true, if_false]
    split_ifs <;> omega

/-- The drivers warn where a datagram with the headers of IPv4 does not fit. -/
theorem datagram_lt_iff {outerMtu : Nat} {innerPeer : SocketAddr} :
    outerMtu < (mimInnerBudget outerMtu innerPeer false).1 + 28 ↔ outerMtu < MIN_DATAGRAM_SIZE + 28 := by
  have hmin : MIN_DATAGRAM_SIZE = 1200 := rfl
  have hmax : MAX_DATAGRAM_SIZE = 1350 := rfl
  unfold mimInnerBudget clamp
  simp only [Bool.false_eq_true, if_false]
  generalize hheaders : (if isIpv4 innerPeer.ip = true then 28 else 48) = headers
  have hleast : 28 ≤ headers := by
    rw [← hheaders]
    split <;> decide
  split_ifs <;> omega

section Warnings

variable {outerMtu : Nat} {entry : SocketAddr × List Line}

/-- The lines behind the warning of an edge. -/
def Behind (warning : List Line) (entry : SocketAddr × List Line) : Prop :=
  ∃ rest : List Line, entry.2 = warning ++ rest ∧ ∀ mtu, .tooLittle mtu ∉ rest

theorem behind_embeddedLog {h2 : Bool} {attempt : SocketAddr → Attempt} {candidates : List SocketAddr}
    {o : Offer} (h : entry ∈ embeddedLog outerMtu h2 attempt candidates o) :
    Behind (embeddedWarning outerMtu entry.1 h2) entry := by
  induction candidates generalizing o with
  | nil => cases h
  | cons candidate candidates ih =>
    unfold embeddedLog at h
    dsimp only at h
    cases hforwarder : (attempt candidate).forwarder with
    | error e =>
      rw [hforwarder] at h
      -- without a forwarder the warning is all that is logged for the candidate
      obtain rfl := List.mem_singleton.mp h
      exact ⟨[], (List.append_nil _).symm, fun mtu => List.not_mem_nil⟩
    | ok u =>
      rw [hforwarder] at h
      dsimp only at h
      split at h
      · obtain rfl := List.mem_singleton.mp h
        exact ⟨_, rfl, by simp⟩
      · split at h
        · obtain rfl := List.mem_singleton.mp h
          exact ⟨_, rfl, by simp⟩
        -- the entry is this candidate's, or one of those tried behind it
        · cases List.mem_cons.mp h with
          | inl heq =>
            subst heq
            exact ⟨_, rfl, by simp⟩
          | inr h => exact ih h

theorem behind_desktopLog {h2 : Bool} {hop : SocketAddr → Hop} {candidates : List SocketAddr}
    (h : entry ∈ desktopLog outerMtu h2 hop candidates) :
    Behind (desktopWarning outerMtu entry.1 h2) entry := by
  induction candidates with
  | nil => cases h
  | cons candidate candidates ih =>
    unfold desktopLog at h
    dsimp only at h
    cases hforwarder : (hop candidate).forwarder with
    | error e =>
      rw [hforwarder] at h
      obtain rfl := List.mem_singleton.mp h
      exact ⟨[], (List.append_nil _).symm, fun mtu => List.not_mem_nil⟩
    | ok u =>
      rw [hforwarder] at h
      dsimp only at h
      split at h
      · obtain rfl := List.mem_singleton.mp h
        exact ⟨_, rfl, by simp⟩
      -- the entry is this candidate's, or one of those tried behind it
      · cases List.mem_cons.mp h with
        | inl heq =>
          subst heq
          exact ⟨_, rfl, by simp⟩
        | inr h => exact ih h

/-- An edge is warned about below 1228 bytes, which is right if something does not fit. -/
theorem warnedRight_iff {warning : List Line} (hbehind : Behind warning entry)
    (hwarning : warning = if outerMtu < MIN_DATAGRAM_SIZE + 28 then [.tooLittle outerMtu] else []) :
    WarnedRight outerMtu entry ↔ Told outerMtu entry.1 := by
  obtain ⟨rest, hlines, hrest⟩ := hbehind
  -- behind the warning no other line says that there is too little
  have hlogged : Line.tooLittle outerMtu ∈ entry.2 ↔ outerMtu < MIN_DATAGRAM_SIZE + 28 := by
    rw [hlines, hwarning, List.mem_append, or_iff_left (hrest outerMtu)]
    split
    case isTrue h => simp [h]
    case isFalse h => simp [h]
  have hright : WarnedRight outerMtu entry ↔
      (Fits outerMtu entry.1 ∨ Line.tooLittle outerMtu ∈ entry.2) ∧
        (Fits outerMtu entry.1 → Line.tooLittle outerMtu ∉ entry.2) :=
    ⟨fun h => ⟨h.warned, h.quiet⟩, fun h => ⟨h.1, h.2⟩⟩
  rw [hright, hlogged, fits_iff, Told]
  have hmin : MIN_DATAGRAM_SIZE = 1200 := rfl
  -- the headers of the IP version decide how far the bound is right
  obtain ⟨⟨ip, port, flowinfo, scopeId, hbare⟩, lines⟩ := entry
  cases ip with
  | v4 octets =>
    simp only [isIpv4, ipUdpHeaders, true_or, iff_true]
    omega
  | v6 octets =>
    simp only [isIpv4, ipUdpHeaders, Bool.false_eq_true, false_or]
    omega

end Warnings

/-- The outer MTU lies between 576 and 1500; and in every run of the drivers over HTTP/3 an inner edge that is
tried is warned about exactly where something does not fit, but for an edge of IPv6 behind an outer link of
1228 to 1247 bytes. -/
theorem warned_iff (setting : Option Text) :
    (576 ≤ masqueTunnelMtu setting false ∧ masqueTunnelMtu setting false ≤ 1500) ∧
      ∀ outerMtu : Nat,
        (∀ attempt candidates o, ∀ entry ∈ embeddedLog outerMtu false attempt candidates o,
          WarnedRight outerMtu entry ↔ Told outerMtu entry.1) ∧
        ∀ hop candidates, ∀ entry ∈ desktopLog outerMtu false hop candidates,
          WarnedRight outerMtu entry ↔ Told outerMtu entry.1 := by
  refine ⟨masqueTunnelMtu_bounds setting false, fun outerMtu => ⟨?_, ?_⟩⟩
  · intro attempt candidates o entry hentry
    refine warnedRight_iff (behind_embeddedLog hentry) ?_
    unfold embeddedWarning
    simp only [Bool.false_eq_true, not_false_eq_true, true_and, datagram_lt_iff]
  · intro hop candidates entry hentry
    refine warnedRight_iff (behind_desktopLog hentry) ?_
    unfold desktopWarning
    simp only [Bool.false_eq_true, not_false_eq_true, true_and, datagram_lt_iff]

/-- An outer link of 1240 bytes and an inner edge of IPv6: a datagram with its headers has 1248 bytes, and
neither driver says so. -/
theorem silent_ipv6 :
    masqueTunnelMtu (some "1240".toList) false = 1240 ∧ ¬ Fits 1240 edgeAddr ∧
      embeddedLog 1240 false (fun _ => ⟨.ok (), closedTunnel, .tunnel (.ok (.ok ()))⟩) [edgeAddr]
          ⟨some .tun, true, false⟩ = [(edgeAddr, [.trying])] ∧
      desktopLog 1240 false (fun _ => ⟨.ok (), .ok ()⟩) [edgeAddr] = [(edgeAddr, [.trying, .established])] := by
  refine ⟨by decide, by decide, ?_, by decide⟩
  decide

end Nested
end Masque
end AuroraVpn
