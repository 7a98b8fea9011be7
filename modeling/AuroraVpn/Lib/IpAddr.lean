import AuroraVpn.Basic
import Mathlib.Algebra.GroupWithZero.Nat
import Mathlib.Data.Vector.Basic

/-!
# IpAddr — the addresses of `std::net` and their texts

`parseIpAddr` is `str::parse::<IpAddr>`: a reader of characters with backtracking, four decimal
groups without leading zeros, or up to eight hexadecimal groups with at most one `::` and perhaps
an IPv4 address at the end.
-/

namespace AuroraVpn

/-! The octets of an address, and the bytes of a port, are numbered from zero. -/

instance neZero_one : NeZero 1 := ⟨nofun⟩
instance neZero_two : NeZero 2 := ⟨nofun⟩
instance neZero_four : NeZero 4 := ⟨nofun⟩
instance neZero_eight : NeZero 8 := ⟨nofun⟩
instance neZero_sixteen : NeZero 16 := ⟨nofun⟩

/-- `IpAddr`, as its octets in network order. -/
inductive IpAddr
  | v4 (octets : List.Vector UInt8 4)
  | v6 (octets : List.Vector UInt8 16)
  deriving DecidableEq

/-- `SocketAddr`; `flowinfo` and `scope_id` are those of a `SocketAddrV6`. -/
structure SocketAddr where
  ip : IpAddr
  port : UInt16
  flowinfo : UInt32
  scopeId : UInt32
  v4_bare : ∀ octets, ip = .v4 octets → flowinfo = 0 ∧ scopeId = 0
  deriving DecidableEq

/-- `SocketAddr::new`. -/
def SocketAddr.new (ip : IpAddr) (port : UInt16) : SocketAddr :=
  ⟨ip, port, 0, 0, fun _ _ => ⟨rfl, rfl⟩⟩

@[simp] theorem SocketAddr.new_ip (ip : IpAddr) (port : UInt16) : (SocketAddr.new ip port).ip = ip := rfl
@[simp] theorem SocketAddr.new_port (ip : IpAddr) (port : UInt16) :
    (SocketAddr.new ip port).port = port := rfl

/-- An address that is no more than its octets and its port. -/
theorem SocketAddr.eq_new {a : SocketAddr} (hflow : a.flowinfo = 0) (hscope : a.scopeId = 0) :
    a = .new a.ip a.port := by
  obtain ⟨ip, port, flowinfo, scopeId, _⟩ := a
  subst hflow hscope
  rfl

namespace IpAddr

/-- Four octets. -/
def quad (a b c d : UInt8) : List.Vector UInt8 4 :=
  ⟨[a, b, c, d], rfl⟩

/-- The two bytes of a group of an IPv6 address. -/
def groupBytes (g : Nat) : Bytes :=
  [UInt8.ofNat (g / 256), UInt8.ofNat g]

/-- An address of octets that may be too many or too few for one. -/
def ofBytes (bs : Bytes) : Option IpAddr :=
  if h : bs.length = 4 then some (.v4 ⟨bs, h⟩)
  else if h : bs.length = 16 then some (.v6 ⟨bs, h⟩)
  else none

/-! ## Text -/

/-- A reader of the front of a text; `none` leaves the text as it was. -/
abbrev Reader (α : Type) := Text → Option (α × Text)

def readGivenChar (c : Char) : Reader Unit
  | d :: s => if d = c then some ((), s) else none
  | [] => none

/-- `char::to_digit`. -/
def toDigit (radix : Nat) (c : Char) : Option Nat :=
  let d :=
    if '0' ≤ c ∧ c ≤ '9' then some (c.toNat - '0'.toNat)
    else if 'a' ≤ c ∧ c ≤ 'z' then some (c.toNat - 'a'.toNat + 10)
    else if 'A' ≤ c ∧ c ≤ 'Z' then some (c.toNat - 'A'.toNat + 10)
    else none
  d.filter (· < radix)

/-- The digits at the front of a text, and what stands behind them. -/
def spanDigits (radix : Nat) : Text → List Nat × Text
  | [] => ([], [])
  | c :: s =>
      match toDigit radix c with
      | some d => (d :: (spanDigits radix s).1, (spanDigits radix s).2)
      | none => ([], c :: s)

/-- A number below `bound`, of one to `maxDigits` digits. -/
def readNumber (radix maxDigits bound : Nat) (allowZeroPrefix : Bool) : Reader Nat := fun s =>
  let (digits, rest) := spanDigits radix s
  let n := digits.foldl (fun acc d => acc * radix + d) 0
  if digits.length = 0 ∨ maxDigits < digits.length ∨ bound ≤ n then none
  else if allowZeroPrefix = false ∧ s.head? = some '0' ∧ 1 < digits.length then none
  else some (n, rest)

/-- Reads with `inner` behind a separator, which the first group does without. -/
def readSeparator {α : Type} (sep : Char) (index : Nat) (inner : Reader α) : Reader α := fun s =>
  if 0 < index then (readGivenChar sep s).bind (fun r => inner r.2) else inner s

/-- The groups of an IPv4 address from group `i` on, `n` of them. -/
def readIpv4Groups (i : Nat) : Nat → Reader Bytes
  | 0, s => some ([], s)
  | n + 1, s => do
      let (g, s) ← readSeparator '.' i (readNumber 10 3 256 false) s
      let (gs, s) ← readIpv4Groups (i + 1) n s
      pure (UInt8.ofNat g :: gs, s)

def readIpv4Addr : Reader Bytes :=
  readIpv4Groups 0 4

/-- The groups of an IPv6 address from group `i` on, at most `n` of them, as bytes; whether an IPv4
address ended them; and the text behind.  A group that cannot be read ends them too. -/
def readGroups (i : Nat) : Nat → Text → Bytes × Bool × Text
  | 0, s => ([], false, s)
  | n + 1, s =>
      match if 0 < n then readSeparator ':' i readIpv4Addr s else none with
      | some (bs, s) => (bs, true, s)
      | none =>
          match readSeparator ':' i (readNumber 16 4 65536 true) s with
          | some (g, s) =>
              let (bs, isIpv4, s) := readGroups (i + 1) n s
              (groupBytes g ++ bs, isIpv4, s)
          | none => ([], false, s)

def readIpv6Addr : Reader Bytes := fun s =>
  let (head, headIpv4, s) := readGroups 0 8 s
  if head.length = 16 then some (head, s)
  else if headIpv4 then none
  else do
    let (_, s) ← readGivenChar ':' s
    let (_, s) ← readGivenChar ':' s
    -- the `::` stands for at least one group of zeros
    let (tail, _, s) := readGroups 0 (7 - head.length / 2) s
    pure (head ++ List.replicate (16 - head.length - tail.length) 0 ++ tail, s)

end IpAddr

/-- `str::parse::<IpAddr>`. -/
def parseIpAddr (t : Text) : Option IpAddr := do
  let (bs, rest) ← (IpAddr.readIpv4Addr t).or (IpAddr.readIpv6Addr t)
  if rest.isEmpty then IpAddr.ofBytes bs else none

namespace IpAddr

/-- The port behind an address. -/
def readPort : Reader UInt16 := fun s => do
  let (_, s) ← readGivenChar ':' s
  let (port, s) ← readNumber 10 s.length 65536 true s
  pure (UInt16.ofNat port, s)

/-- The scope behind an IPv6 address. -/
def readScopeId : Reader UInt32 := fun s => do
  let (_, s) ← readGivenChar '%' s
  let (scopeId, s) ← readNumber 10 s.length 4294967296 true s
  pure (UInt32.ofNat scopeId, s)

def readSocketAddrV4 : Reader (Bytes × UInt16 × UInt32) := fun s => do
  let (ip, s) ← readIpv4Addr s
  let (port, s) ← readPort s
  pure ((ip, port, 0), s)

def readSocketAddrV6 : Reader (Bytes × UInt16 × UInt32) := fun s => do
  let (_, s) ← readGivenChar '[' s
  let (ip, s) ← readIpv6Addr s
  let (scopeId, s) := (readScopeId s).getD (0, s)
  let (_, s) ← readGivenChar ']' s
  let (port, s) ← readPort s
  pure ((ip, port, scopeId), s)

/-- A socket address of octets; only an IPv6 address has a scope. -/
def socketAddr (bs : Bytes) (port : UInt16) (scopeId : UInt32) : Option SocketAddr :=
  match ofBytes bs with
  | some (.v4 octets) => some (.new (.v4 octets) port)
  | some (.v6 octets) => some ⟨.v6 octets, port, 0, scopeId, nofun⟩
  | none => none

end IpAddr

/-- `str::parse::<SocketAddr>`. -/
def parseSocketAddr (t : Text) : Option SocketAddr := do
  let ((bs, port, scopeId), rest) ← (IpAddr.readSocketAddrV4 t).or (IpAddr.readSocketAddrV6 t)
  if rest.isEmpty then IpAddr.socketAddr bs port scopeId else none

namespace IpAddr

/-- `Ipv6Addr::to_ipv4_mapped`. -/
def toIpv4Mapped (octets : List.Vector UInt8 16) : Option (List.Vector UInt8 4) :=
  match octets.toList with
  | [0, 0, 0, 0, 0, 0, 0, 0, 0, 0, 0xFF, 0xFF, a, b, c, d] => some ⟨[a, b, c, d], rfl⟩
  | _ => none

/-- `Ipv4Addr::to_ipv6_mapped`. -/
def toIpv6Mapped (octets : List.Vector UInt8 4) : List.Vector UInt8 16 :=
  ⟨[0, 0, 0, 0, 0, 0, 0, 0, 0, 0, 0xFF, 0xFF] ++ octets.toList, by simp⟩

/-- `IpAddr::is_loopback`. -/
def isLoopback : IpAddr → Bool
  | .v4 octets => octets.get 0 == 127
  | .v6 octets => octets.toList == List.replicate 15 0 ++ [1]

/-- `IpAddr::is_unspecified`. -/
def isUnspecified : IpAddr → Bool
  | .v4 octets => octets.toList == List.replicate 4 0
  | .v6 octets => octets.toList == List.replicate 16 0

/-- **The mapped spelling of an address is that address and no other.** -/
theorem toIpv4Mapped_eq_some {octets : List.Vector UInt8 16} {v4 : List.Vector UInt8 4} :
    toIpv4Mapped octets = some v4 ↔ octets = toIpv6Mapped v4 := by
  constructor
  · intro h
    unfold toIpv4Mapped at h
    split at h
    · rename_i a b c d hlist
      cases h
      exact List.Vector.eq _ _ hlist
    · cases h
  · rintro rfl
    obtain ⟨l, hl⟩ := v4
    match l, hl with
    | [a, b, c, d], _ => rfl

/-! ## What the text of an address looks like -/

def isHexDigit (c : Char) : Bool :=
  (toDigit 16 c).isSome

/-- What can be told of the text of an address from its characters: a dotted part stands behind the
colons, and a colon at the front is the first of exactly two. -/
structure AddrText (t : Text) : Prop where
  nonempty : t ≠ []
  chars : ∀ c ∈ t, isHexDigit c = true ∨ c = ':' ∨ c = '.'
  front : ':' ∈ t → '.' ∉ t.takeWhile (· ≠ ':')
  colons : ∀ s, t = ':' :: s → ∃ s', s = ':' :: s' ∧ s'.head? ≠ some ':'

theorem isHexDigit_of_toDigit {radix : Nat} (hradix : radix ≤ 16) {c : Char}
    (h : (toDigit radix c).isSome = true) : isHexDigit c = true := by
  unfold isHexDigit toDigit at *
  dsimp only at h ⊢
  split_ifs at h ⊢ <;> simp_all <;> omega

/-- The digits at the front of a text are digits. -/
theorem spanDigits_append (radix : Nat) (s : Text) :
    ∃ used, s = used ++ (spanDigits radix s).2 ∧ used.length = (spanDigits radix s).1.length ∧
      ∀ c ∈ used, (toDigit radix c).isSome = true := by
  induction s with
  | nil => exact ⟨[], rfl, rfl, nofun⟩
  | cons c s ih =>
      unfold spanDigits
      cases hc : toDigit radix c with
      | none => exact ⟨[], rfl, rfl, nofun⟩
      | some d =>
          obtain ⟨used, hused, hlen, hdigits⟩ := ih
          refine ⟨c :: used, congrArg (c :: ·) hused, congrArg (· + 1) hlen, fun e he => ?_⟩
          rcases List.mem_cons.1 he with rfl | he
          · rw [hc]
            rfl
          · exact hdigits e he

theorem readNumber_append {radix maxDigits bound n : Nat} {zero : Bool} {s rest : Text}
    (hradix : radix ≤ 16) (h : readNumber radix maxDigits bound zero s = some (n, rest)) :
    ∃ used, s = used ++ rest ∧ used ≠ [] ∧ ∀ c ∈ used, isHexDigit c = true := by
  obtain ⟨used, hused, hlen, hdigits⟩ := spanDigits_append radix s
  unfold readNumber at h
  dsimp only at h
  split_ifs at h with hbad
  cases h
  refine ⟨used, hused, ?_, fun c hc => isHexDigit_of_toDigit hradix (hdigits c hc)⟩
  rintro rfl
  exact hbad (.inl hlen.symm)

/-- The separator a group has in front of it. -/
def separator (sep : Char) (index : Nat) : Text :=
  if 0 < index then [sep] else []

theorem readSeparator_eq_some {α : Type} {sep : Char} {index : Nat} {inner : Reader α} {a : α}
    {s rest : Text} :
    readSeparator sep index inner s = some (a, rest) ↔
      ∃ s', s = separator sep index ++ s' ∧ inner s' = some (a, rest) := by
  unfold readSeparator separator
  split_ifs with hindex
  · cases s with
    | nil => simp [readGivenChar]
    | cons d s =>
        by_cases hd : d = sep
        · simp [readGivenChar, hd]
        · simp [readGivenChar, hd]
  · simp

theorem mem_separator {sep c : Char} {index : Nat} (h : c ∈ separator sep index) : c = sep := by
  unfold separator at h
  split_ifs at h
  · exact List.mem_singleton.1 h
  · cases h

/-- An IPv4 address is digits and dots, and starts with a digit. -/
theorem readIpv4Groups_append :
    ∀ {n i : Nat} {bs : Bytes} {s rest : Text}, readIpv4Groups i n s = some (bs, rest) →
      bs.length = n ∧ ∃ used, s = used ++ rest ∧ (∀ c ∈ used, isHexDigit c = true ∨ c = '.') ∧
        (0 < n → i = 0 → ∃ c ∈ used.head?, isHexDigit c = true) := by
  intro n
  induction n with
  | zero =>
      intro i bs s rest h
      cases h
      exact ⟨rfl, [], rfl, nofun, fun h => absurd h (lt_irrefl _)⟩
  | succ n ih =>
      intro i bs s rest h
      -- a byte and what follows it, each read behind its own dot
      obtain ⟨⟨g, s₁⟩, hg, h⟩ := Option.bind_eq_some_iff.1 h
      obtain ⟨⟨gs, s₂⟩, hgs, h⟩ := Option.bind_eq_some_iff.1 h
      cases h
      obtain ⟨s', rfl, hnumber⟩ := readSeparator_eq_some.1 hg
      obtain ⟨used, rfl, hne, hdigits⟩ := readNumber_append (by decide) hnumber
      obtain ⟨hlen, more, rfl, hmore, -⟩ := ih hgs
      refine ⟨by rw [List.length_cons, hlen], separator '.' i ++ (used ++ more), by simp, ?_, ?_⟩
      · intro c hc
        rcases List.mem_append.1 hc with hc | hc
        · exact .inr (mem_separator hc)
        · rcases List.mem_append.1 hc with hc | hc
          · exact .inl (hdigits c hc)
          · exact hmore c hc
      · rintro - rfl
        obtain ⟨c, used, rfl⟩ := List.exists_cons_of_ne_nil hne
        exact ⟨c, rfl, hdigits c List.mem_cons_self⟩

theorem isHexDigit_ne {c : Char} (hc : isHexDigit c = true) : c ≠ ':' ∧ c ≠ '.' := by
  constructor <;> (rintro rfl; revert hc; decide)

/-- What `readGroups` takes off a text.  A group behind the first one has a colon in front of it, so
only an IPv4 address that is all there is has a dot in front of the first colon. -/
structure Groups (i : Nat) (bs : Bytes) (isIpv4 : Bool) (used : Text) : Prop where
  chars : ∀ c ∈ used, isHexDigit c = true ∨ c = ':' ∨ c = '.'
  dotless : isIpv4 = false → '.' ∉ used
  first : i = 0 → ∀ c ∈ used.head?, isHexDigit c = true
  later : 0 < i → ∀ c ∈ used.head?, c = ':'
  lone : '.' ∈ used.takeWhile (· ≠ ':') → isIpv4 = true ∧ bs.length = 4

theorem groups_nil (i : Nat) : Groups i [] false [] where
  chars := nofun
  dotless := fun _ => nofun
  first := fun _ => nofun
  later := fun _ => nofun
  lone := nofun

/-- The first character of what stands behind a separator, or where there is none. -/
theorem head?_separator {i : Nat} {used : Text} {c : Char} (hc : c ∈ (separator ':' i ++ used).head?) :
    (i = 0 → c ∈ used.head?) ∧ (0 < i → c = ':') := by
  unfold separator at hc
  split_ifs at hc with hi
  · refine ⟨fun h => absurd h hi.ne', fun _ => ?_⟩
    simpa using hc.symm
  · exact ⟨fun _ => hc, fun h => absurd h hi⟩

theorem readGroups_append :
    ∀ {n i : Nat} (s : Text), ∃ used, s = used ++ (readGroups i n s).2.2 ∧
      Groups i (readGroups i n s).1 (readGroups i n s).2.1 used := by
  intro n
  induction n with
  | zero =>
      intro i s
      exact ⟨[], rfl, groups_nil i⟩
  | succ n ih =>
      intro i s
      unfold readGroups
      -- a dotted address stands for two groups and ends the list; else a group of digits is read
      cases hv4 : if 0 < n then readSeparator ':' i readIpv4Addr s else none with
      | some r =>
          obtain ⟨bs, rest⟩ := r
          split_ifs at hv4
          obtain ⟨s', rfl, hgroups⟩ := readSeparator_eq_some.1 hv4
          obtain ⟨hlen, used, rfl, hchars, hhead⟩ := readIpv4Groups_append hgroups
          obtain ⟨c, hc, hdigit⟩ := hhead (by decide) rfl
          refine ⟨separator ':' i ++ used, (List.append_assoc _ _ _).symm, ?_, nofun, ?_, ?_, ?_⟩
          · intro d hd
            rcases List.mem_append.1 hd with hd | hd
            · exact .inr (.inl (mem_separator hd))
            · exact (hchars d hd).imp_right .inr
          -- where no colon is asked for, the text begins with a digit
          · intro hi d hd
            have hd := (head?_separator hd).1 hi
            cases (Option.mem_unique hc hd : c = d)
            exact hdigit
          · exact fun hi d hd => (head?_separator hd).2 hi
          · exact fun _ => ⟨rfl, hlen⟩
      | none =>
          dsimp only
          cases hg : readSeparator ':' i (readNumber 16 4 65536 true) s with
          | none => exact ⟨[], rfl, groups_nil i⟩
          | some r =>
              obtain ⟨g, rest⟩ := r
              obtain ⟨s', rfl, hnumber⟩ := readSeparator_eq_some.1 hg
              obtain ⟨used, rfl, hne, hdigits⟩ := readNumber_append (by decide) hnumber
              obtain ⟨more, hmore, hgroups⟩ := ih (i := i + 1) rest
              have hdot : '.' ∉ used := fun h => (isHexDigit_ne (hdigits _ h)).2 rfl
              refine ⟨separator ':' i ++ (used ++ more), ?_, ?_, ?_, ?_, ?_, ?_⟩
              · dsimp only
                rw [List.append_assoc, List.append_assoc, ← hmore]
              · intro c hc
                rcases List.mem_append.1 hc with hc | hc
                · exact .inr (.inl (mem_separator hc))
                · rcases List.mem_append.1 hc with hc | hc
                  · exact .inl (hdigits c hc)
                  · exact hgroups.chars c hc
              -- the digits have no dot, so a dot comes from a dotted address behind them
              · intro hv4 hin
                rcases List.mem_append.1 hin with hin | hin
                · cases mem_separator hin
                · rcases List.mem_append.1 hin with hin | hin
                  · exact hdot hin
                  · exact hgroups.dotless hv4 hin
              · intro hi c hc
                have hc := (head?_separator hc).1 hi
                obtain ⟨d, ds, rfl⟩ := List.exists_cons_of_ne_nil hne
                cases hc
                exact hdigits c List.mem_cons_self
              · exact fun hi c hc => (head?_separator hc).2 hi
              · -- in front of the first colon there are only the digits of this group
                intro hin
                exfalso
                have hmore : more.takeWhile (· ≠ ':') = [] := by
                  cases more with
                  | nil => rfl
                  | cons c more =>
                      rw [hgroups.later (Nat.succ_pos i) c rfl]
                      rfl
                unfold separator at hin
                split_ifs at hin
                · simp at hin
                · have hdigit : ∀ c ∈ used, decide (c ≠ ':') = true := fun c hc =>
                    decide_eq_true (isHexDigit_ne (hdigits c hc)).1
                  rw [List.nil_append, List.takeWhile_append_of_pos hdigit, hmore,
                    List.append_nil] at hin
                  exact hdot hin

theorem addrText_of_ipv4 {t : Text} (hne : t ≠ []) (h : ∀ c ∈ t, isHexDigit c = true ∨ c = '.') :
    AddrText t where
  nonempty := hne
  chars := fun c hc => (h c hc).imp_right .inr
  front := fun hcolon => by
    rcases h _ hcolon with h | h
    · exact absurd rfl (isHexDigit_ne h).1
    · cases h
  colons := fun s hs => by
    rcases h ':' (by simp [hs]) with h | h
    · exact absurd rfl (isHexDigit_ne h).1
    · cases h

theorem readGivenChar_eq_some {c : Char} {s rest : Text} {u : Unit} :
    readGivenChar c s = some (u, rest) ↔ s = c :: rest := by
  cases s with
  | nil => simp [readGivenChar]
  | cons d s =>
      by_cases hd : d = c
      · simp [readGivenChar, hd]
      · simp [readGivenChar, hd]

theorem addrText_of_ipv6 {t rest : Text} {bs : Bytes} (h : readIpv6Addr t = some (bs, rest))
    (hrest : rest = []) : AddrText t := by
  subst hrest
  have hne : t ≠ [] := by
    rintro rfl
    have hnone : readIpv6Addr [] = none := by decide
    rw [hnone] at h
    cases h
  obtain ⟨used, hused, hhead⟩ := readGroups_append (n := 8) (i := 0) t
  unfold readIpv6Addr at h
  generalize readGroups 0 8 t = head at h hused hhead
  obtain ⟨head, headIpv4, s⟩ := head
  dsimp only at h hused hhead
  split_ifs at h with hfull hv4
  · -- eight groups: none in front of the first colon is dotted
    cases h
    rw [List.append_nil] at hused
    subst hused
    refine ⟨hne, hhead.chars, fun _ hin => ?_, ?_⟩
    · have hlone := (hhead.lone hin).2
      omega
    · rintro s rfl
      exact absurd (hhead.first rfl ':' rfl) (by decide)
  -- fewer than eight groups: two colons follow, and then the rest of the groups
  · obtain ⟨⟨u, s₁⟩, h₁, h⟩ := Option.bind_eq_some_iff.1 h
    obtain ⟨⟨u, s₂⟩, h₂, h⟩ := Option.bind_eq_some_iff.1 h
    cases readGivenChar_eq_some.1 h₁
    cases readGivenChar_eq_some.1 h₂
    obtain ⟨more, hmore, htail⟩ := readGroups_append (n := 7 - head.length / 2) (i := 0) s₂
    have hend : (readGroups 0 (7 - head.length / 2) s₂).2.2 = [] := congrArg Prod.snd (Option.some.inj h)
    rw [hend, List.append_nil] at hmore
    have hv4 : headIpv4 = false := by simpa using hv4
    refine ⟨hne, ?_, ?_, ?_⟩
    · intro c hc
      rw [hused] at hc
      rcases List.mem_append.1 hc with hc | hc
      · exact hhead.chars c hc
      · rcases List.mem_cons.1 hc with rfl | hc
        · exact .inr (.inl rfl)
        · rcases List.mem_cons.1 hc with rfl | hc
          · exact .inr (.inl rfl)
          · exact htail.chars c (hmore ▸ hc)
    -- a dot in front of the first colon would be in the first groups
    · intro _ hin
      rw [hused] at hin
      refine hhead.dotless hv4 ?_
      rw [List.takeWhile_append] at hin
      split_ifs at hin with hall
      · simpa using hin
      · exact List.takeWhile_subset _ hin
    -- a colon in front is one of two
    · rintro s rfl
      cases used with
      | nil =>
          cases hused
          refine ⟨s₂, rfl, fun hcolon => ?_⟩
          rw [hmore] at hcolon
          exact absurd (htail.first rfl ':' hcolon) (by decide)
      | cons c used =>
          cases hused
          exact absurd (hhead.first rfl ':' rfl) (by decide)

/-- **What the text of an address looks like.** -/
theorem addrText_of_parseIpAddr {t : Text} {addr : IpAddr} (h : parseIpAddr t = some addr) :
    AddrText t := by
  obtain ⟨⟨bs, rest⟩, hread, h⟩ := Option.bind_eq_some_iff.1 h
  dsimp only at h
  split_ifs at h with hrest
  have hrest : rest = [] := List.isEmpty_iff.1 hrest
  cases hv4 : readIpv4Addr t with
  | some r =>
      rw [hv4] at hread
      cases hread
      obtain ⟨-, used, hused, hchars, hhead⟩ := readIpv4Groups_append hv4
      rw [hrest, List.append_nil] at hused
      subst hused
      obtain ⟨c, hc, -⟩ := hhead (by decide) rfl
      exact addrText_of_ipv4 (List.ne_nil_of_mem (List.mem_of_mem_head? hc)) hchars
  | none =>
      rw [hv4] at hread
      exact addrText_of_ipv6 hread hrest

example : parseIpAddr "1.2.3.4".toList = some (.v4 ⟨[1, 2, 3, 4], rfl⟩) := by decide
example : parseIpAddr "01.2.3.4".toList = none := by decide
example : parseIpAddr "fe80::1:2.3.4.5".toList =
    some (.v6 ⟨[0xFE, 0x80, 0, 0, 0, 0, 0, 0, 0, 0, 0, 1, 2, 3, 4, 5], rfl⟩) := by decide

end IpAddr
end AuroraVpn
