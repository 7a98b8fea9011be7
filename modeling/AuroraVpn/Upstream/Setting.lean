import AuroraVpn.Lib.Utf8
import AuroraVpn.Routing.Parse

/-!
# Setting — the upstream proxy that `AETHER_UPSTREAM` names

`Upstream::parse` and `Upstream::from_env` of `upstream.rs`.  A setting that cannot be parsed is as
good as none: `fromEnv` says so in a line of the log only.

* `parseU16_toDigits`: a port reads back from its decimal digits.
* `parse_loopback`: what the app's own setting, a SOCKS5 listener on loopback, is read as.
-/

namespace AuroraVpn

inductive Upstream.Kind
  | socks5
  | http
  deriving DecidableEq, Repr

structure Upstream where
  kind : Upstream.Kind
  host : Text
  port : UInt16
  user : Option Text
  password : Option Text
  deriving DecidableEq

namespace Upstream

open IpAddr Routing

/-! ## Reading the setting -/

/-- `split_once` at a text. -/
def splitOnceAt (sep : Text) : Text → Option (Text × Text)
  | [] => if sep = [] then some ([], []) else none
  | c :: t =>
      if sep.isPrefixOf (c :: t) then some ([], (c :: t).drop sep.length)
      else (splitOnceAt sep t).map fun parts => (c :: parts.1, parts.2)

/-- `rsplit_once`. -/
def rsplitOnce (c : Char) (t : Text) : Option (Text × Text) :=
  (splitOnce c t.reverse).map fun parts => (parts.2.reverse, parts.1.reverse)

theorem eq_of_rsplitOnce {c : Char} {t front back : Text} (h : rsplitOnce c t = some (front, back)) :
    t = front ++ c :: back := by
  obtain ⟨⟨b, f⟩, hsplit, heq⟩ := Option.map_eq_some_iff.1 h
  cases heq
  calc t = t.reverse.reverse := t.reverse_reverse.symm
    _ = (b ++ c :: f).reverse := by rw [eq_of_splitOnce hsplit]
    _ = f.reverse ++ c :: b.reverse := by simp

theorem rsplitOnce_append {c : Char} {s t : Text} (h : c ∉ t) : rsplitOnce c (s ++ c :: t) = some (s, t) := by
  have hreverse : (s ++ c :: t).reverse = t.reverse ++ c :: s.reverse := by simp
  unfold rsplitOnce
  rw [hreverse, splitOnce_append fun hc => h (List.mem_reverse.1 hc)]
  simp

/-- `str::to_lowercase`, as far as ASCII can come out of it: the Kelvin sign has the small `k`. -/
def lowercase (t : Text) : Text :=
  t.map fun c => if c = '\u212A' then 'k' else c.toLower

/-- `u8::from_str_radix(.., 16)`, of two characters. -/
def hexByte (a b : Char) : Option UInt8 :=
  if a = '+' then (toDigit 16 b).map UInt8.ofNat
  else do
    let hi ← toDigit 16 a
    let lo ← toDigit 16 b
    pure (UInt8.ofNat (hi * 16 + lo))

/-- The bytes of a text behind `percent_decode`. -/
def percentBytes : Bytes → Bytes
  | 0x25 :: a :: b :: bs =>
      match hexByte (Char.ofNat a.toNat) (Char.ofNat b.toNat) with
      | some byte => byte :: percentBytes bs
      | none => 0x25 :: percentBytes (a :: b :: bs)
  | byte :: bs => byte :: percentBytes bs
  | [] => []

def percentDecode (value : Text) : Text :=
  Utf8.fromUtf8Lossy (percentBytes (String.ofList value).toUTF8.toList)

def malformed (endpoint : Text) : AetherError :=
  .other (String.ofList endpoint ++ " is not a host and port an upstream proxy can live at")

def splitEndpoint (endpoint : Text) : Except AetherError (Text × UInt16) :=
  let endpointOf (host port : Text) : Except AetherError (Text × UInt16) :=
    match parseU16 port with
    | none => .error (malformed endpoint)
    | some port => if host = [] ∨ port = 0 then .error (malformed endpoint) else .ok (host, port)
  match endpoint with
  | '[' :: rest =>
      match splitOnce ']' rest with
      | some (host, ':' :: port) => endpointOf host port
      | _ => .error (malformed endpoint)
  | _ =>
      match rsplitOnce ':' endpoint with
      | some (host, port) => endpointOf host port
      | none => .error (malformed endpoint)

def Kind.ofScheme (scheme : Text) : Except AetherError Kind :=
  if scheme ∈ ["socks5".toList, "socks5h".toList, "socks".toList] then .ok .socks5
  else if scheme ∈ ["http".toList, "https".toList] then .ok .http
  else .error (.other (String.ofList scheme ++ " is not an upstream proxy kind aether understands"))

def httpsRefused : AetherError :=
  .other ("an https:// upstream with a password is refused: aether talks to its upstream " ++
    "over plain http, which would send the password in the clear; use http:// " ++
    "only if that is acceptable, or socks5://")

/-- User and password, as they stand in front of the last `@`. -/
def credentialsOf (credentials : Option Text) : Option Text × Option Text :=
  match credentials with
  | none => (none, none)
  | some pair =>
      match splitOnce ':' pair with
      | some (user, password) => (some (percentDecode user), some (percentDecode password))
      | none => (some (percentDecode pair), none)

/-- The scheme, and what stands behind it. -/
def schemeOf (raw : Text) : Text × Text :=
  match splitOnceAt "://".toList raw with
  | some (scheme, rest) => (lowercase scheme, rest)
  | none => ("socks5".toList, raw)

/-- What stands in front of the last `@`, and the endpoint behind it. -/
def userinfoOf (rest : Text) : Option Text × Text :=
  match rsplitOnce '@' rest with
  | some (credentials, endpoint) => (some credentials, endpoint)
  | none => (none, rest)

/-- `Upstream::parse`. -/
def parse (raw : Text) : Except AetherError Upstream := do
  let (scheme, rest) := schemeOf (trim raw)
  let kind ← Kind.ofScheme scheme
  let (credentials, endpoint) := userinfoOf rest
  if scheme = "https".toList ∧ credentials.isSome then
    .error httpsRefused
  else
    let (host, port) ← splitEndpoint (trimEndMatches '/' endpoint)
    let (user, password) := credentialsOf credentials
    pure { kind, host, port, user, password }

/-- `Upstream::from_env`, which `configured` is: a setting that is not understood is ignored. -/
def fromEnv (setting : Option Text) : Option Upstream :=
  match setting with
  | none => none
  | some raw =>
      if trim raw = [] then none
      else
        match parse (trim raw) with
        | .ok upstream => some upstream
        | .error _ => none

/-! ## A listener on loopback -/

/-- Decimal digits are read back. -/
theorem toDigit_digitChar {d : Nat} (h : d < 10) : toDigit 10 d.digitChar = some d := by
  have hall : ∀ d < 10, toDigit 10 d.digitChar = some d := by decide
  exact hall d h

theorem spanDigits_snoc {s : Text} {c : Char} {ds : List Nat} {d : Nat}
    (hs : spanDigits 10 s = (ds, [])) (hc : toDigit 10 c = some d) :
    spanDigits 10 (s ++ [c]) = (ds ++ [d], []) := by
  induction s generalizing ds with
  | nil =>
      cases hs
      simp [spanDigits, hc]
  | cons a s ih =>
      cases ha : toDigit 10 a with
      | none => simp [spanDigits, ha] at hs
      | some n =>
          simp only [spanDigits, ha, Prod.mk.injEq] at hs
          obtain ⟨rfl, hrest⟩ := hs
          rw [List.cons_append]
          simp only [spanDigits, ha]
          rw [ih (Prod.ext rfl hrest)]
          rfl

/-- The decimal digits of a number span all of its text, and make the number up again. -/
theorem spanDigits_toDigits (n : Nat) :
    ∃ ds, spanDigits 10 (Nat.toDigits 10 n) = (ds, []) ∧ ds.foldl (fun acc d => acc * 10 + d) 0 = n ∧
      ds.length = (Nat.toDigits 10 n).length := by
  induction n using Nat.strongRecOn with
  | ind n ih =>
      by_cases hn : n < 10
      · refine ⟨[n], ?_, ?_, ?_⟩
        · rw [Nat.toDigits_of_lt_base hn]
          simp [spanDigits, toDigit_digitChar hn]
        · simp
        · rw [Nat.toDigits_of_lt_base hn]
          rfl
      · -- the last digit, behind those of a tenth of the number
        obtain ⟨ds, hspan, hfold, hlength⟩ := ih (n / 10) (by omega)
        have hlast : n % 10 < 10 := Nat.mod_lt n (by decide)
        rw [Nat.toDigits_of_base_le (by decide) (by omega)]
        refine ⟨ds ++ [n % 10], spanDigits_snoc hspan (toDigit_digitChar hlast), ?_, ?_⟩
        · rw [List.foldl_append, hfold, List.foldl_cons, List.foldl_nil]
          omega
        · rw [List.length_append, List.length_append, hlength]
          rfl

theorem parseU16_toDigits (port : UInt16) : parseU16 (Nat.toDigits 10 port.toNat) = some port := by
  obtain ⟨ds, hspan, hfold, hlength⟩ := spanDigits_toDigits port.toNat
  have hfront : (Nat.toDigits 10 port.toNat).head? ≠ some '+' := by
    intro hplus
    have hdigit := Nat.isDigit_of_mem_toDigits (by decide) (by decide) (List.mem_of_mem_head? hplus)
    exact absurd hdigit (by decide)
  have hbound : port.toNat < 65536 := port.toNat_lt
  have hpos := Nat.length_toDigits_pos (b := 10) (n := port.toNat)
  have hread : readNumber 10 (Nat.toDigits 10 port.toNat).length 65536 true
      (Nat.toDigits 10 port.toNat) = some (port.toNat, []) := by
    unfold readNumber
    rw [hspan]
    dsimp only
    rw [hfold, if_neg (by omega), if_neg (by simp)]
  unfold parseU16
  rw [if_neg hfront]
  dsimp only
  rw [hread]
  dsimp only
  rw [UInt16.ofNat_toNat]

/-- The setting for a SOCKS5 listener on loopback. -/
def loopback (port : UInt16) : Text :=
  "socks5://127.0.0.1:".toList ++ Nat.toDigits 10 port.toNat

def ofLoopback (port : UInt16) : Upstream where
  kind := .socks5
  host := "127.0.0.1".toList
  port := port
  user := none
  password := none

/-- No character but a digit stands behind the colon. -/
theorem not_mem_toDigits {n : Nat} {c : Char} (h : c.isDigit = false) : c ∉ Nat.toDigits 10 n := by
  intro hc
  rw [Nat.isDigit_of_mem_toDigits (by decide) (by decide) hc] at h
  cases h

theorem digit_not_whitespace {n : Nat} {c : Char} (hc : c ∈ Nat.toDigits 10 n) :
    isWhitespace c = false := by
  have hdigit := Nat.isDigit_of_mem_toDigits (by decide) (by decide) hc
  have hhex : isNetChar c = true := by
    have hall : ∀ n < 128, (Char.ofNat n).isDigit = true → isNetChar (Char.ofNat n) = true := by decide
    have hascii : c.toNat < 128 := by
      simp only [Char.isDigit, Bool.and_eq_true, decide_eq_true_eq] at hdigit
      exact lt_of_le_of_lt (UInt32.le_iff_toNat_le.1 hdigit.2) (by decide)
    exact ascii_induction (P := fun c => c.isDigit = true → isNetChar c = true) hall hascii hdigit
  exact isNetChar_not_whitespace hhex

theorem trim_loopback (port : UInt16) : trim (loopback port) = loopback port := by
  refine trim_eq_self fun c hc => ?_
  rcases List.mem_append.1 hc with hc | hc
  · have hall : ∀ c ∈ "socks5://127.0.0.1:".toList, isWhitespace c = false := by decide
    exact hall c hc
  · exact digit_not_whitespace hc

/-- The host and port behind the scheme. -/
theorem splitEndpoint_loopback {port : UInt16} (h : port ≠ 0) :
    splitEndpoint ("127.0.0.1:".toList ++ Nat.toDigits 10 port.toNat) =
      .ok ("127.0.0.1".toList, port) := by
  have hreverse : ("127.0.0.1:".toList ++ Nat.toDigits 10 port.toNat).reverse =
      (Nat.toDigits 10 port.toNat).reverse ++ ':' :: "127.0.0.1".toList.reverse := by
    rw [List.reverse_append]
    rfl
  have hsplit : rsplitOnce ':' ("127.0.0.1:".toList ++ Nat.toDigits 10 port.toNat) =
      some ("127.0.0.1".toList, Nat.toDigits 10 port.toNat) := by
    unfold rsplitOnce
    rw [hreverse, splitOnce_append fun hc => not_mem_toDigits (by decide) (List.mem_reverse.1 hc)]
    simp
  change (match rsplitOnce ':' ("127.0.0.1:".toList ++ Nat.toDigits 10 port.toNat) with
    | some (host, port) => _
    | none => _) = _
  rw [hsplit]
  dsimp only
  rw [parseU16_toDigits]
  dsimp only
  rw [if_neg (by simp [h])]

theorem userinfoOf_loopback (port : UInt16) :
    userinfoOf ("127.0.0.1:".toList ++ Nat.toDigits 10 port.toNat) =
      (none, "127.0.0.1:".toList ++ Nat.toDigits 10 port.toNat) := by
  have hat : '@' ∉ ("127.0.0.1:".toList ++ Nat.toDigits 10 port.toNat).reverse := by
    intro hc
    rcases List.mem_append.1 (List.mem_reverse.1 hc) with hc | hc
    · exact absurd hc (by decide)
    · exact not_mem_toDigits (by decide) hc
  unfold userinfoOf rsplitOnce
  rw [splitOnce_eq_none.2 hat]
  rfl

theorem trimEndMatches_loopback (port : UInt16) :
    trimEndMatches '/' ("127.0.0.1:".toList ++ Nat.toDigits 10 port.toNat) =
      "127.0.0.1:".toList ++ Nat.toDigits 10 port.toNat := by
  unfold trimEndMatches
  rw [List.dropWhile_eq_self_iff.2, List.reverse_reverse]
  intro hl hfront
  have hmem := List.mem_reverse.1 (List.getElem_mem hl)
  rw [of_decide_eq_true hfront] at hmem
  rcases List.mem_append.1 hmem with hc | hc
  · exact absurd hc (by decide)
  · exact not_mem_toDigits (by decide) hc

theorem parse_loopback {port : UInt16} (h : port ≠ 0) :
    parse (loopback port) = .ok (ofLoopback port) := by
  have hscheme : schemeOf (loopback port) =
      ("socks5".toList, "127.0.0.1:".toList ++ Nat.toDigits 10 port.toNat) := rfl
  have hkind : Kind.ofScheme "socks5".toList = .ok .socks5 := rfl
  unfold parse
  rw [trim_loopback, hscheme]
  dsimp only
  rw [hkind, userinfoOf_loopback]
  change (splitEndpoint (trimEndMatches '/' _) >>= _) = _
  rw [trimEndMatches_loopback, splitEndpoint_loopback h]
  rfl

theorem fromEnv_loopback {port : UInt16} (h : port ≠ 0) :
    fromEnv (some (loopback port)) = some (ofLoopback port) := by
  have hne : loopback port ≠ [] := List.append_ne_nil_of_left_ne_nil (by decide) _
  unfold fromEnv
  dsimp only
  rw [trim_loopback, if_neg hne, parse_loopback h]

end Upstream
end AuroraVpn
