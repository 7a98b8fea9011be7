import AuroraVpn.Socks.Handshake

/-!
# Gate — what a client has to say to have its request read

The messages of the protocol as structures whose fields fit their length bytes, and what the
server makes of a stream of them.

* `handshake_of_greeting`, `authenticate_of_login`: a message that is there is answered.
* `handshake_garbled`, `authenticate_garbled`: a stream that does not begin with one is not.
* `readRequest_gate`: with credentials, a request is returned only behind a greeting that offers
  the password method and a login with these credentials, and nothing else is told to the client
  than the answers these call for.
-/

namespace AuroraVpn
namespace Socks

open BigEndian Conversation Utf8
open Talk (readExact writeAll fail)

/-! ## Messages -/

structure Greeting where
  methods : Bytes
  fits : methods.length < 256

def Greeting.bytes (g : Greeting) : Bytes :=
  VER :: UInt8.ofNat g.methods.length :: g.methods

structure Login where
  username : Bytes
  password : Bytes
  usernameFits : username.length < 256
  passwordFits : password.length < 256

def Login.bytes (l : Login) : Bytes :=
  AUTH_SUBVER :: UInt8.ofNat l.username.length ::
    (l.username ++ UInt8.ofNat l.password.length :: l.password)

inductive Address
  | v4 (octets : List.Vector UInt8 4)
  | v6 (octets : List.Vector UInt8 16)
  | domain (name : Bytes) (fits : name.length < 256)

def Address.atyp : Address → UInt8
  | .v4 _ => ATYP_V4
  | .v6 _ => ATYP_V6
  | .domain _ _ => ATYP_DOMAIN

def Address.bytes : Address → Bytes
  | .v4 octets => octets.toList
  | .v6 octets => octets.toList
  | .domain name _ => UInt8.ofNat name.length :: name

def Address.target : Address → Target
  | .v4 octets => .ip (.v4 octets)
  | .v6 octets => .ip (.v6 octets)
  | .domain name _ => .domain (fromUtf8Lossy name)

/-- A request.  Its third byte is reserved; the server does not look at it. -/
structure Request where
  command : UInt8
  reserved : UInt8
  address : Address
  port : UInt16

def Request.bytes (r : Request) : Bytes :=
  VER :: r.command :: r.reserved :: r.address.atyp :: (r.address.bytes ++ toBe 2 r.port.toNat)

/-! ## Greeting and login -/

variable {access : Access} {credentials : Credentials} {s rest : Bytes} {room : Nat}

theorem toNat_ofNat_length {l : Bytes} (h : l.length < 256) :
    (UInt8.ofNat l.length).toNat = l.length := by
  simpa [UInt8.toNat_ofNat'] using h

theorem toList_two (v : List.Vector UInt8 2) : v.toList = [v.get 0, v.get 1] := by
  match v with
  | ⟨[_, _], _⟩ => rfl

theorem toList_four (v : List.Vector UInt8 4) :
    v.toList = [v.get 0, v.get 1, v.get 2, v.get 3] := by
  match v with
  | ⟨[_, _, _, _], _⟩ => rfl

theorem length_block {n : UInt8} (v : List.Vector UInt8 n.toNat) : v.toList.length < 256 := by
  rw [v.toList_length]
  exact n.toNat_lt

/-- How `handshake` answers the methods of a greeting. -/
def answerMethods (access : Access) (methods : Bytes) : Io Unit :=
  match access.credentials with
  | none => writeAll [VER, AUTH_NONE]
  | some credentials =>
      if AUTH_USERPASS ∉ methods then do
        writeAll [VER, AUTH_UNACCEPTABLE]
        fail (.other "client offered no password method")
      else do
        writeAll [VER, AUTH_USERPASS]
        authenticate credentials

theorem handshake_of_greeting (g : Greeting) :
    run stream faults (handshake access) (g.bytes ++ rest) room =
      run stream faults (answerMethods access g.methods) rest room := by
  change run stream faults (handshake access)
    ([VER, UInt8.ofNat g.methods.length] ++ (g.methods ++ rest)) room = _
  rw [handshake, run_stream_read (n := 2) rfl]
  have hver : (ofList [VER, UInt8.ofNat g.methods.length] rfl).get 0 = VER := rfl
  rw [if_neg (not_not.2 hver)]
  exact run_stream_read (toNat_ofNat_length g.fits).symm _

/-- A stream that does not begin with a greeting fails the handshake unanswered. -/
theorem handshake_garbled (access : Access) (room : Nat)
    (h : ∀ (g : Greeting) (rest : Bytes), s ≠ g.bytes ++ rest) :
    FailsSilently (run stream faults (handshake access) s room) := by
  refine failsSilently_read fun head s₁ hs => ?_
  by_cases hver : head.get 0 = VER
  · rw [if_neg (not_not.2 hver)]
    refine failsSilently_read fun methods s₂ hs₁ => ?_
    refine absurd ?_ (h ⟨methods.toList, length_block methods⟩ s₂)
    simp [hs, hs₁, Greeting.bytes, toList_two, hver]
  · rw [if_pos hver]
    exact failsSilently_fail _

/-- How `authenticate` answers a login. -/
def answerLogin (credentials : Credentials) (username password : Bytes) : Io Unit :=
  if !credentials.matches username password then do
    writeAll [AUTH_SUBVER, 0x01]
    fail (.other "bad socks credentials")
  else
    writeAll [AUTH_SUBVER, 0x00]

theorem authenticate_of_login (l : Login) :
    run stream faults (authenticate credentials) (l.bytes ++ rest) room =
      run stream faults (answerLogin credentials l.username l.password) rest room := by
  have hbytes : l.bytes ++ rest = [AUTH_SUBVER, UInt8.ofNat l.username.length] ++
      (l.username ++ ([UInt8.ofNat l.password.length] ++ (l.password ++ rest))) := by
    simp [Login.bytes]
  rw [hbytes, authenticate, run_stream_read (n := 2) rfl]
  have hver : (ofList [AUTH_SUBVER, UInt8.ofNat l.username.length] rfl).get 0 = AUTH_SUBVER := rfl
  rw [if_neg (not_not.2 hver)]
  refine (run_stream_read (toNat_ofNat_length l.usernameFits).symm _).trans ?_
  rw [run_stream_read (n := 1) rfl]
  exact run_stream_read (toNat_ofNat_length l.passwordFits).symm _

/-- A stream that does not begin with a login fails the exchange unanswered. -/
theorem authenticate_garbled (credentials : Credentials) (room : Nat)
    (h : ∀ (l : Login) (rest : Bytes), s ≠ l.bytes ++ rest) :
    FailsSilently (run stream faults (authenticate credentials) s room) := by
  refine failsSilently_read fun head s₁ hs => ?_
  by_cases hver : head.get 0 = AUTH_SUBVER
  · rw [if_neg (not_not.2 hver)]
    refine failsSilently_read fun username s₂ hs₁ => ?_
    refine failsSilently_read fun plen s₃ hs₂ => ?_
    refine failsSilently_read fun password s₄ hs₃ => ?_
    refine absurd ?_ (h ⟨username.toList, password.toList, length_block username,
      length_block password⟩ s₄)
    simp [hs, hs₁, hs₂, hs₃, Login.bytes, toList_two, hver]
  · rw [if_pos hver]
    exact failsSilently_fail _

/-! ## Request -/

/-- What `readRequest` reads behind the handshake. -/
def readCommand : Io (UInt8 × Target × UInt16) := do
  let head ← readExact 4
  if head.get 0 ≠ VER then
    fail (.other "bad socks version")
  else
    let (target, port) ← readTarget (head.get 3)
    pure (head.get 1, target, port)

theorem readRequest_eq (access : Access) :
    readRequest access = handshake access >>= fun _ => readCommand := rfl

theorem run_pure_ok {α : Type} {a b : α} {w : Bytes} :
    run stream faults (pure a : Io α) s room = ⟨.ok b, w, rest⟩ ↔ b = a ∧ w = [] ∧ rest = s := by
  rw [run_pure, Outcome.mk.injEq, Except.ok.injEq]
  exact and_congr eq_comm (and_congr eq_comm eq_comm)

theorem ofBe_port (port : UInt16) : UInt16.ofNat (ofBe (toBe 2 port.toNat)) = port := by
  have hlt : port.toNat < 256 ^ 2 := port.toNat_lt
  rw [ofBe_toBe, Nat.mod_eq_of_lt hlt, UInt16.ofNat_toNat]

theorem toBe_port (v : List.Vector UInt8 2) :
    toBe 2 (UInt16.ofNat (ofBe v.toList)).toNat = v.toList := by
  have hlt : ofBe v.toList < 65536 := by simpa using ofBe_lt v.toList
  have hback := toBe_ofBe v.toList
  rw [UInt16.toNat_ofNat', Nat.mod_eq_of_lt hlt]
  rwa [v.toList_length] at hback

theorem readPort_ok {target target' : Target} {port : UInt16} {w : Bytes} :
    (∃ (v : List.Vector UInt8 2) (s' : Bytes), s = v.toList ++ s' ∧
      run stream faults (pure (target, UInt16.ofNat (ofBe v.toList)) : Io (Target × UInt16)) s' room =
        ⟨.ok (target', port), w, rest⟩) ↔
      target' = target ∧ w = [] ∧ s = toBe 2 port.toNat ++ rest := by
  simp only [run_pure_ok, Prod.mk.injEq]
  constructor
  · rintro ⟨v, s', rfl, ⟨rfl, rfl⟩, rfl, rfl⟩
    exact ⟨rfl, rfl, by rw [toBe_port]⟩
  · rintro ⟨rfl, rfl, rfl⟩
    exact ⟨ofList (toBe 2 port.toNat) (length_toBe 2 _), rest, rfl,
      ⟨rfl, (ofBe_port port).symm⟩, rfl, rfl⟩

/-- **What `readTarget` accepts, and what it makes of it.** -/
theorem readTarget_ok {atyp : UInt8} {target : Target} {port : UInt16} {w : Bytes} :
    run stream faults (readTarget atyp) s room = ⟨.ok (target, port), w, rest⟩ ↔
      ∃ a : Address, atyp = a.atyp ∧ target = a.target ∧ w = [] ∧
        s = a.bytes ++ (toBe 2 port.toNat ++ rest) := by
  constructor
  · intro h
    -- the three kinds of addresses in the order of the source
    by_cases h4 : atyp = ATYP_V4
    · subst h4
      simp only [readTarget, if_true, pure_bind, run_stream_read_ok, readPort_ok] at h
      obtain ⟨octets, s', rfl, rfl, rfl, rfl⟩ := h
      exact ⟨.v4 octets, rfl, rfl, rfl, rfl⟩
    by_cases h6 : atyp = ATYP_V6
    · subst h6
      simp only [readTarget, h4, if_true, if_false, pure_bind, run_stream_read_ok, readPort_ok] at h
      obtain ⟨octets, s', rfl, rfl, rfl, rfl⟩ := h
      exact ⟨.v6 octets, rfl, rfl, rfl, rfl⟩
    by_cases hd : atyp = ATYP_DOMAIN
    · subst hd
      simp only [readTarget, h4, h6, if_true, if_false, pure_bind, run_stream_read_ok, readPort_ok]
        at h
      obtain ⟨len, s₁, rfl, name, s₂, rfl, rfl, rfl, rfl⟩ := h
      exact ⟨.domain name.toList (length_block name), rfl, rfl, rfl,
        by simp [Address.bytes]⟩
    · simp only [readTarget, h4, h6, hd, if_false] at h
      cases h
  -- the bytes of an address are read as that address
  · rintro ⟨a, rfl, rfl, rfl, rfl⟩
    cases a with
    | v4 octets =>
        simp only [readTarget, Address.atyp, if_true, pure_bind, run_stream_read_ok, readPort_ok]
        exact ⟨octets, _, rfl, rfl, trivial, rfl⟩
    | v6 octets =>
        have h4 : ¬ATYP_V6 = ATYP_V4 := by decide
        simp only [readTarget, Address.atyp, h4, if_true, if_false, pure_bind, run_stream_read_ok,
          readPort_ok]
        exact ⟨octets, _, rfl, rfl, trivial, rfl⟩
    | domain name fits =>
        have h4 : ¬ATYP_DOMAIN = ATYP_V4 := by decide
        have h6 : ¬ATYP_DOMAIN = ATYP_V6 := by decide
        simp only [readTarget, Address.atyp, h4, h6, if_true, if_false, pure_bind,
          run_stream_read_ok, readPort_ok]
        exact ⟨ofList [UInt8.ofNat name.length] rfl, _, rfl,
          ofList name (toNat_ofNat_length fits).symm, _, rfl, rfl, trivial, rfl⟩

/-- **What `readCommand` accepts, and what it makes of it.** -/
theorem readCommand_ok {command : UInt8} {target : Target} {port : UInt16} {w : Bytes} :
    run stream faults readCommand s room = ⟨.ok (command, target, port), w, rest⟩ ↔
      ∃ r : Request, r.command = command ∧ r.address.target = target ∧ r.port = port ∧ w = [] ∧
        s = r.bytes ++ rest := by
  rw [readCommand, run_stream_read_ok]
  constructor
  · rintro ⟨head, s₁, rfl, h⟩
    -- the version is checked first; behind it the target decides
    by_cases hver : head.get 0 = VER
    · rw [if_neg (not_not.2 hver), run_bind_ok] at h
      obtain ⟨⟨t, p⟩, w₁, s₂, w₂, htarget, hpure, rfl⟩ := h
      obtain ⟨a, hatyp, rfl, rfl, rfl⟩ := readTarget_ok.1 htarget
      obtain ⟨heq, rfl, rfl⟩ := run_pure_ok.1 hpure
      cases heq
      refine ⟨⟨head.get 1, head.get 2, a, port⟩, rfl, rfl, rfl, rfl, ?_⟩
      simp [Request.bytes, toList_four, hver, hatyp]
    · rw [if_pos hver] at h
      cases h
  -- a request that is written is read field by field
  · rintro ⟨r, rfl, rfl, rfl, rfl, rfl⟩
    refine ⟨ofList [VER, r.command, r.reserved, r.address.atyp] rfl,
      r.address.bytes ++ (toBe 2 r.port.toNat ++ rest), by simp [Request.bytes], ?_⟩
    have hver : (ofList [VER, r.command, r.reserved, r.address.atyp] rfl).get 0 = VER := rfl
    rw [if_neg (not_not.2 hver), run_bind_ok]
    exact ⟨(r.address.target, r.port), [], rest, [],
      readTarget_ok.2 ⟨r.address, rfl, rfl, rfl, rfl⟩, rfl, rfl⟩

theorem readTarget_listens (atyp : UInt8) : (readTarget atyp).Listens := by
  unfold readTarget
  split_ifs
  iterate 3 simp only [pure_bind, Talk.listens_read, Talk.listens_pure, implies_true]
  trivial

theorem readCommand_listens : readCommand.Listens := by
  rw [readCommand, Talk.listens_read]
  intro head
  split_ifs
  · trivial
  · exact (readTarget_listens _).bind fun _ => trivial

/-! ## The gate -/

/-- `s` begins with a greeting that offers the password method and a login with the server's own
credentials; `rest` is what stands behind them. -/
def Admitted (credentials : Credentials) (s rest : Bytes) : Prop :=
  ∃ (g : Greeting) (l : Login), AUTH_USERPASS ∈ g.methods ∧
    l.username = asBytes credentials.username ∧ l.password = asBytes credentials.password ∧
    s = g.bytes ++ (l.bytes ++ rest)

/-- What a server with credentials is to answer to a stream of greeting and login. -/
inductive Answers (credentials : Credentials) : Bytes → Bytes → Prop
  | silence {s : Bytes} (h : ∀ (g : Greeting) (rest : Bytes), s ≠ g.bytes ++ rest) :
      Answers credentials s []
  | refusal {rest : Bytes} (g : Greeting) (h : AUTH_USERPASS ∉ g.methods) :
      Answers credentials (g.bytes ++ rest) [VER, AUTH_UNACCEPTABLE]
  | selection {rest : Bytes} (g : Greeting) (h : AUTH_USERPASS ∈ g.methods)
      (hl : ∀ (l : Login) (rest' : Bytes), rest ≠ l.bytes ++ rest') :
      Answers credentials (g.bytes ++ rest) [VER, AUTH_USERPASS]
  | denial {rest : Bytes} (g : Greeting) (l : Login) (h : AUTH_USERPASS ∈ g.methods)
      (hl : credentials.matches l.username l.password = false) :
      Answers credentials (g.bytes ++ (l.bytes ++ rest)) [VER, AUTH_USERPASS, AUTH_SUBVER, 0x01]
  | admission {rest : Bytes} (g : Greeting) (l : Login) (h : AUTH_USERPASS ∈ g.methods)
      (hl : credentials.matches l.username l.password = true) :
      Answers credentials (g.bytes ++ (l.bytes ++ rest)) [VER, AUTH_USERPASS, AUTH_SUBVER, 0x00]

theorem answerLogin_written (l : Login) :
    (run stream faults (answerLogin credentials l.username l.password) s room).written =
      ([AUTH_SUBVER, if credentials.matches l.username l.password then 0x00 else 0x01] :
        Bytes).take room := by
  rw [answerLogin]
  cases credentials.matches l.username l.password with
  | true => exact (written_write _ pure).trans (by simp)
  | false => exact (written_write _ _).trans (by simp)

theorem answerLogin_left {username password : Bytes} :
    (run stream faults (answerLogin credentials username password) s room).left = s := by
  rw [answerLogin]
  cases credentials.matches username password with
  | true => exact (left_write _ pure).trans (ite_self s)
  | false => exact (left_write _ _).trans (ite_self s)

theorem answerLogin_ok {username password w : Bytes} :
    run stream faults (answerLogin credentials username password) s room = ⟨.ok (), w, rest⟩ ↔
      2 ≤ room ∧ w = [AUTH_SUBVER, 0x00] ∧ credentials.matches username password = true ∧
        rest = s := by
  rw [answerLogin]
  cases credentials.matches username password with
  | true => exact run_writeAll_ok.trans (by simp)
  | false =>
      refine (run_write_ok (f := fun _ => fail _)).trans ?_
      simp

/-- **What `handshake` says.**  It answers what it is to answer, as far as the client takes it. -/
theorem handshake_answers (credentials : Credentials) (s : Bytes) (room : Nat) :
    ∃ answers, Answers credentials s answers ∧
      (run stream faults (handshake ⟨some credentials⟩) s room).written = answers.take room := by
  -- a stream that is no greeting, or ends in one, gets no answer
  by_cases hg : ∃ (g : Greeting) (rest : Bytes), s = g.bytes ++ rest
  swap
  · push Not at hg
    exact ⟨[], .silence hg, by simpa using (handshake_garbled _ room hg).2⟩
  obtain ⟨g, rest, rfl⟩ := hg
  rw [handshake_of_greeting, answerMethods]
  -- the password method is not offered
  by_cases hmem : AUTH_USERPASS ∈ g.methods
  swap
  · exact ⟨_, .refusal g hmem, by simp [hmem, written_write]⟩
  -- no login behind the greeting: only the choice of the method is answered
  by_cases hl : ∃ (l : Login) (rest' : Bytes), rest = l.bytes ++ rest'
  swap
  · push Not at hl
    exact ⟨_, .selection g hmem hl, by simp [hmem, written_write, (authenticate_garbled _ _ hl).2]⟩
  obtain ⟨l, rest, rfl⟩ := hl
  cases hmatch : credentials.matches l.username l.password with
  | false =>
      refine ⟨_, .denial g l hmem hmatch, ?_⟩
      simp only [hmem, not_true_eq_false, if_false, written_write, authenticate_of_login,
        answerLogin_written, take_append_take, hmatch]
      rfl
  | true =>
      refine ⟨_, .admission g l hmem hmatch, ?_⟩
      simp only [hmem, not_true_eq_false, if_false, written_write, authenticate_of_login,
        answerLogin_written, take_append_take, hmatch]
      rfl

/-- **Whom `handshake` lets in.** -/
theorem handshake_ok {w : Bytes} :
    run stream faults (handshake ⟨some credentials⟩) s room = ⟨.ok (), w, rest⟩ ↔
      4 ≤ room ∧ w = [VER, AUTH_USERPASS, AUTH_SUBVER, 0x00] ∧ Admitted credentials s rest := by
  constructor
  · intro h
    by_cases hg : ∃ (g : Greeting) (rest : Bytes), s = g.bytes ++ rest
    swap
    · push Not at hg
      obtain ⟨⟨e, he⟩, -⟩ := handshake_garbled ⟨some credentials⟩ room hg
      rw [h] at he
      cases he
    obtain ⟨g, t, rfl⟩ := hg
    rw [handshake_of_greeting, answerMethods] at h
    by_cases hmem : AUTH_USERPASS ∈ g.methods
    swap
    · simp [hmem, run_write_ok] at h
    simp only [hmem, not_true_eq_false, if_false, run_write_ok] at h
    obtain ⟨hroom, w, h, rfl⟩ := h
    by_cases hl : ∃ (l : Login) (t' : Bytes), t = l.bytes ++ t'
    swap
    · push Not at hl
      obtain ⟨⟨e, he⟩, -⟩ := authenticate_garbled credentials _ hl
      rw [h] at he
      cases he
    obtain ⟨l, t, rfl⟩ := hl
    rw [authenticate_of_login, answerLogin_ok] at h
    obtain ⟨hroom', rfl, hmatch, rfl⟩ := h
    obtain ⟨huser, hpass⟩ := Credentials.matches_iff.1 hmatch
    refine ⟨?_, rfl, g, l, hmem, huser, hpass, rfl⟩
    -- two bytes for the method and two for the login
    simp only [List.length_cons, List.length_nil] at hroom hroom'
    omega
  · rintro ⟨hroom, rfl, g, l, hmem, huser, hpass, rfl⟩
    rw [handshake_of_greeting, answerMethods]
    simp only [hmem, not_true_eq_false, if_false, run_write_ok, authenticate_of_login,
      answerLogin_ok]
    refine ⟨by simp; omega, [AUTH_SUBVER, 0x00], ⟨by simp; omega, rfl, ?_, trivial⟩, rfl⟩
    exact Credentials.matches_iff.2 ⟨huser, hpass⟩

/-- The handshake does not read past the login. -/
theorem handshake_unread (access : Access) (g : Greeting) (l : Login) (rest : Bytes) (room : Nat) :
    rest <:+ (run stream faults (handshake access) (g.bytes ++ (l.bytes ++ rest)) room).left := by
  have hbehind : rest <:+ l.bytes ++ rest := List.suffix_append _ _
  rw [handshake_of_greeting, answerMethods]
  cases access.credentials with
  | none =>
      refine (left_write [VER, AUTH_NONE] pure).symm ▸ ?_
      split_ifs <;> exact hbehind
  | some credentials =>
      by_cases hmem : AUTH_USERPASS ∈ g.methods
      · simp only [hmem, not_true_eq_false, if_false, left_write, authenticate_of_login,
          answerLogin_left]
        split_ifs
        · exact List.suffix_refl _
        · exact hbehind
      · simp only [hmem, not_false_eq_true, if_true, left_write, run_fail]
        split_ifs <;> exact hbehind

theorem readRequest_written (access : Access) (s : Bytes) (room : Nat) :
    (run stream faults (readRequest access) s room).written =
      (run stream faults (handshake access) s room).written := by
  rw [readRequest_eq, run_bind, Outcome.andThen]
  cases (run stream faults (handshake access) s room).result with
  | error e => rfl
  | ok a => simp [run_listens readCommand_listens]

theorem readRequest_ok {command : UInt8} {target : Target} {port : UInt16} {w : Bytes} :
    run stream faults (readRequest ⟨some credentials⟩) s room =
        ⟨.ok (command, target, port), w, rest⟩ ↔
      4 ≤ room ∧ w = [VER, AUTH_USERPASS, AUTH_SUBVER, 0x00] ∧
        ∃ r : Request, r.command = command ∧ r.address.target = target ∧ r.port = port ∧
          Admitted credentials s (r.bytes ++ rest) := by
  rw [readRequest_eq, run_bind_ok]
  constructor
  · rintro ⟨_, w₁, s₁, w₂, hshake, hcommand, rfl⟩
    obtain ⟨hroom, rfl, hadmit⟩ := handshake_ok.1 hshake
    obtain ⟨r, hc, ht, hp, rfl, rfl⟩ := readCommand_ok.1 hcommand
    exact ⟨hroom, rfl, r, hc, ht, hp, hadmit⟩
  · rintro ⟨hroom, rfl, r, hc, ht, hp, hadmit⟩
    exact ⟨(), _, _, [], handshake_ok.2 ⟨hroom, rfl, hadmit⟩,
      readCommand_ok.2 ⟨r, hc, ht, hp, rfl, rfl⟩, rfl⟩

theorem Answers.offered {answers : Bytes} {method : UInt8} (h : Answers credentials s answers)
    (hm : [VER, method] <+: answers) :
    method = AUTH_UNACCEPTABLE ∨
      ∃ (g : Greeting) (rest : Bytes), s = g.bytes ++ rest ∧ method ∈ g.methods := by
  cases h with
  | silence h => simp at hm
  | refusal g h =>
      left
      simpa using hm
  | selection g h hl =>
      have hmethod : method = AUTH_USERPASS := by simpa using hm
      exact .inr ⟨g, _, rfl, hmethod ▸ h⟩
  | denial g l h hl =>
      have hmethod : method = AUTH_USERPASS := by simpa [List.cons_prefix_cons] using hm
      exact .inr ⟨g, _, rfl, hmethod ▸ h⟩
  | admission g l h hl =>
      have hmethod : method = AUTH_USERPASS := by simpa [List.cons_prefix_cons] using hm
      exact .inr ⟨g, _, rfl, hmethod ▸ h⟩

/-- **The authentication gate.**  However a client's stream is cut, a server with credentials
returns a request just when the stream carries one behind an accepted greeting and login and the
client takes the four bytes of answers.  Otherwise what would follow the handshake makes no
difference, and what stands behind a login stays unread.  The client is told what the answers to
its greeting and login are, and is never given a method it did not offer. -/
theorem readRequest_gate (credentials : Credentials) (cs : List Bytes) (room : Nat) :
    let o := run chunks faults (readRequest ⟨some credentials⟩) cs room
    (∀ command target port, o.result = .ok (command, target, port) ↔
      4 ≤ room ∧ ∃ (r : Request) (rest : Bytes), r.command = command ∧
        r.address.target = target ∧ r.port = port ∧
        Admitted credentials cs.flatten (r.bytes ++ rest)) ∧
    ((∀ rest, ¬Admitted credentials cs.flatten rest) →
      (∀ next, run chunks faults (handshake ⟨some credentials⟩ >>= fun _ => next) cs room = o) ∧
      ∀ (g : Greeting) (l : Login) (rest : Bytes), cs.flatten = g.bytes ++ (l.bytes ++ rest) →
        rest <:+ o.left.flatten) ∧
    (∃ answers, Answers credentials cs.flatten answers ∧ o.written = answers.take room) ∧
    ∀ method, [VER, method] <+: o.written → method = AUTH_UNACCEPTABLE ∨
      ∃ (g : Greeting) (rest : Bytes), cs.flatten = g.bytes ++ rest ∧ method ∈ g.methods := by
  obtain ⟨hres, hwritten, hleft⟩ := run_chunks faults
    (readRequest ⟨some credentials⟩) cs room
  -- what is said depends on the bytes only, not on how they come
  obtain ⟨answers, hanswers, hsaid⟩ := handshake_answers credentials cs.flatten room
  rw [← readRequest_written, ← hwritten] at hsaid
  refine ⟨?_, ?_, ⟨answers, hanswers, hsaid⟩, ?_⟩
  · intro command target port
    rw [hres]
    constructor
    · intro h
      obtain ⟨hroom, -, r, hc, ht, hp, hadmit⟩ := readRequest_ok.1 (outcome_of_result h)
      exact ⟨hroom, r, _, hc, ht, hp, hadmit⟩
    · rintro ⟨hroom, r, rest, hc, ht, hp, hadmit⟩
      rw [readRequest_ok.2 ⟨hroom, rfl, r, hc, ht, hp, hadmit⟩]
  -- the handshake fails, so nothing behind it is run
  · intro hrefused
    obtain ⟨hsres, -, hsleft⟩ := run_chunks faults (handshake ⟨some credentials⟩) cs room
    cases hshake : (run chunks faults (handshake ⟨some credentials⟩) cs room).result with
    | ok a =>
        rw [hsres] at hshake
        exact absurd (handshake_ok.1 (outcome_of_result hshake)).2.2 (hrefused _)
    | error e =>
        refine ⟨fun next => ?_, fun g l rest hs => ?_⟩
        · rw [readRequest_eq, run_bind_failed hshake, run_bind_failed hshake]
        · rw [readRequest_eq, run_bind_failed hshake, hsleft, hs]
          exact handshake_unread _ g l rest room
  · intro method hm
    rw [hsaid] at hm
    exact hanswers.offered (hm.trans (List.take_prefix room answers))

/-- Behind an accepted login the first byte of the request decides: with a 4 the request is refused,
once four of its bytes have been read, and with a 5 it is returned. -/
theorem readRequest_badVersion :
    run chunks faults (readRequest ⟨some ⟨"u", "p"⟩⟩)
        [[5, 1, 2, 1, 1, 117, 1, 112], [4, 1, 0, 1, 9, 9, 9, 9, 0, 80]] 4 =
      ⟨.error (.other "bad socks version"), [5, 2, 1, 0], [[9, 9, 9, 9, 0, 80]]⟩ ∧
    run chunks faults (readRequest ⟨some ⟨"u", "p"⟩⟩)
        [[5, 1, 2, 1, 1, 117, 1, 112], [5, 1, 0, 1, 9, 9, 9, 9, 0, 80]] 4 =
      ⟨.ok (1, .ip (.v4 ⟨[9, 9, 9, 9], rfl⟩), 80), [5, 2, 1, 0], [[]]⟩ :=
  ⟨rfl, rfl⟩

end Socks
end AuroraVpn
