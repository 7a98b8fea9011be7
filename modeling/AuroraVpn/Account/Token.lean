import AuroraVpn.Account.Teams
import Mathlib.Data.List.DropRight

/-!
# Token — the enrolment token of a session

`TOKEN_CACHE`, `resolve_token`, `store_token`, `cached_token`, `clear_token` and `sign_in` of
`zerotrust.rs`, with the sign-ins that fetch a token, and the calls of `account.rs` and `api.rs` that
use them.

* `resolveToken_cases`: what `resolve_token` gives, and what it leaves in the cache.
* `tokens_proper_iff`: when every token goes to the organization that it is for and is still good.
-/

namespace AuroraVpn
namespace Account
namespace Token

/-- `URL_SAFE_NO_PAD.decode` and the `exp` of a payload. -/
structure Decoding where
  segment : Text → Option Bytes
  exp : Bytes → Option UInt64

structure TeamSettings where
  team : Text
  clientId : Option Text := none
  clientSecret : Option Text := none
  token : Option Text := none
  email : Option Text := none
  deriving DecidableEq, Repr

def TeamSettings.hasServiceToken (settings : TeamSettings) : Bool :=
  settings.clientId.isSome && settings.clientSecret.isSome

/-! ## Tokens -/

section Jwt

variable (d : Decoding)

def isJwtChar (c : Char) : Bool :=
  isAsciiAlphanumeric c || c = '.' || c = '-' || c = '_'

def looksLikeJwt (token : Text) : Bool :=
  let token := trim token
  match token.splitOn '.' with
  | [header, payload, signature] =>
      -- a text of other characters is none, so the characters are its bytes
      32 ≤ token.length && header ≠ [] && payload ≠ [] && signature ≠ [] &&
        token.all isJwtChar && (d.segment header).isSome
  | _ => false

def jwtExpiry (token : Text) : Option UInt64 :=
  match token.splitOn '.' with
  | [_, payload, _] => (d.segment payload).bind d.exp
  | _ => none

def jwtExpired (token : Text) (now : UInt64) : Bool :=
  (jwtExpiry d token).any fun exp => exp ≤ now

/-- What follows the first place where a text stands. -/
def after (marker : Text) : Text → Option Text
  | [] => if marker = [] then some [] else none
  | c :: rest => if marker <+: c :: rest then some ((c :: rest).drop marker.length) else after marker rest

def endsToken (c : Char) : Bool :=
  c = '"' || c = '\'' || c = '&' || c = '<' || isWhitespace c

def extractJwtFromHtml (html : Text) : Option Text := do
  let rest ← after "token=".toList html
  let candidate := trim (rest.takeWhile fun c => !endsToken c)
  if looksLikeJwt d candidate then some candidate else none

/-- The parts of a cookie, up to one that is no authorization. -/
def jwtAmong : List Text → Option Text
  | [] => none
  | part :: parts =>
      let entry := trim part
      if "CF_Authorization=".toList <+: entry ∨ "cf_authorization=".toList <+: entry then
        let value := entry.drop "CF_Authorization=".toList.length
        if looksLikeJwt d value then some value else jwtAmong parts
      else
        none

def extractJwtFromCookie (header : Text) : Option Text :=
  jwtAmong d (header.splitOn ';')

end Jwt

/-! ## Signing in -/

/-- The answer to a service token. -/
structure AccessAnswer where
  /-- The `Set-Cookie` headers that are text. -/
  cookies : List Text
  /-- The status with its reason. -/
  status : String
  body : Text

/-- What a sign-in meets. -/
structure SignIn where
  /-- The clock, when a supplied token is looked at. -/
  now : UInt64
  access : Except AetherError AccessAnswer
  begun : Except AetherError Unit
  /-- The code that is typed at each attempt. -/
  code : Nat → Except AetherError Text
  confirmed : Nat → Except AetherError (UInt16 × Text)
  /-- The clock, when a token was fetched. -/
  done : UInt64

inductive CodeOutcome
  | token (token : Text)
  | rejected (status : UInt16)

def CODE_ATTEMPTS : Nat := 3

section SignIn

variable (d : Decoding)

def fetchTokenWithServiceToken (settings : TeamSettings) (a : SignIn) : Except AetherError Text := do
  let some _ := settings.clientId | throw (.api "missing access client id")
  let some _ := settings.clientSecret | throw (.api "missing access client secret")
  let response ← a.access
  match (response.cookies.findSome? (extractJwtFromCookie d)).or (extractJwtFromHtml d response.body) with
  | some token => pure token
  | none => throw (.api ("access did not return a device enrolment token (status " ++
      response.status ++ "); confirm the service token has Service Auth device enrolment " ++
      "permission for team " ++ String.ofList settings.team))

/-- `EmailSignIn::submit_code`, with what the callback answers. -/
def submitCode (code : Text) (confirmed : Except AetherError (UInt16 × Text)) :
    Except AetherError CodeOutcome := do
  if trim code = [] then
    throw (.api "no login code was entered")
  let (status, body) ← confirmed
  match extractJwtFromHtml d body with
  | some token => pure (.token token)
  | none => pure (.rejected status)

/-- The attempts that are left, with the status that the last one was answered with. -/
def codeAttempts (a : SignIn) : Nat → Option UInt16 → Except AetherError Text
  | 0, lastStatus => throw (.api ("the login code was not accepted after " ++ toString CODE_ATTEMPTS ++
      " attempts (last status " ++ (lastStatus.elim "unknown" toString) ++
      "); request a fresh code and try again"))
  | n + 1, _ => do
      let code ← a.code (CODE_ATTEMPTS - n)
      match ← submitCode d code (a.confirmed (CODE_ATTEMPTS - n)) with
      | .token token => pure token
      | .rejected status => codeAttempts a n (some status)

def fetchTokenWithEmailCode (a : SignIn) : Except AetherError Text := do
  a.begun
  codeAttempts d a CODE_ATTEMPTS none

/-- `login_url`. -/
def loginUrl (settings : TeamSettings) : String :=
  "https://" ++ String.ofList settings.team ++ "." ++ String.ofList TEAM_SUFFIX ++ "/warp"

/-- What `sign_in` does without a supplied token. -/
def fetchToken (settings : TeamSettings) (a : SignIn) : Except AetherError Text :=
  if settings.hasServiceToken then
    fetchTokenWithServiceToken d settings a
  else if settings.email.isSome then
    fetchTokenWithEmailCode d a
  else
    throw (.api ("team " ++ String.ofList settings.team ++ " needs a way to sign in. pick one: a " ++
      "service token via AETHER_ACCESS_CLIENT_ID and AETHER_ACCESS_CLIENT_SECRET, an email one-time " ++
      "code via AETHER_ACCESS_EMAIL, or a token you already hold via AETHER_ACCESS_TOKEN (sign in at " ++
      loginUrl settings ++ ")"))

def signIn (settings : TeamSettings) (a : SignIn) : Except AetherError Text :=
  match settings.token with
  | some token =>
      if !looksLikeJwt d token then
        throw (.api ("the supplied access token is not a jwt; copy the value that follows token= " ++
          "on the enrolment page"))
      else if jwtExpired d token a.now then
        throw (.api "the supplied access token has expired; sign in again to get a fresh one")
      else
        pure token
  | none => fetchToken d settings a

/-! ## The cache -/

/-- The token that is held and has not expired, `cached_token`. -/
def cachedToken (cache : Option Text) (now : UInt64) : Option Text :=
  cache.filter fun token => !jwtExpired d token now

/-- `resolve_token`: its result, and the cache that it leaves.  The cache is locked throughout. -/
def resolveToken (cache : Option Text) (settings : TeamSettings) (now : UInt64) (a : SignIn) :
    Except AetherError Text × Option Text :=
  match cachedToken d cache now with
  | some token => (.ok token, cache)
  | none =>
      match signIn d settings a with
      | .ok token => (.ok token, some token)
      | .error e => (.error e, none)

def storeToken (cache : Option Text) (token : Text) (now : UInt64) :
    Except AetherError Unit × Option Text :=
  let token := trim token
  if !looksLikeJwt d token then
    (.error (.api ("that value is not a jwt; copy the value that follows token= on the enrolment page")),
      cache)
  else if jwtExpired d token now then
    (.error (.api "that token has already expired; sign in again to get a fresh one"), cache)
  else
    (.ok (), some token)

end SignIn

/-! ## A process -/

/-- The cache, and where each token came from: signed in to an organization for, or supplied while
that was the organization that was asked for. -/
structure State where
  cache : Option Text := none
  obtained : List (Text × Text) := []

/-- What a call of the process is. -/
inductive Op
  /-- `team_sign_in`, and the sign-in of `enrol_zero_trust`. -/
  | resolve (settings : TeamSettings) (now : UInt64) (a : SignIn)
  /-- `provision_team`. -/
  | provision (settings : TeamSettings) (now : UInt64) (a : SignIn)
  /-- `team_email_code_submit`, for the organization of the session. -/
  | submit (team code : Text) (confirmed : Except AetherError (UInt16 × Text)) (now : UInt64)
  /-- `team_use_token`, while an organization is asked for. -/
  | store (team token : Text) (now : UInt64)
  /-- `team_forget_token`. -/
  | clear
  /-- `team_current_token`. -/
  | current (now : UInt64)

inductive Event
  | returned (token : Text) (now : UInt64)
  /-- The assertion of a registration. -/
  | sent (team token : Text)
  deriving DecidableEq, Repr

section Process

variable (d : Decoding)

/-- When the token of a `resolve_token` was last known to be good, or came back. -/
def resolvedAt (cache : Option Text) (settings : TeamSettings) (now : UInt64) (a : SignIn) : UInt64 :=
  if (cachedToken d cache now).isSome then now
  else if settings.token.isSome then a.now
  else a.done

/-- The tokens that were obtained, once `resolve_token` is done. -/
def obtainedAfter (s : State) (settings : TeamSettings) (now : UInt64) (a : SignIn) :
    List (Text × Text) :=
  match cachedToken d s.cache now with
  | some _ => s.obtained
  | none => (signIn d settings a).toOption.elim s.obtained fun token => (settings.team, token) :: s.obtained

/-- A call of `resolve_token`, and what is done with its token. -/
def resolveStep (s : State) (settings : TeamSettings) (now : UInt64) (a : SignIn)
    (use : Text → List Event) : State × List Event :=
  let (r, cache) := resolveToken d s.cache settings now a
  ({ cache := cache, obtained := obtainedAfter d s settings now a },
    r.toOption.elim [] fun token => .returned token (resolvedAt d s.cache settings now a) :: use token)

def step (s : State) : Op → State × List Event
  | .resolve settings now a => resolveStep d s settings now a fun _ => []
  | .provision settings now a => resolveStep d s settings now a fun token => [.sent settings.team token]
  | .submit team code confirmed now =>
      match submitCode d code confirmed with
      | .ok (.token token) =>
          let (r, cache) := storeToken d s.cache token now
          ({ cache := cache, obtained := (team, token) :: s.obtained },
            r.toOption.elim [] fun _ => [.returned token now])
      | _ => (s, [])
  | .store team token now =>
      let (_, cache) := storeToken d s.cache token now
      ({ cache := cache, obtained := (team, trim token) :: s.obtained }, [])
  | .clear => ({ s with cache := none }, [])
  | .current now => (s, (cachedToken d s.cache now).elim [] fun token => [.returned token now])

/-- A token that is returned is good, and one that is sent was obtained for its organization. -/
def Event.Proper (s : State) : Event → Prop
  | .returned token now => jwtExpired d token now = false
  | .sent team token => (team, token) ∈ s.obtained

/-- Everything that a run returns and sends is proper when it happens. -/
def Proper (s : State) : List Op → Prop
  | [] => True
  | op :: ops => (∀ e ∈ (step d s op).2, e.Proper d (step d s op).1) ∧ Proper (step d s op).1 ops

/-- A token that is fetched because none is held and none was supplied is still good. -/
def FetchesGood (s : State) (settings : TeamSettings) (now : UInt64) (a : SignIn) : Prop :=
  cachedToken d s.cache now = none → settings.token = none →
    ∀ token, fetchToken d settings a = .ok token → jwtExpired d token a.done = false

/-- A call for an organization finds no good token in the cache that is another's. -/
def FindsOwn (s : State) (team : Text) (now : UInt64) : Prop :=
  ∀ token, cachedToken d s.cache now = some token → (team, token) ∈ s.obtained

def Op.Meets (s : State) : Op → Prop
  | .resolve settings now a => FetchesGood d s settings now a
  | .provision settings now a => FetchesGood d s settings now a ∧ FindsOwn d s settings.team now
  | _ => True

/-- Every call of a run meets its condition when it is made. -/
def Meets (s : State) : List Op → Prop
  | [] => True
  | op :: ops => op.Meets d s ∧ Meets (step d s op).1 ops

end Process

section Proofs

variable {d : Decoding} {s : State} {cache : Option Text} {settings : TeamSettings} {a : SignIn}
variable {token : Text} {now : UInt64}

theorem cachedToken_good (h : cachedToken d cache now = some token) :
    jwtExpired d token now = false := by
  have hgood := (Option.filter_eq_some_iff.1 h).2
  simpa using hgood

/-- A supplied token was looked at. -/
theorem signIn_supplied (h : signIn d settings a = .ok token) (hsupplied : settings.token.isSome) :
    jwtExpired d token a.now = false := by
  obtain ⟨supplied, hsome⟩ := Option.isSome_iff_exists.1 hsupplied
  unfold signIn at h
  rw [hsome] at h
  dsimp only at h
  by_cases hjwt : looksLikeJwt d supplied = true
  · by_cases hexpired : jwtExpired d supplied a.now = true
    · simp only [hjwt, hexpired] at h
      cases h
    · simp only [hjwt, hexpired] at h
      cases h
      simpa using hexpired
  · simp only [hjwt] at h
    cases h

/-- What `resolve_token` gives comes from the cache, or from signing in when that holds nothing. -/
theorem resolveToken_cases :
    (∃ token, cachedToken d cache now = some token ∧
      resolveToken d cache settings now a = (.ok token, cache)) ∨
    (∃ token, cachedToken d cache now = none ∧ signIn d settings a = .ok token ∧
      resolveToken d cache settings now a = (.ok token, some token)) ∨
    (∃ e, cachedToken d cache now = none ∧ signIn d settings a = .error e ∧
      resolveToken d cache settings now a = (.error e, none)) := by
  unfold resolveToken
  cases hcached : cachedToken d cache now with
  | some token => exact .inl ⟨token, rfl, rfl⟩
  | none =>
      cases hsign : signIn d settings a with
      | ok token => exact .inr (.inl ⟨token, rfl, rfl, rfl⟩)
      | error e => exact .inr (.inr ⟨e, rfl, rfl, rfl⟩)

theorem signIn_fetch (h : settings.token = none) : signIn d settings a = fetchToken d settings a := by
  unfold signIn
  rw [h]

/-- A token is good when it comes back, unless it was fetched and was not. -/
theorem resolved_good_iff :
    (∀ token, (resolveToken d s.cache settings now a).1 = .ok token →
      jwtExpired d token (resolvedAt d s.cache settings now a) = false) ↔
      FetchesGood d s settings now a := by
  rcases @resolveToken_cases d s.cache settings a now with
    -- by what the call ends with: a cached token, one of the sign-in, or a failure
    ⟨token, hcached, hresolved⟩ | ⟨token, hcached, hsign, hresolved⟩ | ⟨e, hcached, hsign, hresolved⟩
  -- a cached token was looked at when the call began
  · have hat : resolvedAt d s.cache settings now a = now := by
      unfold resolvedAt
      rw [hcached]
      rfl
    rw [hresolved, hat]
    refine iff_of_true ?_ fun hnone => absurd (hnone.symm.trans hcached) nofun
    rintro _ ⟨⟩
    exact cachedToken_good hcached
  · cases hsupplied : settings.token with
    -- a token that was supplied is refused when it has expired
    | some supplied =>
        have hat : resolvedAt d s.cache settings now a = a.now := by
          unfold resolvedAt
          rw [hcached, hsupplied]
          rfl
        rw [hresolved, hat]
        refine iff_of_true ?_ fun _ hnone => absurd (hnone.symm.trans hsupplied) nofun
        rintro _ ⟨⟩
        exact signIn_supplied hsign (by rw [hsupplied]; rfl)
    -- a fetched one comes back as it is
    | none =>
        have hat : resolvedAt d s.cache settings now a = a.done := by
          unfold resolvedAt
          rw [hcached, hsupplied]
          rfl
        rw [hresolved, hat]
        rw [signIn_fetch hsupplied] at hsign
        constructor
        · rintro hgood - - token' htoken'
          cases hsign.symm.trans htoken'
          exact hgood token rfl
        · rintro hgood _ ⟨⟩
          exact hgood hcached hsupplied token hsign
  -- a failure returns no token, and the sign-in has failed
  · rw [hresolved]
    refine iff_of_true nofun fun _ hnone token htoken => ?_
    cases hsign.symm.trans ((signIn_fetch hnone).trans htoken)

/-- The events of a `resolve_token` are its token and what is done with that. -/
theorem resolveStep_proper_iff {use : Text → List Event} :
    (∀ e ∈ (resolveStep d s settings now a use).2,
      e.Proper d (resolveStep d s settings now a use).1) ↔
      FetchesGood d s settings now a ∧
        ∀ token, (resolveToken d s.cache settings now a).1 = .ok token →
          ∀ e ∈ use token, e.Proper d (resolveStep d s settings now a use).1 := by
  rw [← resolved_good_iff, ← forall_and]
  have hevents : (resolveStep d s settings now a use).2 =
      (resolveToken d s.cache settings now a).1.toOption.elim [] fun token =>
        .returned token (resolvedAt d s.cache settings now a) :: use token := rfl
  rw [hevents]
  cases (resolveToken d s.cache settings now a).1 with
  -- an error returns nothing and sends nothing
  | error e => exact iff_of_true nofun fun _ => ⟨nofun, nofun⟩
  | ok token =>
      -- the token that was returned comes first, then what is done with it
      constructor
      · intro h token'
        exact ⟨fun heq => (Except.ok.inj heq) ▸ h _ (.head _),
          fun heq e he => h e (.tail _ ((Except.ok.inj heq).symm ▸ he))⟩
      · intro h e he
        rcases List.mem_cons.1 he with rfl | he
        · exact (h token).1 rfl
        · exact (h token).2 rfl e he

/-- The token of a call was obtained for its organization, unless it was found and is another's. -/
theorem resolved_own_iff :
    (∀ token, (resolveToken d s.cache settings now a).1 = .ok token →
      (settings.team, token) ∈ obtainedAfter d s settings now a) ↔
      FindsOwn d s settings.team now := by
  unfold FindsOwn obtainedAfter
  rcases @resolveToken_cases d s.cache settings a now with
    ⟨token, hcached, hresolved⟩ | ⟨token, hcached, hsign, hresolved⟩ | ⟨e, hcached, hsign, hresolved⟩
  · rw [hresolved, hcached]
    constructor
    · rintro hown _ ⟨⟩
      exact hown token rfl
    · rintro hown _ ⟨⟩
      exact hown token rfl
  · rw [hresolved, hcached, hsign]
    refine iff_of_true ?_ nofun
    rintro _ ⟨⟩
    exact .head _
  · rw [hresolved, hcached]
    exact iff_of_true nofun nofun

theorem extractJwtFromHtml_trim {html : Text} (h : extractJwtFromHtml d html = some token) :
    trim token = token := by
  unfold extractJwtFromHtml at h
  obtain ⟨rest, -, h⟩ := Option.bind_eq_some_iff.1 h
  dsimp only at h
  split_ifs at h
  cases h
  exact trim_trim _

/-- The token of an accepted code is trimmed. -/
theorem submitCode_trim {code : Text} {confirmed : Except AetherError (UInt16 × Text)}
    (h : submitCode d code confirmed = .ok (.token token)) : trim token = token := by
  unfold submitCode at h
  split_ifs at h with hcode
  · cases h
  · obtain e | ⟨status, body⟩ := confirmed
    · cases h
    · change (match extractJwtFromHtml d body with
        | some token => Except.ok (CodeOutcome.token token)
        | none => .ok (.rejected status)) = .ok (.token token) at h
      cases hhtml : extractJwtFromHtml d body with
      | none => rw [hhtml] at h; cases h
      | some found =>
          rw [hhtml] at h
          cases h
          exact extractJwtFromHtml_trim hhtml

/-- What is stored is good. -/
theorem storeToken_ok {cache' : Option Text} (h : storeToken d cache token now = (.ok (), cache')) :
    jwtExpired d (trim token) now = false := by
  unfold storeToken at h
  dsimp only at h
  split_ifs at h with hjwt hexpired
  · cases h
  · cases h
  · cases h
    simpa using hexpired

/-- **One call**: what it returns and sends is proper exactly when it meets its condition. -/
theorem op_proper_iff (op : Op) :
    (∀ e ∈ (step d s op).2, e.Proper d (step d s op).1) ↔ op.Meets d s := by
  cases op with
  -- a call that only asks uses the token for nothing
  | resolve settings now a =>
      refine resolveStep_proper_iff.trans (and_iff_left fun token _ => ?_)
      exact nofun
  | provision settings now a =>
      -- the token is sent once, so its one event is proper when the token is for the team
      refine resolveStep_proper_iff.trans (and_congr_right fun _ => ?_)
      rw [← resolved_own_iff]
      refine forall₂_congr fun token _ => ?_
      exact List.forall_mem_singleton
  | submit team code confirmed now =>
      refine iff_of_true ?_ trivial
      -- a code is kept only when the store took it, and that check is the condition
      dsimp only [step]
      split
      · rename_i token hcode
        cases hstored : storeToken d s.cache token now with
        | mk r cache =>
            cases r with
            | error e => exact nofun
            | ok _ =>
                have hgood := storeToken_ok hstored
                rw [submitCode_trim hcode] at hgood
                exact List.forall_mem_singleton.2 hgood
      · exact nofun
  | store team token now => exact iff_of_true nofun trivial
  | clear => exact iff_of_true nofun trivial
  | current now =>
      -- what the cache gives is good for its team and its time
      refine iff_of_true ?_ trivial
      dsimp only [step]
      cases hcached : cachedToken d s.cache now with
      | none => exact nofun
      | some token => exact List.forall_mem_singleton.2 (cachedToken_good hcached)

/-- **When every token goes to its organization and is good.**  From any state, and whatever is called
in whatever order: exactly when every registration finds no good token that is another
organization's, and no sign-in is answered with a token that has expired. -/
theorem tokens_proper_iff (d : Decoding) (s : State) (ops : List Op) :
    Proper d s ops ↔ Meets d s ops := by
  induction ops generalizing s with
  | nil => exact Iff.rfl
  | cons op ops ih => exact and_congr (op_proper_iff op) (ih _)

end Proofs

/-! ## A token of one organization, and a token that has expired -/

section Kept

/-- `{"alg":"ES256"}`. -/
def tokenHeader : Text :=
  "eyJhbGciOiJFUzI1NiJ9".toList

/-- `{"exp":9}`. -/
def tokenPayload : Text :=
  "eyJleHAiOjl9".toList

def tokenBytes : Bytes :=
  [0x7b, 0x22, 0x65, 0x78, 0x70, 0x22, 0x3a, 0x39, 0x7d]

/-- The decoding of the token's own segments. -/
def acmeDecoding : Decoding where
  segment segment :=
    if segment = tokenHeader then
      some [0x7b, 0x22, 0x61, 0x6c, 0x67, 0x22, 0x3a, 0x22, 0x45, 0x53, 0x32, 0x35, 0x36, 0x22, 0x7d]
    else if segment = tokenPayload then
      some tokenBytes
    else
      none
  exp payload := if payload = tokenBytes then some 9 else none

def acmeToken : Text :=
  tokenHeader ++ '.' :: tokenPayload ++ ".c2ln".toList

def globexSettings : TeamSettings where
  team := "globex".toList
  clientId := some "id".toList
  clientSecret := some "secret".toList

/-- A sign-in that is answered with the token, once that has expired. -/
def lateAnswer : SignIn where
  now := 10
  access := .ok ⟨["CF_Authorization=".toList ++ acmeToken], "302 Found", []⟩
  begun := .ok ()
  code _ := .error (.api "no code")
  confirmed _ := .error (.api "no answer")
  done := 10

/-- A token that was supplied for one organization registers a device in another; and a token that had
expired when it was fetched comes back. -/
theorem tokens_improper :
    ¬Proper acmeDecoding {} [.store "acme".toList acmeToken 1, .provision globexSettings 2 lateAnswer] ∧
      ¬Proper acmeDecoding {} [.resolve globexSettings 2 lateAnswer] := by
  constructor
  · rintro ⟨-, hsent, -⟩
    have hevent : Event.sent "globex".toList acmeToken ∈
        (step acmeDecoding (step acmeDecoding {} (.store "acme".toList acmeToken 1)).1
          (.provision globexSettings 2 lateAnswer)).2 := by
      decide
    have hobtained := hsent _ hevent
    revert hobtained
    unfold Event.Proper
    decide
  · rintro ⟨hreturned, -⟩
    have hevent : Event.returned acmeToken 10 ∈
        (step acmeDecoding {} (.resolve globexSettings 2 lateAnswer)).2 := by
      decide
    have hexpired := hreturned _ hevent
    revert hexpired
    unfold Event.Proper
    decide

end Kept

end Token
end Account
end AuroraVpn
