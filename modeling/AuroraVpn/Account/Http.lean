import AuroraVpn.Account.Calls
import AuroraVpn.Lib.IpAddr

/-!
# Http — requests to the account api

`send_with_retry`, `fallback_call`, `register`, `register_with_team`, `fetch_device` and
`enroll_key` of `account.rs`, and `fetch` of `apifront.rs`.  A request goes out over the direct
route up to five times, and then over the camouflaged one to several addresses under several
fingerprints.  Neither what is sent nor the lengths of the sleeps is modelled.
-/

namespace AuroraVpn
namespace Account

open IpAddr

/-! ## Answers -/

def API_ATTEMPTS : Nat := 5

def API_RETRY_AFTER_CAP_SECS : UInt64 := 30

/-- `str::trim` of the text of a header, which is ASCII. -/
def trimHeader (t : Text) : Text :=
  ((t.dropWhile fun c => c = ' ' ∨ c = '\t').reverse.dropWhile fun c => c = ' ' ∨ c = '\t').reverse

/-- `str::parse::<u64>`. -/
def parseU64 (t : Text) : Option UInt64 :=
  let digits := if t.head? = some '+' then t.tail else t
  match readNumber 10 digits.length (2 ^ 64) true digits with
  | some (n, []) => some (UInt64.ofNat n)
  | _ => none

/-- The wait that an answer names. -/
def namedWait (answer : HttpAnswer) : Option UInt64 :=
  answer.retryAfter.bind fun raw => parseU64 (trimHeader raw)

/-- The wait that is taken from an answer. -/
def retryAfter (answer : HttpAnswer) : Option UInt64 :=
  (namedWait answer).map fun seconds => min seconds API_RETRY_AFTER_CAP_SECS

def isSuccess (status : UInt16) : Bool :=
  200 ≤ status ∧ status < 300

def refusesIdentity (status : UInt16) : Bool :=
  status = 401 ∨ status = 404 ∨ status = 410

def worthRetrying (status : UInt16) : Bool :=
  status = 429 ∨ status = 408 ∨ (500 ≤ status ∧ status < 600)

variable (env : Env)

/-! ## The direct route -/

/-- The error that an answer which is no success stands for. -/
def rejection (request : Request) (answer : HttpAnswer) : AetherError :=
  let described := request.label ++ ": " ++ env.describe answer.status answer.body
  if refusesIdentity answer.status then .identityRefused described else .api described

/-- Out of attempts: a plain error becomes one that says when to ask again. -/
def exhausted (lastError : AetherError) (askedToWait : Option UInt64) : AetherError :=
  match lastError with
  | .api reason => .rateLimited reason askedToWait
  | e => e

def decodeAccount (request : Request) (answer : HttpAnswer) : Except AetherError AccountData :=
  (env.json answer.body).mapError fun e => .api (request.label ++ " decode: " ++ e)

/-- The wait before every attempt but the first. -/
def backoff (left : Nat) : Task Unit :=
  if left + 1 < API_ATTEMPTS then ask .sleep else pure ()

/-- One request over the direct route, which ends the attempts where it brings no answer. -/
def sendOnce (request : Request) : Task HttpAnswer := do
  match ← ask (.send request) with
  | .proxyUnusable message => throw (.other message)
  | .notBuilt message => throw (.api message)
  | .notCompleted message => throw (.api (request.label ++ ": " ++ message))
  | .cut _ message => throw (.api (request.label ++ ": " ++ message))
  | .answered answer => pure answer

/-- The attempts that are left, with the error of the last one and the wait that was asked for. -/
def sendLoop (request : Request) : Nat → AetherError → Option UInt64 → Task AccountData
  | 0, lastError, askedToWait => throw (exhausted lastError askedToWait)
  | n + 1, _, askedToWait => do
      backoff n
      let answer ← sendOnce request
      if isSuccess answer.status then
        liftExcept (decodeAccount env request answer)
      else if !worthRetrying answer.status then
        throw (rejection env request answer)
      else
        match retryAfter answer with
        | some wait => do
            ask .sleep
            sendLoop request n (rejection env request answer) (some wait)
        | none => sendLoop request n (rejection env request answer) askedToWait

def sendWithRetry (request : Request) : Task AccountData :=
  sendLoop env request API_ATTEMPTS (.api (request.label ++ ": no attempt was made")) none

/-! ## The camouflaged route -/

/-- The rejection to report: the last one that is not a mere 403, if there is one. -/
def keepRejection (kept : Option HttpAnswer) (answer : HttpAnswer) : Option HttpAnswer :=
  if kept.isNone ∨ answer.status ≠ 403 then some answer else kept

/-- The tries that are left, with the rejection and the failure kept so far. -/
def fetchLoop (request : Request) : Nat → Option HttpAnswer → Option String → Task HttpAnswer
  | 0, some answer, _ => pure answer
  | 0, none, failure => throw (.api (failure.getD "every camouflaged route failed"))
  | n + 1, kept, failure => do
      match ← ask (.exchange request) with
      | .ok answer =>
          if isSuccess answer.status then
            pure answer
          else
            fetchLoop request n (keepRejection kept answer) failure
      | .error e => fetchLoop request n kept (some e)

/-- `Fingerprint::all().len()`. -/
def FINGERPRINTS : Nat := 3

def fetch (request : Request) : Task HttpAnswer := do
  let addresses ← ask .candidates
  if addresses = 0 then
    throw (.api "no camouflaged route to the api was available")
  else
    fetchLoop request (FINGERPRINTS * addresses) none none

def fallbackCall (request : Request) : Task AccountData := do
  let response ← fetch request
  if isSuccess response.status then
    liftExcept (decodeAccount env request response)
  else
    throw (rejection env request response)

/-! ## Requests -/

/-- The direct route, and the camouflaged one where it fails.  What becomes of both errors is up to
the caller. -/
def withFallback (request : Request)
    (report : AetherError → AetherError → AetherError) : Task AccountData :=
  tryCatch (sendWithRetry env request) fun primary =>
    tryCatch (fallbackCall env request) fun secondary => throw (report primary secondary)

def bothRoutes (request : Request) (primary secondary : AetherError) : String :=
  request.label ++ ": direct route -> " ++ primary.display ++ "; camouflaged route -> " ++
    secondary.display

/-- How `register` reports two errors: a wait that either route was given survives. -/
def reportRegister (primary secondary : AetherError) : AetherError :=
  match primary.retryAfter.or secondary.retryAfter with
  | some wait => .rateLimited (bothRoutes .register primary secondary) (some wait)
  | none => .api (bothRoutes .register primary secondary)

def register : Task AccountData :=
  withFallback env .register reportRegister

def registerWithTeam : Task AccountData :=
  withFallback env .registerTeam fun primary secondary =>
    .api (bothRoutes .registerTeam primary secondary)

def enrollKey (id : Text) : Task AccountData :=
  withFallback env (.enrollKey id) fun primary secondary =>
    .api (bothRoutes (.enrollKey id) primary secondary)

/-- The error of the direct route is dropped. -/
def fetchDevice (id : Text) : Task AccountData :=
  withFallback env (.fetchDevice id) fun _ secondary => secondary

end Account
end AuroraVpn
