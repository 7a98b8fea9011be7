import AuroraVpn.Account.Budget
import AuroraVpn.Account.Load
import AuroraVpn.Lib.Program

/-!
# Calls — what the account code asks of the clock, the network and the files

The functions of `account.rs` and `lib.rs` that provision an identity are programs over the calls
below.  A load is one call; so is a write, which leaves the old file or the new one.
`effects` says what each call may be answered, and keeps what the network said.
-/

namespace AuroraVpn
namespace Account

open Program

/-! ## Answers of the network -/

/-- What a request to the account api is about. -/
inductive Request
  | register
  | registerTeam
  | fetchDevice (id : Text)
  | enrollKey (id : Text)
  deriving DecidableEq, Repr

def Request.label : Request → String
  | .register => "registration"
  | .registerTeam => "team registration"
  | .fetchDevice _ => "device refresh"
  | .enrollKey _ => "key enrollment"

structure HttpAnswer where
  status : UInt16
  /-- The `Retry-After` header, where there is one that is text. -/
  retryAfter : Option Text
  body : Text
  deriving DecidableEq, Repr

/-- What one request over the direct route comes to. -/
inductive DirectTry
  | proxyUnusable (message : String)
  | notBuilt (message : String)
  | notCompleted (message : String)
  /-- An answer whose body could not be read. -/
  | cut (answer : HttpAnswer) (message : String)
  | answered (answer : HttpAnswer)
  deriving DecidableEq, Repr

def DirectTry.heard : DirectTry → List HttpAnswer
  | .cut answer _ => [answer]
  | .answered answer => [answer]
  | _ => []

/-- An account as the api describes it, as far as the engine reads it. -/
structure AccountData where
  id : Text
  token : Text := []
  interfaceV4 : Text := []
  interfaceV6 : Text := []
  /-- The public key and the v4 endpoint of each peer. -/
  peers : List (Text × Text) := []
  clientId : Text := []
  httpProxy : Text := []
  organization : Text := []
  deriving DecidableEq, Repr

/-! ## Calls -/

inductive Call
  | now
  | lock
  | sleep
  | send (request : Request)
  | candidates
  | exchange (request : Request)
  | resolveToken
  | wgKeypair
  | masqueKeypair
  | load (storePath : Text) (legacy : List (Slot × Text))
  | writePrivate (path contents : Text)
  | siblings (path : Text)
  | read (path : Text)

namespace Call

abbrev Answer : Call → Type
  | .now => UInt64
  | .lock => Unit
  | .sleep => Unit
  | .send _ => DirectTry
  | .candidates => Nat
  | .exchange _ => Except String HttpAnswer
  | .resolveToken => Except String Text
  | .wgKeypair => List.Vector UInt8 32
  | .masqueKeypair => Except String (Text × Text)
  | .load _ _ => Loaded
  | .writePrivate _ _ => Except AetherError Unit
  | .siblings _ => List (Text × Identity)
  | .read _ => Option Text

/-- The calls at which a future may be dropped. -/
def isAwait : Call → Bool
  | .lock | .sleep | .send _ | .candidates | .exchange _ | .resolveToken => true
  | _ => false

end Call

abbrev Calls : Interface where
  Call := Call
  Answer := Call.Answer

abbrev Task (α : Type) := Program.Task Calls AetherError α

def ask (c : Call) : Task c.Answer :=
  Program.ask (I := Calls) c

/-- A result that was worked out without asking. -/
def liftExcept {α : Type} (r : Except AetherError α) : Task α :=
  ExceptT.mk (pure r)

/-- A function that takes the store by `&mut`. -/
abbrev StoreTask (α : Type) := Program.Mut Calls Store AetherError α

/-- What the provisioning code takes from its surroundings and does not change. -/
structure Env where
  fmt : Formats
  /-- `serde_json::from_str`. -/
  json : Text → Except String AccountData
  /-- `describe_rejection`. -/
  describe : UInt16 → Text → String
  /-- Whether a Zero Trust team is configured. -/
  team : Bool
  /-- `AETHER_REPROVISION` is not switched off. -/
  keepSavedIdentity : Bool

/-! ## Effects -/

@[ext]
structure World where
  disk : Disk
  /-- What the clock said so far. -/
  times : List UInt64
  /-- The answers of the network so far, with the requests they answer. -/
  heard : List (Request × HttpAnswer)

/-- The clock was asked. -/
def World.tick (w : World) (now : UInt64) : World :=
  { w with times := w.times ++ [now] }

def World.hear (w : World) (request : Request) (answers : List HttpAnswer) : World :=
  { w with heard := w.heard ++ answers.map fun answer => (request, answer) }

/-- What a call may be answered in a world, and the world it leaves. -/
def effects (fmt : Formats) : Effects Calls World
  | .now, w, t, w' => w' = w.tick t
  | .send request, w, x, w' => w' = w.hear request x.heard
  | .exchange request, w, x, w' => w' = w.hear request x.toOption.toList
  | .load storePath legacy, w, loaded, w' =>
      ∃ o, (loaded, w'.disk) = load fmt o storePath legacy w.disk ∧
        w'.times = w.times ∧ w'.heard = w.heard
  | .writePrivate path contents, w, r, w' =>
      ∃ o, (r, w'.disk) = writePrivate o path contents w.disk ∧
        w'.times = w.times ∧ w'.heard = w.heard
  | .siblings path, w, found, w' =>
      (∀ file ∈ found, file.1 ≠ path ∧ peek fmt w.disk file.1 = some file.2) ∧ w' = w
  | .read path, w, text, w' => text = w.disk path ∧ w' = w
  | .candidates, w, n, w' => 3 ≤ n ∧ n ≤ 5 ∧ w' = w
  | .lock, w, _, w' | .sleep, w, _, w' | .resolveToken, w, _, w' | .wgKeypair, w, _, w'
  | .masqueKeypair, w, _, w' => w' = w

/-- A load all of whose writes land. -/
def allWell : LoadOutcome where
  setAside := true
  write := .written
  readBack := true
  removed := true

/-- Surroundings with a clock that stands still, in which every write lands and the camouflaged
route is shut. -/
def surroundings (fmt : Formats) (now : UInt64) (direct : Request → DirectTry) :
    (c : Call) → World → c.Answer × World
  | .now, w => (now, w.tick now)
  | .send request, w => (direct request, w.hear request (direct request).heard)
  | .exchange _, w => (.error "connection refused", w)
  | .candidates, w => (3, w)
  | .resolveToken, w => (.ok [], w)
  | .wgKeypair, w => (List.Vector.replicate 32 0, w)
  | .masqueKeypair, w => (.ok ([], []), w)
  | .load storePath legacy, w =>
      let (loaded, disk) := load fmt allWell storePath legacy w.disk
      (loaded, { w with disk := disk })
  | .writePrivate path contents, w =>
      let (r, disk) := writePrivate .written path contents w.disk
      (r, { w with disk := disk })
  | .siblings _, w => ([], w)
  | .read path, w => (w.disk path, w)
  | .lock, w | .sleep, w => ((), w)

theorem surroundings_effects (fmt : Formats) (now : UInt64) (direct : Request → DirectTry) (c : Call)
    (w : World) : effects fmt c w (surroundings fmt now direct c w).1
      (surroundings fmt now direct c w).2 := by
  cases c with
  | exchange request => simp [effects, surroundings, World.hear, Except.toOption]
  | load storePath legacy => exact ⟨_, rfl, rfl, rfl⟩
  | writePrivate path contents => exact ⟨.written, rfl, rfl, rfl⟩
  | candidates => exact ⟨Nat.le_refl 3, Nat.le_add_right 3 2, rfl⟩
  | siblings path => exact ⟨fun _ h => (List.not_mem_nil h).elim, rfl⟩
  | read path => exact ⟨rfl, rfl⟩
  | _ => rfl

end Account
end AuroraVpn
