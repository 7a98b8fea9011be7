/-!
# Basic — bytes, texts and the errors of the crate

The cases of `AetherError` and of `std::io::ErrorKind` are those the modelled functions build or
look at.
-/

namespace AuroraVpn

abbrev Bytes := List UInt8

/-- A Rust `String`, as its characters. -/
abbrev Text := List Char

instance lawfulBEqText : LawfulBEq Text := inferInstance

section Decide

variable (p : Char → Prop) [DecidablePred p] (t : Text)

/-- The characters of a text are looked at one by one. -/
instance decidableForallMem : Decidable (∀ c ∈ t, p c) :=
  List.decidableBAll p t

instance decidableExistsMem : Decidable (∃ c ∈ t, p c) :=
  List.decidableBEx p t

end Decide

inductive IoErrorKind
  | unexpectedEof
  | brokenPipe
  | permissionDenied
  | connectionRefused
  | timedOut
  | other
  deriving DecidableEq, Repr

inductive AetherError
  | io (kind : IoErrorKind)
  | quic (message : String)
  | h3 (message : String)
  | tls (message : String)
  | ech (message : String)
  | masque (message : String)
  | noCleanEndpoint
  | capsule (message : String)
  | api (message : String)
  | identityRefused (message : String)
  | rateLimited (reason : String) (retryAfter : Option UInt64)
  | registrationOnHold (reason : String) (wait : UInt64)
  | other (message : String)
  deriving DecidableEq, Repr

/-- The text of `std::io::ErrorKind`. -/
def IoErrorKind.description : IoErrorKind → String
  | .unexpectedEof => "unexpected end of file"
  | .brokenPipe => "broken pipe"
  | .permissionDenied => "permission denied"
  | .connectionRefused => "connection refused"
  | .timedOut => "timed out"
  | .other => "other error"

def AetherError.display : AetherError → String
  | .io kind => "io: " ++ kind.description
  | .quic message => "quic: " ++ message
  | .h3 message => "h3: " ++ message
  | .tls message => "tls: " ++ message
  | .ech message => "ech: " ++ message
  | .masque message => "masque: " ++ message
  | .noCleanEndpoint => "prober: no clean endpoint found"
  | .capsule message => "capsule: " ++ message
  | .api message => "api: " ++ message
  | .identityRefused message => "identity refused: " ++ message
  | .rateLimited reason _ => "api: " ++ reason
  | .registrationOnHold reason wait =>
      "registration is on hold for another " ++ toString wait ++ "s: " ++ reason
  | .other message => "other: " ++ message

/-- The wait Cloudflare asked for, where an error carries one. -/
def AetherError.retryAfter : AetherError → Option UInt64
  | .rateLimited _ retryAfter => retryAfter
  | _ => none

end AuroraVpn
