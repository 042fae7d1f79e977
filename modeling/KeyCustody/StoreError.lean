import KeyCustody.Text.Slashes

/-!
# Errors of the secrets store

The ways in which work on a secrets store fails.  Most of them are answers of
the store itself, told apart by their status; the rest arise before a request
reaches the store or after its answer has come back.

An error has a message for people and a status with which a service answers
when the error escapes it.
-/

namespace KeyCustody

inductive StoreError
  | invalidRequest (detail : String)
  | unauthorized (detail : String)
  | forbidden (detail : String)
  | pathNotFound (detail : String)
  | preconditionFailed (detail : String)
  | rateLimited (detail : String)
  | internal (detail : String)
  | notInitialized (detail : String)
  | badGateway (detail : String)
  | unavailable (detail : String)
  | unexpectedStatus (status : Nat) (detail : String)
  | network
  | serialization (detail : String)
  | configuration (detail : String)
  | background (detail : String)
  | sessionClosed
deriving DecidableEq, Repr

namespace StoreError

/-- The error that an unsuccessful answer of the store stands for. -/
def ofStatus (status : Nat) (detail : String) : StoreError :=
  match status with
  | 400 => .invalidRequest detail
  | 401 => .unauthorized detail
  | 403 => .forbidden detail
  | 404 => .pathNotFound detail
  | 412 => .preconditionFailed detail
  | 429 => .rateLimited detail
  | 500 => .internal detail
  | 501 => .notInitialized detail
  | 502 => .badGateway detail
  | 503 => .unavailable detail
  | _ => .unexpectedStatus status detail

/-- The error for a path that does not exist under a mount point.  The mount
point is shown without its outer slashes, the path as it was asked for. -/
def noSuchPath (mount path : String) : StoreError :=
  .pathNotFound (Text.trimSlashes mount ++ "/" ++ path)

def isPathNotFound : StoreError → Bool
  | .pathNotFound _ => true
  | _ => false

def message : StoreError → String
  | .invalidRequest detail => "Invalid request: " ++ detail
  | .unauthorized detail => "Vault authentication failed: " ++ detail
  | .forbidden detail => "Permission denied: " ++ detail
  | .pathNotFound detail => "Path not found: " ++ detail
  | .preconditionFailed detail => "Precondition failed: " ++ detail
  | .rateLimited detail => "Rate limit exceeded: " ++ detail
  | .internal detail => "Vault internal error: " ++ detail
  | .notInitialized detail => "Vault is not initialized: " ++ detail
  | .badGateway detail => "Bad gateway: " ++ detail
  | .unavailable detail => "Vault is down or sealed: " ++ detail
  | .unexpectedStatus status detail =>
      "Unexpected response: status " ++ toString status ++ ": " ++ detail
  | .network => "Network error communicating with Vault"
  | .serialization detail => "Serialization error: " ++ detail
  | .configuration detail => "Configuration error: " ++ detail
  | .background detail => "Background task failed: " ++ detail
  | .sessionClosed => "Vault session is closed"

/-- The status with which a service answers when the error escapes it.  A
conflict in the store is a conflict for the caller; failures of transport, of
the surroundings and of a store that is not ready are unavailability. -/
def httpStatus : StoreError → Nat
  | .invalidRequest _ => 400
  | .unauthorized _ => 401
  | .forbidden _ => 403
  | .pathNotFound _ => 404
  | .preconditionFailed _ => 409
  | .rateLimited _ => 429
  | .internal _ | .unexpectedStatus _ _ => 500
  | .badGateway _ => 502
  | .notInitialized _ | .unavailable _ | .network | .serialization _
  | .configuration _ | .background _ | .sessionClosed => 503

theorem isPathNotFound_ofStatus (status : Nat) (detail : String) :
    (ofStatus status detail).isPathNotFound = decide (status = 404) := by
  unfold ofStatus
  split <;> simp_all [isPathNotFound]

end StoreError

end KeyCustody
