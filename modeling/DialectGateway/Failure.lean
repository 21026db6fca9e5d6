/-
# Failure — why a request cannot be answered

A failure fixes the status of the answer and the fault that the answer tells in
the client's dialect. Failures at the backend tell the backend's own fault; the
other faults of the server itself carry their status as code.
-/
import DialectGateway.Dialect.Encoder

set_option autoImplicit false

namespace DialectGateway

inductive Failure where
  | settings (message : String)
  /-- The backend could not be asked, or broke off its answer. -/
  | exchange (message : String)
  | serialization (message : String)
  | unauthorized
  | badRequest (message : String)
  | backend (fault : Fault)
  /-- An event that the dialect cannot express. -/
  | refused (dialect : Dialect) (reason : String)
  /-- A frame that could not be written as JSON. -/
  | unframed (message : String)
  | timeout
  | internal (message : String)
  deriving DecidableEq, Repr

namespace Failure

def message : Failure → String
  | settings m => "Configuration error: " ++ m
  | exchange m => "HTTP request error: " ++ m
  | serialization m => "Serialization error: " ++ m
  | unauthorized => "Unauthorized"
  | badRequest m => "Bad request: " ++ m
  | backend fault => "Backend error: " ++ fault.message
  | refused dialect reason =>
    "Transcode error: unsupported event for " ++ dialect.name ++ ": " ++ reason
  | unframed m => "Transcode error: failed to serialize frame: " ++ m
  | timeout => "Gateway timeout"
  | internal m => "Internal server error: " ++ m

def status : Failure → Nat
  | settings _ | serialization _ | refused .. | unframed _ | internal _ => 500
  | unauthorized => 401
  | badRequest _ => 400
  | exchange _ | backend _ => 502
  | timeout => 504

/-- The fault that the client is told. -/
def fault (f : Failure) : Fault :=
  match f with
  | backend fault => fault
  | unauthorized => ⟨"Unauthorized", "authentication_error", none⟩
  | badRequest m => ⟨m, "invalid_request_error", none⟩
  | timeout => ⟨"Gateway timeout", "timeout_error", none⟩
  | other => ⟨other.message, "api_error", some (Decimal.text other.status)⟩

/-- The body that tells the failure in a dialect. -/
def json (f : Failure) (dialect : Dialect) : Json := dialect.faultJson f.fault

end Failure
end DialectGateway
