/-
# Delivery.Outcome — how a delivered stream ended
-/

set_option autoImplicit false

namespace DialectGateway.Delivery

inductive Outcome where
  /-- The backend had no more events, and everything owed was written. -/
  | completed
  | backendError (message : String)
  | refused (message : String)
  /-- The reading side went away. -/
  | disconnected
  /-- Somebody else stopped the stream while the reading side was still there. -/
  | cancelled
  | panicked (message : String)
  deriving DecidableEq, Repr

namespace Outcome

def isSuccess : Outcome → Bool
  | completed => true
  | _ => false

def label : Outcome → String
  | completed => "completed"
  | backendError _ => "backend_error"
  | refused _ => "transcode_error"
  | disconnected => "client_disconnected"
  | cancelled => "cancelled"
  | panicked _ => "panicked"

def message? : Outcome → Option String
  | completed => none
  | backendError m | refused m | panicked m => some m
  | disconnected => some "client disconnected"
  | cancelled => some "cancelled"

theorem message?_eq_none_iff (o : Outcome) : o.message? = none ↔ o.isSuccess = true := by
  cases o <;> simp [message?, isSuccess]

end Outcome
end DialectGateway.Delivery
