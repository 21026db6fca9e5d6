/-
# Generation.Request — what a backend is asked

Every dialect's request becomes one of these: the conversation as plain texts
with the system text apart, the limits, and the tools in the chat dialect's form.
-/
import DialectGateway.Generation.Dialect
import DialectGateway.Json.Basic

set_option autoImplicit false

namespace DialectGateway

structure Message where
  role : String
  content : String
  deriving DecidableEq, Repr

structure Request where
  dialect : Dialect := .chat
  model : String := ""
  messages : List Message := []
  system : Option String := none
  stream : Bool := false
  maxTokens : Option UInt32 := none
  temperature : Option Decimal.Single := none
  tools : List Json := []
  deriving Repr

instance : Inhabited Request := ⟨{}⟩

end DialectGateway
