/-
# Backend.Complaint — what a backend says went wrong

Backends put a complaint into the member `error`: a record with a message and a
kind, or just a text; some put the message beside it. Whoever asks for the
message of a complaint without one is shown the whole body.
-/
import DialectGateway.Generation.Event
import DialectGateway.Json.Printer

set_option autoImplicit false

namespace DialectGateway.Backend

/-- The text under a key, if it is one. -/
def textAt (v : Json) (key : String) : Option String := (v.field key).asText?

def errorMessage? (body : Json) : Option String :=
  (textAt (body.field "error") "message").or
    ((textAt body "error").or (textAt body "message"))

/-- The kind of the complaint, or the one for complaints that have none. -/
def errorKind (body : Json) : String :=
  (textAt (body.field "error") "type").getD "upstream_error"

/-- The complaint's message, or the whole body in its place. -/
def errorMessage (body : Json) : String := (errorMessage? body).getD body.print

/-- A code as a text. -/
def codeText : Json → Option String
  | .null => none
  | .text s => some s
  | v => some v.print

/-- The complaint of a body, with the code it gives. -/
def faultOf (body : Json) : Fault :=
  ⟨errorMessage body, errorKind body, codeText ((body.field "error").field "code")⟩

end DialectGateway.Backend
