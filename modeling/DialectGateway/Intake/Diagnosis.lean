/-
# Intake.Diagnosis — what is wrong with a body that no reader takes

The shapes of the three bodies, field by field in the order in which a body may
list its values. Where a value has several forms the readers themselves tell
whether it has one of them.
-/
import DialectGateway.Generation.Dialect
import DialectGateway.Intake.Body
import DialectGateway.Intake.Shape

set_option autoImplicit false

namespace DialectGateway.Intake

namespace Shape

def contentForm (name : String) : Shape := .form name fun t => (content? t).isSome

def message : Shape :=
  .record "Message" [("role", true, .text), ("content", false, contentForm "MessageContent")]

def chatBody : Shape :=
  .record "ChatCompletionRequest" [
    ("model", false, .text),
    ("messages", false, .list message),
    ("stream", false, .flag),
    ("max_tokens", false, .nullable .word),
    ("max_completion_tokens", false, .nullable .word),
    ("temperature", false, .nullable .single),
    ("tools", false, .list .any)]

def responsesBody : Shape :=
  .record "ResponsesRequest" [
    ("model", false, .text),
    ("input", false, .nullable (.form "ResponsesInput" fun t => (input? t).isSome)),
    ("instructions", false, .nullable .text),
    ("stream", false, .flag),
    ("max_output_tokens", false, .nullable .word),
    ("temperature", false, .nullable .single),
    ("tools", false, .list .any)]

def messagesBody : Shape :=
  .record "MessagesRequest" [
    ("model", false, .text),
    ("messages", false, .list message),
    ("system", false, .nullable (contentForm "SystemPrompt")),
    ("stream", false, .flag),
    ("max_tokens", false, .nullable .word),
    ("temperature", false, .nullable .single),
    ("tools", false, .list .any)]

/-- The shape of bodies in a dialect. -/
def ofBody : Dialect → Shape
  | .chat => chatBody
  | .responses => responsesBody
  | .messages => messagesBody

end Shape

/-- The first thing wrong with a body, and where. -/
def diagnosis (dialect : Dialect) (body : List UInt8) : String :=
  (((Shape.ofBody dialect).trouble? (Json.depthLimit + 1) body).map (·.text)).getD ""

end DialectGateway.Intake
