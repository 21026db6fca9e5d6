/-
# Dialect.Messages.Body — whole bodies of the messages dialect
-/
import DialectGateway.Dialect.Messages.Frame
import DialectGateway.Generation.Reply

set_option autoImplicit false

namespace DialectGateway.Messages

def faultJson (f : Fault) : Json :=
  .record [
    ("error", .record [("message", .text f.message), ("type", .text f.kind)]),
    ("type", .text "error")]

def faultFrame (f : Fault) : Sse.Frame := .json (some "error") (faultJson f)

/-- The input of a tool call: its arguments read as JSON, `{}` if they are none. -/
def inputOf (arguments : String) : Json := (Json.ofText? arguments).getD (.record [])

def toolBlock (t : ToolCall) : Json :=
  .record [
    ("id", .text t.id),
    ("input", inputOf t.arguments),
    ("name", .text t.name),
    ("type", .text "tool_use")]

def contentBlocks (r : Reply) : List Json :=
  (r.reasoning.toList.map fun s => .record [("thinking", .text s), ("type", .text "thinking")]) ++
  (if r.text.isEmpty then []
    else [.record [("text", .text r.text), ("type", .text "text")]]) ++
  r.tools.map toolBlock

def replyJson (r : Reply) : Json :=
  .record [
    ("content", .list (contentBlocks r)),
    ("id", .text r.id),
    ("model", .text r.model),
    ("role", .text "assistant"),
    ("stop_reason", .text (stopReason r.finish)),
    ("stop_sequence", .null),
    ("type", .text "message"),
    ("usage", usageJson r.usage.input r.usage.output)]

end DialectGateway.Messages
