/-
# Dialect.Chat — the chat dialect

Streams are stateless: every event that says something is one chunk, and the
sentinel ends the stream. Choices that say nothing are left out of a chunk.
-/
import DialectGateway.Generation.Reply
import DialectGateway.Sse.Frame

set_option autoImplicit false

namespace DialectGateway.Chat

def usageJson (t : Tokens) : Json :=
  .record [
    ("completion_tokens", .nat t.output.toNat),
    ("prompt_tokens", .nat t.input.toNat),
    ("total_tokens", .nat t.total.toNat)]

def fragmentJson (f : ToolFragment) : Json :=
  .record ([
    ("function", .record (
      Json.optField "arguments" f.arguments .text ++ Json.optField "name" f.name .text))] ++
    Json.optField "id" f.id .text ++
    [("index", .nat f.slot.toNat)] ++
    Json.optField "type" f.id (fun _ => .text "function"))

def deltaJson (c : Choice) : Json :=
  .record (
    Json.optField "content" c.content .text ++
    Json.optField "reasoning_content" c.reasoning .text ++
    Json.optField "role" c.role .text ++
    (if c.tools.isEmpty then [] else [("tool_calls", .list (c.tools.map fragmentJson))]))

def choiceJson (c : Choice) : Json :=
  .record [
    ("delta", deltaJson c),
    ("finish_reason", Json.optText (c.finish.map Finish.word)),
    ("index", .nat c.index.toNat)]

def chunkJson (e : Event) : Json :=
  .record ([
    ("choices", .list ((e.choices.filter (!·.isEmpty)).map choiceJson)),
    ("created", .int e.created.toInt),
    ("id", .text e.id),
    ("model", .text e.model),
    ("object", .text "chat.completion.chunk")] ++
    Json.optField "usage" e.usage usageJson)

/-- The frames of one event. -/
def frames (e : Event) : List Sse.Frame :=
  if e.isEmpty then [] else [.json none (chunkJson e)]

def faultJson (f : Fault) : Json :=
  .record [("error", .record [
    ("code", Json.optText f.code),
    ("message", .text f.message),
    ("type", .text f.kind)])]

def callJson (t : ToolCall) : Json :=
  .record [
    ("function", .record [("arguments", .text t.arguments), ("name", .text t.name)]),
    ("id", .text t.id),
    ("type", .text "function")]

def replyMessageJson (r : Reply) : Json :=
  .record (
    [("content", .text r.text)] ++
    Json.optField "reasoning_content" r.reasoning .text ++
    [("role", .text "assistant")] ++
    (if r.tools.isEmpty then [] else [("tool_calls", .list (r.tools.map callJson))]))

/-- The body of a reply; one without a reason to end says `stop`. -/
def replyJson (r : Reply) : Json :=
  .record [
    ("choices", .list [.record [
      ("finish_reason", .text ((r.finish.map Finish.word).getD "stop")),
      ("index", .nat 0),
      ("message", replyMessageJson r)]]),
    ("created", .int r.created.toInt),
    ("id", .text r.id),
    ("model", .text r.model),
    ("object", .text "chat.completion"),
    ("usage", usageJson r.usage)]

end DialectGateway.Chat
