/-
# Dialect.Responses.Body — whole bodies of the responses dialect
-/
import DialectGateway.Dialect.Responses.Frame
import DialectGateway.Generation.Reply

set_option autoImplicit false

namespace DialectGateway.Responses

/-- The body of a fault; in a stream it has the next sequence number. -/
def faultJson (f : Fault) (sequence : Option Nat) : Json :=
  .record ([
    ("code", .text (f.code.getD f.kind)),
    ("message", .text f.message),
    ("param", .null)] ++
    Json.optField "sequence_number" sequence .nat ++
    [("type", .text "error")])

def faultFrame (f : Fault) (sequence : Nat) : Sse.Frame := .json none (faultJson f (some sequence))

/-- The output items of a reply, each still to be told its place: the reasoning,
the message, then the tool calls. There is no message beside tool calls unless
it says something. -/
def itemsOf (r : Reply) : List (Nat → Item) :=
  (r.reasoning.toList.map fun s place => .reasoning (reasoningId r.id place) s) ++
  (if !r.text.isEmpty || r.tools.isEmpty then
    [fun place => .message (messageId r.id place) r.text] else []) ++
  (r.tools.map fun t place => .call (callItemId r.id place) t.id t.name t.arguments)

def replyItems (r : Reply) : List Item := (itemsOf r).zipIdx.map fun (item, place) => item place

def replyJson (r : Reply) : Json :=
  let status := match Shortfall.of? r.finish with
    | some _ => "incomplete"
    | none => "completed"
  Snapshot.json ⟨r.id, r.model, r.created, replyItems r, some r.usage⟩ status none

end DialectGateway.Responses
