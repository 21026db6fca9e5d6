/-
# Backend.Payload — a request as the backend is asked

The backend speaks the chat dialect: the system text is the first message unless
it is empty, and a stream is asked for with its token counts.
-/
import DialectGateway.Generation.Request
import DialectGateway.Json.Printer

set_option autoImplicit false

namespace DialectGateway.Backend

def messageJson (m : Message) : Json :=
  .record [("content", .text m.content), ("role", .text m.role)]

/-- The messages with the system text in front. -/
def conversation (r : Request) : List Message :=
  ((r.system.filter (!·.isEmpty)).toList.map fun s => ⟨"system", s⟩) ++ r.messages

def payload (r : Request) : Json :=
  .record (
    Json.optField "max_tokens" r.maxTokens (fun n => .nat n.toNat) ++ [
    ("messages", .list ((conversation r).map messageJson)),
    ("model", .text r.model),
    ("stream", .bool r.stream)] ++
    (if r.stream then [("stream_options", .record [("include_usage", .bool true)])] else []) ++
    Json.optField "temperature" r.temperature (fun x => .real x.toDouble) ++
    (if r.tools.isEmpty then [] else [("tools", .list r.tools)]))

end DialectGateway.Backend
