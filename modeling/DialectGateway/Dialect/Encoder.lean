/-
# Dialect.Encoder — one stream in any dialect
-/
import DialectGateway.Dialect.Chat
import DialectGateway.Dialect.Responses.Encoder
import DialectGateway.Dialect.Responses.Body
import DialectGateway.Dialect.Messages.Encoder
import DialectGateway.Dialect.Messages.Body

set_option autoImplicit false

namespace DialectGateway

/-- The encoder of one stream. -/
inductive Encoder where
  | chat
  | responses (e : Responses.Encoder)
  | messages (e : Messages.Encoder)

namespace Encoder

/-- The encoder of a new stream; `mint` names what the backend leaves unnamed. -/
def fresh (mint : Nat → String) : Dialect → Encoder
  | .chat => .chat
  | .responses => .responses { spareId := mint 0 }
  | .messages => .messages { mint }

def dialect : Encoder → Dialect
  | chat => .chat
  | responses _ => .responses
  | messages _ => .messages

/-- The frames of one event, or why the dialect cannot express it. -/
def feed (e : Encoder) (event : Event) : Encoder × Except Refusal (List Sse.Frame) :=
  match e with
  | chat => (chat, .ok (Chat.frames event))
  | responses e =>
    let (e, result) := e.feed event
    (responses e, result.map (·.map Responses.Frame.toSse))
  | messages e =>
    let (e, result) := e.feed event
    (messages e, result.map (·.map Messages.Frame.toSse))

/-- The frames owed when the backend has no more events. -/
def close : Encoder → Encoder × List Sse.Frame
  | chat => (chat, [])
  | responses e =>
    let (e, frames) := e.close
    (responses e, frames.map Responses.Frame.toSse)
  | messages e =>
    let (e, frames) := e.close
    (messages e, frames.map Messages.Frame.toSse)

/-- The frame that tells of a fault. -/
def faultFrame (f : Fault) : Encoder → Sse.Frame
  | chat => .json none (Chat.faultJson f)
  | responses e => Responses.faultFrame f e.counters.nextSequence
  | messages _ => Messages.faultFrame f

/-- The sentinel, in the dialects that have one. -/
def sentinel (e : Encoder) : List Sse.Frame :=
  if e.dialect.hasSentinel then [.done] else []

end Encoder

namespace Dialect

/-- The body of a reply. -/
def replyJson : Dialect → Reply → Json
  | .chat => Chat.replyJson
  | .responses => Responses.replyJson
  | .messages => Messages.replyJson

/-- The body of a fault. -/
def faultJson : Dialect → Fault → Json
  | .chat, f => Chat.faultJson f
  | .responses, f => Responses.faultJson f none
  | .messages, f => Messages.faultJson f

end Dialect
end DialectGateway
