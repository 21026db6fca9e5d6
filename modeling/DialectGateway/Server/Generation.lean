/-
# Server.Generation — a request for generation

The request is begun before its body is read. A body that asks for nothing, and a
backend that fails, are answered with the failure in the client's dialect. A reply
given all at once is rendered; a stream is opened and goes on by itself. Whatever
happens the request is closed, now or when its stream is over; only a request
whose handling broke leaves no record.
-/
import DialectGateway.Delivery.Recorder
import DialectGateway.Intake.Request
import DialectGateway.Server.Answer
import DialectGateway.Server.State

set_option autoImplicit false

namespace DialectGateway

/-- The label of a request that ended with this failure. -/
def Failure.label : Failure → String
  | .badRequest _ => "bad_request"
  | .unauthorized => "unauthorized"
  | .backend _ | .exchange _ => "backend_error"
  | .refused .. | .unframed _ => "transcode_error"
  | .timeout => "timeout"
  | _ => "internal_error"

namespace Server

open Delivery (Ending Live Origin Script Timing)

/-- What a backend does with a request. -/
inductive Reaction where
  | single (reply : Reply)
  | stream (script : Script)
  | failed (failure : Failure)
  /-- Handling the request broke. -/
  | broke
  deriving Repr

/-- What the gateway cannot know by itself. -/
structure Surroundings where
  /-- Fresh ids, by number. -/
  mint : Nat → String
  /-- A fresh id for the request. -/
  requestId : String
  /-- The clock that never goes back. -/
  uptime : Nat
  timing : Timing
  backend : Request → Reaction

/-- What a request comes to. -/
structure Served where
  answer : Answer
  state : State
  /-- What the backend was asked. -/
  asked : Option Request := none

/-- What a client is told when handling its request broke. -/
def breakdown : Failure := .internal "Internal server error"

/-- What handling a request leads to: an answer and the end that it stands for, or a
stream that is still to end. -/
inductive Fate where
  | answered (answer : Answer) (ending : Ending)
  | streamed (live : Live) (origin : Origin)
  | broke

/-- A failure is the answer. -/
def Fate.failed (o : Origin) (stream : Bool) (f : Failure) : Fate :=
  .answered (.failure f o.dialect) (.failed o stream f.label f.message)

variable {D : Type}

/-- What the backend's reaction leads to. -/
def Reaction.fate (setup : Setup D) (mint : Nat → String) (o : Origin) (stream : Bool) :
    Reaction → Fate
  | .failed f => .failed o stream f
  | .single reply => .answered (.json (o.dialect.replyJson reply) 200) (.completed o stream)
  | .stream script => .streamed (.ofScript mint o.dialect setup.buffer script) o
  | .broke => .broke

/-- What handling a request leads to, and what the backend is asked. -/
def handle (setup : Setup D) (around : Surroundings) (dialect : Dialect) (requestId : String)
    (body : List UInt8) : Fate × Option Request :=
  let origin (model : String) : Origin := ⟨requestId, dialect, model, setup.platform⟩
  match Intake.requestOf dialect body with
  | .error objection => (.failed (origin "") false objection.failure, none)
  | .ok request =>
    ((around.backend request).fate setup around.mint (origin request.model) request.stream,
      some request)

/-- A request for generation that was let in. -/
def generate (setup : Setup D) (around : Surroundings) (s : State) (dialect : Dialect)
    (requestId : String) (body : List UInt8) : Served :=
  let s := s.begin around.uptime
  match handle setup around dialect requestId body with
  | (.answered answer ending, asked) => ⟨answer, s.close ending around.timing, asked⟩
  | (.streamed live origin, asked) =>
    let (place, s) := s.launch ⟨live, origin, false⟩
    ⟨.stream place, s, asked⟩
  | (.broke, asked) => ⟨.failure breakdown dialect, s.release, asked⟩

end Server
end DialectGateway
