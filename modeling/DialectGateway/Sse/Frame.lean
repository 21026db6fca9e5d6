/-
# Sse.Frame — one server-sent event and its wire form

A frame has a data text and, in some dialects, an event name. On the wire each
stands on a line of its own and a blank line ends the frame.
-/
import DialectGateway.Json.Tree
import DialectGateway.Json.Printer

set_option autoImplicit false

namespace DialectGateway.Sse

structure Frame where
  event : Option String
  data : String
  deriving DecidableEq, Repr

namespace Frame

/-- A frame whose data is a JSON value. -/
def json (event : Option String) (value : Json) : Frame := ⟨event, value.print⟩

/-- The sentinel that ends a stream in the dialects that have one. -/
def done : Frame := ⟨none, "[DONE]"⟩

def isDone (f : Frame) : Bool := f.event.isNone && f.data == "[DONE]"

/-- The event name, or else the text member `type` of the data. -/
def label (f : Frame) : Option String :=
  match f.event with
  | some event => some event
  | none => do
    let value ← Json.ofText? f.data
    let kind ← value.get? "type"
    kind.asText?

def eventLead : List Char := ['e', 'v', 'e', 'n', 't', ':']

def dataLead : List Char := ['d', 'a', 't', 'a', ':']

def wireChars (f : Frame) : List Char :=
  (match f.event with
    | some event => eventLead ++ ' ' :: event.toList ++ ['\n']
    | none => []) ++
  dataLead ++ ' ' :: f.data.toList ++ ['\n', '\n']

def wire (f : Frame) : String := String.ofList f.wireChars

end Frame
end DialectGateway.Sse
