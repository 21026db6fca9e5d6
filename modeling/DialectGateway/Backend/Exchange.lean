/-
# Backend.Exchange — one request to the backend and what it comes to

A request goes to the completions path under the backend's address. Any status
that is not a success is the backend's fault, told with the status as code. A
successful reply is an event stream if one was asked for, else one body; a body
with a member `error` is a fault whatever stands in it.
-/
import DialectGateway.Backend.Completion
import DialectGateway.Backend.EventReader
import DialectGateway.Backend.Payload
import DialectGateway.Failure
import DialectGateway.Text.Excerpt

set_option autoImplicit false

namespace DialectGateway.Backend

/-- Where the backend is and how it is spoken to. -/
structure Address where
  base : String
  key : Option String := none
  deriving DecidableEq, Repr

/-- The address of completions; slashes at the end of the base do not count. -/
def Address.endpoint (a : Address) : String :=
  String.ofList (a.base.toList.reverse.dropWhile (· == '/')).reverse ++ "/chat/completions"

/-- A text that a header line can hold: no control characters but the tab. -/
def fitsHeader (s : String) : Bool := s.toList.all fun c => c == '\t' || (' ' ≤ c && c != '\x7f')

/-- The credentials sent along, unless the key fits no header. -/
def Address.authorization? (a : Address) : Except Failure (Option String) :=
  match a.key with
  | none => .ok none
  | some key =>
    if fitsHeader key then .ok (some ("Bearer " ++ key))
    else .error (.exchange "failed to parse header value")

/-- What comes back for a request that was sent. -/
inductive Transport where
  | unreachable
  | timedOut
  | replied (status : Nat) (body : List Arrival)
  deriving DecidableEq, Repr

/-- The bytes of a whole body, unless it broke off. -/
def wholeBody? : List Arrival → Option (List UInt8)
  | [] => some []
  | .piece bytes :: rest => (wholeBody? rest).map (bytes ++ ·)
  | .broken _ :: _ => none

/-- A text without the byte order mark it may begin with. -/
def withoutMark : List Char → List Char
  | '\uFEFF' :: cs => cs
  | cs => cs

/-- The fault of a reply without success. A body that broke off counts as empty. -/
def refusal (status : Nat) (arrivals : List Arrival) : Fault :=
  let text := withoutMark (Text.Utf8.decodeLossy ((wholeBody? arrivals).getD []))
  let body := (Json.ofChars? text).getD .null
  ⟨(errorMessage? body).getD (String.ofList (Text.errorExcerpt text)), errorKind body,
    some (Decimal.text status)⟩

/-- One reply, read as a whole. -/
def single (body : Json) : Except Failure Reply :=
  if (body.get? "error").isSome then .error (.backend ⟨errorMessage body, errorKind body, none⟩)
  else .ok (replyOf body)

inductive Answer where
  | single (reply : Reply)
  | stream (arrivals : List Arrival)
  deriving DecidableEq, Repr

def answer (stream : Bool) : Transport → Except Failure Answer
  | .unreachable => .error (.exchange "error sending request")
  | .timedOut => .error .timeout
  | .replied status arrivals =>
    if status < 200 || 299 < status then .error (.backend (refusal status arrivals))
    else if stream then .ok (.stream arrivals)
    else
      match (wholeBody? arrivals).bind Json.ofBytes? with
      | some body => (single body).map .single
      | none => .error (.exchange "error decoding response body")

/-- The whole exchange, given what the transport makes of the request. -/
def exchange (a : Address) (r : Request) (transport : Transport) : Except Failure Answer := do
  let _ ← a.authorization?
  answer r.stream transport

end DialectGateway.Backend
