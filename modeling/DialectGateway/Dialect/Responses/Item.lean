/-
# Dialect.Responses.Item — output items of a response

A response is a list of output items. `Item.json` writes a finished item and
`Item.openingJson` the same item as it is announced, with nothing in it yet.
-/
import DialectGateway.Generation.Event
import DialectGateway.Sse.Frame

set_option autoImplicit false

namespace DialectGateway.Responses

inductive Item where
  | reasoning (id summary : String)
  | message (id text : String)
  | call (id callId name arguments : String)
  deriving DecidableEq, Repr

namespace Item

def id : Item → String
  | reasoning id _ => id
  | message id _ => id
  | call id .. => id

end Item

/-- The names of items, made from the response's name and the item's place. -/
def reasoningId (response : String) (place : Nat) : String :=
  "rs_" ++ response ++ "_" ++ Decimal.text place

def messageId (response : String) (place : Nat) : String :=
  "msg_" ++ response ++ "_" ++ Decimal.text place

def callItemId (response : String) (place : Nat) : String :=
  "fc_" ++ response ++ "_" ++ Decimal.text place

def partJson (text : String) : Json :=
  .record [("annotations", .list []), ("text", .text text), ("type", .text "output_text")]

def reasoningJson (id : String) (summary : List Json) : Json :=
  .record [("id", .text id), ("summary", .list summary), ("type", .text "reasoning")]

def messageJson (id status : String) (content : List Json) : Json :=
  .record [
    ("content", .list content),
    ("id", .text id),
    ("role", .text "assistant"),
    ("status", .text status),
    ("type", .text "message")]

def callJson (id callId name arguments status : String) : Json :=
  .record [
    ("arguments", .text arguments),
    ("call_id", .text callId),
    ("id", .text id),
    ("name", .text name),
    ("status", .text status),
    ("type", .text "function_call")]

namespace Item

def json : Item → Json
  | reasoning id summary =>
    reasoningJson id [.record [("text", .text summary), ("type", .text "summary_text")]]
  | message id text => messageJson id "completed" [partJson text]
  | call id callId name arguments => callJson id callId name arguments "completed"

def openingJson : Item → Json
  | reasoning id _ => reasoningJson id []
  | message id _ => messageJson id "in_progress" []
  | call id callId name _ => callJson id callId name "" "in_progress"

end Item

def usageJson (t : Tokens) : Json :=
  .record [
    ("input_tokens", .nat t.input.toNat),
    ("output_tokens", .nat t.output.toNat),
    ("total_tokens", .nat t.total.toNat)]

/-- What is known of a response at one moment. -/
structure Snapshot where
  id : String
  model : String
  created : Int64
  output : List Item
  usage : Option Tokens
  deriving DecidableEq, Repr

/-- A snapshot under a status, with the reason if the response is incomplete. -/
def Snapshot.json (s : Snapshot) (status : String) (incomplete : Option String) : Json :=
  .record ([
    ("created_at", .int s.created.toInt),
    ("id", .text s.id)] ++
    Json.optField "incomplete_details" incomplete (fun r => .record [("reason", .text r)]) ++ [
    ("model", .text s.model),
    ("object", .text "response"),
    ("output", .list (s.output.map Item.json)),
    ("status", .text status)] ++
    Json.optField "usage" s.usage usageJson)

end DialectGateway.Responses
