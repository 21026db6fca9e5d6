/-
# Dialect.Responses.Frame — what a stream of the responses dialect says

Every frame has a sequence number. Frames about an item name it by id and place.
-/
import DialectGateway.Dialect.Responses.Item

set_option autoImplicit false

namespace DialectGateway.Responses

/-- The item that a frame is about: its id and its place in the output. -/
structure Subject where
  id : String
  place : UInt32
  deriving DecidableEq, Repr

/-- Why a response ended before it was complete. -/
inductive Shortfall where
  | length
  | contentFilter
  deriving DecidableEq, Repr

def Shortfall.word : Shortfall → String
  | length => "max_output_tokens"
  | contentFilter => "content_filter"

/-- The shortfall that a finish reason stands for, if any. -/
def Shortfall.of? : Option Finish → Option Shortfall
  | some .length => some .length
  | some .contentFilter => some .contentFilter
  | _ => none

inductive Notice where
  | created (response : Snapshot)
  | itemAdded (place : UInt32) (item : Item)
  | partAdded (of_ : Subject)
  | textDelta (of_ : Subject) (s : String)
  | textDone (of_ : Subject) (s : String)
  | partDone (of_ : Subject) (s : String)
  | summaryDelta (of_ : Subject) (s : String)
  | summaryDone (of_ : Subject) (s : String)
  | argumentsDelta (of_ : Subject) (s : String)
  | argumentsDone (of_ : Subject) (s : String)
  | itemDone (place : UInt32) (item : Item)
  | completed (response : Snapshot)
  | incomplete (response : Snapshot) (shortfall : Shortfall)
  deriving DecidableEq, Repr

structure Frame where
  sequence : Nat
  notice : Notice
  deriving DecidableEq, Repr

namespace Notice

def name : Notice → String
  | created _ => "response.created"
  | itemAdded .. => "response.output_item.added"
  | partAdded _ => "response.content_part.added"
  | textDelta .. => "response.output_text.delta"
  | textDone .. => "response.output_text.done"
  | partDone .. => "response.content_part.done"
  | summaryDelta .. => "response.reasoning_summary_text.delta"
  | summaryDone .. => "response.reasoning_summary_text.done"
  | argumentsDelta .. => "response.function_call_arguments.delta"
  | argumentsDone .. => "response.function_call_arguments.done"
  | itemDone .. => "response.output_item.done"
  | completed _ => "response.completed"
  | incomplete .. => "response.incomplete"

/-- The last notice of a stream. -/
def isTerminal : Notice → Bool
  | completed _ => true
  | incomplete .. => true
  | _ => false

end Notice

namespace Frame

def json (f : Frame) : Json :=
  let sequence := ("sequence_number", Json.nat f.sequence)
  let kind := ("type", Json.text f.notice.name)
  match f.notice with
  | .created r => .record [("response", r.json "in_progress" none), sequence, kind]
  | .itemAdded place item =>
    .record [("item", item.openingJson), ("output_index", .nat place.toNat), sequence, kind]
  | .partAdded s =>
    .record [("content_index", .nat 0), ("item_id", .text s.id),
      ("output_index", .nat s.place.toNat), ("part", partJson ""), sequence, kind]
  | .textDelta s text =>
    .record [("content_index", .nat 0), ("delta", .text text), ("item_id", .text s.id),
      ("output_index", .nat s.place.toNat), sequence, kind]
  | .textDone s text =>
    .record [("content_index", .nat 0), ("item_id", .text s.id),
      ("output_index", .nat s.place.toNat), sequence, ("text", .text text), kind]
  | .partDone s text =>
    .record [("content_index", .nat 0), ("item_id", .text s.id),
      ("output_index", .nat s.place.toNat), ("part", partJson text), sequence, kind]
  | .summaryDelta s text =>
    .record [("delta", .text text), ("item_id", .text s.id), ("output_index", .nat s.place.toNat),
      sequence, ("summary_index", .nat 0), kind]
  | .summaryDone s text =>
    .record [("item_id", .text s.id), ("output_index", .nat s.place.toNat), sequence,
      ("summary_index", .nat 0), ("text", .text text), kind]
  | .argumentsDelta s text =>
    .record [("delta", .text text), ("item_id", .text s.id), ("output_index", .nat s.place.toNat),
      sequence, kind]
  | .argumentsDone s text =>
    .record [("arguments", .text text), ("item_id", .text s.id),
      ("output_index", .nat s.place.toNat), sequence, kind]
  | .itemDone place item =>
    .record [("item", item.json), ("output_index", .nat place.toNat), sequence, kind]
  | .completed r => .record [("response", r.json "completed" none), sequence, kind]
  | .incomplete r shortfall =>
    .record [("response", r.json "incomplete" (some shortfall.word)), sequence, kind]

def toSse (f : Frame) : Sse.Frame := .json none f.json

end Frame
end DialectGateway.Responses
