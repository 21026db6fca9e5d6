/-
# Dialect.Messages.Frame — what a stream of the messages dialect says

A stream is one message: its start, content blocks one after another, each with
a start, deltas and a stop, then the closing delta and the stop. Every frame
carries its kind twice, as event name and in the data.
-/
import DialectGateway.Generation.Event
import DialectGateway.Sse.Frame

set_option autoImplicit false

namespace DialectGateway.Messages

/-- How a content block begins. -/
inductive Opening where
  | text
  | thinking
  | tool (id name : String)
  deriving DecidableEq, Repr

/-- What a content block gains. -/
inductive Delta where
  | text (s : String)
  | thinking (s : String)
  | input (s : String)
  deriving DecidableEq, Repr

inductive Frame where
  | start (id model : String) (inputTokens : UInt32)
  | blockStart (index : UInt32) (opening : Opening)
  | blockDelta (index : UInt32) (delta : Delta)
  | blockStop (index : UInt32)
  | ending (stopReason : String) (usage : Tokens)
  | stop
  deriving DecidableEq, Repr

/-- The stop reason of a finish; reasons unknown to the dialect pass as they are. -/
def stopReason : Option Finish → String
  | none | some .stop => "end_turn"
  | some .length => "max_tokens"
  | some .toolCalls => "tool_use"
  | some .contentFilter => "refusal"
  | some (.other reason) => reason

def usageJson (input output : UInt32) : Json :=
  .record [("input_tokens", .nat input.toNat), ("output_tokens", .nat output.toNat)]

def Opening.json : Opening → Json
  | .text => .record [("text", .text ""), ("type", .text "text")]
  | .thinking => .record [("thinking", .text ""), ("type", .text "thinking")]
  | .tool id name =>
    .record [("id", .text id), ("input", .record []), ("name", .text name),
      ("type", .text "tool_use")]

def Delta.json : Delta → Json
  | .text s => .record [("text", .text s), ("type", .text "text_delta")]
  | .thinking s => .record [("thinking", .text s), ("type", .text "thinking_delta")]
  | .input s => .record [("partial_json", .text s), ("type", .text "input_json_delta")]

namespace Frame

def name : Frame → String
  | start .. => "message_start"
  | blockStart .. => "content_block_start"
  | blockDelta .. => "content_block_delta"
  | blockStop .. => "content_block_stop"
  | ending .. => "message_delta"
  | stop => "message_stop"

def json (f : Frame) : Json :=
  let kind := ("type", Json.text f.name)
  match f with
  | start id model inputTokens =>
    .record [
      ("message", .record [
        ("content", .list []),
        ("id", .text id),
        ("model", .text model),
        ("role", .text "assistant"),
        ("stop_reason", .null),
        ("stop_sequence", .null),
        ("type", .text "message"),
        ("usage", usageJson inputTokens 0)]),
      kind]
  | blockStart index opening =>
    .record [("content_block", opening.json), ("index", .nat index.toNat), kind]
  | blockDelta index delta => .record [("delta", delta.json), ("index", .nat index.toNat), kind]
  | blockStop index => .record [("index", .nat index.toNat), kind]
  | ending stopReason usage =>
    .record [
      ("delta", .record [("stop_reason", .text stopReason), ("stop_sequence", .null)]),
      kind,
      ("usage", usageJson usage.input usage.output)]
  | stop => .record [kind]

def toSse (f : Frame) : Sse.Frame := .json (some f.name) f.json

end Frame
end DialectGateway.Messages
