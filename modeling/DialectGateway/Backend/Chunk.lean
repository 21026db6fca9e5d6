/-
# Backend.Chunk — one chunk of a streamed reply as an event

A chunk with a complaint is a fault and nothing else. In any other chunk each
choice tells in its `delta` what it gains.
-/
import DialectGateway.Backend.Member

set_option autoImplicit false

namespace DialectGateway.Backend

/-- A part of a tool call; a call without a slot has the one of its place. -/
def fragmentOf (call : Json) (place : Nat) : ToolFragment where
  slot := ((wordAt call "index").getD place).toUInt32
  id := textAt call "id"
  name := textAt (call.field "function") "name"
  arguments := textAt (call.field "function") "arguments"

def choiceOf (choice : Json) : Choice :=
  let delta := choice.field "delta"
  { index := ((wordAt choice "index").getD 0).toUInt32
    role := textAt delta "role"
    content := textAt delta "content"
    reasoning := (textAt delta "reasoning_content").or (textAt delta "reasoning")
    tools := (itemsAt delta "tool_calls").mapIdx fun place call => fragmentOf call place
    finish := finishOf choice }

def eventOf (chunk : Json) : Event :=
  if (chunk.field "error").isNull then
    { id := (textAt chunk "id").getD ""
      model := (textAt chunk "model").getD ""
      created := createdOf chunk
      choices := (itemsAt chunk "choices").map choiceOf
      usage := tokensOf chunk }
  else Event.ofFault (faultOf chunk)

end DialectGateway.Backend
