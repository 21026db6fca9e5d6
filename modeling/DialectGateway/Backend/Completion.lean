/-
# Backend.Completion — a reply given all at once

Only the first choice counts, and what is missing in it is empty.
-/
import DialectGateway.Backend.Member
import DialectGateway.Generation.Reply

set_option autoImplicit false

namespace DialectGateway.Backend

def callOf (call : Json) : ToolCall where
  id := (textAt call "id").getD ""
  name := (textAt (call.field "function") "name").getD ""
  arguments := (textAt (call.field "function") "arguments").getD ""

def replyOf (body : Json) : Reply :=
  let choice := (body.field "choices").item 0
  let message := choice.field "message"
  { id := (textAt body "id").getD ""
    model := (textAt body "model").getD ""
    created := createdOf body
    text := (textAt message "content").getD ""
    reasoning := textAt message "reasoning_content"
    tools := (itemsAt message "tool_calls").map callOf
    finish := finishOf choice
    usage := (tokensOf body).getD {} }

end DialectGateway.Backend
