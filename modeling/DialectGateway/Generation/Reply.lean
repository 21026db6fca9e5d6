/-
# Generation.Reply — a reply given all at once
-/
import DialectGateway.Generation.Event

set_option autoImplicit false

namespace DialectGateway

/-- A complete tool call. -/
structure ToolCall where
  id : String
  name : String
  arguments : String
  deriving DecidableEq, Repr

structure Reply where
  id : String := ""
  model : String := ""
  created : Int64 := 0
  text : String := ""
  reasoning : Option String := none
  tools : List ToolCall := []
  finish : Option Finish := none
  usage : Tokens := {}
  deriving DecidableEq, Repr

instance : Inhabited Reply := ⟨{}⟩

end DialectGateway
