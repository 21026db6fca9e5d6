/-
# Backend.Member — members that chunks and completions share

Whatever has the wrong form counts as missing. Token counts go by either of two
names and are cut to 32 bits.
-/
import DialectGateway.Backend.Complaint

set_option autoImplicit false

namespace DialectGateway.Backend

/-- The items under a key; none if it holds no list. -/
def itemsAt (v : Json) (key : String) : List Json := ((v.field key).asList?).getD []

/-- The whole number under a key. -/
def wordAt (v : Json) (key : String) : Option Nat := (v.field key).asWord?

def createdOf (body : Json) : Int64 := Int64.ofInt (((body.field "created").asSigned?).getD 0)

def finishOf (choice : Json) : Option Finish :=
  (textAt choice "finish_reason").map Finish.ofBackendWord

def tokensOf (body : Json) : Option Tokens :=
  let usage := body.field "usage"
  let count (name other : String) : UInt32 :=
    (((wordAt usage name).or (wordAt usage other)).getD 0).toUInt32
  if usage.isRecord then
    some ⟨count "prompt_tokens" "input_tokens", count "completion_tokens" "output_tokens"⟩
  else none

end DialectGateway.Backend
