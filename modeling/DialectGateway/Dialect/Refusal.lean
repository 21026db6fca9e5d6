/-
# Dialect.Refusal — events that a dialect cannot express
-/
import DialectGateway.Generation.Event
import DialectGateway.Generation.Dialect
import DialectGateway.Decimal.Digits

set_option autoImplicit false

namespace DialectGateway

inductive Refusal where
  /-- The stream has been closed. -/
  | afterEnd
  | secondChoice (index : UInt32)
  | afterFinish
  | slotResumed (slot : UInt32)
  | slotUnnamed (slot : UInt32)
  | slotClosed (slot : UInt32)
  deriving DecidableEq, Repr

namespace Refusal

/-- What the last frame of a stream is called. -/
def lastFrame : Dialect → String
  | .messages => "message_stop"
  | _ => "the terminal response frame"

def reason (dialect : Dialect) : Refusal → String
  | afterEnd => "event after " ++ lastFrame dialect
  | secondChoice index =>
    "choice index " ++ Decimal.text index.toNat ++ " (only a single choice is supported)"
  | afterFinish => "content after the finish reason"
  | slotResumed slot => "tool call " ++ Decimal.text slot.toNat ++ " resumed after its block closed"
  | slotUnnamed slot => "tool call " ++ Decimal.text slot.toNat ++ " started without a name"
  | slotClosed slot => "arguments for closed tool call " ++ Decimal.text slot.toNat

def message (dialect : Dialect) (r : Refusal) : String :=
  "unsupported event for " ++ dialect.name ++ ": " ++ r.reason dialect

end Refusal

/-- What a single-choice stream refuses before it looks at the output. -/
def Event.refusal? (event : Event) (ended finished : Bool) : Option Refusal :=
  if ended then some .afterEnd
  else
    match event.choices.find? (·.index != 0) with
    | some choice => some (.secondChoice choice.index)
    | none => if finished && event.hasOutput then some .afterFinish else none

end DialectGateway
