/-
# Time.Span — lengths of time as people write them

A run of digits and a unit: seconds, minutes, hours or days, and seconds if there
is none. Nothing at all is a day. A span is positive and its milliseconds fit in
64 bits with a sign; no number on the way to it outgrows them, since each digit and
the product with the unit are checked as they come.
-/
import DialectGateway.Text.Blank
import DialectGateway.Decimal.Read

set_option autoImplicit false

namespace DialectGateway.Time

open Decimal (isDigit)

inductive Unit where
  | second
  | minute
  | hour
  | day
  deriving DecidableEq, Repr

namespace Unit

def seconds : Unit → Nat
  | second => 1
  | minute => 60
  | hour => 3600
  | day => 86400

def ofChars? : List Char → Option Unit
  | [] | ['s'] => some second
  | ['m'] => some minute
  | ['h'] => some hour
  | ['d'] => some day
  | _ => none

end Unit

/-- What is wrong with the text of a span, which is given without blanks at its ends. -/
inductive SpanError where
  | malformed (text : String)
  | notPositive (text : String)
  deriving DecidableEq, Repr

def SpanError.message : SpanError → String
  | malformed text => "Invalid duration '" ++ text ++ "'"
  | notPositive text => "Duration must be positive: '" ++ text ++ "'"

/-- Whole numbers that fit in 64 bits with a sign lie below this. -/
def signedSize : Nat := UInt64.size / 2

/-- The longest span in seconds. -/
def longestSpan : Nat := 9223372036854775

def defaultSpan : String := "24h"

/-- The seconds of so many units, if they fit in 64 bits with a sign and are no longer than the
longest span. -/
def Unit.span? (n : Nat) (unit : Unit) : Option Nat :=
  if signedSize ≤ n * unit.seconds then none
  else if n * unit.seconds ≤ longestSpan then some (n * unit.seconds)
  else none

/-- The seconds of a span without blanks at its ends. -/
def ofTrimmed? (cs : List Char) : Except SpanError Nat :=
  let text := String.ofList cs
  match Decimal.readWhole signedSize (cs.takeWhile isDigit) with
  | .error _ => .error (.malformed text)
  | .ok n =>
    if n = 0 then .error (.notPositive text)
    else
      match (Unit.ofChars? (cs.dropWhile isDigit)).bind (Unit.span? n) with
      | some seconds => .ok seconds
      | none => .error (.malformed text)

/-- The seconds of a span. -/
def span? (s : String) : Except SpanError Nat :=
  let cs := Text.trim s.toList
  ofTrimmed? (if cs.isEmpty then defaultSpan.toList else cs)

end DialectGateway.Time
