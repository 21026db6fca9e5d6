/-
# Json.Printer — compact JSON text

No spaces. In texts the quote, the backslash and the control characters are
escaped and everything else is written as it is, so a printed value is one line.
Numbers that are no whole numbers take the shortest decimal that reads back, by the
layout `Json.number`.
-/
import DialectGateway.Json.Basic
import DialectGateway.Decimal.Shortest
import DialectGateway.Text.Hex

set_option autoImplicit false

namespace DialectGateway.Json

open Decimal (Double Layout)

/-- Positional from 1e-5 up to below 1e16, and a whole number keeps its `.0`. -/
def number : Layout := ⟨some (-5), some 15, true⟩

/-- One character of a text, escaped if JSON asks for it. -/
def escape (c : Char) : List Char :=
  if c = '"' then ['\\', '"']
  else if c = '\\' then ['\\', '\\']
  else if c = '\n' then ['\\', 'n']
  else if c = '\r' then ['\\', 'r']
  else if c = '\t' then ['\\', 't']
  else if c.toNat = 8 then ['\\', 'b']
  else if c.toNat = 12 then ['\\', 'f']
  else if c.toNat < 32 then '\\' :: 'u' :: Text.Hex.fixed 4 c.toNat
  else [c]

def writeText (s : String) (tail : List Char) : List Char :=
  '"' :: s.toList.foldr (fun c rest => escape c ++ rest) ('"' :: tail)

def writeReal (x : Double) (tail : List Char) : List Char :=
  if x.isFinite then number.writeDouble x ++ tail else ['n', 'u', 'l', 'l'] ++ tail

mutual

/-- The text of a value, before `tail`. -/
def write : Json → List Char → List Char
  | .null, tail => ['n', 'u', 'l', 'l'] ++ tail
  | .bool true, tail => ['t', 'r', 'u', 'e'] ++ tail
  | .bool false, tail => ['f', 'a', 'l', 's', 'e'] ++ tail
  | .int n, tail => Decimal.signed n ++ tail
  | .real x, tail => writeReal x tail
  | .text s, tail => writeText s tail
  | .list items, tail => '[' :: writeItems items (']' :: tail)
  | .record fields, tail => '{' :: writeFields fields ('}' :: tail)

def writeItems : List Json → List Char → List Char
  | [], tail => tail
  | [v], tail => write v tail
  | v :: w :: rest, tail => write v (',' :: writeItems (w :: rest) tail)

def writeFields : List (String × Json) → List Char → List Char
  | [], tail => tail
  | [(key, v)], tail => writeText key (':' :: write v tail)
  | (key, v) :: next :: rest, tail =>
    writeText key (':' :: write v (',' :: writeFields (next :: rest) tail))

end

/-- The compact text of a value. -/
def print (v : Json) : String := String.ofList (v.write [])

/-- Whether a character ends a line. -/
def isBreak (c : Char) : Bool := c == '\n' || c == '\r'

end DialectGateway.Json
