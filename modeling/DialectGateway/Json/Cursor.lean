/-
# Json.Cursor — a place in the bytes of a JSON text, and what is wrong there

Lines are counted from 1, and a column is the number of bytes of its line that lie
before it. Trouble usually has a place from the start: behind what was read, or
behind the byte that was looked at and not read. Trouble with a whole list or
record gets its place only when that is left.
-/
import DialectGateway.Decimal.Digits
import DialectGateway.Json.Tree

set_option autoImplicit false

namespace DialectGateway.Json

structure Place where
  line : Nat := 1
  column : Nat := 0
  deriving DecidableEq, Repr

def Place.after (p : Place) (b : UInt8) : Place :=
  if b == 0x0A then ⟨p.line + 1, 0⟩ else ⟨p.line, p.column + 1⟩

/-- What is wrong with a text. -/
inductive Complaint where
  /-- The text ends inside a list, a record, a quoted text, or before a value. -/
  | listCut
  | recordCut
  | textCut
  | valueCut
  | noColon
  | listGoesOn
  | recordGoesOn
  | badWord
  | noValue
  | badEscape
  | badNumber
  | hugeNumber
  | badCharacter
  | control
  | noKey
  /-- The halves of a character escaped as a pair do not belong together. -/
  | wrongHalf
  | missingHalf
  | lastComma
  | surplus
  | tooDeep
  /-- A value is not of the kind that is wanted. -/
  | misfit (found wanted : String)
  /-- A number is of the kind but not within the bounds. -/
  | outside (found wanted : String)
  | missing (field : String)
  | repeated (field : String)
  | tooShort (count : Nat) (wanted : String)
  | noForm (name : String)
  deriving DecidableEq, Repr

namespace Complaint

def message : Complaint → String
  | listCut => "EOF while parsing a list"
  | recordCut => "EOF while parsing an object"
  | textCut => "EOF while parsing a string"
  | valueCut => "EOF while parsing a value"
  | noColon => "expected `:`"
  | listGoesOn => "expected `,` or `]`"
  | recordGoesOn => "expected `,` or `\x7d`"
  | badWord => "expected ident"
  | noValue => "expected value"
  | badEscape => "invalid escape"
  | badNumber => "invalid number"
  | hugeNumber => "number out of range"
  | badCharacter => "invalid unicode code point"
  | control => "control character (\\u0000-\\u001F) found while parsing a string"
  | noKey => "key must be a string"
  | wrongHalf => "lone leading surrogate in hex escape"
  | missingHalf => "unexpected end of hex escape"
  | lastComma => "trailing comma"
  | surplus => "trailing characters"
  | tooDeep => "recursion limit exceeded"
  | misfit found wanted => "invalid type: " ++ found ++ ", expected " ++ wanted
  | outside found wanted => "invalid value: " ++ found ++ ", expected " ++ wanted
  | missing field => "missing field `" ++ field ++ "`"
  | repeated field => "duplicate field `" ++ field ++ "`"
  | tooShort count wanted => "invalid length " ++ Decimal.text count ++ ", expected " ++ wanted
  | noForm name => "data did not match any variant of untagged enum " ++ name

end Complaint

structure Cursor where
  rest : List UInt8
  place : Place := {}
  deriving Repr

structure Trouble where
  complaint : Complaint
  place : Option Place
  /-- Where reading stopped. -/
  cursor : Cursor
  deriving Repr

/-- Gives trouble its place, if it has none, after a last move. -/
def Trouble.settle (move : Cursor → Cursor) (t : Trouble) : Trouble :=
  { t with place := some (t.place.getD (move t.cursor).place) }

def Trouble.text (t : Trouble) : String :=
  let place := t.place.getD t.cursor.place
  t.complaint.message ++ " at line " ++ Decimal.text place.line ++
    " column " ++ Decimal.text place.column

abbrev Reach (A : Type) := Except Trouble A

namespace Cursor

/-- The next byte, which is a character of its own if it is one of ASCII. -/
def peek? (c : Cursor) : Option Char := c.rest.head?.map fun b => Char.ofNat b.toNat

/-- Behind the next byte, if there is one. -/
def next (c : Cursor) : Cursor :=
  match c.rest with
  | [] => c
  | b :: rest => ⟨rest, c.place.after b⟩

def passing (p : Char → Bool) : List UInt8 → Place → Cursor
  | [], place => ⟨[], place⟩
  | b :: rest, place =>
    if p (Char.ofNat b.toNat) then passing p rest (place.after b) else ⟨b :: rest, place⟩

/-- Behind all the next bytes of a kind. -/
def pass (c : Cursor) (p : Char → Bool) : Cursor := passing p c.rest c.place

def blanks (c : Cursor) : Cursor := c.pass Scanner.isSpace

/-- The bytes from here to a later cursor. -/
def upTo (c later : Cursor) : List UInt8 := c.rest.take (c.rest.length - later.rest.length)

variable {A : Type}

/-- Something is wrong with what was read. -/
def fault (c : Cursor) (complaint : Complaint) : Reach A := .error ⟨complaint, some c.place, c⟩

/-- Something is wrong with the next byte. -/
def faultAhead (c : Cursor) (complaint : Complaint) : Reach A :=
  .error ⟨complaint, some c.next.place, c⟩

/-- Something is wrong with the list or record that is being read. -/
def faultAround (c : Cursor) (complaint : Complaint) : Reach A := .error ⟨complaint, none, c⟩

end Cursor
end DialectGateway.Json
