/-
# Yaml.Cursor — a place in a text

A cursor knows its line and column, which decide about structure, and how many
characters lie behind it. Line breaks have been unified before: a line feed, or
one of the two Unicode separators.
-/

set_option autoImplicit false

namespace DialectGateway.Yaml

def isBreak (c : Char) : Bool := c == '\n' || c == '\u2028' || c == '\u2029'

def isBlank (c : Char) : Bool := c == ' ' || c == '\t'

def isGap (c : Char) : Bool := isBlank c || isBreak c

/-- A gap or the end comes next. -/
def gapNext : List Char → Bool
  | [] => true
  | c :: _ => isGap c

/-- The characters a text may hold: no controls but the tab and line breaks. -/
def isPermitted (c : Char) : Bool :=
  let n := c.toNat
  n == 0x09 || n == 0x0A || n == 0x0D || (0x20 ≤ n && n ≤ 0x7E) || n == 0x85 ||
    (0xA0 ≤ n && n ≤ 0xFFFD) || 0x10000 ≤ n

/-- Carriage returns, alone or before a line feed, and next-line characters become line feeds. -/
def unifyLines : List Char → List Char
  | '\r' :: '\n' :: cs => '\n' :: unifyLines cs
  | c :: cs => (if c == '\r' || c == '\u0085' then '\n' else c) :: unifyLines cs
  | [] => []

structure Cursor where
  rest : List Char
  line : Nat := 0
  column : Nat := 0
  place : Nat := 0
  deriving Repr

namespace Cursor

def next (c : Cursor) : Cursor :=
  match c.rest with
  | [] => c
  | x :: rest =>
    if isBreak x then ⟨rest, c.line + 1, 0, c.place + 1⟩
    else ⟨rest, c.line, c.column + 1, c.place + 1⟩

theorem next_shorter (c : Cursor) (h : c.rest ≠ []) : c.next.rest.length < c.rest.length := by
  obtain ⟨rest, line, column, place⟩ := c
  cases rest with
  | nil => exact absurd rfl h
  | cons x rest => by_cases broken : isBreak x <;> simp [next, broken]

/-- Moves on to what is left of the same line. -/
def skipTo (c : Cursor) (rest : List Char) : Cursor :=
  let moved := c.rest.length - rest.length
  ⟨rest, c.line, c.column + moved, c.place + moved⟩

/-- Three signs that begin or end a document stand at the start of a line. -/
def atSigns (c : Cursor) (sign : Char) : Bool :=
  c.column == 0 && [sign, sign, sign].isPrefixOf c.rest && gapNext (c.rest.drop 3)

def atDocumentSigns (c : Cursor) : Bool := c.atSigns '-' || c.atSigns '.'

end Cursor
end DialectGateway.Yaml
