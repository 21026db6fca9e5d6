/-
# Json.Token — the lexical side of JSON

`scan` cuts a text into tokens. It takes symbols, not characters: bytes that
form no character may stand inside a quoted text, where they do harm only if the
text is used. For the same reason escapes stay undecoded and numerals unvalued;
`Piece.text?` and `Numeral.value?` say what they mean.
-/
import DialectGateway.Json.Basic
import DialectGateway.Text.Utf8
import DialectGateway.Text.Hex
import DialectGateway.Decimal.Digits

set_option autoImplicit false

namespace DialectGateway.Json

open Text (Symbol)
open Decimal (Double isDigit digitValue)

/-- A piece of a quoted text: a symbol, or an escaped UTF-16 unit. -/
inductive Piece where
  | symbol (s : Symbol)
  | unit (u : Nat)
  deriving Repr

/-- The text of the pieces. A unit of a surrogate pair must stand before or
after its other half. -/
def Piece.text? : List Piece → Option (List Char)
  | [] => some []
  | .symbol none :: _ => none
  | .symbol (some c) :: rest => (text? rest).map (c :: ·)
  | .unit u :: rest =>
    if 0xD800 ≤ u ∧ u < 0xDC00 then
      match rest with
      | .unit v :: rest =>
        if 0xDC00 ≤ v ∧ v < 0xE000 then
          (text? rest).map (Char.ofNat (0x10000 + (u - 0xD800) * 0x400 + (v - 0xDC00)) :: ·)
        else none
      | _ => none
    else if 0xDC00 ≤ u ∧ u < 0xE000 then none
    else (text? rest).map (Char.ofNat u :: ·)

/-- A number as it is written, its digits last first. -/
structure Numeral where
  negative : Bool := false
  whole : List Nat := []
  /-- There are neither fraction nor exponent. -/
  plain : Bool := true
  fraction : List Nat := []
  exponentNegative : Bool := false
  exponent : List Nat := []
  deriving Repr

namespace Numeral

/-- Digits are gathered while the number they spell stays below 2^64; the rest
is left over. -/
def gather : Nat → List Nat → Nat × List Nat
  | n, [] => (n, [])
  | n, d :: ds => if n * 10 + d < UInt64.size then gather (n * 10 + d) ds else (n, d :: ds)

def powerOfTen (n : Nat) : Float := Float.ofScientific 1 false n

/-- Division by `10 ^ e`, in steps of at most `10 ^ 308`. -/
def scaleDown (x : Float) (e : Nat) : Float :=
  if e ≤ 308 then x / powerOfTen e
  else if x == 0.0 then x
  else scaleDown (x / powerOfTen 308) (e - 308)
termination_by e

/-- The double for a significand and a power of ten: one rounding for the
significand and one for the scaling. Numbers beyond the doubles have none. -/
def scaled? (significand : Nat) (power : Int) : Option Float :=
  let x := Float.ofScientific significand false 0
  if power < 0 then some (scaleDown x power.natAbs)
  else if power ≤ 308 then
    let y := x * powerOfTen power.natAbs
    if y.isInf then none else some y
  else if significand = 0 then some x
  else none

def signedReal (negative : Bool) (x : Float) : Json :=
  .real (Double.ofFloat (if negative then -x else x))

/-- The number that a numeral stands for. -/
def value? (n : Numeral) : Option Json :=
  let (whole, dropped) := gather 0 n.whole.reverse
  if n.plain && dropped.isEmpty then
    if !n.negative then some (.int whole)
    else if whole = 0 ∨ UInt64.size / 2 < whole then
      some (signedReal true (Float.ofScientific whole false 0))
    else some (.int (-whole))
  else
    let (significand, rest) := gather whole n.fraction.reverse
    let written : Nat := n.exponent.reverse.foldl (fun (e d : Nat) => e * 10 + d) 0
    let exponent : Int := if n.exponentNegative then -(written : Int) else written
    let places : Nat := n.fraction.length - rest.length
    let power : Int := exponent + (dropped.length : Int) - (places : Int)
    (scaled? significand power).map (signedReal n.negative)

end Numeral

inductive Token where
  | listOpen
  | listClose
  | recordOpen
  | recordClose
  | comma
  | colon
  | null
  | bool (b : Bool)
  | number (n : Numeral)
  | text (pieces : List Piece)
  deriving Repr

/-- How far a numeral has been read. -/
inductive Stage where
  | sign
  | zero
  | whole
  | point
  | fraction
  | mark
  | markSign
  | exponent
  deriving DecidableEq, Repr

/-- What the scanner is inside of. -/
inductive Mode where
  | between
  | word (left : List Char) (token : Token)
  | quoted (pieces : List Piece)
  | escaped (pieces : List Piece)
  | unit (pieces : List Piece) (left code : Nat)
  | numeral (stage : Stage) (n : Numeral)
  deriving Repr

structure Scanner where
  mode : Mode
  /-- The tokens read, last first. -/
  tokens : List Token
  deriving Repr

namespace Scanner

def start : Scanner := ⟨.between, []⟩

def isSpace (c : Char) : Bool := c == ' ' || c == '\t' || c == '\n' || c == '\r'

/-- A symbol outside of words, texts and numerals. -/
def between (tokens : List Token) : Symbol → Option Scanner
  | none => none
  | some c =>
    if isSpace c then some ⟨.between, tokens⟩
    else if c = '[' then some ⟨.between, .listOpen :: tokens⟩
    else if c = ']' then some ⟨.between, .listClose :: tokens⟩
    else if c = '{' then some ⟨.between, .recordOpen :: tokens⟩
    else if c = '}' then some ⟨.between, .recordClose :: tokens⟩
    else if c = ',' then some ⟨.between, .comma :: tokens⟩
    else if c = ':' then some ⟨.between, .colon :: tokens⟩
    else if c = '"' then some ⟨.quoted [], tokens⟩
    else if c = 'n' then some ⟨.word ['u', 'l', 'l'] .null, tokens⟩
    else if c = 't' then some ⟨.word ['r', 'u', 'e'] (.bool true), tokens⟩
    else if c = 'f' then some ⟨.word ['a', 'l', 's', 'e'] (.bool false), tokens⟩
    else if c = '-' then some ⟨.numeral .sign ⟨true, [], true, [], false, []⟩, tokens⟩
    else if c = '0' then some ⟨.numeral .zero ⟨false, [0], true, [], false, []⟩, tokens⟩
    else if isDigit c then
      some ⟨.numeral .whole ⟨false, [digitValue c], true, [], false, []⟩, tokens⟩
    else none

/-- The character that a one-letter escape stands for. -/
def escape? (c : Char) : Option Char :=
  if c = '"' || c = '\\' || c = '/' then some c
  else if c = 'b' then some (Char.ofNat 8)
  else if c = 'f' then some (Char.ofNat 12)
  else if c = 'n' then some '\n'
  else if c = 'r' then some '\r'
  else if c = 't' then some '\t'
  else none

/-- The stage and numeral after a character that belongs to it; `none` where the
numeral cannot hold the character. -/
def extend? (stage : Stage) (n : Numeral) (c : Char) : Option (Stage × Numeral) :=
  let toMark := some (Stage.mark, { n with plain := false })
  let isMark := c = 'e' ∨ c = 'E'
  match stage with
  | .sign =>
    if c = '0' then some (.zero, { n with whole := [0] })
    else if isDigit c then some (.whole, { n with whole := [digitValue c] })
    else none
  | .zero =>
    if c = '.' then some (.point, { n with plain := false })
    else if isMark then toMark
    else none
  | .whole =>
    if isDigit c then some (.whole, { n with whole := digitValue c :: n.whole })
    else if c = '.' then some (.point, { n with plain := false })
    else if isMark then toMark
    else none
  | .point =>
    if isDigit c then some (.fraction, { n with fraction := [digitValue c] }) else none
  | .fraction =>
    if isDigit c then some (.fraction, { n with fraction := digitValue c :: n.fraction })
    else if isMark then toMark
    else none
  | .mark =>
    if c = '+' then some (.markSign, n)
    else if c = '-' then some (.markSign, { n with exponentNegative := true })
    else if isDigit c then some (.exponent, { n with exponent := [digitValue c] })
    else none
  | .markSign =>
    if isDigit c then some (.exponent, { n with exponent := [digitValue c] }) else none
  | .exponent =>
    if isDigit c then some (.exponent, { n with exponent := digitValue c :: n.exponent })
    else none

/-- A numeral may end here, before a character that does not follow zero. -/
def Stage.settled : Stage → Bool
  | .zero | .whole | .fraction | .exponent => true
  | .sign | .point | .mark | .markSign => false

def step (s : Scanner) (symbol : Symbol) : Option Scanner :=
  match s.mode with
  | .between => between s.tokens symbol
  | .word left token =>
    match left, symbol with
    | l :: left, some c =>
      if c = l then
        if left.isEmpty then some ⟨.between, token :: s.tokens⟩
        else some ⟨.word left token, s.tokens⟩
      else none
    | _, _ => none
  | .quoted pieces =>
    match symbol with
    | none => some ⟨.quoted (.symbol none :: pieces), s.tokens⟩
    | some c =>
      if c = '"' then some ⟨.between, .text pieces.reverse :: s.tokens⟩
      else if c = '\\' then some ⟨.escaped pieces, s.tokens⟩
      else if c.toNat < 32 then none
      else some ⟨.quoted (.symbol (some c) :: pieces), s.tokens⟩
  | .escaped pieces =>
    match symbol with
    | none => none
    | some c =>
      if c = 'u' then some ⟨.unit pieces 4 0, s.tokens⟩
      else (escape? c).map fun e => ⟨.quoted (.symbol (some e) :: pieces), s.tokens⟩
  | .unit pieces left code =>
    match symbol with
    | none => none
    | some c =>
      (Text.Hex.value? c).map fun v =>
        let code := code * 16 + v
        if left ≤ 1 then ⟨.quoted (.unit code :: pieces), s.tokens⟩
        else ⟨.unit pieces (left - 1) code, s.tokens⟩
  | .numeral stage n =>
    match symbol.bind (extend? stage n) with
    | some (stage, n) => some ⟨.numeral stage n, s.tokens⟩
    | none =>
      if Stage.settled stage then between (.number n :: s.tokens) symbol else none

/-- The tokens, if the text does not end inside one. -/
def finish (s : Scanner) : Option (List Token) :=
  match s.mode with
  | .between => some s.tokens.reverse
  | .numeral stage n =>
    if Stage.settled stage then some (Token.number n :: s.tokens).reverse else none
  | _ => none

/-- The tokens of a text. -/
def scan (symbols : List Symbol) : Option (List Token) :=
  (symbols.foldlM step start).bind finish

end Scanner
end DialectGateway.Json
