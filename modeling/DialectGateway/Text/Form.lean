/-
# Text.Form — the pairs of a form

A form is a row of pairs between ampersands, each a key and a value around its
first equals sign. In both, a plus sign is a space and a percent sign with two
hexadecimal digits is a byte; a percent sign without them is itself. Empty places
between ampersands are no pairs.
-/
import DialectGateway.Text.Hex
import DialectGateway.Text.Split
import DialectGateway.Text.Utf8

set_option autoImplicit false

namespace DialectGateway.Text.Form

/-- The byte that two hexadecimal digits spell. -/
def byte? (high low : Char) : Option UInt8 := do
  let high ← Hex.value? high
  let low ← Hex.value? low
  pure (UInt8.ofNat (high * 16 + low))

/-- The bytes that a key or a value stands for. -/
def bytes : List Char → List UInt8
  | '+' :: rest => 0x20 :: bytes rest
  | '%' :: high :: low :: rest =>
    match byte? high low with
    | some b => b :: bytes rest
    | none => 0x25 :: bytes (high :: low :: rest)
  | c :: rest => String.utf8EncodeChar c ++ bytes rest
  | [] => []

def text (cs : List Char) : String := String.ofList (Utf8.decodeLossy (bytes cs))

/-- A key and its value; a key without an equals sign has an empty value. -/
def pair (cs : List Char) : String × String :=
  (text (cs.takeWhile (· != '=')), text ((cs.dropWhile (· != '=')).drop 1))

def pairs (cs : List Char) : List (String × String) :=
  ((splitAt '&' cs).filter (!·.isEmpty)).map pair

end DialectGateway.Text.Form
