/-
# Text.Quoted — a text in quotes, for people

Quotes and backslashes are escaped, and so are the control characters, the common
ones by a letter and the others by their code.
-/
import DialectGateway.Text.Hex

set_option autoImplicit false

namespace DialectGateway.Text

/-- The hexadecimal digits of a code below 256, without a zero in front. -/
def shortHex (n : Nat) : List Char := (Hex.fixed 2 n).dropWhile (· == '0')

def quotedChar (c : Char) : List Char :=
  if c == '"' then ['\\', '"']
  else if c == '\\' then ['\\', '\\']
  else if c == '\n' then ['\\', 'n']
  else if c == '\r' then ['\\', 'r']
  else if c == '\t' then ['\\', 't']
  else if c.toNat = 0 then ['\\', '0']
  else if c.toNat < 32 ∨ (127 ≤ c.toNat ∧ c.toNat < 160) then
    ['\\', 'u', '{'] ++ shortHex c.toNat ++ ['}']
  else [c]

def quoted (cs : List Char) : List Char := ['"'] ++ cs.flatMap quotedChar ++ ['"']

end DialectGateway.Text
