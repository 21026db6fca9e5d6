/-
# Text.Hex — bytes and numbers in hexadecimal

Two lower-case digits a byte, the high half first. Reading takes digits of
either case and refuses an odd count.
-/

set_option autoImplicit false

namespace DialectGateway.Text.Hex

def digit (n : Nat) : Char :=
  if n < 10 then Char.ofNat (48 + n) else Char.ofNat (87 + n)

def value? (c : Char) : Option Nat :=
  let n := c.toNat
  if 48 ≤ n ∧ n ≤ 57 then some (n - 48)
  else if 97 ≤ n ∧ n ≤ 102 then some (n - 87)
  else if 65 ≤ n ∧ n ≤ 70 then some (n - 55)
  else none

/-- The last `width` hexadecimal digits of a number. -/
def fixed : Nat → Nat → List Char
  | 0, _ => []
  | width + 1, n => fixed width (n / 16) ++ [digit (n % 16)]

def encode (bytes : List UInt8) : List Char := bytes.flatMap (fixed 2 ·.toNat)

def decode? : List Char → Option (List UInt8)
  | [] => some []
  | a :: b :: rest => do
    let high ← value? a
    let low ← value? b
    let bytes ← decode? rest
    pure (UInt8.ofNat (high * 16 + low) :: bytes)
  | [_] => none

/-- A number spelled in hexadecimal digits alone. -/
def number? (cs : List Char) : Option Nat :=
  if cs.isEmpty then none
  else cs.foldlM (fun n c => (value? c).map (n * 16 + ·)) 0

end DialectGateway.Text.Hex
