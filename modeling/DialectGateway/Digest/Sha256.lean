/-
# Digest.Sha256 — the 256-bit hash of the SHA-2 family

A message is padded to whole blocks of 64 bytes: a bit, zeros, and its length in
bits. Each block is stretched to 64 words, and 64 rounds stir them into the
state, which is added to what it was before.
-/
import DialectGateway.Text.Hex
import DialectGateway.Text.Utf8

set_option autoImplicit false

namespace DialectGateway.Digest.Sha256

/-- The fractional parts of the cube roots of the first 64 primes. -/
def constants : List UInt32 := [
  0x428a2f98, 0x71374491, 0xb5c0fbcf, 0xe9b5dba5, 0x3956c25b, 0x59f111f1, 0x923f82a4, 0xab1c5ed5,
  0xd807aa98, 0x12835b01, 0x243185be, 0x550c7dc3, 0x72be5d74, 0x80deb1fe, 0x9bdc06a7, 0xc19bf174,
  0xe49b69c1, 0xefbe4786, 0x0fc19dc6, 0x240ca1cc, 0x2de92c6f, 0x4a7484aa, 0x5cb0a9dc, 0x76f988da,
  0x983e5152, 0xa831c66d, 0xb00327c8, 0xbf597fc7, 0xc6e00bf3, 0xd5a79147, 0x06ca6351, 0x14292967,
  0x27b70a85, 0x2e1b2138, 0x4d2c6dfc, 0x53380d13, 0x650a7354, 0x766a0abb, 0x81c2c92e, 0x92722c85,
  0xa2bfe8a1, 0xa81a664b, 0xc24b8b70, 0xc76c51a3, 0xd192e819, 0xd6990624, 0xf40e3585, 0x106aa070,
  0x19a4c116, 0x1e376c08, 0x2748774c, 0x34b0bcb5, 0x391c0cb3, 0x4ed8aa4a, 0x5b9cca4f, 0x682e6ff3,
  0x748f82ee, 0x78a5636f, 0x84c87814, 0x8cc70208, 0x90befffa, 0xa4506ceb, 0xbef9a3f7, 0xc67178f2]

structure State where
  a : UInt32
  b : UInt32
  c : UInt32
  d : UInt32
  e : UInt32
  f : UInt32
  g : UInt32
  h : UInt32
  deriving DecidableEq, Repr

namespace State

/-- The fractional parts of the square roots of the first eight primes. -/
def start : State :=
  ⟨0x6a09e667, 0xbb67ae85, 0x3c6ef372, 0xa54ff53a, 0x510e527f, 0x9b05688c, 0x1f83d9ab, 0x5be0cd19⟩

def add (s t : State) : State :=
  ⟨s.a + t.a, s.b + t.b, s.c + t.c, s.d + t.d, s.e + t.e, s.f + t.f, s.g + t.g, s.h + t.h⟩

def words (s : State) : List UInt32 := [s.a, s.b, s.c, s.d, s.e, s.f, s.g, s.h]

end State

/-- The bits moved right, those that fall out coming back at the left. -/
def rotate (x : UInt32) (n : UInt32) : UInt32 := (x >>> n) ||| (x <<< (32 - n))

/-- One round with a constant and a word of the block. -/
def round (s : State) (input : UInt32 × UInt32) : State :=
  let stirred := rotate s.e 6 ^^^ rotate s.e 11 ^^^ rotate s.e 25
  let chosen := (s.e &&& s.f) ^^^ (~~~s.e &&& s.g)
  let first := s.h + stirred + chosen + input.1 + input.2
  let turned := rotate s.a 2 ^^^ rotate s.a 13 ^^^ rotate s.a 22
  let majority := (s.a &&& s.b) ^^^ (s.a &&& s.c) ^^^ (s.b &&& s.c)
  ⟨first + (turned + majority), s.a, s.b, s.c, s.d + first, s.e, s.f, s.g⟩

/-- Words made from the sixteen before them, which come last first. -/
def stretch : Nat → List UInt32 → List UInt32
  | 0, words => words
  | left + 1, words =>
    let back (n : Nat) : UInt32 := words[n]?.getD 0
    let x := back 1
    let y := back 14
    let high := rotate x 17 ^^^ rotate x 19 ^^^ (x >>> 10)
    let low := rotate y 7 ^^^ rotate y 18 ^^^ (y >>> 3)
    stretch left ((high + back 6 + low + back 15) :: words)

/-- Four bytes as a word, the high byte first. -/
def words : List UInt8 → List UInt32
  | a :: b :: c :: d :: rest =>
    ((a.toUInt32 <<< 24) ||| (b.toUInt32 <<< 16) ||| (c.toUInt32 <<< 8) ||| d.toUInt32) ::
      words rest
  | _ => []

def block (s : State) (bytes : List UInt8) : State :=
  let schedule := (stretch 48 (words bytes).reverse).reverse
  s.add ((constants.zip schedule).foldl round s)

/-- The lowest `n` bytes of a number, the high byte first. -/
def numberBytes : Nat → Nat → List UInt8
  | 0, _ => []
  | n + 1, v => numberBytes n (v / 256) ++ [UInt8.ofNat (v % 256)]

def padded (message : List UInt8) : List UInt8 :=
  let zeros := (119 - message.length % 64) % 64
  message ++ 0x80 :: (List.replicate zeros 0 ++ numberBytes 8 (8 * message.length))

/-- Stirs in as many blocks. -/
def blocks : Nat → State → List UInt8 → State
  | 0, s, _ => s
  | n + 1, s, bytes => blocks n (block s (bytes.take 64)) (bytes.drop 64)

def hash (message : List UInt8) : List UInt8 :=
  let bytes := padded message
  (blocks (bytes.length / 64) .start bytes).words.flatMap (numberBytes 4 ·.toNat)

/-- The hash of a text in hexadecimal digits. -/
def text (s : String) : String := String.ofList (Text.Hex.encode (hash (Text.Utf8.encodeText s)))

end DialectGateway.Digest.Sha256
