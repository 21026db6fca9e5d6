/-
# Decimal.Double — binary floating point numbers by their bits

A `Double` is its 64 bits, so that equality is decidable and means identity; a
`Single` likewise has 32. Arithmetic goes through core's `Float`. A finite
double is `mantissa · 2 ^ exponent` up to sign, which is what the shortest
decimal spelling starts from. `rank` is the total order of all doubles, in which
`-0.0` lies below `0.0` and the nans lie outside the infinities.
-/

set_option autoImplicit false

namespace DialectGateway.Decimal

structure Double where
  bits : UInt64
  deriving DecidableEq, Repr

structure Single where
  bits : UInt32
  deriving DecidableEq, Repr

namespace Double

def ofFloat (x : Float) : Double := ⟨x.toBits⟩

def toFloat (x : Double) : Float := Float.ofBits x.bits

def ofNat (n : Nat) : Double := ofFloat (Float.ofScientific n false 0)

instance : Inhabited Double := ⟨⟨0⟩⟩

/-- What the sign bit weighs: 2^63. -/
abbrev signWeight : Nat := 9223372036854775808

/-- What the lowest bit of the exponent field weighs: 2^52. -/
abbrev unitWeight : Nat := 4503599627370496

def negative (x : Double) : Bool := signWeight ≤ x.bits.toNat

def exponentField (x : Double) : Nat := x.bits.toNat / unitWeight % 2048

def fractionField (x : Double) : Nat := x.bits.toNat % unitWeight

def isFinite (x : Double) : Bool := x.exponentField != 2047

def isNan (x : Double) : Bool := x.exponentField == 2047 && x.fractionField != 0

def isZero (x : Double) : Bool := x.exponentField == 0 && x.fractionField == 0

def mantissa (x : Double) : Nat :=
  if x.exponentField = 0 then x.fractionField else unitWeight + x.fractionField

def exponent (x : Double) : Int :=
  if x.exponentField = 0 then -1074 else (x.exponentField : Int) - 1075

/-- The nan of an operation that has no value. -/
def undefined : Double := ⟨0xFFF8000000000000⟩

/-- The quiet form of a nan. -/
def quiet (x : Double) : Double := ⟨x.bits ||| 0x0008000000000000⟩

/-- A result; a nan among the operands passes through. -/
def passing (x y : Double) (result : Float) : Double :=
  if x.isNan then x.quiet
  else if y.isNan then y.quiet
  else if result.isNaN then undefined
  else ofFloat result

def add (x y : Double) : Double := passing x y (x.toFloat + y.toFloat)

def div (x y : Double) : Double := passing x y (x.toFloat / y.toFloat)

/-- The place in the total order of all doubles. -/
def rank (x : Double) : Int :=
  if x.negative then -1 - ((x.bits.toNat : Int) - signWeight) else x.bits.toNat

theorem rank_injective {x y : Double} (h : x.rank = y.rank) : x = y := by
  obtain ⟨a⟩ := x
  obtain ⟨b⟩ := y
  simp only [rank, negative] at h
  have : a.toNat = b.toNat := by
    have ha := a.toNat_lt
    have hb := b.toNat_lt
    by_cases la : signWeight ≤ a.toNat <;> by_cases lb : signWeight ≤ b.toNat <;>
      simp only [la, lb, decide_true, decide_false, if_true, Bool.false_eq_true, if_false] at h <;>
      omega
  exact congrArg Double.mk (UInt64.toNat_inj.mp this)

end Double

namespace Single

/-- The nearest single; ties go to the even neighbour. -/
def ofDouble (x : Double) : Single := ⟨x.toFloat.toFloat32.toBits⟩

def ofNat (n : Nat) : Single := ⟨(Float32.ofScientific n false 0).toBits⟩

def ofInt (n : Int) : Single :=
  let magnitude := Float32.ofScientific n.natAbs false 0
  ⟨(if n < 0 then -magnitude else magnitude).toBits⟩

def toDouble (x : Single) : Double := Double.ofFloat (Float32.ofBits x.bits).toFloat

end Single
end DialectGateway.Decimal
