/-
# Decimal.Shortest — the fewest digits that read back

A finite double owns the decimals that round to it. `shortest` takes the
coarsest decimal grid, from one digit to seventeen, on which one of the value's
two neighbours is owned, and of two owned neighbours the nearer, a tie going to
the even one. How the digits are laid out is a `Layout`: the range written
positionally, and whether a whole number keeps its `.0`.
-/
import DialectGateway.Decimal.Double
import DialectGateway.Decimal.Digits

set_option autoImplicit false

namespace DialectGateway.Decimal

/-- `coefficient · 10 ^ power`. -/
structure Scientific where
  coefficient : Nat
  power : Int
  deriving DecidableEq, Repr

/-- A ratio of naturals that stands for a positive real. -/
structure Ratio where
  num : Nat
  den : Nat
  deriving Repr

namespace Ratio

/-- `n · 2 ^ q`. -/
def binary (n : Nat) (q : Int) : Ratio :=
  if q < 0 then ⟨n, Nat.pow 2 q.natAbs⟩ else ⟨n * Nat.pow 2 q.natAbs, 1⟩

/-- The ratio divided by `10 ^ g`. -/
def downscale (r : Ratio) (g : Int) : Ratio :=
  if g < 0 then ⟨r.num * Nat.pow 10 g.natAbs, r.den⟩ else ⟨r.num, r.den * Nat.pow 10 g.natAbs⟩

/-- The power of ten at or below a positive ratio. -/
def order (r : Ratio) : Int :=
  if r.den ≤ r.num then ((digits (r.num / r.den)).length : Int) - 1
  else -((digits ((r.den - 1) / r.num)).length : Int)

end Ratio

/-- The reals that round to a double, in quarters of its last place: from `low`
to `high`, the ends included when `closed`. -/
structure Owned where
  low : Nat
  centre : Nat
  high : Nat
  closed : Bool
  deriving Repr

def Owned.ofDouble (x : Double) : Owned where
  low := 4 * x.mantissa - (if x.fractionField = 0 ∧ 1 < x.exponentField then 1 else 2)
  centre := 4 * x.mantissa
  high := 4 * x.mantissa + 2
  closed := x.mantissa % 2 = 0

/-- The owned neighbour of the value on the grid of multiples of `10 ^ g`, if
any; `q` is the exponent of the quarters. -/
def Owned.neighbour? (o : Owned) (q g : Int) : Option Nat :=
  let at_ (n : Nat) : Ratio := (Ratio.binary n q).downscale g
  let low := at_ o.low
  let centre := at_ o.centre
  let high := at_ o.high
  let owned (k : Nat) : Bool :=
    if o.closed then low.num ≤ k * low.den && k * high.den ≤ high.num
    else low.num < k * low.den && k * high.den < high.num
  let below := centre.num / centre.den
  let above := below + 1
  let rest := centre.num % centre.den
  match owned below && below != 0, owned above with
  | true, true =>
    if 2 * rest < centre.den || (2 * rest == centre.den && below % 2 == 0) then some below
    else some above
  | true, false => some below
  | false, true => some above
  | false, false => none

/-- The first grid with an owned neighbour, `left` more to try. -/
def Owned.search (o : Owned) (q : Int) : Nat → Int → Scientific
  | 0, g => ⟨(o.neighbour? q g).getD 0, g⟩
  | left + 1, g =>
    match o.neighbour? q g with
    | some k => ⟨k, g⟩
    | none => o.search q left (g - 1)

/-- Trailing zeros move from the coefficient to the power. -/
def Scientific.strip (s : Scientific) : Scientific :=
  if 0 < s.coefficient ∧ s.coefficient % 10 = 0 then
    strip ⟨s.coefficient / 10, s.power + 1⟩
  else s
termination_by s.coefficient
decreasing_by omega

/-- The shortest decimal that rounds to a finite double, sign apart. -/
def shortest (x : Double) : Scientific :=
  if x.isZero then ⟨0, 0⟩
  else
    let o := Owned.ofDouble x
    let q := x.exponent - 2
    (o.search q 17 (Ratio.binary o.centre q).order).strip

/-- How the digits of a decimal are written. -/
structure Layout where
  /-- Least power of the first digit that is written positionally, if bounded. -/
  least? : Option Int
  /-- Greatest such power, if bounded. -/
  greatest? : Option Int
  /-- A whole number ends in `.0`. -/
  wholePoint : Bool
  deriving Repr

def Layout.positional (l : Layout) (first : Int) : Bool :=
  l.least?.all (· ≤ first) && l.greatest?.all (first ≤ ·)

def Layout.write (l : Layout) (s : Scientific) : List Char :=
  let ds := digits s.coefficient
  let first : Int := s.power + (ds.length : Int) - 1
  if l.positional first then
    if 0 ≤ s.power then
      ds ++ List.replicate s.power.natAbs '0' ++ (if l.wholePoint then ['.', '0'] else [])
    else if 0 ≤ first then
      let whole := first.natAbs + 1
      ds.take whole ++ '.' :: ds.drop whole
    else '0' :: '.' :: (List.replicate (first.natAbs - 1) '0' ++ ds)
  else
    let fraction := ds.drop 1
    ds.take 1 ++ (if fraction.isEmpty then [] else '.' :: fraction) ++
      ['e', if first < 0 then '-' else '+'] ++ digits first.natAbs

/-- A finite double with its sign, minus zero included. -/
def Layout.writeDouble (l : Layout) (x : Double) : List Char :=
  (if x.negative then ['-'] else []) ++ l.write (shortest x)

end DialectGateway.Decimal
