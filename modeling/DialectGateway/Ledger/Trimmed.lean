/-
# Ledger.Trimmed — the mean without the extremes

The samples are put in order, the lowest and the highest fractions are dropped,
and the rest is averaged. How many samples a fraction drops is its share of the
count rounded down, after a billionth has been added that keeps a tenth of a
hundred from coming out as nine.
-/
import DialectGateway.Decimal.Double

set_option autoImplicit false

namespace DialectGateway.Ledger

open Decimal (Double)

/-- How many of `count` samples a fraction drops. -/
def dropCount (count : Nat) (fraction : Double) : Nat :=
  let share := if fraction.toFloat > 0.0 then fraction.toFloat else 0.0
  ((Double.ofNat count).toFloat * share + 1e-9).toUInt64.toNat

/-- The samples in the total order of doubles. -/
def ordered (samples : List Double) : List Double :=
  samples.mergeSort fun a b => a.rank ≤ b.rank

/-- The samples that are averaged: none if as many would be dropped as there are. -/
def kept (samples : List Double) (low high : Double) : List Double :=
  let n := samples.length
  let dropLow := dropCount n low
  let dropHigh := dropCount n high
  if n ≤ dropLow + dropHigh then []
  else ((ordered samples).drop dropLow).take (n - dropHigh - dropLow)

/-- The sum from the first sample to the last; that of none is minus zero. -/
def sum (samples : List Double) : Double :=
  samples.foldl Double.add (Double.ofFloat (-0.0))

/-- The mean of the samples kept, 0 if there are none. -/
def trimmedMean (samples : List Double) (low high : Double) : Double :=
  let samples := kept samples low high
  if samples.isEmpty then Double.ofNat 0
  else (sum samples).div (Double.ofNat samples.length)

end DialectGateway.Ledger
