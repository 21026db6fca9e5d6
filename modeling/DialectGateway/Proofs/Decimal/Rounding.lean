/-
# Proofs.Decimal.Rounding — bounds that arithmetic on doubles keeps

The result of an operation on doubles is rounded, and may so come out larger than it is. It
never passes a number that a double can hold: if the exact result is no more than such a
number, the rounded one is not either (`upTo_round`). So bounds on the operands become
bounds on sums and products (`AtMost.add`, `AtMost.mul`), as long as the bound itself can be
held, and counts and whole parts keep theirs (`atMost_ofNat`, `AtMost.toUInt64`).

All of this is about numbers that are not negative, since nothing else is counted, and about
bounds far below the largest double.
-/
import DialectGateway.Decimal.Double
import Mathlib

set_option autoImplicit false

namespace DialectGateway.Decimal

open Float.Model (Format UnpackedFloat totalExponent)
open Float.Model.UnpackedFloat

/-- A number that a double can hold if it is not too large: 53 bits, of no unit too small. -/
def Representable (w : ℚ) : Prop :=
  ∃ (m : Nat) (e : Int), m < 2 ^ 53 ∧ -1074 ≤ e ∧ w = m * 2 ^ e

/-- Not negative, no more than a bound, and of no unit too small. -/
inductive UpTo (w : ℚ) : UnpackedFloat → Prop where
  | zero (s : Sign) (least : 0 ≤ w) : UpTo w (.zero s)
  | finite {m : Nat} {e : Int} (positive : 0 < m) (bits : m < 2 ^ 53) (unit : -1074 ≤ e)
      (below : (m : ℚ) * 2 ^ e ≤ w) : UpTo w (.finite .positive m e positive)

/-! ## Powers of two -/

theorem two_zpow_pos (e : Int) : (0 : ℚ) < 2 ^ e := zpow_pos (by norm_num) e

theorem two_zpow_add (e t : Int) : (2 : ℚ) ^ (e + t) = 2 ^ e * 2 ^ t :=
  zpow_add₀ (by norm_num) e t

theorem mul_zpow_nonneg (m : Nat) (e : Int) : (0 : ℚ) ≤ m * 2 ^ e :=
  mul_nonneg (Nat.cast_nonneg m) (two_zpow_pos e).le

/-- Two numbers compare as their mantissas do at the smaller exponent. -/
theorem mul_zpow_le_iff {m n : Nat} {e t : Int} (order : e ≤ t) :
    (m : ℚ) * 2 ^ e ≤ n * 2 ^ t ↔ m ≤ n * 2 ^ (t - e).toNat := by
  have power : (2 : ℚ) ^ t = 2 ^ (t - e).toNat * 2 ^ e := by
    rw [← zpow_natCast, ← two_zpow_add]
    congr 1
    omega
  rw [power, ← mul_assoc, mul_le_mul_iff_left₀ (two_zpow_pos e)]
  exact_mod_cast Iff.rfl

theorem div_mul_zpow_le (m k : Nat) (e : Int) :
    ((m / 2 ^ k : Nat) : ℚ) * 2 ^ (e + k) ≤ m * 2 ^ e := by
  have floor : ((m / 2 ^ k : Nat) : ℚ) * 2 ^ k ≤ m := by
    exact_mod_cast Nat.div_mul_le_self m (2 ^ k)
  calc ((m / 2 ^ k : Nat) : ℚ) * 2 ^ (e + k)
      = ((m / 2 ^ k : Nat) : ℚ) * 2 ^ k * 2 ^ e := by
        rw [two_zpow_add, zpow_natCast]
        ring
    _ ≤ m * 2 ^ e := mul_le_mul_of_nonneg_right floor (two_zpow_pos e).le

theorem shiftLeft_mul_zpow (m k : Nat) (e : Int) :
    ((m <<< k : Nat) : ℚ) * 2 ^ (e - k) = m * 2 ^ e := by
  have power : (2 : ℚ) ^ e = 2 ^ k * 2 ^ (e - k) := by
    rw [← zpow_natCast, ← two_zpow_add]
    congr 1
    omega
  rw [power, Nat.shiftLeft_eq]
  push_cast
  ring

/-! ## Shifts -/

theorem shift_mantissa (em : ExtendedMantissa) (k : Nat) :
    (em >>> k).mantissa = em.mantissa / 2 ^ k := by
  induction k with
  | zero => exact (Nat.div_one _).symm
  | succ k ih =>
      change (em >>> k).mantissa / 2 = _
      rw [ih, Nat.div_div_eq_div_mul, Nat.pow_succ]

/-- What a power of two divides is shifted without a rest. -/
theorem shift_exact (q k : Nat) :
    (ExtendedMantissa.mk (q * 2 ^ k) false false) >>> k = ⟨q, false, false⟩ := by
  induction k generalizing q with
  | zero => simp [HShiftRight.hShiftRight, Nat.repeat]
  | succ k ih =>
      have split : q * 2 ^ (k + 1) = (2 * q) * 2 ^ k := by ring
      have step : (ExtendedMantissa.mk (q * 2 ^ (k + 1)) false false) >>> (k + 1) =
          ExtendedMantissa.shiftRightOne
            ((ExtendedMantissa.mk (q * 2 ^ (k + 1)) false false) >>> k) := rfl
      rw [step, split, ih]
      simp [ExtendedMantissa.shiftRightOne]

theorem roundedMantissa_le_succ (em : ExtendedMantissa) :
    em.roundedMantissa ≤ em.mantissa + 1 := by
  obtain ⟨m, round, sticky⟩ := em
  cases round <;> cases sticky <;>
    simp [ExtendedMantissa.roundedMantissa, ExtendedMantissa.accuracy,
      Accuracy.roundToNearestEven]
  omega

/-- Rounding up stops at the next whole number. -/
theorem roundedMantissa_shift_le {m q k : Nat} (below : m ≤ q * 2 ^ k) :
    ((ExtendedMantissa.mk m false false) >>> k).roundedMantissa ≤ q := by
  rcases Nat.eq_or_lt_of_le below with rfl | less
  · rw [shift_exact]
    exact Nat.le_refl q
  · have cut := roundedMantissa_le_succ ((ExtendedMantissa.mk m false false) >>> k)
    rw [shift_mantissa] at cut
    have floor : m / 2 ^ k < q := (Nat.div_lt_iff_lt_mul (Nat.two_pow_pos k)).2 less
    exact cut.trans floor

/-- The exponent at which 53 bits are left, unless it is too small. -/
def target (m : Nat) (e : Int) : Int := max (m.log2 + e - 52) (-1074)

theorem targetExponent_eq (m : Nat) (e : Int) :
    Format.binary64.targetExponent (totalExponent m e) = target m e := by
  simp only [Format.targetExponent, totalExponent, Format.mantissaBits, Format.minExponent, target]
  norm_num
  omega

theorem shiftToTargetExponent_eq (m : Nat) (e : Int) :
    shiftToTargetExponent Format.binary64 m e .exact =
      ((ExtendedMantissa.mk m false false) >>> (target m e - e).toNat,
        e + (target m e - e).toNat) := by
  rw [shiftToTargetExponent, targetExponent_eq]
  rfl

/-- After the shift 53 bits are left, of no unit too small. -/
theorem shift_target (m : Nat) (e : Int) :
    m / 2 ^ (target m e - e).toNat < 2 ^ 53 ∧ -1074 ≤ e + (target m e - e).toNat := by
  unfold target
  constructor
  · rw [Nat.div_lt_iff_lt_mul (Nat.two_pow_pos _), ← Nat.pow_add]
    refine lt_of_lt_of_le Nat.lt_log2_self (Nat.pow_le_pow_right (by decide) ?_)
    omega
  · omega

/-- The exponent does not pass that of a bound. -/
theorem target_le {m n : Nat} {e t : Int} (positive : 0 < m) (bits : n < 2 ^ 53)
    (unit : -1074 ≤ t) (below : (m : ℚ) * 2 ^ e ≤ n * 2 ^ t) : target m e ≤ t := by
  have leading : (2 : ℚ) ^ ((m.log2 : Int) + e) < 2 ^ (53 + t) := by
    have log : 2 ^ m.log2 ≤ m := Nat.log2_self_le positive.ne'
    calc (2 : ℚ) ^ ((m.log2 : Int) + e)
        = (2 ^ m.log2 : Nat) * 2 ^ e := by
          rw [two_zpow_add, zpow_natCast]
          norm_cast
      _ ≤ m * 2 ^ e := mul_le_mul_of_nonneg_right (by exact_mod_cast log) (two_zpow_pos e).le
      _ ≤ n * 2 ^ t := below
      _ < (2 ^ 53 : Nat) * 2 ^ t :=
          mul_lt_mul_of_pos_right (by exact_mod_cast bits) (two_zpow_pos t)
      _ = 2 ^ (53 + t) := by
          rw [two_zpow_add]
          norm_num
  have exponents := (zpow_lt_zpow_iff_right₀ (by norm_num : (1 : ℚ) < 2)).1 leading
  unfold target
  omega

/-! ## Rounding -/

/-- **Rounding does not pass a number that can be held.** -/
theorem upTo_round {w : ℚ} {m : Nat} {e : Int} (holds : Representable w) (positive : 0 < m)
    (below : (m : ℚ) * 2 ^ e ≤ w) :
    UpTo w (roundWithAccuracy Format.binary64 .positive m e .exact) := by
  obtain ⟨n, t, bits, unit, rfl⟩ := holds
  have rounded : (((ExtendedMantissa.mk m false false) >>>
      (target m e - e).toNat).roundedMantissa : ℚ) * 2 ^ (e + (target m e - e).toNat) ≤
        n * 2 ^ t := by
    have reach := target_le positive bits unit below
    rcases le_or_gt (target m e) e with enough | further
    · rw [Int.toNat_eq_zero.2 (by omega), Nat.cast_zero, add_zero]
      exact below
    · have place : e + (target m e - e).toNat = target m e := by omega
      have parts : (t - e).toNat = (t - target m e).toNat + (target m e - e).toNat := by omega
      rw [mul_zpow_le_iff (by omega), parts, Nat.pow_add, ← mul_assoc] at below
      rw [place, mul_zpow_le_iff reach]
      exact roundedMantissa_shift_le below
  -- The second shift only drops a bit that rounding up may have added.
  simp only [roundWithAccuracy, shiftToTargetExponent_eq, shift_mantissa]
  split
  · exact .zero _ (mul_zpow_nonneg n t)
  · exact .finite _ (shift_target _ _).1 (shift_target _ _).2
      ((div_mul_zpow_le _ _ _).trans rounded)

theorem upTo_normalize {w : ℚ} {m : Nat} {e : Int} (holds : Representable w) (positive : 0 < m)
    (below : (m : ℚ) * 2 ^ e ≤ w) :
    UpTo w (UnpackedFloat.normalize Format.binary64 m e .positive) := by
  have sign : compare (m : Int) 0 = .gt := Int.compare_eq_gt.2 (by exact_mod_cast positive)
  rw [UnpackedFloat.normalize, sign]
  refine upTo_round holds ?_ ?_
  · rw [Int.toNat_natCast, Nat.shiftLeft_eq]
    exact Nat.mul_pos positive (Nat.two_pow_pos _)
  · rw [Int.toNat_natCast, shiftLeft_mul_zpow]
    exact below

/-! ## Storing -/

theorem pack_finite {m : Nat} {e : Int} (positive : 0 < m) (most : e ≤ 200) :
    UnpackedFloat.pack Format.binary64 (.finite .positive m e positive) =
      packComponents Format.binary64 .positive
        (if m.log2 = 52 then BitVec.ofNat 11 (e + 1075).toNat else 0#11) (BitVec.ofNat 52 m) := by
  have biased : (e + (Format.binary64.exponentBias : Int) +
      Format.binary64.mantissaBitsWithoutImplicit).toNat = (e + 1075).toNat := by
    congr 1
    change e + 1023 + 52 = e + 1075
    omega
  have finite : ¬ 2 ^ Format.binary64.exponentBits ≤ (e + 1075).toNat + 1 := by
    change ¬ 2 ^ 11 ≤ (e + 1075).toNat + 1
    omega
  have width : m.log2 + 1 = Format.binary64.mantissaBits ↔ m.log2 = 52 := by
    change m.log2 + 1 = 53 ↔ m.log2 = 52
    omega
  unfold UnpackedFloat.pack
  dsimp only
  rw [biased, if_neg finite]
  by_cases log : m.log2 = 52
  · rw [if_pos (width.2 log), if_pos log]
  · rw [if_neg (mt width.1 log), if_neg log]

/-- The leading bit that is not stored comes back. -/
theorem toNat_fraction {m : Nat} (log : m.log2 = 52) (bits : m < 2 ^ 53) :
    (1#1 ++ BitVec.ofNat 52 m).toNat = m := by
  have least : 2 ^ 52 ≤ m := log ▸ Nat.log2_self_le (by rintro rfl; simp at log)
  rw [BitVec.toNat_append, ← Nat.shiftLeft_add_eq_or_of_lt (BitVec.isLt _), BitVec.toNat_ofNat]
  simp only [BitVec.toNat_ofNat, Nat.shiftLeft_eq]
  omega

theorem upTo_unpack {w : ℚ} {exponent : BitVec 11} {fraction : BitVec 52} (least : 0 ≤ w)
    (finite : exponent ≠ -1#11)
    (tiny : exponent = 0#11 → (fraction.toNat : ℚ) * 2 ^ (-1074 : Int) ≤ w)
    (normal : exponent ≠ 0#11 →
      ((1#1 ++ fraction).toNat : ℚ) * 2 ^ ((exponent.toNat : Int) - 1075) ≤ w) :
    UpTo w (UnpackedFloat.unpack Format.binary64
      (packComponents Format.binary64 .positive exponent fraction)) := by
  have bias : (Format.binary64.exponentBias : Int) + (52 : Nat) = 1075 := rfl
  unfold UnpackedFloat.unpack
  simp only [unpackExponent_packComponents, unpackMantissa_packComponents,
    unpackSign_packComponents, Sign.ofBitVec_toBitVec, if_neg finite]
  split
  · next zero =>
    have unit :
        (exponent.toNat : Int) - (Format.binary64.exponentBias + (52 : Nat)) + 1 = -1074 := by
      rw [bias, zero]
      rfl
    split
    · exact .zero _ least
    · refine .finite _ (fraction.isLt.trans (by norm_num)) unit.ge ?_
      rw [unit]
      exact tiny zero
  · next some_ =>
    have positive : exponent.toNat ≠ 0 := fun zero => some_ (BitVec.eq_of_toNat_eq zero)
    refine .finite _ (1#1 ++ fraction).isLt ?_ ?_
    · rw [bias]
      omega
    · rw [bias]
      exact normal some_

theorem UpTo.nonneg {w : ℚ} {x : UnpackedFloat} (upTo : UpTo w x) : 0 ≤ w := by
  cases upTo with
  | zero _ least => exact least
  | finite positive bits unit below => exact (mul_zpow_nonneg _ _).trans below

theorem UpTo.mono {v w : ℚ} {x : UnpackedFloat} (upTo : UpTo v x) (order : v ≤ w) : UpTo w x := by
  cases upTo with
  | zero s least => exact .zero s (least.trans order)
  | finite positive bits unit below => exact .finite positive bits unit (below.trans order)

/-- A bound outlasts the storing of a number: bits may be moved or lost, but none is added. -/
theorem UpTo.stored {w : ℚ} {x : UnpackedFloat} (upTo : UpTo w x) (room : w ≤ 2 ^ 200) :
    UpTo w (Float.Model.pack x).unpack := by
  have least := upTo.nonneg
  cases upTo with
  | zero s => cases s <;> exact .zero _ least
  | @finite m e positive bits unit below =>
      have most : e ≤ 200 := by
        have power : (2 : ℚ) ^ e ≤ 2 ^ (200 : Int) := by
          calc (2 : ℚ) ^ e ≤ m * 2 ^ e :=
                le_mul_of_one_le_left (two_zpow_pos e).le (by exact_mod_cast positive)
            _ ≤ 2 ^ (200 : Int) := below.trans room
        exact (zpow_le_zpow_iff_right₀ (by norm_num : (1 : ℚ) < 2)).1 power
      change UpTo w (UnpackedFloat.unpack Format.binary64
        (UnpackedFloat.pack Format.binary64 (.finite .positive m e positive)))
      rw [pack_finite positive most]
      split
      · next log =>
        have biased : (BitVec.ofNat 11 (e + 1075).toNat).toNat = (e + 1075).toNat := by
          rw [BitVec.toNat_ofNat, Nat.mod_eq_of_lt (by omega)]
        refine upTo_unpack least ?_ ?_ ?_
        · intro full
          have value := congrArg BitVec.toNat full
          rw [biased] at value
          change (e + 1075).toNat = 2047 at value
          omega
        · intro zero
          have value := congrArg BitVec.toNat zero
          rw [biased] at value
          change (e + 1075).toNat = 0 at value
          omega
        · intro _
          have place : ((BitVec.ofNat 11 (e + 1075).toNat).toNat : Int) - 1075 = e := by omega
          rw [toNat_fraction log bits, place]
          exact below
      · next log =>
        have short : m < 2 ^ 52 := by
          have log53 := (Nat.log2_lt positive.ne').2 bits
          exact (Nat.log2_lt positive.ne').1 (by omega)
        refine upTo_unpack least (by decide) ?_ ?_
        · intro _
          have smaller : (2 : ℚ) ^ (-1074 : Int) ≤ 2 ^ e := zpow_le_zpow_right₀ (by norm_num) unit
          rw [BitVec.toNat_ofNat, Nat.mod_eq_of_lt short]
          exact (mul_le_mul_of_nonneg_left smaller (Nat.cast_nonneg m)).trans below
        · intro some_
          exact absurd rfl some_

/-! ## Arithmetic -/

theorem UpTo.mul {a b w : ℚ} {x y : UnpackedFloat} (left : UpTo a x) (right : UpTo b y)
    (product : a * b ≤ w) (holds : Representable w) :
    UpTo w (UnpackedFloat.mul Format.binary64 x y) := by
  have least : 0 ≤ w := (mul_nonneg left.nonneg right.nonneg).trans product
  have most := left.nonneg
  cases left with
  | zero s => cases right <;> exact .zero _ least
  | @finite m e positive _ _ below =>
      cases right with
      | zero s => exact .zero _ least
      | @finite n t positive' _ _ below' =>
          refine upTo_round holds (Nat.mul_pos positive positive') ?_
          calc ((m * n : Nat) : ℚ) * 2 ^ (e + t) = (m * 2 ^ e) * (n * 2 ^ t) := by
                rw [two_zpow_add]
                push_cast
                ring
            _ ≤ a * b := mul_le_mul below below' (mul_zpow_nonneg n t) most
            _ ≤ w := product

theorem UpTo.add {a b w : ℚ} {x y : UnpackedFloat} (left : UpTo a x) (right : UpTo b y)
    (sum : a + b ≤ w) (holds : Representable w) :
    UpTo w (UnpackedFloat.add Format.binary64 x y) := by
  have least : 0 ≤ w := (add_nonneg left.nonneg right.nonneg).trans sum
  have leftOnly := left.mono ((le_add_of_nonneg_right right.nonneg).trans sum)
  have rightOnly := right.mono ((le_add_of_nonneg_left left.nonneg).trans sum)
  cases left with
  | zero s =>
      cases right with
      | zero s' => cases s <;> cases s' <;> exact .zero _ least
      | finite => exact rightOnly
  | @finite m e positive _ _ below =>
      cases right with
      | zero => exact leftOnly
      | @finite n t positive' _ _ below' =>
          refine upTo_normalize (m := m <<< (e - min e t).toNat + n <<< (t - min e t).toNat)
            holds ?_ ?_
          · rw [Nat.shiftLeft_eq]
            exact Nat.add_pos_left (Nat.mul_pos positive (Nat.two_pow_pos _)) _
          · have first := shiftLeft_mul_zpow m (e - min e t).toNat e
            have second := shiftLeft_mul_zpow n (t - min e t).toNat t
            rw [show e - ((e - min e t).toNat : Int) = min e t by omega] at first
            rw [show t - ((t - min e t).toNat : Int) = min e t by omega] at second
            rw [Nat.cast_add, add_mul, first, second]
            exact (add_le_add below below').trans sum

/-- The whole part is no more than the number. -/
theorem UpTo.toInt {w : ℚ} {x : UnpackedFloat} (upTo : UpTo w x) (low high : Int) :
    ((UnpackedFloat.toInt low high x).toNat : ℚ) ≤ w := by
  cases upTo with
  | zero s least => exact least
  | @finite m e positive _ _ below =>
      have whole : (UnpackedFloat.toInt low high (.finite .positive m e positive)).toNat =
          (m <<< (e - 0).toNat) / 2 ^ (0 - (e - ((e - 0).toNat : Int))).toNat := by
        simp only [UnpackedFloat.toInt, roundToInt, decreaseExponent, shiftToExponent,
          ExtendedMantissa.ofMantissaAndAccuracy, shift_mantissa, Sign.apply, Int.toNat_natCast]
      have floor := div_mul_zpow_le (m <<< (e - 0).toNat) (0 - (e - ((e - 0).toNat : Int))).toNat
        (e - ((e - 0).toNat : Int))
      have unit : e - ((e - 0).toNat : Int) + (0 - (e - ((e - 0).toNat : Int))).toNat = 0 := by
        omega
      rw [shiftLeft_mul_zpow, ← whole, unit, zpow_zero, mul_one] at floor
      exact floor.trans below

/-- Not negative, and no more than a bound. -/
def AtMost (x : Float) (w : ℚ) : Prop := UpTo w x.toModel.unpack

namespace AtMost

variable {x y : Float} {a b w : ℚ}

theorem mul (left : AtMost x a) (right : AtMost y b) (product : a * b ≤ w)
    (holds : Representable w) (room : w ≤ 2 ^ 200) : AtMost (x * y) w :=
  (UpTo.mul left right product holds).stored room

theorem add (left : AtMost x a) (right : AtMost y b) (sum : a + b ≤ w)
    (holds : Representable w) (room : w ≤ 2 ^ 200) : AtMost (x + y) w :=
  (UpTo.add left right sum holds).stored room

theorem toUInt64 (bounded : AtMost x w) : (x.toUInt64.toNat : ℚ) ≤ w := by
  have clamped (n : Nat) : (UInt64.ofNatClamp n).toNat ≤ n := by
    rcases Nat.lt_or_ge n UInt64.size with within | beyond
    · exact (UInt64.toNat_ofNatClamp_of_lt within).le
    · rw [UInt64.toNat_ofNatClamp_of_le beyond]
      omega
  exact (Nat.cast_le.2 (clamped _)).trans (UpTo.toInt bounded 0 (UInt64.size - 1))

end AtMost

theorem toNat_toUInt64 {n : Nat} (small : n < 2 ^ 53) : n.toUInt64.toNat = n :=
  Nat.mod_eq_of_lt (small.trans (by norm_num))

theorem atMost_ofNat {n : Nat} {w : ℚ} (below : (n : ℚ) ≤ w) (holds : Representable w)
    (room : w ≤ 2 ^ 200) : AtMost (Double.ofNat n).toFloat w := by
  have least : (0 : ℚ) ≤ w := (Nat.cast_nonneg n).trans below
  rw [Double.ofNat, Double.ofFloat, Double.toFloat, Float.ofBits_toBits, Float.ofScientific]
  split
  · next small =>
    have count : AtMost n.toUInt64.toFloat w := by
      change UpTo w (Float.Model.pack
        (UnpackedFloat.normalize Format.binary64 n.toUInt64.toNat 0 .positive)).unpack
      rw [toNat_toUInt64 small.1]
      refine UpTo.stored ?_ room
      rcases Nat.eq_zero_or_pos n with rfl | positive
      · exact .zero _ least
      · exact upTo_normalize holds positive (by simpa using below)
    have one : UpTo 1 (.finite .positive (2 ^ 52) (-52) (by norm_num)) :=
      .finite _ (by norm_num) (by norm_num) (by norm_num)
    exact count.mul (y := Float.ofBits 4607182418800017408) one (mul_one w).le holds room
  · next large =>
    have positive : n ≠ 0 := by
      rintro rfl
      exact large ⟨by norm_num, by norm_num⟩
    have scaled : 0 < n <<< 53 := by
      rw [Nat.shiftLeft_eq]
      exact Nat.mul_pos (Nat.pos_of_ne_zero positive) (by norm_num)
    have reach : ¬ (0 : Int) < -(2 ^ Format.binary64.exponentBits + n.log2) := by
      have power : (0 : Int) < 2 ^ Format.binary64.exponentBits := by decide
      omega
    have same : UnpackedFloat.ofScientific Format.binary64 n 0 =
        roundWithAccuracy Format.binary64 .positive (n <<< 53 * 10 ^ 0) (-53 + 0) .exact := by
      rw [UnpackedFloat.ofScientific, dif_neg positive, if_neg (by decide), if_neg reach,
        if_pos (by decide)]
      rfl
    change UpTo w (Float.Model.pack (UnpackedFloat.ofScientific Format.binary64 n 0)).unpack
    rw [same]
    refine UpTo.stored (upTo_round holds (by simpa using scaled) ?_) room
    have value := shiftLeft_mul_zpow n 53 0
    rw [zpow_zero, mul_one] at value
    rw [pow_zero, mul_one, show (-53 + 0 : Int) = 0 - (53 : Nat) by norm_num, value]
    exact below

/-! ## Comparing -/

/-- What is stored has 53 bits, of no unit too small. -/
theorem finite_unpack {x : Float.Model} {s : Sign} {m : Nat} {e : Int} {positive : 0 < m}
    (stored : x.unpack = .finite s m e positive) : m < 2 ^ 53 ∧ -1074 ≤ e := by
  have bias : (Format.binary64.exponentBias : Int) + (52 : Nat) = 1075 := rfl
  unfold Float.Model.unpack UnpackedFloat.unpack at stored
  dsimp only at stored
  split at stored
  · split at stored <;> cases stored
  split at stored
  · next zero =>
    split at stored
    · cases stored
    · obtain ⟨-, rfl, rfl⟩ := UnpackedFloat.finite.inj stored
      refine ⟨(BitVec.isLt _).trans (by norm_num), ?_⟩
      rw [bias]
      omega
  · next some_ =>
    obtain ⟨-, rfl, rfl⟩ := UnpackedFloat.finite.inj stored
    have least : (@unpackExponent Format.binary64 x.toBits.toBitVec).toNat ≠ 0 :=
      fun zero => some_ (BitVec.eq_of_toNat_eq zero)
    refine ⟨BitVec.isLt _, ?_⟩
    rw [bias]
    omega

/-- What compares as at least zero and less than a half is. -/
theorem atMost_half {x : Float} (least : 0.0 ≤ x) (less : x < 0.5) : AtMost x (1 / 2) := by
  have zero : (0.0 : Float).toModel.unpack = .zero .positive := rfl
  have half : (0.5 : Float).toModel.unpack = .finite .positive (2 ^ 52) (-53) (by norm_num) := rfl
  have notBelow : UnpackedFloat.le (0.0 : Float).toModel.unpack x.toModel.unpack = true :=
    of_decide_eq_true least
  have below : UnpackedFloat.lt x.toModel.unpack (0.5 : Float).toModel.unpack = true :=
    of_decide_eq_true less
  rw [zero] at notBelow
  rw [half] at below
  unfold AtMost
  cases stored : x.toModel.unpack with
  | notANumber => simp [stored, UnpackedFloat.lt, UnpackedFloat.compare] at below
  | infinity s =>
      cases s with
      | negative => simp [stored, UnpackedFloat.le, UnpackedFloat.compare] at notBelow
      | positive => simp [stored, UnpackedFloat.lt, UnpackedFloat.compare] at below
  | zero s => exact .zero s (by norm_num)
  | finite s m e positive =>
      cases s with
      | negative => simp [stored, UnpackedFloat.le, UnpackedFloat.compare] at notBelow
      | positive =>
          obtain ⟨bits, unit⟩ := finite_unpack stored
          have order : e < -53 ∨ e = -53 ∧ m < 2 ^ 52 := by
            rw [stored] at below
            simp only [UnpackedFloat.lt, UnpackedFloat.compare, beq_iff_eq, Option.some.injEq,
              Ordering.then_eq_lt] at below
            simpa only [Int.compare_eq_lt, Int.compare_eq_eq, Nat.compare_eq_lt] using below
          refine .finite positive bits unit ?_
          rcases order with small | ⟨rfl, short⟩
          · have power : (2 : ℚ) ^ e ≤ 2 ^ (-54 : Int) :=
              zpow_le_zpow_right₀ (by norm_num) (by omega)
            calc (m : ℚ) * 2 ^ e ≤ (2 ^ 53 : Nat) * 2 ^ (-54 : Int) :=
                  mul_le_mul (by exact_mod_cast bits.le) power (two_zpow_pos e).le
                    (Nat.cast_nonneg _)
              _ = 1 / 2 := by norm_num
          · calc (m : ℚ) * 2 ^ (-53 : Int) ≤ (2 ^ 52 : Nat) * 2 ^ (-53 : Int) :=
                  mul_le_mul_of_nonneg_right (by exact_mod_cast short.le) (two_zpow_pos _).le
              _ = 1 / 2 := by norm_num

end DialectGateway.Decimal
