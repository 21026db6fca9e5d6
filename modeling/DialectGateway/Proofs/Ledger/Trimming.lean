/-
# Proofs.Ledger.Trimming — what a trimmed mean is the mean of

`Trimming` says what it is to leave out the extremes, by the order alone: the samples are
the lowest, the middle and the highest of them, and nothing in the middle is out of line.
`Trimmed` is what the mean has to do with that. The middle is cut out of the samples in
their order between two places that are always there, its length is what the two counts
leave, it does not depend on how the samples come, and the mean is 0 only where no sample
is left.

The places could be missed only if the two counts together outgrew 64 bits. That they do
not is about doubles (`dropCount_le_half`, `dropCount_le`): a share is the count times the
fraction, each rounded, and a fraction below a half that settings may have takes away no
more than half of the samples, however close to the half it is.
-/
import DialectGateway.Ledger.Trimmed
import DialectGateway.Settings.Basic
import DialectGateway.Proofs.Decimal.Rounding

set_option autoImplicit false

namespace DialectGateway.Ledger

open Decimal (AtMost Double Representable)
open Settings (isTrim)

/-- The members from one place up to another, if there are these places in this order. -/
def slice? {A : Type} (as : List A) (first last : Nat) : Option (List A) :=
  if first ≤ last ∧ last ≤ as.length then some ((as.take last).drop first) else none

/-- The samples in three parts, none lower than what is before it. -/
structure Trimming (samples lowest middle highest : List Double) : Prop where
  parts : (lowest ++ middle ++ highest).Perm samples
  low : ∀ a ∈ lowest, ∀ b ∈ middle, a.rank ≤ b.rank
  high : ∀ a ∈ highest, ∀ b ∈ middle, b.rank ≤ a.rank

/-- What the mean of samples without their extremes is, where `dropLow` and `dropHigh` of them are
dropped. -/
structure Trimmed (samples : List Double) (low high : Double) (dropLow dropHigh : Nat) : Prop where
  /-- The counts can be added: no memory that is addressed with 64 bits holds too many samples. -/
  fits : samples.length < 2 ^ 63 → dropLow + dropHigh < UInt64.size
  half : samples.length < 2 ^ 52 → 2 * dropLow ≤ samples.length ∧ 2 * dropHigh ≤ samples.length
  cut : dropLow + dropHigh < samples.length →
    slice? (ordered samples) dropLow (samples.length - dropHigh) = some (kept samples low high)
  length : dropLow + dropHigh < samples.length →
    (kept samples low high).length = samples.length - dropLow - dropHigh
  middle : dropLow + dropHigh < samples.length → ∃ lowest highest,
    lowest.length = dropLow ∧ highest.length = dropHigh ∧
      Trimming samples lowest (kept samples low high) highest
  mean : dropLow + dropHigh < samples.length → trimmedMean samples low high =
    (sum (kept samples low high)).div (Double.ofNat (kept samples low high).length)
  nothing : samples.length ≤ dropLow + dropHigh →
    kept samples low high = [] ∧ trimmedMean samples low high = Double.ofNat 0
  perm : ∀ other : List Double, other.Perm samples → kept other low high = kept samples low high

/-! ## How many are dropped -/

/-- A share that is bounded before it is rounded is bounded by the next number that can be held. -/
theorem dropCount_bounded {n : Nat} {fraction : Double} (trim : isTrim fraction = true) {v w : ℚ}
    (count : (n : ℚ) ≤ w) (whole : Representable w) (half : Representable (w / 2))
    (room : w ≤ 2 ^ 200) (next : w / 2 + 1 / 4 ≤ v) (bound : Representable v)
    (room' : v ≤ 2 ^ 200) : (dropCount n fraction : ℚ) ≤ v := by
  have least : (0 : ℚ) ≤ w := (Nat.cast_nonneg n).trans count
  have billionth : AtMost 1e-9 (1 / 4) := by
    have held : Decimal.UpTo (1 / 4) (.finite .positive 4835703278458517 (-82) (by norm_num)) :=
      .finite _ (by norm_num) (by norm_num) (by norm_num)
    exact held
  have share : AtMost (if fraction.toFloat > 0.0 then fraction.toFloat else 0.0) (1 / 2) := by
    simp only [isTrim, Bool.and_eq_true, decide_eq_true_iff] at trim
    split
    · exact Decimal.atMost_half trim.1 trim.2
    · have zero : Decimal.UpTo (1 / 2) (.zero .positive) := .zero _ (by norm_num)
      exact zero
  have product := (Decimal.atMost_ofNat count whole room).mul share (w := w / 2) (by linarith) half
    (by linarith)
  exact (product.add billionth next bound room').toUInt64

/-- **A fraction below a half drops at most half of the samples**, however it is rounded. -/
theorem dropCount_le_half {n : Nat} {fraction : Double} (trim : isTrim fraction = true)
    (count : n < 2 ^ 52) : 2 * dropCount n fraction ≤ n := by
  have small : (n : ℚ) < 2 ^ 52 := by exact_mod_cast count
  have bound : (dropCount n fraction : ℚ) ≤ (2 * n + 1 : Nat) / 4 := by
    refine dropCount_bounded trim (w := n) le_rfl ⟨n, 0, by omega, by norm_num, by simp⟩
      ⟨n, -1, by omega, by norm_num, ?_⟩ ?_ ?_ ⟨2 * n + 1, -2, by omega, by norm_num, ?_⟩ ?_
    · rw [zpow_neg_one]
      ring
    · exact small.le.trans (by norm_num)
    · push_cast
      linarith
    · rw [zpow_neg]
      norm_num
      ring
    · push_cast
      linarith
  rw [le_div_iff₀ (by norm_num)] at bound
  have whole : dropCount n fraction * 4 ≤ 2 * n + 1 := by exact_mod_cast bound
  omega

/-- So many samples are not counted exactly, but the share of a half is out of reach all the
same. -/
theorem dropCount_le {n : Nat} {fraction : Double} (trim : isTrim fraction = true)
    (count : n < 2 ^ 63) : dropCount n fraction ≤ 3 * 2 ^ 61 := by
  have bound : (dropCount n fraction : ℚ) ≤ 3 * 2 ^ 61 := by
    have small : (n : ℚ) ≤ 2 ^ 63 := by exact_mod_cast count.le
    exact dropCount_bounded trim small ⟨1, 63, by norm_num, by norm_num, by norm_num⟩
      ⟨1, 62, by norm_num, by norm_num, by norm_num⟩ (by norm_num) (by norm_num)
      ⟨3, 61, by norm_num, by norm_num, by norm_num⟩ (by norm_num)
  exact_mod_cast bound

/-! ## The samples in order -/

theorem ordered_perm (samples : List Double) : (ordered samples).Perm samples :=
  List.mergeSort_perm samples _

theorem ordered_sorted (samples : List Double) :
    (ordered samples).Pairwise fun a b => a.rank ≤ b.rank := by
  have sorted := @List.pairwise_mergeSort Double (fun a b => decide (a.rank ≤ b.rank))
    (by simpa using fun a b c => le_trans) (by simpa using fun a b => le_total _ _) samples
  exact sorted.imp of_decide_eq_true

/-- Samples of one rank are the same sample, so their order is settled. -/
theorem ordered_congr {samples other : List Double} (perm : other.Perm samples) :
    ordered other = ordered samples := by
  have same : (ordered other).Perm (ordered samples) :=
    (ordered_perm other).trans (perm.trans (ordered_perm samples).symm)
  exact same.eq_of_pairwise (fun a b _ _ le ge => Double.rank_injective (le_antisymm le ge))
    (ordered_sorted other) (ordered_sorted samples)

/-! ## The part that is kept -/

theorem kept_eq_slice {samples : List Double} {low high : Double}
    (some_ : dropCount samples.length low + dropCount samples.length high < samples.length) :
    kept samples low high = ((ordered samples).take
      (samples.length - dropCount samples.length high)).drop (dropCount samples.length low) := by
  rw [kept, if_neg (Nat.not_le.2 some_), List.drop_take]

theorem length_kept {samples : List Double} {low high : Double}
    (some_ : dropCount samples.length low + dropCount samples.length high < samples.length) :
    (kept samples low high).length =
      samples.length - dropCount samples.length low - dropCount samples.length high := by
  rw [kept_eq_slice some_, List.length_drop, List.length_take, (ordered_perm samples).length_eq]
  omega

theorem ordered_eq_append {samples : List Double} {low high : Double}
    (some_ : dropCount samples.length low + dropCount samples.length high < samples.length) :
    ordered samples = (ordered samples).take (dropCount samples.length low) ++
      kept samples low high ++
        (ordered samples).drop (samples.length - dropCount samples.length high) := by
  have front : ((ordered samples).take (samples.length - dropCount samples.length high)).take
      (dropCount samples.length low) = (ordered samples).take (dropCount samples.length low) := by
    rw [List.take_take, Nat.min_eq_left (by omega)]
  rw [kept_eq_slice some_, ← front, List.take_append_drop, List.take_append_drop]

theorem trimming_kept {samples : List Double} {low high : Double}
    (some_ : dropCount samples.length low + dropCount samples.length high < samples.length) :
    Trimming samples ((ordered samples).take (dropCount samples.length low))
      (kept samples low high)
      ((ordered samples).drop (samples.length - dropCount samples.length high)) := by
  have whole := ordered_eq_append some_
  have sorted := ordered_sorted samples
  rw [whole, List.pairwise_append, List.pairwise_append] at sorted
  obtain ⟨⟨-, -, low⟩, -, high⟩ := sorted
  refine ⟨?_, low, ?_⟩
  · rw [← whole]
    exact ordered_perm samples
  · intro a above b inside
    exact high b (List.mem_append_right _ inside) a above

/-- **The trimmed mean is the mean of the middle**, for all fractions that settings may have. -/
theorem trimmedMean_trims {low high : Double} (lowTrim : isTrim low = true)
    (highTrim : isTrim high = true) (samples : List Double) :
    Trimmed samples low high (dropCount samples.length low) (dropCount samples.length high) := by
  have size : (ordered samples).length = samples.length := (ordered_perm samples).length_eq
  refine ⟨?_, ?_, ?_, ?_, ?_, ?_, ?_, ?_⟩
  · intro memory
    have first := dropCount_le lowTrim memory
    have second := dropCount_le highTrim memory
    have word : UInt64.size = 2 ^ 64 := rfl
    omega
  · intro exact_
    exact ⟨dropCount_le_half lowTrim exact_, dropCount_le_half highTrim exact_⟩
  · intro some_
    rw [slice?, if_pos (by omega), kept_eq_slice some_]
  · exact length_kept
  · intro some_
    refine ⟨_, _, ?_, ?_, trimming_kept some_⟩
    · rw [List.length_take, size]
      omega
    · rw [List.length_drop, size]
      omega
  · intro some_
    have size_kept := length_kept some_
    have nonempty : (kept samples low high).isEmpty = false := by
      rw [List.isEmpty_eq_false_iff]
      rintro none_
      rw [none_, List.length_nil] at size_kept
      omega
    simp only [trimmedMean, nonempty, Bool.false_eq_true, if_false]
  · intro none_
    have nothing : kept samples low high = [] := by rw [kept, if_pos none_]
    refine ⟨nothing, ?_⟩
    rw [trimmedMean, nothing]
    rfl
  · intro other perm
    rw [kept, kept, ordered_congr perm, perm.length_eq]

/-- The largest fraction below a half leaves one of three samples, and none of two. -/
theorem trimmedMean_trims_three :
    isTrim ⟨0x3FDFFFFFFFFFFFFF⟩ = true ∧
    Trimmed [Double.ofNat 3, Double.ofNat 1, Double.ofNat 2] ⟨0x3FDFFFFFFFFFFFFF⟩
      ⟨0x3FDFFFFFFFFFFFFF⟩ 1 1 ∧
    trimmedMean [Double.ofNat 1, Double.ofNat 2] ⟨0x3FDFFFFFFFFFFFFF⟩ ⟨0x3FDFFFFFFFFFFFFF⟩ =
      Double.ofNat 0 := by
  have admitted : isTrim ⟨0x3FDFFFFFFFFFFFFF⟩ = true := by decide
  have three : dropCount 3 ⟨0x3FDFFFFFFFFFFFFF⟩ = 1 := by rfl
  have two : dropCount 2 ⟨0x3FDFFFFFFFFFFFFF⟩ = 1 := by rfl
  refine ⟨admitted, ?_, ?_⟩
  · have trimmed := trimmedMean_trims admitted admitted
      [Double.ofNat 3, Double.ofNat 1, Double.ofNat 2]
    simpa only [List.length_cons, List.length_nil, Nat.zero_add, Nat.reduceAdd, three] using trimmed
  · have trimmed := trimmedMean_trims admitted admitted [Double.ofNat 1, Double.ofNat 2]
    refine (trimmed.nothing ?_).2
    simp only [List.length_cons, List.length_nil, Nat.zero_add, Nat.reduceAdd, two, le_refl]

end DialectGateway.Ledger
