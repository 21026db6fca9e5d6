/-
# Proofs.Dialect.Words — numbers from a counter of 32 bits

A counter of 32 bits that starts at 0 and has been taken `n` times stands at
`UInt32.ofNat n`. Behind it is the number `n` itself, which is what the streams of both
dialects are followed by: up to `UInt32.size` numbers are told apart by their words
(`eq_of_ofNat_eq`), and beyond that some word returns (`ne_range_of_words`).
-/
import Mathlib.Data.List.Nodup
import Mathlib.Data.List.Perm.Subperm

set_option autoImplicit false

namespace DialectGateway.Word

theorem ofNat_succ (n : Nat) : UInt32.ofNat (n + 1) = UInt32.ofNat n + 1 := UInt32.ofNat_add n 1

theorem toNat_ofNat (n : Nat) : (UInt32.ofNat n).toNat = n % UInt32.size := rfl

theorem toNat_ofNat_of_lt {n : Nat} (within : n < UInt32.size) : (UInt32.ofNat n).toNat = n :=
  UInt32.toNat_ofNat_of_lt' within

/-- Numbers below the size of a word are told apart by their words. -/
theorem eq_of_ofNat_eq {m n : Nat} (small : m < UInt32.size) (small' : n < UInt32.size)
    (same : UInt32.ofNat m = UInt32.ofNat n) : m = n := by
  rw [← toNat_ofNat_of_lt small, same, toNat_ofNat_of_lt small']

/-- The words of the first numbers are their own values. -/
theorem map_toNat_ofNat_range {n : Nat} (within : n ≤ UInt32.size) :
    ((List.range n).map UInt32.ofNat).map UInt32.toNat = List.range n := by
  rw [List.map_map]
  refine (List.map_congr_left fun m member => ?_).trans (List.map_id _)
  exact toNat_ofNat_of_lt (Nat.lt_of_lt_of_le (List.mem_range.1 member) within)

/-- **There are no more words than fit.** -/
theorem length_le_of_nodup {words : List UInt32} (distinct : words.Nodup) :
    words.length ≤ UInt32.size := by
  have values : (words.map UInt32.toNat).Nodup :=
    distinct.map fun _ _ same => UInt32.toNat_inj.1 same
  have within : words.map UInt32.toNat ⊆ List.range UInt32.size := by
    intro n member
    obtain ⟨word, _, rfl⟩ := List.mem_map.1 member
    exact List.mem_range.2 word.toNat_lt_size
  have fewer := (values.subperm within).length_le
  rwa [List.length_map, List.length_range] at fewer

/-- **More numbers than there are words are not counted by words.** -/
theorem ne_range_of_words {numbers : List Nat} (words : ∀ n ∈ numbers, n < UInt32.size)
    (many : UInt32.size < numbers.length) : numbers ≠ List.range numbers.length := by
  intro counted
  have last : UInt32.size ∈ numbers := by
    rw [counted]
    exact List.mem_range.2 many
  exact absurd (words _ last) (Nat.lt_irrefl _)

end DialectGateway.Word
