/-
# Decimal.Digits — natural numbers in decimal

`digits` writes a number without leading zeros and `value` reads a run of
digits; `value_digits` says that reading undoes writing.
-/

set_option autoImplicit false

namespace DialectGateway.Decimal

def digitChar (n : Nat) : Char := Char.ofNat (48 + n)

/-- An ASCII digit. -/
def isDigit (c : Char) : Bool := 48 ≤ c.toNat && c.toNat ≤ 57

def digitValue (c : Char) : Nat := c.toNat - 48

/-- The decimal digits of a number, most significant first. -/
def digits (n : Nat) : List Char :=
  if n < 10 then [digitChar n] else digits (n / 10) ++ [digitChar (n % 10)]
termination_by n
decreasing_by omega

/-- The number that a run of digits spells. -/
def value (cs : List Char) : Nat := cs.foldl (fun n c => n * 10 + digitValue c) 0

/-- A run of digits alone, at least one. -/
def value? (cs : List Char) : Option Nat :=
  if !cs.isEmpty && cs.all isDigit then some (value cs) else none

/-- A whole number with its minus sign. -/
def signed (n : Int) : List Char :=
  if n < 0 then '-' :: digits n.natAbs else digits n.natAbs

def text (n : Nat) : String := String.ofList (digits n)

def signedText (n : Int) : String := String.ofList (signed n)

/-- A number in at least `width` digits, filled with zeros. -/
def padded (width n : Nat) : List Char :=
  let ds := digits n
  List.replicate (width - ds.length) '0' ++ ds

/-- The ten digits, one by one. -/
theorem digitChar_table {n : Nat} (small : n < 10) :
    digitValue (digitChar n) = n ∧ isDigit (digitChar n) = true := by
  have table : n = 0 ∨ n = 1 ∨ n = 2 ∨ n = 3 ∨ n = 4 ∨
      n = 5 ∨ n = 6 ∨ n = 7 ∨ n = 8 ∨ n = 9 := by omega
  rcases table with rfl | rfl | rfl | rfl | rfl | rfl | rfl | rfl | rfl | rfl <;> decide

theorem digitValue_digitChar {n : Nat} (small : n < 10) : digitValue (digitChar n) = n :=
  (digitChar_table small).1

theorem isDigit_digitChar {n : Nat} (small : n < 10) : isDigit (digitChar n) = true :=
  (digitChar_table small).2

theorem value_append_digit (cs : List Char) {n : Nat} (small : n < 10) :
    value (cs ++ [digitChar n]) = value cs * 10 + n := by
  simp [value, digitValue_digitChar small]

theorem value_digits (n : Nat) : value (digits n) = n := by
  induction n using Nat.strongRecOn with
  | _ n ih =>
    rw [digits]
    by_cases small : n < 10
    · simp [small, value, digitValue_digitChar small]
    · rw [if_neg small, value_append_digit _ (Nat.mod_lt _ (by omega)), ih _ (by omega)]
      omega

theorem digits_ne_nil (n : Nat) : digits n ≠ [] := by
  rw [digits]
  split <;> simp

theorem all_isDigit_digits (n : Nat) : (digits n).all isDigit = true := by
  induction n using Nat.strongRecOn with
  | _ n ih =>
    rw [digits]
    by_cases small : n < 10
    · simp [small, isDigit_digitChar small]
    · rw [if_neg small, List.all_append, ih _ (by omega)]
      simp [isDigit_digitChar (Nat.mod_lt n (by omega : 0 < 10))]

end DialectGateway.Decimal
