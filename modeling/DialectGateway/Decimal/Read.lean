/-
# Decimal.Read — numbers as people write them

A whole number is a run of digits, after a plus sign if one likes. A real number
has a sign, digits with or without a point, and an exponent, all optional but a
digit; `inf`, `infinity` and `nan` are words for the doubles that are no numbers.
-/
import DialectGateway.Decimal.Double
import DialectGateway.Decimal.Digits

set_option autoImplicit false

namespace DialectGateway.Decimal

/-- Why a text is no number. -/
inductive ReadError where
  | notDigit
  | tooLarge
  | notReal
  deriving DecidableEq, Repr

def ReadError.message : ReadError → String
  | notDigit => "invalid digit found in string"
  | tooLarge => "number too large to fit in target type"
  | notReal => "invalid float literal"

def withoutPlus : List Char → List Char
  | '+' :: cs => cs
  | cs => cs

/-- One more digit of a number below `bound`. -/
def readDigit (bound n : Nat) (c : Char) : Except ReadError Nat :=
  if !isDigit c then .error .notDigit
  else if bound ≤ n * 10 + digitValue c then .error .tooLarge
  else .ok (n * 10 + digitValue c)

/-- A whole number below `bound`. The first bad character decides the error. -/
def readWhole (bound : Nat) (cs : List Char) : Except ReadError Nat :=
  let cs := withoutPlus cs
  if cs.isEmpty then .error .notDigit else cs.foldlM (readDigit bound) 0

theorem le_foldl_digits (cs : List Char) (n : Nat) :
    n ≤ cs.foldl (fun n c => n * 10 + digitValue c) n := by
  induction cs generalizing n with
  | nil => exact Nat.le_refl n
  | cons c cs ih =>
      have first : n ≤ n * 10 + digitValue c := by omega
      exact Nat.le_trans first (ih _)

/-- Reading goes on as long as the number stays below the bound, however many digits there are. -/
theorem foldlM_readDigit_eq_ok {bound n m : Nat} {cs : List Char} (small : n < bound)
    (all : ∀ c ∈ cs, isDigit c = true) : cs.foldlM (readDigit bound) n = .ok m ↔
      cs.foldl (fun n c => n * 10 + digitValue c) n = m ∧ m < bound := by
  induction cs generalizing n with
  | nil =>
      have done : ([].foldlM (readDigit bound) n = .ok m) ↔ n = m :=
        ⟨fun same => Except.ok.inj same, congrArg Except.ok⟩
      rw [done, List.foldl_nil]
      exact ⟨fun same => ⟨same, same ▸ small⟩, And.left⟩
  | cons c cs ih =>
      have digit : isDigit c = true := all c List.mem_cons_self
      have more := fun d member => all d (List.mem_cons_of_mem c member)
      rw [List.foldlM_cons, List.foldl_cons]
      by_cases room : n * 10 + digitValue c < bound
      · have step : readDigit bound n c = .ok (n * 10 + digitValue c) := by
          simp [readDigit, digit, Nat.not_le.2 room]
        rw [step]
        exact ih room more
      · have step : readDigit bound n c = .error .tooLarge := by
          simp [readDigit, digit, Nat.not_lt.1 room]
        have grown := le_foldl_digits cs (n * 10 + digitValue c)
        rw [step]
        constructor
        · intro read
          exact absurd read (by simp [bind, Except.bind])
        · rintro ⟨rfl, within⟩
          omega

theorem readWhole_eq_ok {bound m : Nat} {cs : List Char} (positive : 0 < bound)
    (all : ∀ c ∈ cs, isDigit c = true) :
    readWhole bound cs = .ok m ↔ cs ≠ [] ∧ value cs = m ∧ m < bound := by
  cases cs with
  | nil => simp [readWhole, withoutPlus]
  | cons c cs =>
      have unsigned : withoutPlus (c :: cs) = c :: cs := by
        unfold withoutPlus
        split
        · next plus =>
            obtain ⟨rfl, -⟩ := List.cons.inj plus
            exact absurd (all '+' List.mem_cons_self) (by decide)
        · rfl
      rw [readWhole, unsigned]
      simp only [List.isEmpty_cons, Bool.false_eq_true, if_false]
      rw [foldlM_readDigit_eq_ok positive all]
      simp [value]

/-- The double nearest to `m · 10 ^ e`. -/
def nearest (m : Nat) (e : Int) : Float :=
  let order : Int := e + (digits m).length
  if m = 0 ∨ order < -330 then 0.0
  else if 310 < order then 1.0 / 0.0
  else if e < 0 then Float.ofScientific m true e.natAbs
  else Float.ofScientific m false e.natAbs

/-- An exponent after its mark. -/
def exponent? (cs : List Char) : Option Int :=
  match cs with
  | '-' :: cs => (value? cs).map fun n => -(n : Int)
  | '+' :: cs => (value? cs).map Int.ofNat
  | cs => (value? cs).map Int.ofNat

/-- Digits with or without a point and an exponent. -/
def magnitude? (cs : List Char) : Option Float := do
  let whole := cs.takeWhile isDigit
  let rest := cs.dropWhile isDigit
  let (fraction, rest) :=
    match rest with
    | '.' :: rest => (rest.takeWhile isDigit, rest.dropWhile isDigit)
    | rest => ([], rest)
  if whole.isEmpty && fraction.isEmpty then none
  let power ←
    match rest with
    | [] => some 0
    | c :: rest => if c == 'e' || c == 'E' then exponent? rest else none
  return nearest (value (whole ++ fraction)) (power - fraction.length)

def notANumber : Float := 0.0 / 0.0

def word? (cs : List Char) : Option Float :=
  let word := String.ofList (cs.map Char.toLower)
  if word == "inf" || word == "infinity" then some (1.0 / 0.0)
  else if word == "nan" then some notANumber
  else none

/-- A real number without its sign. -/
def unsigned? (cs : List Char) : Option Float := (word? cs).or (magnitude? cs)

def readReal (cs : List Char) : Except ReadError Double :=
  let read : Option Float :=
    match cs with
    | '-' :: cs => (unsigned? cs).map fun x => -x
    | '+' :: cs => unsigned? cs
    | cs => unsigned? cs
  match read with
  | some x => .ok (Double.ofFloat x)
  | none => .error .notReal

end DialectGateway.Decimal
