/-
# Time.Instant — moments, and their spelling

An instant is a count of seconds since 1970 in UTC and the nanoseconds after it.
A leap second shares its second count with the second before and has a billion
nanoseconds more. Instants are ordered by seconds, then nanoseconds.

`ofDate` counts days in the proleptic Gregorian calendar; `ofRfc3339?` reads the
usual spelling and `rfc3339` writes it in UTC.
-/
import DialectGateway.Text.Blank
import DialectGateway.Decimal.Digits

set_option autoImplicit false

namespace DialectGateway.Time

open Decimal (isDigit)

structure Instant where
  seconds : Int
  nanos : Nat := 0
  deriving DecidableEq, Repr

namespace Instant

def le (a b : Instant) : Bool :=
  a.seconds < b.seconds || (a.seconds == b.seconds && a.nanos ≤ b.nanos)

def lt (a b : Instant) : Bool := !b.le a

theorem le_iff {a b : Instant} :
    a.le b = true ↔ a.seconds < b.seconds ∨ a.seconds = b.seconds ∧ a.nanos ≤ b.nanos := by
  simp [le]

theorem lt_iff {a b : Instant} : a.lt b = true ↔ ¬b.le a = true := by
  simp [lt]

/-- The first and the last second that an instant may have. -/
def firstSecond : Int := -8334601228800

def lastSecond : Int := 8210266876799

def inRange (seconds : Int) : Bool := firstSecond ≤ seconds && seconds ≤ lastSecond

/-- The instant so many seconds before, if there is one. -/
def before? (t : Instant) (seconds : Int) : Option Instant :=
  if inRange (t.seconds - seconds) then some ⟨t.seconds - seconds, t.nanos⟩ else none

end Instant

/-! ## The calendar -/

def isLeap (year : Int) : Bool := year % 4 == 0 && (year % 100 != 0 || year % 400 == 0)

def daysIn (year : Int) (month : Nat) : Nat :=
  if month = 2 then (if isLeap year then 29 else 28)
  else if month = 4 ∨ month = 6 ∨ month = 9 ∨ month = 11 then 30
  else 31

/-- Days from 1970-01-01 to a date. Years are counted from March, so that the leap
day is the last of its year. -/
def daysOf (year : Int) (month day : Nat) : Int :=
  let y := if month ≤ 2 then year - 1 else year
  let era := y.fdiv 400
  let yearOfEra := y - era * 400
  let monthFromMarch : Int := ((month + 9) % 12 : Nat)
  let dayOfYear := (153 * monthFromMarch + 2) / 5 + (day : Int) - 1
  era * 146097 + (yearOfEra * 365 + yearOfEra / 4 - yearOfEra / 100 + dayOfYear) - 719468

/-- The date so many days after 1970-01-01: year, month, day. -/
def dateOf (days : Int) : Int × Nat × Nat :=
  let z := days + 719468
  let era := z.fdiv 146097
  let dayOfEra := z - era * 146097
  let yearOfEra := (dayOfEra - dayOfEra / 1460 + dayOfEra / 36524 - dayOfEra / 146096) / 365
  let dayOfYear := dayOfEra - (365 * yearOfEra + yearOfEra / 4 - yearOfEra / 100)
  let monthFromMarch := (5 * dayOfYear + 2) / 153
  let day := dayOfYear - (153 * monthFromMarch + 2) / 5 + 1
  let month := if monthFromMarch < 10 then monthFromMarch + 3 else monthFromMarch - 9
  let year := yearOfEra + era * 400
  (if month ≤ 2 then year + 1 else year, month.toNat, day.toNat)

/-! ## Reading -/

/-- Exactly `n` digits. -/
def takeDigits (n : Nat) (cs : List Char) : Option (Nat × List Char) :=
  let ds := cs.take n
  if ds.length = n ∧ ds.all isDigit then some (Decimal.value ds, cs.drop n) else none

def takeChar (allowed : Char → Bool) : List Char → Option (List Char)
  | c :: cs => if allowed c then some cs else none
  | [] => none

/-- A fraction of a second, if there is one: its first nine digits count. -/
def takeFraction : List Char → Option (Nat × List Char)
  | '.' :: cs =>
    let ds := cs.takeWhile isDigit
    if ds.isEmpty then none
    else
      let kept := ds.take 9
      some (Decimal.value kept * Nat.pow 10 (9 - kept.length), cs.dropWhile isDigit)
  | cs => some (0, cs)

/-- The distance to UTC in seconds, at the end of a text. The minus may be a
hyphen or the minus sign proper. -/
def offset? : List Char → Option Int
  | ['Z'] | ['z'] => some 0
  | sign :: cs => do
    let negative ←
      if sign = '+' then some false
      else if sign = '-' ∨ sign = '−' then some true
      else none
    let (hours, cs) ← takeDigits 2 cs
    let cs ← takeChar (· == ':') cs
    let (minutes, cs) ← takeDigits 2 cs
    if cs.isEmpty ∧ hours ≤ 23 ∧ minutes ≤ 59 then
      let distance : Int := hours * 3600 + minutes * 60
      pure (if negative then -distance else distance)
    else none
  | [] => none

/-- The instant that an RFC 3339 text spells. Date and time may stand apart by a
blank, and any second may be followed by a leap second. -/
def ofRfc3339? (cs : List Char) : Option Instant := do
  let (year, cs) ← takeDigits 4 cs
  let cs ← takeChar (· == '-') cs
  let (month, cs) ← takeDigits 2 cs
  let cs ← takeChar (· == '-') cs
  let (day, cs) ← takeDigits 2 cs
  let cs ← takeChar (fun c => c == 'T' || c == 't' || c == ' ') cs
  let (hour, cs) ← takeDigits 2 cs
  let cs ← takeChar (· == ':') cs
  let (minute, cs) ← takeDigits 2 cs
  let cs ← takeChar (· == ':') cs
  let (second, cs) ← takeDigits 2 cs
  let (nanos, cs) ← takeFraction cs
  let offset ← offset? cs
  if 1 ≤ month ∧ month ≤ 12 ∧ 1 ≤ day ∧ day ≤ daysIn year month ∧ hour ≤ 23 ∧ minute ≤ 59 ∧
      second ≤ 60 then
    let leap := second = 60
    let seconds : Int := hour * 3600 + minute * 60 + (if leap then 59 else second : Nat)
    pure ⟨daysOf year month day * 86400 + seconds - offset,
      if leap then nanos + 1000000000 else nanos⟩
  else none

/-- A whole number of 64 bits with an optional sign. -/
def signed64? (cs : List Char) : Option Int := do
  let (negative, ds) := match cs with
    | '-' :: ds => (true, ds)
    | '+' :: ds => (false, ds)
    | ds => (false, ds)
  let n ← Decimal.value? ds
  let v : Int := if negative then -(n : Int) else n
  if -9223372036854775808 ≤ v ∧ v < 9223372036854775808 then pure v else none

/-- A moment given as seconds since 1970 or in RFC 3339, blanks around it aside. -/
def moment? (cs : List Char) : Option Instant :=
  let cs := Text.trim cs
  match signed64? cs with
  | some seconds => if Instant.inRange seconds then some ⟨seconds, 0⟩ else none
  | none => ofRfc3339? cs

/-! ## Writing -/

/-- The fraction in as few groups of three digits as hold it. -/
def fractionText (nanos : Nat) : List Char :=
  if nanos = 0 then []
  else if nanos % 1000000 = 0 then '.' :: Decimal.padded 3 (nanos / 1000000)
  else if nanos % 1000 = 0 then '.' :: Decimal.padded 6 (nanos / 1000)
  else '.' :: Decimal.padded 9 nanos

/-- A year in four digits, with a sign if it needs more or is negative. -/
def yearText (year : Int) : List Char :=
  if 0 ≤ year ∧ year ≤ 9999 then Decimal.padded 4 year.toNat
  else (if year < 0 then '-' else '+') :: Decimal.padded 4 year.natAbs

/-- The spelling of an instant in UTC. -/
def Instant.rfc3339 (t : Instant) : String :=
  let days := t.seconds.fdiv 86400
  let rest := (t.seconds - days * 86400).toNat
  let (year, month, day) := dateOf days
  let second := rest % 60 + t.nanos / 1000000000
  String.ofList (
    yearText year ++ '-' :: Decimal.padded 2 month ++ '-' :: Decimal.padded 2 day ++
    'T' :: Decimal.padded 2 (rest / 3600) ++ ':' :: Decimal.padded 2 (rest / 60 % 60) ++
    ':' :: Decimal.padded 2 second ++ fractionText (t.nanos % 1000000000) ++ ['Z'])

end DialectGateway.Time
