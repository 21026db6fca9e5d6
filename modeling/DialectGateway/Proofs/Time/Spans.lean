/-
# Proofs.Time.Spans — which texts are spans, and of what length

A `Span` is a count and a unit, not nothing and not too long for 64 bits of milliseconds.
`Span.Spelled` is how one may be written, digits first, and `Stands` how such a text may
stand among blanks; neither mentions the functions that read. `span?_eq_ok` is that a text
is read exactly if a span stands in it, or nothing does, which means a day.

`spans_are_read` adds what happens otherwise: whoever asks with any other text is told that
the request was bad, and this includes numbers with more digits than 64 bits hold, at which
nothing wraps round. A span that is written down is read back as itself.
-/
import DialectGateway.Ledger.Report
import Mathlib.Data.List.TakeWhile

set_option autoImplicit false

namespace DialectGateway.Time

open Decimal (digits isDigit value)
open Text (isBlank)

/-! ## Spans as they are written -/

namespace Unit

def letter : Unit → Char
  | second => 's'
  | minute => 'm'
  | hour => 'h'
  | day => 'd'

/-- A unit is written as its letter, and seconds may be left unsaid. -/
inductive Spelled : Unit → List Char → Prop where
  | letter (unit : Unit) : Spelled unit [unit.letter]
  | unsaid : Spelled second []

end Unit

/-- So many units. -/
structure Span where
  count : Nat
  unit : Unit
  positive : 1 ≤ count
  within : count * unit.seconds ≤ 9223372036854775

namespace Span

def seconds (p : Span) : Nat := p.count * p.unit.seconds

/-- Digits that have the count as their value, and the unit behind them. -/
structure Spelled (p : Span) (cs : List Char) : Prop where
  spelled : ∃ ds suffix, cs = ds ++ suffix ∧ ds ≠ [] ∧ (∀ c ∈ ds, isDigit c = true) ∧
    value ds = p.count ∧ p.unit.Spelled suffix

/-- The span is all that a text has but blanks around it. -/
structure Stands (p : Span) (text : String) : Prop where
  stands : ∃ left cs right, text.toList = left ++ cs ++ right ∧ p.Spelled cs ∧
    (∀ c ∈ left, isBlank c = true) ∧ ∀ c ∈ right, isBlank c = true

end Span

/-- The length that a text gives in seconds. -/
inductive Gives (text : String) : Nat → Prop where
  | blank (blank : ∀ c ∈ text.toList, isBlank c = true) : Gives text 86400
  | span (p : Span) (stands : p.Stands text) : Gives text p.seconds

/-! ## Reading them -/

theorem Unit.ofChars?_eq_some {suffix : List Char} {unit : Unit} :
    Unit.ofChars? suffix = some unit ↔ unit.Spelled suffix := by
  constructor
  · intro found
    unfold Unit.ofChars? at found
    split at found
    · cases found
      exact .unsaid
    · cases found
      exact .letter second
    · cases found
      exact .letter minute
    · cases found
      exact .letter hour
    · cases found
      exact .letter day
    · exact absurd found (by simp)
  · intro spelled
    cases spelled with
    | letter => cases unit <;> rfl
    | unsaid => rfl

theorem Unit.span?_eq_some {n seconds : Nat} {unit : Unit} :
    Unit.span? n unit = some seconds ↔ n * unit.seconds = seconds ∧ seconds ≤ longestSpan := by
  have room : longestSpan < signedSize := by decide
  unfold Unit.span?
  split
  · simp
    omega
  · split <;> simp <;> omega

/-- Behind the digits of a span no digit follows. -/
theorem Unit.Spelled.digits {unit : Unit} {suffix : List Char} (spelled : unit.Spelled suffix) :
    suffix.takeWhile isDigit = [] ∧ suffix.dropWhile isDigit = suffix := by
  cases spelled with
  | letter => cases unit <;> exact ⟨by decide, by decide⟩
  | unsaid => exact ⟨rfl, rfl⟩

theorem ofTrimmed?_eq_ok {cs : List Char} {seconds : Nat} :
    ofTrimmed? cs = .ok seconds ↔ ∃ p : Span, p.Spelled cs ∧ p.seconds = seconds := by
  have positive : 0 < signedSize := by decide
  have digitsOnly : ∀ c ∈ cs.takeWhile isDigit, isDigit c = true :=
    List.all_eq_true.1 List.all_takeWhile
  constructor
  · intro read
    unfold ofTrimmed? at read
    split at read
    · exact absurd read (by simp)
    next n whole =>
      obtain ⟨some_, same, -⟩ := (Decimal.readWhole_eq_ok positive digitsOnly).1 whole
      split at read
      · exact absurd read (by simp)
      next nonzero =>
        split at read
        next found =>
          cases read
          obtain ⟨unit, suffix, length⟩ := Option.bind_eq_some_iff.1 found
          obtain ⟨product, within⟩ := Unit.span?_eq_some.1 length
          refine ⟨⟨n, unit, Nat.pos_of_ne_zero nonzero, product ▸ within⟩, ⟨?_⟩, product⟩
          exact ⟨_, _, List.takeWhile_append_dropWhile.symm, some_, digitsOnly, same,
            Unit.ofChars?_eq_some.1 suffix⟩
        · exact absurd read (by simp)
  · rintro ⟨p, ⟨ds, suffix, rfl, some_, all, same, spelled⟩, rfl⟩
    obtain ⟨none_, rest⟩ := spelled.digits
    have front : (ds ++ suffix).takeWhile isDigit = ds := by
      rw [List.takeWhile_append_of_pos all, none_, List.append_nil]
    have back : (ds ++ suffix).dropWhile isDigit = suffix := by
      rw [List.dropWhile_append_of_pos all, rest]
    have small : p.count < signedSize := by
      have unit : 1 ≤ p.unit.seconds := by cases p.unit <;> decide
      have product := Nat.le_mul_of_pos_right p.count unit
      have within := p.within
      have room : 9223372036854775 < signedSize := by decide
      omega
    have whole : Decimal.readWhole signedSize ds = .ok p.count :=
      (Decimal.readWhole_eq_ok positive all).2 ⟨some_, same, small⟩
    have length : Unit.span? p.count p.unit = some p.seconds :=
      Unit.span?_eq_some.2 ⟨rfl, p.within⟩
    have nonzero : p.count ≠ 0 := Nat.ne_of_gt p.positive
    simp only [ofTrimmed?, front, back, whole, if_neg nonzero, Unit.ofChars?_eq_some.2 spelled,
      Option.bind_some, length]

theorem isBlank_of_isDigit {c : Char} (digit : isDigit c = true) : isBlank c = false := by
  simp only [isDigit, Bool.and_eq_true, decide_eq_true_iff] at digit
  simp [isBlank]
  omega

theorem Unit.Spelled.solid {unit : Unit} {suffix : List Char} (spelled : unit.Spelled suffix) :
    ∀ c ∈ suffix, isBlank c = false := by
  cases spelled with
  | letter =>
      intro c member
      obtain rfl := List.mem_singleton.1 member
      cases unit <;> rfl
  | unsaid => simp

/-- No blank is in what a span is written with. -/
theorem Span.Spelled.solid {p : Span} {cs : List Char} (spelled : p.Spelled cs) :
    cs ≠ [] ∧ ∀ c ∈ cs, isBlank c = false := by
  obtain ⟨ds, suffix, rfl, some_, all, -, unit⟩ := spelled.spelled
  refine ⟨by simp [some_], ?_⟩
  intro c member
  rcases List.mem_append.1 member with digit | letter
  · exact isBlank_of_isDigit (all c digit)
  · exact unit.solid c letter

theorem trim_eq_nil {cs : List Char} : Text.trim cs = [] ↔ ∀ c ∈ cs, isBlank c = true := by
  constructor
  · intro nothing
    obtain ⟨left, right, split, before, after⟩ := Text.trim_around cs
    rw [split, nothing, List.append_nil]
    intro c member
    exact (List.mem_append.1 member).elim (before c) (after c)
  · intro blank
    have start : Text.trimStart cs = [] := List.dropWhile_eq_nil_iff.2 blank
    rw [Text.trim, start]
    rfl

/-- **A text is read exactly if it gives a length.** -/
theorem span?_eq_ok {text : String} {seconds : Nat} :
    span? text = .ok seconds ↔ Gives text seconds := by
  have default_ : ofTrimmed? defaultSpan.toList = .ok 86400 := rfl
  by_cases nothing : Text.trim text.toList = []
  · have blank := trim_eq_nil.1 nothing
    have read : span? text = .ok 86400 := by
      simp only [span?, nothing, List.isEmpty_nil, if_true, default_]
    rw [read]
    constructor
    · intro same
      cases same
      exact .blank blank
    · intro gives
      cases gives with
      | blank => rfl
      | span p stands =>
          obtain ⟨left, cs, right, split, spelled, -, -⟩ := stands.stands
          obtain ⟨some_, solid⟩ := spelled.solid
          obtain ⟨c, member⟩ := List.exists_mem_of_ne_nil cs some_
          have inside : c ∈ text.toList := by simp [split, member]
          exact absurd (blank c inside) (by simp [solid c member])
  · have read : span? text = ofTrimmed? (Text.trim text.toList) := by
      simp only [span?, List.isEmpty_eq_false_iff.2 nothing, Bool.false_eq_true, if_false]
    rw [read, ofTrimmed?_eq_ok]
    constructor
    · rintro ⟨p, spelled, rfl⟩
      obtain ⟨left, right, split, before, after⟩ := Text.trim_around text.toList
      exact .span p ⟨left, _, right, split, spelled, before, after⟩
    · intro gives
      cases gives with
      | blank blank => exact absurd (trim_eq_nil.2 blank) nothing
      | span p stands =>
          obtain ⟨left, cs, right, split, spelled, before, after⟩ := stands.stands
          obtain ⟨some_, solid⟩ := spelled.solid
          have cut : Text.trim text.toList = cs := by
            rw [split]
            refine Text.trim_padded before after some_ fun c place => solid c ?_
            exact place.elim List.mem_of_head? List.mem_of_getLast?
          exact ⟨p, cut ▸ spelled, rfl⟩

/-! ## What becomes of any text -/

theorem Gives.within {text : String} {seconds : Nat} (gives : Gives text seconds) :
    seconds ≤ 9223372036854775 := by
  cases gives with
  | blank => decide
  | span p => exact p.within

/-- Who asks with a text that gives no length has asked badly. -/
theorem recentEntries_of_not_gives {text : String} (none_ : ∀ seconds, ¬ Gives text seconds) :
    ∃ e, span? text = .error e ∧
      ∀ ledger now, Ledger.recentEntries ledger now text = .error (.badRequest e.message) := by
  cases read : span? text with
  | ok seconds => exact absurd (span?_eq_ok.1 read) (none_ seconds)
  | error e =>
      refine ⟨e, rfl, ?_⟩
      intro ledger now
      rw [Ledger.recentEntries, read]

/-- A span stands in its own spelling. -/
theorem Span.stands_spelled (p : Span) {suffix : List Char} (unit : p.unit.Spelled suffix) :
    p.Stands (String.ofList (digits p.count ++ suffix)) where
  stands := by
    refine ⟨[], digits p.count ++ suffix, [], ?_, ⟨?_⟩, by simp, by simp⟩
    · rw [String.toList_ofList, List.nil_append, List.append_nil]
    · have all : ∀ c ∈ digits p.count, isDigit c = true :=
        List.all_eq_true.1 (Decimal.all_isDigit_digits p.count)
      exact ⟨digits p.count, suffix, rfl, Decimal.digits_ne_nil p.count, all,
        Decimal.value_digits p.count, unit⟩

/-- **Spans are read, and nothing else is**: a text has a length exactly if nothing but a span
stands in it, or nothing at all, and the length is that of the span; any other text, however many
digits it has, is a bad request. No length outgrows 64 bits of milliseconds, and a span that is
written down has its own length again. -/
theorem spans_are_read :
    (∀ text seconds, span? text = .ok seconds ↔ Gives text seconds) ∧
    (∀ text, (∀ seconds, ¬ Gives text seconds) ↔ ∃ e, span? text = .error e ∧
      ∀ ledger now, Ledger.recentEntries ledger now text = .error (.badRequest e.message)) ∧
    (∀ text seconds, span? text = .ok seconds → seconds * 1000 < signedSize) ∧
    ∀ (p : Span) (suffix : List Char), p.unit.Spelled suffix →
      span? (String.ofList (digits p.count ++ suffix)) = .ok p.seconds := by
  refine ⟨fun _ _ => span?_eq_ok, ?_, ?_, ?_⟩
  · intro text
    refine ⟨recentEntries_of_not_gives, ?_⟩
    rintro ⟨e, refused, -⟩ seconds gives
    rw [span?_eq_ok.2 gives] at refused
    exact absurd refused (by simp)
  · intro text seconds read
    have within := (span?_eq_ok.1 read).within
    have room : longestSpan * 1000 < signedSize := by decide
    exact Nat.lt_of_le_of_lt (Nat.mul_le_mul_right 1000 within) room
  · intro p suffix unit
    exact span?_eq_ok.2 (.span p (p.stands_spelled unit))

/-- The longest span in seconds, and one day more than fit. -/
theorem spans_are_read_longest :
    Unit.Spelled .second [] ∧
    span? (String.ofList (digits 9223372036854775 ++ [])) = .ok 9223372036854775 ∧
    ∀ seconds, ¬ Gives "106751991168d" seconds := by
  obtain ⟨read, -, -, back⟩ := spans_are_read
  refine ⟨.unsaid, back ⟨9223372036854775, .second, by decide, by decide⟩ [] .unsaid, ?_⟩
  intro seconds gives
  have refused : span? "106751991168d" = .error (.malformed "106751991168d") := by rfl
  rw [(read _ _).2 gives] at refused
  exact absurd refused (by simp)

end DialectGateway.Time
