/-
# Proofs.Settings.Template — a settings text is filled in at its marks

A template is a text in which marks stand, each a variable's name with a default or none
(`Template`). Between the marks there is no dollar sign with an opening brace behind it, and
that is all that is asked of what stands next to them: dollar signs, braces, colons and hyphens
may. Filling in puts the value of each mark's variable, or else its default, in the mark's place
and leaves the rest alone (`expandText_text`).

Reading from the left, a mark is found where it begins (`placeholder?_written`) and nothing is
found before it (`expand_plain`). What was put in is not read again, so values are not expanded.
-/
import DialectGateway.Settings.Placeholder
import Mathlib.Data.List.Basic
import Mathlib.Data.List.Infix
import Mathlib.Data.List.TakeWhile

set_option autoImplicit false

namespace DialectGateway.Settings

/-! ## Templates -/

/-- How a default is written behind a name. -/
inductive Fallback where
  | absent
  | afterColon (dflt : List Char)
  | afterHyphen (dflt : List Char)
  deriving DecidableEq, Repr

namespace Fallback

def written : Fallback → List Char
  | absent => []
  | afterColon dflt => ':' :: dflt
  | afterHyphen dflt => ':' :: '-' :: dflt

def dflt : Fallback → List Char
  | absent => []
  | afterColon dflt | afterHyphen dflt => dflt

/-- Behind a mere colon a hyphen would not belong to the default. -/
def Apart : Fallback → Prop
  | afterColon dflt => dflt.head? ≠ some '-'
  | absent | afterHyphen _ => True

instance : DecidablePred Apart
  | afterColon dflt => inferInstanceAs (Decidable (dflt.head? ≠ some '-'))
  | absent | afterHyphen _ => .isTrue trivial

end Fallback

/-- A placeholder as it is written. -/
structure Mark where
  name : List Char
  fallback : Fallback := .absent
  deriving DecidableEq, Repr

namespace Mark

def written (m : Mark) : List Char :=
  '$' :: '{' :: (m.name ++ m.fallback.written ++ ['}'])

/-- The value of the variable if it is set, though it may be empty, and the default otherwise. -/
def value (m : Mark) (vars : Variables) : List Char :=
  ((vars.lookup (String.ofList m.name)).map String.toList).getD m.fallback.dflt

/-- The name begins with a letter and goes on with letters and digits, and no closing brace is in
the default. -/
structure Proper (m : Mark) : Prop where
  begins : m.name.head?.any isLetter = true
  name : ∀ c ∈ m.name, isNameChar c = true
  closed : '}' ∉ m.fallback.dflt
  apart : m.fallback.Apart

instance : DecidablePred Proper := fun m =>
  decidable_of_iff (m.name.head?.any isLetter = true ∧ m.name.all isNameChar = true ∧
      '}' ∉ m.fallback.dflt ∧ m.fallback.Apart)
    ⟨fun ⟨begins, name, closed, apart⟩ => ⟨begins, List.all_eq_true.1 name, closed, apart⟩,
      fun ⟨begins, name, closed, apart⟩ => ⟨begins, List.all_eq_true.2 name, closed, apart⟩⟩

end Mark

/-- Nothing in the text looks like the beginning of a mark. -/
def Plain (text : List Char) : Prop := ¬ ['$', '{'] <:+: text

instance : DecidablePred Plain := fun text => inferInstanceAs (Decidable (¬ ['$', '{'] <:+: text))

/-- A text, and marks with the texts behind them. -/
structure Template where
  lead : List Char
  parts : List (Mark × List Char)
  deriving DecidableEq, Repr

def writtenParts (parts : List (Mark × List Char)) : List Char :=
  parts.flatMap fun (mark, text) => mark.written ++ text

def filledParts (vars : Variables) (parts : List (Mark × List Char)) : List Char :=
  parts.flatMap fun (mark, text) => mark.value vars ++ text

namespace Template

def text (t : Template) : String := String.ofList (t.lead ++ writtenParts t.parts)

/-- The text with a value in the place of each mark. -/
def filled (t : Template) (vars : Variables) : String :=
  String.ofList (t.lead ++ filledParts vars t.parts)

structure Proper (t : Template) : Prop where
  lead : Plain t.lead
  marks : ∀ part ∈ t.parts, part.1.Proper
  texts : ∀ part ∈ t.parts, Plain part.2

instance : DecidablePred Proper := fun t =>
  decidable_of_iff (Plain t.lead ∧ (∀ part ∈ t.parts, part.1.Proper) ∧
      ∀ part ∈ t.parts, Plain part.2)
    ⟨fun ⟨lead, marks, texts⟩ => ⟨lead, marks, texts⟩,
      fun ⟨lead, marks, texts⟩ => ⟨lead, marks, texts⟩⟩

end Template

/-! ## Marks are found -/

theorem takeWhile_append_cons {A : Type} {p : A → Bool} {as : List A} {b : A}
    (all : ∀ a ∈ as, p a = true) (stop : p b = false) (rest : List A) :
    (as ++ b :: rest).takeWhile p = as ∧ (as ++ b :: rest).dropWhile p = b :: rest := by
  constructor
  · rw [List.takeWhile_append_of_pos all, List.takeWhile_cons_of_neg (by simp [stop]),
      List.append_nil]
  · rw [List.dropWhile_append_of_pos all, List.dropWhile_cons_of_neg (by simp [stop])]

/-- A default is read up to the brace that closes it. -/
theorem default?_colon {cs dflt rest : List Char} (behind : withoutHyphen cs = dflt ++ '}' :: rest)
    (closed : '}' ∉ dflt) : default? (':' :: cs) = some (dflt, rest) := by
  have open_ : ∀ c ∈ dflt, (c != '}') = true := by
    intro c member
    rw [bne_iff_ne]
    rintro rfl
    exact closed member
  obtain ⟨taken, left⟩ := takeWhile_append_cons open_ (b := '}') (by decide) rest
  rw [default?, behind]
  simp only [taken, left]

theorem default?_written {m : Mark} (proper : m.Proper) (rest : List Char) :
    default? (m.fallback.written ++ '}' :: rest) = some (m.fallback.dflt, rest) := by
  obtain ⟨name, fallback⟩ := m
  cases fallback with
  | absent => rfl
  | afterColon dflt =>
      refine default?_colon ?_ proper.closed
      have first : dflt.head? ≠ some '-' := proper.apart
      unfold withoutHyphen
      split
      · next hyphen =>
          cases dflt with
          | nil => exact absurd hyphen (by simp)
          | cons c tail => exact absurd (congrArg List.head? hyphen) (by simpa using first)
      · rfl
  | afterHyphen dflt => exact default?_colon rfl proper.closed

/-- **A mark is found where it begins**, and reading goes on behind it. -/
theorem placeholder?_written {m : Mark} (proper : m.Proper) (rest : List Char) :
    placeholder? (m.written ++ rest) = some (⟨m.name, m.fallback.dflt⟩, rest) := by
  have ends : ∃ c more, m.fallback.written ++ '}' :: rest = c :: more ∧ isNameChar c = false := by
    cases m.fallback with
    | absent => exact ⟨'}', rest, rfl, by decide⟩
    | afterColon | afterHyphen => exact ⟨':', _, rfl, by decide⟩
  obtain ⟨c, more, same, stop⟩ := ends
  obtain ⟨taken, left⟩ := takeWhile_append_cons proper.name stop more
  have shape : m.written ++ rest = '$' :: '{' :: (m.name ++ c :: more) := by
    rw [Mark.written, ← same]
    simp
  rw [shape, placeholder?, taken, left, if_pos proper.begins, ← same, default?_written proper]
  rfl

/-- Nothing is found where no mark can begin. -/
theorem placeholder?_eq_none {cs : List Char} (other : ¬ ['$', '{'] <+: cs) :
    placeholder? cs = none := by
  unfold placeholder?
  split
  · exact absurd (List.prefix_append ['$', '{'] _) other
  · rfl

/-! ## Texts are filled in -/

theorem Mark.value_placeholder (m : Mark) (vars : Variables) :
    Placeholder.value ⟨m.name, m.fallback.dflt⟩ vars = m.value vars := by
  unfold Placeholder.value Mark.value
  cases vars.lookup (String.ofList m.name) <;> rfl

theorem expand_written {m : Mark} (proper : m.Proper) (vars : Variables) (rest : List Char) :
    expand vars (m.written ++ rest) = m.value vars ++ expand vars rest := by
  have found := placeholder?_written proper rest
  rw [expand]
  split
  · next p rest' found' =>
      rw [found] at found'
      cases found'
      rw [Mark.value_placeholder]
  · next none_ =>
      rw [found] at none_
      exact absurd none_ (by simp)

/-- No mark begins in a plain text, nor at its end unless a brace is behind it. -/
theorem Plain.not_begun {c : Char} {text rest : List Char} (plain : Plain (c :: text))
    (behind : rest.head? ≠ some '{') : ¬ ['$', '{'] <+: c :: text ++ rest := by
  rintro ⟨more, begins⟩
  cases text with
  | nil =>
      have next : rest = '{' :: more := (List.cons.inj begins).2.symm
      exact behind (by rw [next]; rfl)
  | cons d text =>
      obtain ⟨rfl, rfl⟩ : '$' = c ∧ '{' = d := by
        have heads := List.cons.inj begins
        exact ⟨heads.1, (List.cons.inj heads.2).1⟩
      exact plain (List.prefix_append ['$', '{'] text).isInfix

/-- **What is plain stays**, unless a brace is behind it. -/
theorem expand_plain {text rest : List Char} (plain : Plain text) (behind : rest.head? ≠ some '{')
    (vars : Variables) : expand vars (text ++ rest) = text ++ expand vars rest := by
  induction text with
  | nil => rfl
  | cons c text ih =>
      have later : Plain text := fun within =>
        plain (within.trans (List.suffix_cons c text).isInfix)
      have nothing := placeholder?_eq_none (plain.not_begun behind)
      rw [expand]
      split
      · next found =>
          rw [nothing] at found
          exact absurd found (by simp)
      · exact congrArg (c :: ·) (ih later)

/-- Behind a text stands a mark or nothing. -/
theorem head?_writtenParts (parts : List (Mark × List Char)) :
    (writtenParts parts).head? ≠ some '{' := by
  cases parts with
  | nil => simp [writtenParts]
  | cons part parts => simp [writtenParts, Mark.written]

theorem expand_writtenParts {parts : List (Mark × List Char)}
    (marks : ∀ part ∈ parts, part.1.Proper) (texts : ∀ part ∈ parts, Plain part.2)
    (vars : Variables) : expand vars (writtenParts parts) = filledParts vars parts := by
  induction parts with
  | nil =>
      rw [writtenParts, List.flatMap_nil, expand]
      rfl
  | cons part parts ih =>
      obtain ⟨mark, text⟩ := part
      have proper := marks (mark, text) List.mem_cons_self
      have plain := texts (mark, text) List.mem_cons_self
      have later := ih (fun part member => marks part (List.mem_cons_of_mem _ member))
        fun part member => texts part (List.mem_cons_of_mem _ member)
      calc expand vars (writtenParts ((mark, text) :: parts))
          = expand vars (mark.written ++ (text ++ writtenParts parts)) := by
            rw [writtenParts, List.flatMap_cons, List.append_assoc]
            rfl
        _ = mark.value vars ++ (text ++ expand vars (writtenParts parts)) := by
            rw [expand_written proper, expand_plain plain (head?_writtenParts parts)]
        _ = filledParts vars ((mark, text) :: parts) := by
            rw [later, filledParts, filledParts, List.flatMap_cons, List.append_assoc]

/-- What is filled in depends on the variables that the marks name. -/
theorem filledParts_congr {vars vars' : Variables} {parts : List (Mark × List Char)}
    (same : ∀ part ∈ parts, vars'.lookup (String.ofList part.1.name) =
      vars.lookup (String.ofList part.1.name)) :
    filledParts vars' parts = filledParts vars parts := by
  refine List.flatMap_congr fun part member => ?_
  obtain ⟨mark, text⟩ := part
  show mark.value vars' ++ text = mark.value vars ++ text
  rw [Mark.value, same (mark, text) member, Mark.value]

/-- **A template is filled in**: each mark gives way to the value of its variable, or to its default
if that is not set, all else stays as it is, and no value is looked at again. No other variable
matters. -/
theorem expandText_text {t : Template} (proper : t.Proper) (vars : Variables) :
    expandText vars t.text = t.filled vars ∧
    ∀ vars' : Variables, (∀ part ∈ t.parts, vars'.lookup (String.ofList part.1.name) =
        vars.lookup (String.ofList part.1.name)) →
      expandText vars' t.text = expandText vars t.text := by
  have whole (vars : Variables) : expandText vars t.text = t.filled vars := by
    rw [expandText, Template.text, String.toList_ofList,
      expand_plain proper.lead (head?_writtenParts t.parts),
      expand_writtenParts proper.marks proper.texts]
    rfl
  refine ⟨whole vars, ?_⟩
  intro vars' same
  rw [whole vars', whole vars, Template.filled, filledParts_congr same]
  rfl

/-- Dollar signs and braces next to the marks, as in `a$${A:--x}}{:${_B2:${}${C}$${D:d}}$`. -/
def crowded : Template where
  lead := "a$".toList
  parts := [
    (⟨"A".toList, .afterHyphen "-x".toList⟩, "\x7d\x7b:".toList),
    (⟨"_B2".toList, .afterColon "$\x7b".toList⟩, []),
    (⟨"C".toList, .absent⟩, "$".toList),
    (⟨"D".toList, .afterColon "d".toList⟩, "\x7d$".toList)]

/-- A default may begin with a hyphen, a value that looks like a mark is put in as it is, and so is
the empty text. -/
theorem expandText_text_crowded : crowded.Proper ∧
    crowded.text = "a$$\x7bA:--x\x7d\x7d\x7b:$\x7b_B2:$\x7b\x7d$\x7bC\x7d$$\x7bD:d\x7d\x7d$" ∧
    expandText [("C", "$\x7bA\x7d"), ("D", "")] crowded.text =
      "a$-x\x7d\x7b:$\x7b$\x7bA\x7d$\x7d$" := by
  have proper : crowded.Proper := by decide +kernel
  refine ⟨proper, by rfl, ?_⟩
  rw [(expandText_text proper _).1]
  rfl

end DialectGateway.Settings
