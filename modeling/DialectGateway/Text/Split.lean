/-
# Text.Split — cutting texts at separators

Lines, blocks between blank lines, and comma lists. Every splitter keeps what it
cuts: joining the parts gives the text back.
-/

set_option autoImplicit false

namespace DialectGateway.Text

/-- Puts a character before the first part. -/
def consFirst (c : Char) : List (List Char) → List (List Char)
  | [] => [[c]]
  | part :: parts => (c :: part) :: parts

/-- The parts between the separators; a text without one is its own only part. -/
def splitAt (sep : Char) : List Char → List (List Char)
  | [] => [[]]
  | c :: cs => if c = sep then [] :: splitAt sep cs else consFirst c (splitAt sep cs)

/-- The parts between pairs of line feeds, the pairs taken from the left. -/
def blocks : List Char → List (List Char)
  | '\n' :: '\n' :: cs => [] :: blocks cs
  | c :: cs => consFirst c (blocks cs)
  | [] => [[]]

/-- Every carriage return before a line feed is left out. -/
def unifyBreaks : List Char → List Char
  | '\r' :: '\n' :: cs => '\n' :: unifyBreaks cs
  | c :: cs => c :: unifyBreaks cs
  | [] => []

/-- Parts joined with a separator between each two. -/
def joinWith (sep : List Char) : List (List Char) → List Char
  | [] => []
  | [part] => part
  | part :: parts => part ++ sep ++ joinWith sep parts

/-- A line that a line feed has ended loses one carriage return at its end. -/
def chomp (line : List Char) : List Char :=
  if line.getLast? = some '\r' then line.dropLast else line

/-- The lines of a text. What follows the last line feed is a line only if it is
not empty, and keeps its carriage return. -/
def lines (cs : List Char) : List (List Char) :=
  let parts := splitAt '\n' cs
  parts.dropLast.map chomp ++ (parts.getLast?.toList.filter (!·.isEmpty))

/-- The rest of a text that starts with `lead`. -/
def after? (lead : List Char) (cs : List Char) : Option (List Char) :=
  if lead.isPrefixOf cs then some (cs.drop lead.length) else none

/-- Texts joined with a separator between each two. -/
def joinTexts (sep : String) (parts : List String) : String :=
  String.intercalate sep parts

theorem after?_eq_some {lead cs rest : List Char} :
    after? lead cs = some rest ↔ cs = lead ++ rest := by
  rw [after?]
  constructor
  · intro found
    split at found
    · next starts =>
      obtain ⟨behind, rfl⟩ := List.isPrefixOf_iff_prefix.1 starts
      simpa using found
    · exact absurd found (by simp)
  · rintro rfl
    simp

theorem after?_append (lead cs : List Char) : after? lead (lead ++ cs) = some cs :=
  after?_eq_some.2 rfl

/-! ## Splitting in parts -/

theorem consFirst_ne_nil (c : Char) (parts : List (List Char)) : consFirst c parts ≠ [] := by
  cases parts <;> exact List.cons_ne_nil _ _

theorem consFirst_append (c : Char) {left : List (List Char)} (some_ : left ≠ [])
    (right : List (List Char)) : consFirst c (left ++ right) = consFirst c left ++ right := by
  cases left with
  | nil => exact absurd rfl some_
  | cons part parts => rfl

theorem blocks_ne_nil (cs : List Char) : blocks cs ≠ [] := by
  fun_cases blocks cs with
  | case1 cs => exact List.cons_ne_nil _ _
  | case2 c cs _ => exact consFirst_ne_nil _ _
  | case3 => exact List.cons_ne_nil _ _

theorem splitAt_ne_nil (sep : Char) (cs : List Char) : splitAt sep cs ≠ [] := by
  cases cs with
  | nil => exact List.cons_ne_nil _ _
  | cons c cs =>
    rw [splitAt]
    split
    · exact List.cons_ne_nil _ _
    · exact consFirst_ne_nil _ _

theorem lines_lineFeed (cs : List Char) : lines ('\n' :: cs) = [] :: lines cs := by
  have parts : splitAt '\n' ('\n' :: cs) = [] :: splitAt '\n' cs := by simp [splitAt]
  simp only [lines, parts, List.dropLast_cons_of_ne_nil (splitAt_ne_nil '\n' cs), List.map_cons,
    List.getLast?_cons, List.cons_append]
  rw [List.getLast?_eq_some_getLast (splitAt_ne_nil '\n' cs)]
  rfl

/-- A pair of line feeds cuts a text for good. Of the pair's own line feeds one may be left to the
part behind it. -/
theorem blocks_append (before : List Char) : ∃ parts tail, parts ≠ [] ∧
    (tail = [] ∨ tail = ['\n']) ∧ ∀ after,
      blocks (before ++ '\n' :: '\n' :: after) = parts ++ blocks (tail ++ after) := by
  fun_induction blocks before with
  | case1 cs ih =>
    obtain ⟨parts, tail, some_, short, cut⟩ := ih
    refine ⟨[] :: parts, tail, List.cons_ne_nil _ _, short, ?_⟩
    intro after
    simp only [List.cons_append, blocks, cut after]
  | case2 c cs apart ih =>
    obtain ⟨parts, tail, some_, short, cut⟩ := ih
    cases cs with
    | nil =>
      by_cases feed : c = '\n'
      · refine ⟨[[]], ['\n'], List.cons_ne_nil _ _, .inr rfl, ?_⟩
        intro after
        rw [feed]
        exact blocks.eq_1 _
      · refine ⟨[[c]], [], List.cons_ne_nil _ _, .inl rfl, ?_⟩
        intro after
        rw [List.nil_append, List.cons_append, List.nil_append, blocks, blocks]
        · rfl
        · exact fun _ isFeed _ => feed isFeed
    | cons d cs =>
      refine ⟨consFirst c parts, tail, consFirst_ne_nil _ _, short, ?_⟩
      intro after
      rw [← consFirst_append c some_, ← cut after, List.cons_append, blocks]
      intro rest isFeed more
      exact apart cs isFeed (by simp_all)
  | case3 =>
    refine ⟨[[]], [], List.cons_ne_nil _ _, .inl rfl, ?_⟩
    intro after
    simp [blocks]

/-- Unifying the line breaks of a text leaves its line feeds where they are. -/
theorem unifyBreaks_append (before : List Char) : ∃ before', ∀ after,
    unifyBreaks (before ++ '\n' :: after) = before' ++ '\n' :: unifyBreaks after := by
  fun_induction unifyBreaks before with
  | case1 cs ih =>
    obtain ⟨before', kept⟩ := ih
    refine ⟨'\n' :: before', ?_⟩
    intro after
    simp only [List.cons_append, unifyBreaks, kept after]
  | case2 c cs apart ih =>
    obtain ⟨before', kept⟩ := ih
    cases cs with
    | nil =>
      by_cases ret : c = '\r'
      · refine ⟨[], ?_⟩
        intro after
        rw [ret]
        exact unifyBreaks.eq_1 _
      · refine ⟨[c], ?_⟩
        intro after
        rw [List.cons_append, List.nil_append, unifyBreaks, unifyBreaks]
        · rfl
        · simp
        · exact fun _ isReturn _ => ret isReturn
    | cons d cs =>
      refine ⟨c :: before', ?_⟩
      intro after
      rw [List.cons_append, List.cons_append, List.cons_append, unifyBreaks, ← List.cons_append,
        kept after]
      intro rest isReturn more
      exact apart cs isReturn (by simp_all)
  | case3 =>
    refine ⟨[], ?_⟩
    intro after
    simp [unifyBreaks]

end DialectGateway.Text
