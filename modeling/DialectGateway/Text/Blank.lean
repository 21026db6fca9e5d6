/-
# Text.Blank — the characters that count as blank at the ends of a text

The blank characters are those of the Unicode property `White_Space`. A text is
trimmed at both ends and nothing inside it changes.
-/

set_option autoImplicit false

namespace DialectGateway.Text

/-- The Unicode property `White_Space`. -/
def isBlank (c : Char) : Bool :=
  let n := c.toNat
  (9 ≤ n && n ≤ 13) || n == 0x20 || n == 0x85 || n == 0xA0 || n == 0x1680 ||
    (0x2000 ≤ n && n ≤ 0x200A) || n == 0x2028 || n == 0x2029 || n == 0x202F ||
    n == 0x205F || n == 0x3000

def trimStart (cs : List Char) : List Char := cs.dropWhile isBlank

def trimEnd (cs : List Char) : List Char := (cs.reverse.dropWhile isBlank).reverse

def trim (cs : List Char) : List Char := trimEnd (trimStart cs)

/-- The text without the blanks at its ends. -/
def trimmed (s : String) : String := String.ofList (trim s.toList)

/-- Blank at every character, the empty text included. -/
def isBlankText (s : String) : Bool := s.toList.all isBlank

@[simp] theorem trimStart_nil : trimStart [] = [] := rfl

theorem trimStart_cons_of_not_blank {c : Char} {cs : List Char} (h : isBlank c = false) :
    trimStart (c :: cs) = c :: cs := by
  simp [trimStart, List.dropWhile, h]

/-- A text without blanks at its ends is trimmed already. -/
theorem trim_eq_self {cs : List Char}
    (ends : ∀ c, cs.head? = some c ∨ cs.getLast? = some c → isBlank c = false) : trim cs = cs := by
  have kept {cs : List Char} (first : ∀ c, cs.head? = some c → isBlank c = false) :
      cs.dropWhile isBlank = cs := by
    cases cs with
    | nil => rfl
    | cons c cs => exact trimStart_cons_of_not_blank (first c rfl)
  have last : ∀ c, cs.reverse.head? = some c → isBlank c = false := by
    intro c first
    rw [List.head?_reverse] at first
    exact ends c (.inr first)
  rw [trim, trimEnd, trimStart, kept fun c first => ends c (.inl first), kept last,
    List.reverse_reverse]

/-- What is trimmed off is blank. -/
theorem trim_around (cs : List Char) : ∃ left right, cs = left ++ trim cs ++ right ∧
    (∀ c ∈ left, isBlank c = true) ∧ ∀ c ∈ right, isBlank c = true := by
  have back : trim cs ++ ((trimStart cs).reverse.takeWhile isBlank).reverse = trimStart cs := by
    rw [trim, trimEnd, ← List.reverse_append, List.takeWhile_append_dropWhile,
      List.reverse_reverse]
  refine ⟨cs.takeWhile isBlank, ((trimStart cs).reverse.takeWhile isBlank).reverse, ?_, ?_, ?_⟩
  · rw [List.append_assoc, back, trimStart, List.takeWhile_append_dropWhile]
  · exact List.all_eq_true.1 List.all_takeWhile
  · intro c member
    exact List.all_eq_true.1 List.all_takeWhile c (List.mem_reverse.1 member)

/-- No blank is left at the beginning of a trimmed text. -/
theorem isBlank_of_head?_trim {cs : List Char} {c : Char} (first : (trim cs).head? = some c) :
    isBlank c = false := by
  obtain ⟨cut, whole⟩ : trimEnd (trimStart cs) <+: trimStart cs := by
    rw [← List.reverse_suffix, trimEnd, List.reverse_reverse]
    exact List.dropWhile_suffix isBlank
  have mark := List.head?_dropWhile_not isBlank cs
  rw [← trimStart, ← whole, List.head?_append, ← trim, first] at mark
  exact mark

/-- No blank is left at the end of a trimmed text. -/
theorem isBlank_of_getLast?_trim {cs : List Char} {c : Char}
    (last : (trim cs).getLast? = some c) : isBlank c = false := by
  have first := List.head?_dropWhile_not isBlank (trimStart cs).reverse
  rw [trim, trimEnd, List.getLast?_reverse] at last
  rwa [last] at first

/-- Blanks around a text with none at its ends are what is trimmed off. -/
theorem trim_padded {left cs right : List Char} (before : ∀ c ∈ left, isBlank c = true)
    (after : ∀ c ∈ right, isBlank c = true) (some_ : cs ≠ [])
    (ends : ∀ c, cs.head? = some c ∨ cs.getLast? = some c → isBlank c = false) :
    trim (left ++ cs ++ right) = cs := by
  have start (rest : List Char) : trimStart (cs ++ rest) = cs ++ rest := by
    obtain ⟨c, more, rfl⟩ := List.exists_cons_of_ne_nil some_
    exact trimStart_cons_of_not_blank (ends c (.inl rfl))
  have whole : trimStart cs = cs := by simpa using start []
  calc trim (left ++ cs ++ right)
      = trimEnd (trimStart (cs ++ right)) := by
        rw [trim, trimStart, List.append_assoc, List.dropWhile_append_of_pos before, ← trimStart]
    _ = trimEnd (trimStart cs) := by
        rw [start, whole, trimEnd, List.reverse_append,
          List.dropWhile_append_of_pos fun c member => after c (List.mem_reverse.1 member),
          ← trimEnd]
    _ = cs := trim_eq_self ends

theorem mem_dropWhile_isBlank {c : Char} {cs : List Char} (member : c ∈ cs)
    (mark : isBlank c = false) : c ∈ cs.dropWhile isBlank := by
  induction cs with
  | nil => exact member
  | cons first rest ih =>
    rw [List.dropWhile_cons]
    split
    · next blank =>
      rcases List.mem_cons.1 member with rfl | later
      · exact absurd blank (by simp [mark])
      · exact ih later
    · exact member

/-- Only blanks are trimmed. -/
theorem mem_trim {c : Char} {cs : List Char} (member : c ∈ cs) (mark : isBlank c = false) :
    c ∈ trim cs := by
  have kept : c ∈ trimStart cs := mem_dropWhile_isBlank member mark
  rw [trim, trimEnd, List.mem_reverse]
  exact mem_dropWhile_isBlank (List.mem_reverse.2 kept) mark

end DialectGateway.Text
