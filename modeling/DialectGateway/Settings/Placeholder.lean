/-
# Settings.Placeholder — variables in a settings text

`${NAME}` stands for the value of a variable, and a text after a colon, or
after a colon and a hyphen, for the value of one that is not set. A placeholder
ends at the first closing brace. Values are copied as they are, so what looks
like a placeholder in a value is none.
-/

set_option autoImplicit false

namespace DialectGateway.Settings

/-- The variables that are set. -/
abbrev Variables := List (String × String)

structure Placeholder where
  name : List Char
  dflt : List Char
  deriving DecidableEq, Repr

def Placeholder.value (p : Placeholder) (vars : Variables) : List Char :=
  match vars.lookup (String.ofList p.name) with
  | some value => value.toList
  | none => p.dflt

def isLetter (c : Char) : Bool := c.isAlpha || c == '_'

def isNameChar (c : Char) : Bool := c.isAlphanum || c == '_'

/-- A hyphen may stand between the colon and the default. -/
def withoutHyphen : List Char → List Char
  | '-' :: cs => cs
  | cs => cs

/-- What stands after the name: the default, up to the closing brace. -/
def default? : List Char → Option (List Char × List Char)
  | '}' :: rest => some ([], rest)
  | ':' :: cs =>
    let cs := withoutHyphen cs
    match cs.dropWhile (· != '}') with
    | _ :: rest => some (cs.takeWhile (· != '}'), rest)
    | [] => none
  | _ => none

/-- The placeholder at the beginning of a text, and what follows it. -/
def placeholder? : List Char → Option (Placeholder × List Char)
  | '$' :: '{' :: cs =>
    let name := cs.takeWhile isNameChar
    if name.head?.any isLetter then
      (default? (cs.dropWhile isNameChar)).map fun (dflt, rest) => (⟨name, dflt⟩, rest)
    else none
  | _ => none

theorem length_dropWhile_le {A : Type} (p : A → Bool) (as : List A) :
    (as.dropWhile p).length ≤ as.length := (List.dropWhile_sublist p).length_le

theorem length_withoutHyphen_le (cs : List Char) : (withoutHyphen cs).length ≤ cs.length := by
  unfold withoutHyphen
  split <;> simp

theorem length_of_default? {cs dflt rest : List Char} (h : default? cs = some (dflt, rest)) :
    rest.length < cs.length := by
  unfold default? at h
  split at h
  · next more =>
    simp only [Option.some.injEq, Prod.mk.injEq] at h
    simp [h.2]
  · next more =>
    dsimp only at h
    split at h
    · next tail closed =>
      simp only [Option.some.injEq, Prod.mk.injEq] at h
      have shorter := length_dropWhile_le (· != '}') (withoutHyphen more)
      have := length_withoutHyphen_le more
      rw [closed, h.2] at shorter
      simp only [List.length_cons] at shorter ⊢
      omega
    · exact absurd h (by simp)
  · exact absurd h (by simp)

theorem length_of_placeholder? {cs rest : List Char} {p : Placeholder}
    (h : placeholder? cs = some (p, rest)) : rest.length < cs.length := by
  unfold placeholder? at h
  split at h
  · next more =>
    dsimp only at h
    split at h
    · obtain ⟨⟨dflt, rest'⟩, found, same⟩ := Option.map_eq_some_iff.1 h
      simp only [Prod.mk.injEq] at same
      have := length_of_default? found
      have := length_dropWhile_le isNameChar more
      rw [← same.2]
      simp only [List.length_cons]
      omega
    · exact absurd h (by simp)
  · exact absurd h (by simp)

/-- The text with every placeholder, found from the left, replaced by its value. -/
def expand (vars : Variables) (cs : List Char) : List Char :=
  match h : placeholder? cs with
  | some (p, rest) =>
    have := length_of_placeholder? h
    p.value vars ++ expand vars rest
  | none =>
    match cs with
    | [] => []
    | c :: rest => c :: expand vars rest
  termination_by cs.length

def expandText (vars : Variables) (s : String) : String := String.ofList (expand vars s.toList)

end DialectGateway.Settings
