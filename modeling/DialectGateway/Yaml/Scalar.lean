/-
# Yaml.Scalar — plain and quoted scalars

A scalar may go on over several lines. A line break inside it becomes a space,
and further breaks after it are kept in its stead. Single quotes escape only
themselves; double quotes know the escapes of JSON and more, but no surrogates.
-/
import DialectGateway.Yaml.Cursor
import DialectGateway.Text.Hex

set_option autoImplicit false

namespace DialectGateway.Yaml

/-- Blanks and line breaks between the words of a scalar. -/
structure Gap where
  blanks : List Char := []
  broken : Bool := false
  first : Option Char := none
  /-- The breaks after the first. -/
  more : List Char := []
  deriving Repr

namespace Gap

def add (g : Gap) (c : Char) : Gap :=
  if isBlank c then if g.broken then g else { g with blanks := g.blanks ++ [c] }
  else if g.broken then { g with more := g.more ++ [c] }
  else { g with blanks := [], broken := true, first := some c }

/-- What the gap means in a scalar. -/
def text (g : Gap) : List Char :=
  if !g.broken then g.blanks
  else if g.first == some '\n' then if g.more.isEmpty then [' '] else g.more
  else g.first.toList ++ g.more

end Gap

/-- Reads a gap. A tab before column `limit` of a further line is refused. -/
def readGap (limit : Nat) (g : Gap) (c : Cursor) : Option (Gap × Cursor) :=
  match h : c.rest with
  | x :: _ =>
    if isGap x then
      if g.broken && c.column < limit && x == '\t' then none
      else
        have : c.next.rest.length < c.rest.length := c.next_shorter (by simp [h])
        readGap limit (g.add x) c.next
    else some (g, c)
  | [] => some (g, c)
  termination_by c.rest.length

/-! ## Plain scalars -/

def flowSigns : List Char := [',', '[', ']', '{', '}']

/-- A word of a plain scalar and what follows; `none` for a colon that may not
stand where it does. -/
def plainWord (flow : Bool) : List Char → Option (List Char × List Char)
  | [] => some ([], [])
  | c :: rest =>
    if isGap c then some ([], c :: rest)
    else if c == ':' && flow && rest.head?.any (fun d => flowSigns.contains d || d == '?') then none
    else if (c == ':' && gapNext rest) || (flow && flowSigns.contains c) then some ([], c :: rest)
    else (plainWord flow rest).map fun (word, rest) => (c :: word, rest)

structure Plain where
  text : List Char
  cursor : Cursor
  /-- A line break lies between the scalar and the cursor. -/
  broken : Bool
  deriving Repr

/-- Reads words and gaps; `left` bounds the number of words. -/
def plainWords (flow : Bool) (limit : Nat) : Nat → List Char → Gap → Cursor → Option Plain
  | 0, _, _, _ => none
  | left + 1, text, g, c =>
    if c.atDocumentSigns || c.rest.head? == some '#' then some ⟨text, c, g.broken⟩
    else do
      let (word, rest) ← plainWord flow c.rest
      if word.isEmpty then return ⟨text, c, g.broken⟩
      let text := text ++ g.text ++ word
      let c := c.skipTo rest
      if rest.isEmpty || !gapNext rest then return ⟨text, c, false⟩
      let (g, c) ← readGap limit {} c
      if !flow && c.column < limit then return ⟨text, c, g.broken⟩
      plainWords flow limit left text g c

/-- The plain scalar at a cursor; in block context it ends before column `limit`. -/
def plain? (flow : Bool) (limit : Nat) (c : Cursor) : Option Plain :=
  plainWords flow limit (c.rest.length + 1) [] {} c

/-! ## Quoted scalars -/

/-- A part of a quoted scalar without gaps. -/
structure Part where
  text : List Char := []
  rest : List Char
  /-- It ends in a backslash before a line break. -/
  continued : Bool := false
  deriving Repr

def Part.cons (c : Char) (p : Part) : Part := { p with text := c :: p.text }

/-- Up to the closing quote or a gap. -/
def singlePart : List Char → Part
  | [] => { rest := [] }
  | '\'' :: '\'' :: rest => (singlePart rest).cons '\''
  | c :: rest => if c == '\'' || isGap c then { rest := c :: rest } else (singlePart rest).cons c

def escape? (c : Char) : Option Char :=
  ([('0', 0x00), ('a', 0x07), ('b', 0x08), ('t', 0x09), ('\t', 0x09), ('n', 0x0A), ('v', 0x0B),
    ('f', 0x0C), ('r', 0x0D), ('e', 0x1B), (' ', 0x20), ('"', 0x22), ('/', 0x2F), ('\\', 0x5C),
    ('N', 0x85), ('_', 0xA0), ('L', 0x2028), ('P', 0x2029)].lookup c).map Char.ofNat

/-- How many digits follow an escape that gives a character by its number. -/
def escapeWidth? (c : Char) : Option Nat := [('x', 2), ('u', 4), ('U', 8)].lookup c

/-- The character that hexadecimal digits give. -/
def coded? (digits : List Char) (width : Nat) : Option Char := do
  let n ← if digits.length = width then Text.Hex.number? digits else none
  if (0xD800 ≤ n ∧ n ≤ 0xDFFF) ∨ 0x10FFFF < n then none else some (Char.ofNat n)

/-- Up to the closing quote or a gap, escapes decoded; `left` bounds the length. -/
def doublePart : Nat → List Char → Option Part
  | 0, _ => none
  | _ + 1, [] => some { rest := [] }
  | left + 1, c :: rest =>
    if c == '"' || isGap c then some { rest := c :: rest }
    else if c == '\\' then
      match rest with
      | [] => none
      | e :: rest =>
        if isBreak e then some { rest := e :: rest, continued := true }
        else
          match escapeWidth? e with
          | some width => do
            let c ← coded? (rest.take width) width
            (doublePart left (rest.drop width)).map (·.cons c)
          | none => do
            let c ← escape? e
            (doublePart left rest).map (·.cons c)
    else (doublePart left rest).map (·.cons c)

/-- The next part of a scalar in these quotes. -/
def part? (quote : Char) (cs : List Char) : Option Part :=
  if quote == '"' then doublePart (cs.length + 1) cs else some (singlePart cs)

/-- Reads parts and gaps up to the closing quote; `left` bounds their number. -/
def quotedParts (quote : Char) : Nat → List Char → Cursor → Option (List Char × Cursor)
  | 0, _, _ => none
  | left + 1, text, c =>
    if c.atDocumentSigns || c.rest.isEmpty then none
    else do
      let part ← part? quote c.rest
      let text := text ++ part.text
      let c := c.skipTo part.rest
      if part.rest.head? == some quote then return (text, c.next)
      let c := if part.continued then c.next else c
      let (g, c) ← readGap 0 { broken := part.continued } c
      quotedParts quote left (text ++ g.text) c

/-- The quoted scalar at a cursor. -/
def quoted? (quote : Char) (c : Cursor) : Option (List Char × Cursor) :=
  quotedParts quote (c.rest.length + 1) [] c.next

end DialectGateway.Yaml
