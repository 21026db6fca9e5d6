/-
# Yaml.Token — the structure of a text, token by token

In block context structure follows from columns: a column further in than any
before opens a list or a mapping, and a column further out closes what stands
deeper. A key shows only at the colon after it. So the scanner remembers where
the last candidate began, and a colon on the same line puts the key mark there.

Anchors, aliases, tags, directives, block scalars and keys marked by a question
mark are refused.
-/
import DialectGateway.Yaml.Scalar

set_option autoImplicit false

namespace DialectGateway.Yaml

inductive Token where
  | documentStart
  | documentEnd
  | blockList
  | blockMapping
  | blockEnd
  /-- The dash before an item. -/
  | entry
  | listOpen
  | listClose
  | mappingOpen
  | mappingClose
  | comma
  | key
  | value
  | scalar (plain : Bool) (text : String)
  deriving DecidableEq, Repr

/-- What may turn out to be a key. -/
structure Candidate where
  /-- It must turn out to be one. -/
  required : Bool
  /-- How many tokens stand before it. -/
  tokens : Nat
  start : Cursor
  deriving Repr

/-- A candidate stands on the line of the colon, and not too far before it. -/
def Candidate.near (k : Candidate) (c : Cursor) : Bool :=
  k.start.line == c.line && c.place ≤ k.start.place + 1024

structure Scanner where
  cursor : Cursor
  /-- The tokens found, last first. -/
  tokens : List Token := []
  keyAllowed : Bool := true
  /-- The column of the innermost block, -1 outside of all. -/
  indent : Int := -1
  outer : List Int := []
  candidate : Option Candidate := none
  /-- The candidates outside of the flow collections that are open. -/
  levels : List (Option Candidate) := []
  deriving Repr

namespace Scanner

def flow (s : Scanner) : Bool := !s.levels.isEmpty

def emit (s : Scanner) (t : Token) : Scanner := { s with tokens := t :: s.tokens }

/-- Puts a token after the first `place` ones. -/
def insert (s : Scanner) (place : Nat) (t : Token) : Scanner :=
  let late := s.tokens.length - place
  { s with tokens := s.tokens.take late ++ t :: s.tokens.drop late }

/-- Closes the blocks further in than a column. -/
def unroll (s : Scanner) (column : Int) : Scanner :=
  if s.flow then s
  else
    let closed := (s.indent :: s.outer).takeWhile (column < ·)
    let left := (s.indent :: s.outer).drop closed.length
    { s with
      tokens := List.replicate closed.length .blockEnd ++ s.tokens
      indent := left.head?.getD (-1)
      outer := left.tail }

/-- Opens a block whose first token stands after `place` others. -/
def roll (s : Scanner) (column : Nat) (place : Nat) (t : Token) : Scanner :=
  if s.flow || (column : Int) ≤ s.indent then s
  else { s with indent := column, outer := s.indent :: s.outer }.insert place t

/-- Gives the candidate up, which fails for one that must be a key. -/
def forget (s : Scanner) : Option Scanner :=
  if s.candidate.any (·.required) then none else some { s with candidate := none }

/-- Makes what comes next the candidate, where keys may stand. -/
def remember (s : Scanner) : Option Scanner :=
  if s.keyAllowed then do
    let s ← s.forget
    let required := !s.flow && s.indent == (s.cursor.column : Int)
    return { s with candidate := some ⟨required, s.tokens.length, s.cursor⟩ }
  else some s

/-- A token of one character. -/
def sign (s : Scanner) (t : Token) (keyAllowed : Bool) : Scanner :=
  { s.emit t with cursor := s.cursor.next, keyAllowed }

def openFlow (s : Scanner) (t : Token) : Option Scanner := do
  let s ← s.remember
  return { s with candidate := none, levels := s.candidate :: s.levels }.sign t true

def closeFlow (s : Scanner) (t : Token) : Option Scanner := do
  let s ← s.forget
  return { s with candidate := s.levels.head?.join, levels := s.levels.tail }.sign t false

def entry (s : Scanner) : Option Scanner := do
  let s ←
    if s.flow then some s
    else if s.keyAllowed then some (s.roll s.cursor.column s.tokens.length .blockList)
    else none
  return (← s.forget).sign .entry true

/-- A colon: the candidate was a key, or the key is left out. -/
def colon (s : Scanner) : Option Scanner :=
  match s.candidate with
  | some k =>
    some (({ s with candidate := none }.insert k.tokens .key).roll
      k.start.column k.tokens .blockMapping |>.sign .value false)
  | none =>
    if s.flow then some (s.sign .value false)
    else if s.keyAllowed then
      some ((s.roll s.cursor.column s.tokens.length .blockMapping).sign .value true)
    else none

def documentSigns (s : Scanner) (t : Token) : Option Scanner := do
  let s ← (s.unroll (-1)).forget
  return { s.emit t with cursor := s.cursor.next.next.next, keyAllowed := false }

def quoted (s : Scanner) (quote : Char) : Option Scanner := do
  let s ← s.remember
  let (text, cursor) ← quoted? quote s.cursor
  return { s.emit (.scalar false (String.ofList text)) with cursor, keyAllowed := false }

def plain (s : Scanner) : Option Scanner := do
  let s ← s.remember
  let p ← plain? s.flow (s.indent + 1).toNat s.cursor
  return { s.emit (.scalar true (String.ofList p.text)) with
    cursor := p.cursor, keyAllowed := p.broken }

/-- Signs that begin no plain scalar. -/
def indicators : List Char :=
  ['-', '?', ':', ',', '[', ']', '{', '}', '#', '&', '*', '!', '|', '>', '\'', '"', '%', '@',
    '\x60']

/-- A plain scalar may begin with this character before the rest. -/
def startsPlain (flow : Bool) (c : Char) (rest : List Char) : Bool :=
  !indicators.contains c || (c == '-' && !gapNext rest) ||
    (!flow && (c == '?' || c == ':') && !gapNext rest)

/-- Passes over blanks, comments and line breaks; `left` bounds their number. A
tab is no blank where a key may stand. -/
def skipGap : Nat → Scanner → Scanner
  | 0, s => s
  | left + 1, s =>
    match s.cursor.rest with
    | c :: rest =>
      if c == ' ' || (c == '\t' && (s.flow || !s.keyAllowed)) then
        skipGap left { s with cursor := s.cursor.next }
      else if c == '#' then
        skipGap left { s with cursor := s.cursor.skipTo (rest.dropWhile (!isBreak ·)) }
      else if isBreak c then
        skipGap left { s with cursor := s.cursor.next, keyAllowed := s.keyAllowed || !s.flow }
      else s
    | [] => s

/-- A candidate that has come too far away is none any more. -/
def refresh (s : Scanner) : Option Scanner :=
  if s.candidate.any (!·.near s.cursor) then s.forget else some s

/-- The token that begins at the cursor. -/
def fetch (s : Scanner) (c : Char) (rest : List Char) : Option Scanner :=
  if s.cursor.atSigns '-' then s.documentSigns .documentStart
  else if s.cursor.atSigns '.' then s.documentSigns .documentEnd
  else if c == '[' then s.openFlow .listOpen
  else if c == '{' then s.openFlow .mappingOpen
  else if c == ']' then s.closeFlow .listClose
  else if c == '}' then s.closeFlow .mappingClose
  else if c == ',' then do return (← s.forget).sign .comma true
  else if c == '-' && gapNext rest then s.entry
  else if c == '?' && gapNext rest then none
  else if c == ':' && (s.flow || gapNext rest) then s.colon
  else if c == '\'' || c == '"' then s.quoted c
  else if startsPlain s.flow c rest then s.plain
  else none

/-- Reads all tokens; `left` bounds their number. -/
def run : Nat → Scanner → Option (List Token)
  | 0, _ => none
  | left + 1, s => do
    let s := skipGap (s.cursor.rest.length + 1) s
    let s ← s.refresh
    match s.cursor.rest with
    | [] => do
      let s ← (s.unroll (-1)).forget
      return s.tokens.reverse
    | c :: rest => do
      let s ← (s.unroll s.cursor.column).fetch c rest
      run left s

end Scanner

/-- A text without the byte order mark it may begin with. -/
def withoutMark : List Char → List Char
  | '\uFEFF' :: cs => cs
  | cs => cs

/-- The tokens of a text. -/
def tokens? (text : List Char) : Option (List Token) :=
  let text := withoutMark text
  if text.all isPermitted then
    let text := unifyLines text
    Scanner.run (text.length + 1) { cursor := ⟨text, 0, 0, 0⟩ }
  else none

end DialectGateway.Yaml
