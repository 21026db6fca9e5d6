/-
# Json.Tree — the structure of a JSON text

A `Tree` is a JSON text whose brackets match and whose texts and numbers are
still as written. It is assembled from tokens with a stack of open lists and
records, so depth is bounded by nothing. `kept?` turns a tree into a value: texts
must be decodable, numbers within the doubles, and the nesting within `room`.
Parts of a tree that nobody keeps owe none of this.
-/
import DialectGateway.Json.Token

set_option autoImplicit false

namespace DialectGateway.Json

open Text (Symbol)

inductive Tree where
  | null
  | bool (b : Bool)
  | number (n : Numeral)
  | text (pieces : List Piece)
  | list (items : List Tree)
  | record (fields : List (List Piece × Tree))
  deriving Repr

/-- A list or record not yet closed, its parts last first. -/
inductive Opening where
  | list (items : List Tree)
  | record (fields : List (List Piece × Tree))
  | member (fields : List (List Piece × Tree)) (key : List Piece)
  deriving Repr

/-- What may come next. -/
inductive Wanted where
  | value
  | firstItem
  | firstKey
  | key
  | colon
  | separator
  | nothing (tree : Tree)
  deriving Repr

structure Assembly where
  openings : List Opening
  wanted : Wanted
  deriving Repr

namespace Assembly

def start : Assembly := ⟨[], .value⟩

/-- A finished tree goes into the innermost opening. -/
def place (tree : Tree) : List Opening → Option Assembly
  | [] => some ⟨[], .nothing tree⟩
  | .list items :: outer => some ⟨.list (tree :: items) :: outer, .separator⟩
  | .member fields key :: outer => some ⟨.record ((key, tree) :: fields) :: outer, .separator⟩
  | .record _ :: _ => none

/-- The first token of a value. -/
def begin (openings : List Opening) : Token → Option Assembly
  | .null => place .null openings
  | .bool b => place (.bool b) openings
  | .number n => place (.number n) openings
  | .text pieces => place (.text pieces) openings
  | .listOpen => some ⟨.list [] :: openings, .firstItem⟩
  | .recordOpen => some ⟨.record [] :: openings, .firstKey⟩
  | _ => none

def step (a : Assembly) (token : Token) : Option Assembly :=
  match a.wanted with
  | .value => begin a.openings token
  | .firstItem =>
    match token, a.openings with
    | .listClose, .list items :: outer => place (.list items.reverse) outer
    | _, _ => begin a.openings token
  | .firstKey | .key =>
    match token, a.openings, a.wanted with
    | .text key, .record fields :: outer, _ => some ⟨.member fields key :: outer, .colon⟩
    | .recordClose, .record fields :: outer, .firstKey => place (.record fields.reverse) outer
    | _, _, _ => none
  | .colon =>
    match token with
    | .colon => some ⟨a.openings, .value⟩
    | _ => none
  | .separator =>
    match token, a.openings with
    | .comma, .list _ :: _ => some ⟨a.openings, .value⟩
    | .comma, .record _ :: _ => some ⟨a.openings, .key⟩
    | .listClose, .list items :: outer => place (.list items.reverse) outer
    | .recordClose, .record fields :: outer => place (.record fields.reverse) outer
    | _, _ => none
  | .nothing _ => none

def finish (a : Assembly) : Option Tree :=
  match a.wanted with
  | .nothing tree => some tree
  | _ => none

end Assembly

namespace Tree

/-- The tree of a whole text. -/
def ofSymbols? (symbols : List Symbol) : Option Tree := do
  let tokens ← Scanner.scan symbols
  let assembly ← tokens.foldlM Assembly.step Assembly.start
  assembly.finish

mutual

/-- The value of a tree in which at most `room` lists and records are nested. -/
def kept? : Tree → Nat → Option Json
  | .null, _ => some .null
  | .bool b, _ => some (.bool b)
  | .number n, _ => n.value?
  | .text pieces, _ => (Piece.text? pieces).map fun cs => .text (String.ofList cs)
  | .list _, 0 => none
  | .list items, room + 1 => (keptItems? items room).map .list
  | .record _, 0 => none
  | .record fields, room + 1 => (keptFields? fields room).map Json.ofFields

def keptItems? : List Tree → Nat → Option (List Json)
  | [], _ => some []
  | t :: rest, room => do
    let v ← kept? t room
    let vs ← keptItems? rest room
    pure (v :: vs)

def keptFields? : List (List Piece × Tree) → Nat → Option (List (String × Json))
  | [], _ => some []
  | (key, t) :: rest, room => do
    let key ← Piece.text? key
    let v ← kept? t room
    let vs ← keptFields? rest room
    pure ((String.ofList key, v) :: vs)

end
end Tree

/-- How deep lists and records may be nested in a text that is read. -/
def depthLimit : Nat := 127

/-- The value of a whole text. -/
def ofSymbols? (symbols : List Symbol) : Option Json := do
  let tree ← Tree.ofSymbols? symbols
  tree.kept? depthLimit

def ofChars? (cs : List Char) : Option Json := ofSymbols? (cs.map some)

def ofText? (s : String) : Option Json := ofChars? s.toList

def ofBytes? (bytes : List UInt8) : Option Json := ofSymbols? (Text.Utf8.read bytes)

end DialectGateway.Json
