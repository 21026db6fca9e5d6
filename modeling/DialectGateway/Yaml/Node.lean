/-
# Yaml.Node — the values of a document

A node is a scalar, a list or a mapping. A place that holds nothing is the empty
plain scalar. A text holds one document, or none.
-/
import DialectGateway.Yaml.Token

set_option autoImplicit false

namespace DialectGateway.Yaml

inductive Node where
  | scalar (plain : Bool) (text : String)
  | list (items : List Node)
  | mapping (pairs : List (Node × Node))
  deriving Repr

namespace Node

def nothing : Node := .scalar true ""

/-- A node and the tokens after it. -/
abbrev Parsed := Option (Node × List Token)

/-- One of these tokens comes next, or none. -/
def ahead (stops : List Token) : List Token → Bool
  | [] => true
  | t :: _ => stops.contains t

def blockStops : List Token := [.key, .value, .blockEnd]

mutual

/-- A node. Block nodes stand only in blocks; `bare` allows a list of a mapping
whose dashes are not further in. -/
def parse (block bare : Bool) : Nat → List Token → Parsed
  | 0, _ => none
  | left + 1, tokens =>
    match tokens with
    | .scalar plain text :: rest => some (.scalar plain text, rest)
    | .listOpen :: rest => flowItems left [] rest
    | .mappingOpen :: rest => flowPairs left [] rest
    | .blockList :: rest => if block then blockItems left [] rest else none
    | .blockMapping :: rest => if block then blockPairs left [] rest else none
    | .entry :: _ => if bare then bareItems left [] tokens else none
    | _ => none

/-- A node, or nothing where one of the stops comes next. -/
def parseUnless (stops : List Token) (block bare : Bool) : Nat → List Token → Parsed
  | 0, _ => none
  | left + 1, tokens =>
    if ahead stops tokens then some (nothing, tokens) else parse block bare left tokens

/-- The rest of a block list; the items come last first. -/
def blockItems : Nat → List Node → List Token → Parsed
  | 0, _, _ => none
  | left + 1, items, tokens =>
    match tokens with
    | .entry :: rest => do
      let (item, rest) ← parseUnless [.entry, .blockEnd] true false left rest
      blockItems left (item :: items) rest
    | .blockEnd :: rest => some (.list items.reverse, rest)
    | _ => none

def bareItems : Nat → List Node → List Token → Parsed
  | 0, _, _ => none
  | left + 1, items, tokens =>
    match tokens with
    | .entry :: rest => do
      let (item, rest) ← parseUnless (.entry :: blockStops) true false left rest
      bareItems left (item :: items) rest
    | _ => some (.list items.reverse, tokens)

def blockPairs : Nat → List (Node × Node) → List Token → Parsed
  | 0, _, _ => none
  | left + 1, pairs, tokens =>
    match tokens with
    | .key :: rest => do
      let (key, rest) ← parseUnless blockStops true true left rest
      let (value, rest) ← blockValue left rest
      blockPairs left ((key, value) :: pairs) rest
    | .blockEnd :: rest => some (.mapping pairs.reverse, rest)
    | _ => none

def blockValue : Nat → List Token → Parsed
  | 0, _ => none
  | left + 1, tokens =>
    match tokens with
    | .value :: rest => parseUnless blockStops true true left rest
    | _ => some (nothing, tokens)

/-- The rest of a flow list, from an item on. -/
def flowItems : Nat → List Node → List Token → Parsed
  | 0, _, _ => none
  | left + 1, items, tokens =>
    match tokens with
    | .listClose :: rest => some (.list items.reverse, rest)
    | tokens => do
      let (item, rest) ← flowItem left tokens
      match rest with
      | .comma :: rest => flowItems left (item :: items) rest
      | .listClose :: rest => some (.list (item :: items).reverse, rest)
      | _ => none

/-- An item of a flow list; a single pair is a mapping of its own. -/
def flowItem : Nat → List Token → Parsed
  | 0, _ => none
  | left + 1, tokens =>
    match tokens with
    | .key :: rest => do
      let (key, rest) ← parseUnless [.value, .comma, .listClose] false false left rest
      let (value, rest) ← flowValue left rest
      return (.mapping [(key, value)], rest)
    | tokens => parse false false left tokens

def flowPairs : Nat → List (Node × Node) → List Token → Parsed
  | 0, _, _ => none
  | left + 1, pairs, tokens =>
    match tokens with
    | .mappingClose :: rest => some (.mapping pairs.reverse, rest)
    | tokens => do
      let (pair, rest) ← flowPair left tokens
      match rest with
      | .comma :: rest => flowPairs left (pair :: pairs) rest
      | .mappingClose :: rest => some (.mapping (pair :: pairs).reverse, rest)
      | _ => none

/-- A pair of a flow mapping; without a key mark it has no value. -/
def flowPair : Nat → List Token → Option ((Node × Node) × List Token)
  | 0, _ => none
  | left + 1, tokens =>
    match tokens with
    | .key :: rest => do
      let (key, rest) ← parseUnless [.value, .comma, .mappingClose] false false left rest
      let (value, rest) ← flowValue left rest
      return ((key, value), rest)
    | tokens => do
      let (key, rest) ← parse false false left tokens
      return ((key, nothing), rest)

def flowValue : Nat → List Token → Parsed
  | 0, _ => none
  | left + 1, tokens =>
    match tokens with
    | .value :: rest => parseUnless [.comma, .listClose, .mappingClose] false false left rest
    | _ => some (nothing, tokens)

end

/-- The one document of the tokens, if there is any. -/
def ofTokens? (tokens : List Token) : Option (Option Node) :=
  match tokens with
  | [] => some none
  | first :: rest => do
    let tokens := if first == .documentStart then rest else tokens
    let stops := if first == .documentStart then [Token.documentStart, .documentEnd] else []
    let (node, rest) ← parseUnless stops true false (4 * tokens.length + 4) tokens
    if rest.all (· == .documentEnd) then return some node else none

/-- The one document of a text, if there is any; the outer `none` is for a text
that cannot be read. -/
def ofText? (text : String) : Option (Option Node) := (tokens? text.toList).bind ofTokens?

end Node
end DialectGateway.Yaml
