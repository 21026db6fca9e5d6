/-
# Json.Walk — through one value, up to the first trouble

A walk begins at a value and ends behind it, or in trouble. Values that are kept
owe more than values that are skipped: their texts must be texts, their numbers
within the doubles, and they are nested only so deep. `skip` keeps the lists and
records it is inside of on a stack, because they may be nested however deep.
-/
import DialectGateway.Json.Cursor

set_option autoImplicit false

namespace DialectGateway.Json.Walk

open Decimal (isDigit)

/-- Behind the rest of a word. -/
def word : List Char → Cursor → Reach Cursor
  | [], c => .ok c
  | l :: left, c =>
    match c.peek? with
    | none => c.fault .valueCut
    | some x => if x == l then word left c.next else c.next.fault .badWord

/-! ## Quoted texts -/

/-- A unit of four digits. -/
def unit (c : Cursor) : Reach (Nat × Cursor) :=
  match c.rest with
  | w :: x :: y :: z :: _ =>
    let behind := c.next.next.next.next
    match Text.Hex.number? ([w, x, y, z].map fun b => Char.ofNat b.toNat) with
    | some n => .ok (n, behind)
    | none => behind.fault .badEscape
  | _ => (c.pass fun _ => true).fault .textCut

def isFirstHalf (n : Nat) : Bool := 0xD800 ≤ n && n < 0xDC00

def isSecondHalf (n : Nat) : Bool := 0xDC00 ≤ n && n < 0xE000

/-- Behind the second half of a pair. -/
def secondHalf (c : Cursor) : Reach Cursor :=
  match c.peek? with
  | none => c.fault .textCut
  | some '\\' =>
    match c.next.peek? with
    | none => c.next.fault .textCut
    | some 'u' => do
      let (n, c) ← unit c.next.next
      if isSecondHalf n then pure c else c.fault .wrongHalf
    | some _ => c.next.next.fault .missingHalf
  | some _ => c.next.fault .missingHalf

/-- Behind an escape whose backslash has been read. -/
def escape (kept : Bool) (c : Cursor) : Reach Cursor :=
  match c.peek? with
  | none => c.fault .textCut
  | some 'u' => do
    let (n, c) ← unit c.next
    if !kept then pure c
    else if isSecondHalf n then c.fault .wrongHalf
    else if isFirstHalf n then secondHalf c
    else pure c
  | some x => if (Scanner.escape? x).isSome then .ok c.next else c.next.fault .badEscape

/-- Behind the closing quote. -/
def untilQuote (kept : Bool) : Nat → Cursor → Reach Cursor
  | 0, c => c.fault .textCut
  | fuel + 1, c =>
    match c.peek? with
    | none => c.fault .textCut
    | some '"' => .ok c.next
    | some '\\' =>
      match escape kept c.next with
      | .ok c => untilQuote kept fuel c
      | .error t => .error t
    | some x =>
      if x.toNat < 32 then (if kept then c.next else c).fault .control
      else untilQuote kept fuel c.next

/-- Behind a text whose opening quote has been read. -/
def quoted (kept : Bool) (c : Cursor) : Reach Cursor := do
  let behind ← untilQuote kept (c.rest.length + 1) c
  if kept && (Text.Utf8.decode? (c.upTo behind)).isNone then behind.fault .badCharacter
  else pure behind

/-- The text at the cursor, and the cursor behind it. -/
def text (c : Cursor) : Reach (String × Cursor) := do
  let behind ← quoted true c.next
  match ofBytes? (c.upTo behind) with
  | some (.text s) => pure (s, behind)
  | _ => behind.fault .badCharacter

/-! ## Numbers -/

/-- What a number that ends too early is called. -/
def numberCut (kept : Bool) : Complaint := if kept then .valueCut else .badNumber

def exponent (kept : Bool) (c : Cursor) : Reach Cursor :=
  if c.peek? == some 'e' || c.peek? == some 'E' then
    let c := c.next
    let c := if c.peek? == some '+' || c.peek? == some '-' then c.next else c
    match c.peek? with
    | none => c.fault (numberCut kept)
    | some x => if isDigit x then .ok (c.next.pass isDigit) else c.next.fault .badNumber
  else .ok c

def fraction (kept : Bool) (c : Cursor) : Reach Cursor :=
  if c.peek? == some '.' then
    let behind := c.next.pass isDigit
    if behind.rest.length == c.next.rest.length then
      behind.faultAhead (if behind.rest.isEmpty then numberCut kept else .badNumber)
    else exponent kept behind
  else exponent kept c

/-- Behind a number without its sign. -/
def magnitude (kept : Bool) (c : Cursor) : Reach Cursor :=
  match c.peek? with
  | none => c.fault (numberCut kept)
  | some '0' =>
    if c.next.peek?.any isDigit then c.next.faultAhead .badNumber else fraction kept c.next
  | some x => if isDigit x then fraction kept (c.pass isDigit) else c.next.fault .badNumber

def numeral (kept : Bool) (c : Cursor) : Reach Cursor :=
  magnitude kept (if c.peek? == some '-' then c.next else c)

/-- The number at the cursor, and the cursor behind it. -/
def number (c : Cursor) : Reach (Json × Cursor) := do
  let behind ← numeral true c
  match ofBytes? (c.upTo behind) with
  | some v => pure (v, behind)
  | none => behind.fault .hugeNumber

/-! ## Values -/

/-- Behind a value that is neither list nor record; `none` at the others. -/
def scalar? (kept : Bool) (c : Cursor) : Option (Reach Cursor) :=
  match c.peek? with
  | none => some (c.faultAhead .valueCut)
  | some '[' | some '{' => none
  | some 'n' => some (word ['u', 'l', 'l'] c.next)
  | some 't' => some (word ['r', 'u', 'e'] c.next)
  | some 'f' => some (word ['a', 'l', 's', 'e'] c.next)
  | some '"' => some (quoted kept c.next)
  | some x =>
    if x == '-' || isDigit x then
      some (if kept then (number c).map (·.2) else numeral false c)
    else some (c.faultAhead .noValue)

def colon (c : Cursor) : Reach Cursor :=
  let c := c.blanks
  match c.peek? with
  | some ':' => .ok c.next
  | some _ => c.faultAhead .noColon
  | none => c.faultAhead .recordCut

/-- Whether another item stands at the cursor, and where; `none` at the end of the list. -/
def item? (first : Bool) (c : Cursor) : Reach (Option Cursor) :=
  let c := c.blanks
  match c.peek? with
  | none => c.faultAhead .listCut
  | some ']' => .ok none
  | some x =>
    if x == ',' && !first then
      let c := c.next.blanks
      match c.peek? with
      | none => c.faultAhead .valueCut
      | some ']' => c.faultAhead .lastComma
      | some _ => .ok (some c)
    else if first then .ok (some c)
    else c.faultAhead .listGoesOn

/-- Whether another key stands at the cursor, and where; `none` at the end of the record. -/
def key? (first : Bool) (c : Cursor) : Reach (Option Cursor) :=
  let c := c.blanks
  match c.peek? with
  | none => c.faultAhead .recordCut
  | some '}' => .ok none
  | some x =>
    if x == ',' && !first then
      let c := c.next.blanks
      match c.peek? with
      | none => c.faultAhead .valueCut
      | some '"' => .ok (some c)
      | some '}' => c.faultAhead .lastComma
      | some _ => c.faultAhead .noKey
    else if !first then c.faultAhead .recordGoesOn
    else if x == '"' then .ok (some c)
    else c.faultAhead .noKey

mutual

/-- Behind a value that is kept; one nesting less than `room` is allowed. -/
def value : Nat → Nat → Cursor → Reach Cursor
  | 0, _, c => c.faultAhead .noValue
  | fuel + 1, room, c =>
    let c := c.blanks
    match scalar? true c with
    | some reach => reach
    | none =>
      if room ≤ 1 then c.faultAhead .tooDeep
      else if c.peek? == some '[' then items fuel (room - 1) true c.next
      else members fuel (room - 1) true c.next

def items : Nat → Nat → Bool → Cursor → Reach Cursor
  | 0, _, _, c => c.faultAhead .noValue
  | fuel + 1, room, first, c => do
    match ← item? first c with
    | none => pure c.blanks.next
    | some c =>
      let c ← value fuel room c
      items fuel room false c

def members : Nat → Nat → Bool → Cursor → Reach Cursor
  | 0, _, _, c => c.faultAhead .noValue
  | fuel + 1, room, first, c => do
    match ← key? first c with
    | none => pure c.blanks.next
    | some c =>
      let c ← quoted true c.next
      let c ← colon c
      let c ← value fuel room c
      members fuel room false c

end

/-- Enough for every walk from a cursor: no two moves in a row read nothing. -/
def fuelFrom (c : Cursor) : Nat := 2 * c.rest.length + 4

/-! ## Skipping -/

inductive Frame where
  | list
  | record
  deriving DecidableEq, Repr

namespace Frame

def close : Frame → Char
  | list => ']'
  | record => '}'

def cut : Frame → Complaint
  | list => .listCut
  | record => .recordCut

def goesOn : Frame → Complaint
  | list => .listGoesOn
  | record => .recordGoesOn

/-- To the next value inside: a record has a key before it. -/
def enter : Frame → Cursor → Reach Cursor
  | list, c => .ok c
  | record, c =>
    let c := c.blanks
    match c.peek? with
    | none => c.faultAhead .recordCut
    | some '"' => do colon (← quoted false c.next)
    | some _ => c.faultAhead .noKey

end Frame

/-- Where skipping stands: before a value, or behind one or behind an opening. -/
inductive Stand where
  | before
  | behind (comma : Bool)
  deriving DecidableEq, Repr

def skipping : Nat → Stand → List Frame → Cursor → Reach Cursor
  | 0, _, _, c => c.faultAhead .noValue
  | fuel + 1, .before, frames, c =>
    let c := c.blanks
    match scalar? false c with
    | some (.ok c) => skipping fuel (.behind true) frames c
    | some (.error t) => .error t
    | none =>
      let frame := if c.peek? == some '[' then Frame.list else Frame.record
      skipping fuel (.behind false) (frame :: frames) c.next
  | _ + 1, .behind _, [], c => .ok c
  | fuel + 1, .behind comma, frame :: outer, c =>
    let c := c.blanks
    match c.peek? with
    | none => c.faultAhead frame.cut
    | some x =>
      if x == frame.close then skipping fuel (.behind true) outer c.next
      else if comma && x != ',' then c.faultAhead frame.goesOn
      else
        match frame.enter (if comma then c.next else c) with
        | .ok c => skipping fuel .before (frame :: outer) c
        | .error t => .error t

/-- Behind a value that nobody wants. -/
def skip (c : Cursor) : Reach Cursor := skipping (fuelFrom c) .before [] c

end DialectGateway.Json.Walk
