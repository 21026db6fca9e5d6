/-
# Intake.Shape — what a body should look like, and the first thing wrong with one

A shape says what may stand at a place. `Shape.check` goes through a text from left
to right and stops at the first trouble, be it with the text itself or with the
shape. It accepts what the readers accept; they say what a body is, and this says
why something is none.
-/
import DialectGateway.Json.Printer
import DialectGateway.Json.Walk
import DialectGateway.Text.Quoted

set_option autoImplicit false

namespace DialectGateway.Intake

open Json (Complaint Cursor Reach Tree Trouble Walk.fuelFrom)

inductive Shape where
  | text
  | flag
  | word
  | single
  | any
  | nullable (shape : Shape)
  | list (shape : Shape)
  /-- Known fields in their order; those marked are needed. -/
  | record (name : String) (fields : List (String × Bool × Shape))
  /-- Any value that fits. -/
  | form (name : String) (fits : Tree → Bool)

namespace Shape

/-- What a value is called when something else was wanted. -/
def calledNumber : Json → String
  | .int n => "integer `" ++ Decimal.signedText n ++ "`"
  | v => "floating point `" ++ v.print ++ "`"

/-- Trouble with a value that is not what is wanted. Lists and records are not read
for that. -/
def misfit (wanted : String) (c : Cursor) : Reach Cursor :=
  match c.peek? with
  | some '[' => c.fault (.misfit "sequence" wanted)
  | some '{' => c.fault (.misfit "map" wanted)
  | some '"' => do
    let (s, c) ← Json.Walk.text c
    c.fault (.misfit ("string " ++ String.ofList (Text.quoted s.toList)) wanted)
  | some x =>
    if x == '-' || Decimal.isDigit x then do
      let (v, c) ← Json.Walk.number c
      c.fault (.misfit (calledNumber v) wanted)
    else
      match Json.Walk.scalar? true c with
      | some reach => do
        let c ← reach
        let found :=
          if x == 'n' then "null" else if x == 't' then "boolean `true`" else "boolean `false`"
        c.fault (.misfit found wanted)
      | none => c.faultAhead .noValue
  | none => c.faultAhead .valueCut

/-- A value whose first byte tells whether it can be what is wanted. -/
def leading (starts : Char → Bool) (wanted : String) (c : Cursor) (read : Reach Cursor) :
    Reach Cursor :=
  match c.peek? with
  | none => c.faultAhead .valueCut
  | some x => if starts x then read else misfit wanted c

def startsNumber (x : Char) : Bool := x == '-' || Decimal.isDigit x

def checkWord (c : Cursor) : Reach Cursor := do
  let (v, behind) ← Json.Walk.number c
  match v with
  | .int n =>
    if 0 ≤ n ∧ n < UInt32.size then pure behind else behind.fault (.outside (calledNumber v) "u32")
  | _ => behind.fault (.misfit (calledNumber v) "u32")

/-- Whether the bytes between two cursors fit. -/
def fitsBetween (fits : Tree → Bool) (c behind : Cursor) : Bool :=
  (Tree.ofSymbols? (DialectGateway.Text.Utf8.read (c.upTo behind))).any fits

/-- Where a list is left when there is trouble inside. -/
def leaveList (c : Cursor) : Cursor :=
  let c := c.blanks
  if c.peek? == some ']' then c.next
  else if c.peek? == some ',' then c.next.blanks
  else c

/-- Where a record is left when there is trouble inside. -/
def leaveRecord (c : Cursor) : Cursor :=
  let c := c.blanks
  if c.peek? == some '}' then c.next else c

/-- Behind the end of a list all of whose fields have been read. -/
def endList (c : Cursor) : Reach Cursor :=
  let c := c.blanks
  match c.peek? with
  | some ']' => .ok c.next
  | some ',' =>
    let c := c.next.blanks
    c.faultAhead (if c.peek? == some ']' then .lastComma else .surplus)
  | some _ => c.faultAhead .surplus
  | none => c.faultAhead .listCut

def counted (name : String) (n : Nat) : String :=
  "struct " ++ name ++ " with " ++ Decimal.text n ++ (if n = 1 then " element" else " elements")

/-- Inside a list or record, unless that is too deep. -/
def inside (room : Nat) (c : Cursor) (leave : Cursor → Cursor)
    (read : Nat → Cursor → Reach Cursor) : Reach Cursor :=
  if room ≤ 1 then c.faultAhead .tooDeep
  else (read (room - 1) c.next).mapError (Trouble.settle leave)

mutual

/-- Behind a value of this shape. -/
def check : Nat → Shape → Nat → Cursor → Reach Cursor
  | 0, _, _, c => c.faultAhead .noValue
  | fuel + 1, shape, room, c =>
    let c := c.blanks
    match shape with
    | .text => leading (· == '"') "a string" c (Json.Walk.quoted true c.next)
    | .flag =>
      leading (fun x => x == 't' || x == 'f') "a boolean" c
        ((Json.Walk.scalar? true c).getD (c.faultAhead .noValue))
    | .word => leading startsNumber "u32" c (checkWord c)
    | .single => leading startsNumber "f32" c ((Json.Walk.number c).map (·.2))
    | .any => Json.Walk.value (Walk.fuelFrom c) room c
    | .nullable shape =>
      if c.peek? == some 'n' then Json.Walk.word ['u', 'l', 'l'] c.next
      else check fuel shape room c
    | .list shape =>
      leading (· == '[') "a sequence" c
        (inside room c leaveList fun room c => checkItems fuel shape room true c)
    | .record name fields =>
      if c.peek? == some '{' then
        inside room c leaveRecord fun room c => checkMembers fuel fields room [] c
      else
        leading (· == '[') ("struct " ++ name) c
          (inside room c leaveList fun room c =>
            checkFields fuel (counted name fields.length) fields room 0 c)
    | .form name fits => do
      let behind ← Json.Walk.value (Walk.fuelFrom c) room c
      if fitsBetween fits c behind then pure behind else behind.faultAround (.noForm name)

def checkItems : Nat → Shape → Nat → Bool → Cursor → Reach Cursor
  | 0, _, _, _, c => c.faultAhead .noValue
  | fuel + 1, shape, room, first, c => do
    match ← Json.Walk.item? first c with
    | none => pure c.blanks.next
    | some c =>
      let c ← check fuel shape room c
      checkItems fuel shape room false c

/-- The members of a record of which those named have been read. -/
def checkMembers : Nat → List (String × Bool × Shape) → Nat → List String → Cursor → Reach Cursor
  | 0, _, _, _, c => c.faultAhead .noValue
  | fuel + 1, fields, room, seen, c => do
    match ← Json.Walk.key? seen.isEmpty c with
    | none =>
      match fields.find? fun (name, needed, _) => needed && !seen.contains name with
      | some (name, _) => c.faultAround (.missing name)
      | none => pure c.blanks.next
    | some c =>
      let (name, c) ← Json.Walk.text c
      match fields.find? (·.1 == name) with
      | some (_, _, shape) =>
        if seen.contains name then c.faultAround (.repeated name)
        else
          let c ← check fuel shape room (← Json.Walk.colon c)
          checkMembers fuel fields room (name :: seen) c
      | none =>
        let c ← Json.Walk.skip (← Json.Walk.colon c)
        checkMembers fuel fields room (name :: seen) c

/-- The fields of a record given as a list, of which some have been read. -/
def checkFields : Nat → String → List (String × Bool × Shape) → Nat → Nat → Cursor → Reach Cursor
  | 0, _, _, _, _, c => c.faultAhead .noValue
  | _ + 1, _, [], _, _, c => endList c
  | fuel + 1, wanted, (_, needed, shape) :: fields, room, index, c => do
    match ← Json.Walk.item? (index == 0) c with
    | some c =>
      let c ← check fuel shape room c
      checkFields fuel wanted fields room (index + 1) c
    | none =>
      match ((needed :: fields.map (·.2.1)).zipIdx index).find? (·.1) with
      | some (_, place) => c.blanks.faultAround (.tooShort place wanted)
      | none => pure c.blanks.next

end

/-- The trouble with a whole text, if any. -/
def trouble? (shape : Shape) (room : Nat) (bytes : List UInt8) : Option Trouble :=
  let start : Cursor := ⟨bytes, {}⟩
  match check (2 * Walk.fuelFrom start) shape room start with
  | .error t => some t
  | .ok c =>
    let c := c.blanks
    if c.rest.isEmpty then none
    else some ⟨.surplus, some c.next.place, c⟩

end Shape
end DialectGateway.Intake
