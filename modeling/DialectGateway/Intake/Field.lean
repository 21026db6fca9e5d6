/-
# Intake.Field — typed reading of JSON trees

A reader takes a tree and the depth to which lists and records may still be
nested in it. Readers convert nothing: a text is a text and a whole number is
written as one. A structure with known fields is given as a record, in which
other fields are ignored unread and known fields stand at most once, or as a
list of its fields in order, from which fields at the end may be missing.
-/
import DialectGateway.Json.Tree

set_option autoImplicit false

namespace DialectGateway.Intake

open Json (Tree Piece)

abbrev Reader (A : Type) := Tree → Nat → Option A

def text : Reader String
  | .text pieces, _ => (Piece.text? pieces).map String.ofList
  | _, _ => none

def flag : Reader Bool
  | .bool b, _ => some b
  | _, _ => none

/-- A whole number from 0 to 2^32 - 1. -/
def word : Reader UInt32
  | .number n, _ =>
    match n.value? with
    | some (.int v) => if 0 ≤ v ∧ v < UInt32.size then some v.toNat.toUInt32 else none
    | _ => none
  | _, _ => none

/-- A number in single precision. -/
def single : Reader Decimal.Single
  | .number n, _ =>
    match n.value? with
    | some (.int v) => some (Decimal.Single.ofInt v)
    | some (.real x) => some (Decimal.Single.ofDouble x)
    | _ => none
  | _, _ => none

/-- Any value. -/
def value : Reader Json := fun t room => t.kept? room

/-- `null` or what the reader takes. -/
def nullable {A : Type} (read : Reader A) : Reader (Option A)
  | .null, _ => some none
  | t, room => (read t room).map some

def listOf {A : Type} (read : Reader A) : Reader (List A)
  | .list items, room + 1 => items.mapM (read · room)
  | _, _ => none

/-- A part that must be readable as a value before it is looked at. -/
def whole {A : Type} (read : Tree → Option A) : Reader A := fun t room =>
  (t.kept? room).bind fun _ => read t

/-! ## Structures -/

/-- The one value under a key, if any; `none` if there are several. -/
def only? (key : String) (fields : List (String × Tree)) : Option (Option Tree) :=
  match fields.filter (·.1 == key) with
  | [] => some none
  | [(_, t)] => some (some t)
  | _ => none

/-- The values of the named fields, in the order of the names. -/
def fieldsOf (names : List String) : Tree → Option (List (Option Tree))
  | .record fields => do
    let fields ← fields.mapM fun (key, t) => (Piece.text? key).map fun k => (String.ofList k, t)
    names.mapM (only? · fields)
  | .list items =>
    if items.length ≤ names.length then
      some (items.map some ++ List.replicate (names.length - items.length) none)
    else none
  | _ => none

/-- The values of the named fields of a structure, and the depth left in them. -/
def structure? (names : List String) : Reader (List (Option Tree) × Nat) := fun t room =>
  match room with
  | 0 => none
  | room + 1 => (fieldsOf names t).map (·, room)

/-- A field that may be missing. -/
def optional {A : Type} (field : Option Tree) (dflt : A) (read : Reader A) (room : Nat) :
    Option A :=
  match field with
  | none => some dflt
  | some t => read t room

def required {A : Type} (field : Option Tree) (read : Reader A) (room : Nat) : Option A :=
  field.bind (read · room)

end DialectGateway.Intake
