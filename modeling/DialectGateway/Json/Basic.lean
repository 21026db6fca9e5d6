/-
# Json.Basic — JSON values

A record keeps its fields in the order they are printed in. Records that stand
for open-ended objects are *sorted*: keys strictly ascending by code point, which
is what `Json.ofFields` builds (of two fields with one key the later wins).
Records with a fixed form may be written in any order.

A whole number between -2^63 and 2^64 - 1 is an `int`; every other number is a
`real`.
-/
import DialectGateway.Decimal.Double

set_option autoImplicit false

namespace DialectGateway

open Decimal (Double)

inductive Json where
  | null
  | bool (b : Bool)
  | int (n : Int)
  | real (x : Double)
  | text (s : String)
  | list (items : List Json)
  | record (fields : List (String × Json))
  deriving Repr

namespace Json

instance : Inhabited Json := ⟨.null⟩

/-- Puts a field into sorted fields, unless its key is there already. -/
def insertNew (key : String) (v : Json) : List (String × Json) → List (String × Json)
  | [] => [(key, v)]
  | (k, w) :: rest =>
    if key = k then (k, w) :: rest
    else if key < k then (key, v) :: (k, w) :: rest
    else (k, w) :: insertNew key v rest

/-- The sorted record of the fields; of equal keys the last wins. -/
def ofFields (fields : List (String × Json)) : Json :=
  .record (fields.foldr (fun field sorted => insertNew field.1 field.2 sorted) [])

def get? : Json → String → Option Json
  | .record fields, key => fields.lookup key
  | _, _ => none

/-- The field under a key, `null` if there is none. -/
def field (v : Json) (key : String) : Json := (v.get? key).getD .null

/-- The item at a place, `null` if there is none. -/
def item (v : Json) (n : Nat) : Json :=
  match v with
  | .list items => items[n]?.getD .null
  | _ => .null

def isNull : Json → Bool
  | .null => true
  | _ => false

def isRecord : Json → Bool
  | .record _ => true
  | _ => false

def asText? : Json → Option String
  | .text s => some s
  | _ => none

def asList? : Json → Option (List Json)
  | .list items => some items
  | _ => none

/-- A whole number from 0 to 2^64 - 1. -/
def asWord? : Json → Option Nat
  | .int n => if 0 ≤ n ∧ n < UInt64.size then some n.toNat else none
  | _ => none

/-- A whole number from -2^63 to 2^63 - 1. -/
def asSigned? : Json → Option Int
  | .int n => if -9223372036854775808 ≤ n ∧ n < 9223372036854775808 then some n else none
  | _ => none

def nat (n : Nat) : Json := .int n

/-- A text or `null`. -/
def optText (s : Option String) : Json := s.elim .null .text

/-- One field if there is a value for it, none otherwise. -/
def optField {α : Type} (key : String) (value : Option α) (form : α → Json) :
    List (String × Json) :=
  match value with
  | some a => [(key, form a)]
  | none => []

theorem lookup_optField {α : Type} (key key' : String) (value : Option α) (form : α → Json) :
    (optField key value form).lookup key' = if key' = key then value.map form else none := by
  cases value <;> by_cases same : key' = key <;> simp [optField, same]

theorem asWord?_nat (n : UInt32) : (nat n.toNat).asWord? = some n.toNat := by
  have small := n.toNat_lt
  have within : (n.toNat : Int) < UInt64.size := by
    simp only [UInt64.size]
    omega
  rw [nat, asWord?, if_pos ⟨by omega, within⟩, Int.toNat_natCast]

theorem asSigned?_toInt (n : Int64) : (int n.toInt).asSigned? = some n.toInt := by
  have least := n.le_toInt
  have below := n.toInt_lt
  rw [asSigned?, if_pos ⟨by omega, by omega⟩]

@[simp] theorem get?_record (fields : List (String × Json)) (key : String) :
    (Json.record fields).get? key = fields.lookup key := rfl

@[simp] theorem asText?_text (s : String) : (Json.text s).asText? = some s := rfl

theorem asText?_null : Json.null.asText? = none := rfl

end Json
end DialectGateway
