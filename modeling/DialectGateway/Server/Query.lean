/-
# Server.Query — what a query asks of a page

Of the keys that a page knows each may occur once, and values must have their
type; a query that does not keep to this is rejected. Other keys do not matter.
-/
import DialectGateway.Decimal.Read
import DialectGateway.Ledger.Report
import DialectGateway.Server.Answer
import DialectGateway.Text.Form

set_option autoImplicit false

namespace DialectGateway.Server.Query

abbrev Pairs := List (String × String)

/-- The only value of a key. -/
def value (q : Pairs) (key : String) : Except Rejection (Option String) :=
  match q.filter (·.1 == key) with
  | [] => .ok none
  | [(_, v)] => .ok (some v)
  | _ => .error .query

/-- The only value of a key, read as what it must be. -/
def typed {A : Type} (read? : String → Option A) (q : Pairs) (key : String) :
    Except Rejection (Option A) := do
  match ← value q key with
  | none => pure none
  | some v =>
    match read? v with
    | some a => pure (some a)
    | none => .error .query

/-- A number of 32 bits. -/
def count? (s : String) : Option Nat := (Decimal.readWhole UInt32.size s.toList).toOption

def flag? (s : String) : Option Bool :=
  if s = "true" then some true else if s = "false" then some false else none

structure Overview where
  duration : Option String
  deriving Repr

def overview (q : Pairs) : Except Rejection Overview := do pure ⟨← value q "duration"⟩

structure Rank where
  dimension : Option String
  duration : Option String
  deriving Repr

def rank (q : Pairs) : Except Rejection Rank := do
  pure ⟨← value q "dimension", ← value q "duration"⟩

def log (q : Pairs) : Except Rejection Ledger.Query := do
  pure {
    page := ← typed count? q "page"
    pageSize := ← typed count? q "page_size"
    start := ← value q "start"
    last := ← value q "end"
    success := ← typed flag? q "success"
    dialect := ← value q "request_type"
    model := ← value q "model" }

end DialectGateway.Server.Query
