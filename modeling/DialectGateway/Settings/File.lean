/-
# Settings.File — settings from a document

A document is a mapping of sections, and a section a mapping of settings. Other
keys are ignored; a known key stands at most once. A section that holds nothing
has its defaults. Texts are taken from any scalar, numbers from plain ones only.
-/
import DialectGateway.Settings.Basic
import DialectGateway.Yaml.Node

set_option autoImplicit false

namespace DialectGateway.Settings

open Yaml (Node)
open Decimal (Double)

abbrev Reader (A : Type) := Node → Option A

def text : Reader String
  | .scalar _ s => some s
  | _ => none

def isNull (plain : Bool) (s : String) : Bool :=
  plain && ["", "null", "Null", "NULL", "~"].contains s

def nullable {A : Type} (read : Reader A) : Reader (Option A)
  | .scalar plain s => if isNull plain s then some none else (read (.scalar plain s)).map some
  | node => (read node).map some

def texts : Reader (List String)
  | .list items => items.mapM text
  | .scalar true "" => some []
  | _ => none

/-- A number in another base than ten, by the letter that marks it. -/
def marked? (mark : Char) : Option Nat := [('x', 16), ('o', 8), ('b', 2)].lookup mark

def digitOf? (base : Nat) (c : Char) : Option Nat :=
  let n := c.toLower.toNat
  let v := if n < 97 then n - 48 else n - 87
  if (Decimal.isDigit c || c.isAlpha) && v < base then some v else none

def inBase? (base : Nat) (cs : List Char) : Option Nat :=
  if cs.isEmpty then none
  else cs.foldlM (fun n c => (digitOf? base c).map (n * base + ·)) 0

/-- A digit zero with further digits is not a number. -/
def isPadded : List Char → Bool
  | '0' :: cs => !cs.isEmpty && cs.all Decimal.isDigit
  | _ => false

/-- A whole number in plain decimal digits or with a mark for its base. -/
def whole? (cs : List Char) : Option Nat :=
  let cs := Decimal.withoutPlus cs
  match cs with
  | '0' :: mark :: rest =>
    match marked? mark with
    | some base => inBase? base rest
    | none => if isPadded cs then none else Decimal.value? cs
  | _ => Decimal.value? cs

/-- A whole number below `bound`. -/
def whole (bound : Nat) : Reader Nat
  | .scalar true s => (whole? s.toList).filter (· < bound)
  | _ => none

def word : Reader Nat := whole UInt64.size

def infinite : List (String × Float) :=
  [(".inf", 1.0 / 0.0), (".Inf", 1.0 / 0.0), (".INF", 1.0 / 0.0), ("+.inf", 1.0 / 0.0),
    ("+.Inf", 1.0 / 0.0), ("+.INF", 1.0 / 0.0), ("-.inf", -1.0 / 0.0), ("-.Inf", -1.0 / 0.0),
    ("-.INF", -1.0 / 0.0), (".nan", Decimal.notANumber), (".NaN", Decimal.notANumber),
    (".NAN", Decimal.notANumber)]

/-- A real number; those that are none have spellings of their own. -/
def real : Reader Double
  | .scalar true s =>
    match infinite.lookup s with
    | some x => some (Double.ofFloat x)
    | none =>
      let cs := s.toList
      if ['+', '+'].isPrefixOf cs || ['+', '-'].isPrefixOf cs then none
      else (Decimal.readReal cs).toOption.filter (·.isFinite)
  | _ => none

/-! ## Sections -/

/-- The fields of a section, if each key is a scalar. -/
def fields? : Node → Option (List (String × Node))
  | .mapping pairs => pairs.mapM fun (key, value) => (text key).map (·, value)
  | .scalar true "" => some []
  | _ => none

/-- The value of a field that stands at most once. -/
def field {A : Type} (fields : List (String × Node)) (key : String) (dflt : A) (read : Reader A) :
    Option A :=
  match fields.filter (·.1 == key) with
  | [] => some dflt
  | [(_, node)] => read node
  | _ => none

def Server.ofNode? : Reader Server := fun node => do
  let fields ← fields? node
  let dflt : Server := {}
  return ⟨← field fields "host" dflt.host text,
    ← field fields "port" dflt.socket (whole UInt16.size)⟩

def Backend.ofNode? : Reader Backend := fun node => do
  let fields ← fields? node
  let dflt : Backend := {}
  return ⟨← field fields "base_url" dflt.base text,
    ← field fields "api_key" dflt.key (nullable text),
    ← field fields "platform_name" dflt.platform text,
    ← field fields "request_timeout_secs" dflt.timeoutSecs word⟩

def Access.ofNode? : Reader Access := fun node => do
  let fields ← fields? node
  return ⟨← field fields "api_keys" [] texts, ← field fields "admin_key" none (nullable text)⟩

def Figures.ofNode? : Reader Figures := fun node => do
  let fields ← fields? node
  let dflt : Figures := {}
  return ⟨← field fields "trim_low" dflt.trimLow real,
    ← field fields "trim_high" dflt.trimHigh real,
    ← field fields "rate_window_secs" dflt.rateWindowSecs word⟩

def Ledger.ofNode? : Reader Ledger := fun node => do
  let fields ← fields? node
  let dflt : Ledger := {}
  return ⟨← field fields "capacity" dflt.capacity word,
    ← field fields "channel_capacity" dflt.queueCapacity word,
    ← field fields "batch_size" dflt.batchSize word,
    ← field fields "flush_interval_ms" dflt.flushMs word⟩

def Stream.ofNode? : Reader Stream := fun node => do
  let fields ← fields? node
  let dflt : Stream := {}
  return ⟨← field fields "buffer" dflt.buffer word⟩

def ofNode? : Reader Settings := fun node => do
  let fields ← fields? node
  return {
    server := ← field fields "server" {} Server.ofNode?
    backend := ← field fields "upstream" {} Backend.ofNode?
    access := ← field fields "auth" {} Access.ofNode?
    figures := ← field fields "stats" {} Figures.ofNode?
    ledger := ← field fields "request_log" {} Ledger.ofNode?
    stream := ← field fields "stream" {} Stream.ofNode? }

/-- The settings of a text; a text without a document has the defaults. -/
def ofText? (s : String) : Option Settings := do
  match ← Node.ofText? s with
  | some node => ofNode? node
  | none => some {}

end DialectGateway.Settings
