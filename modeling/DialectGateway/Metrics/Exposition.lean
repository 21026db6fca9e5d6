/-
# Metrics.Exposition — the text form of metrics

A family has a name, a help text and a kind, and its samples a name, labels and a
value. Label values escape the backslash, the quote and the line feed. Values are
plain decimals without an exponent.
-/
import DialectGateway.Decimal.Shortest

set_option autoImplicit false

namespace DialectGateway.Metrics

open Decimal (Double Layout)

inductive Kind where
  | counter
  | gauge
  | histogram
  deriving DecidableEq, Repr

def Kind.name : Kind → String
  | counter => "counter"
  | gauge => "gauge"
  | histogram => "histogram"

structure Sample where
  name : String
  labels : List (String × String)
  value : Double
  deriving Repr

structure Family where
  name : String
  help : String
  kind : Kind
  samples : List Sample
  deriving Repr

/-- Always positional, and a whole number is written without a point. -/
def plain : Layout := ⟨none, none, false⟩

def valueText (x : Double) : List Char :=
  if x.isNan then ['N', 'a', 'N']
  else if x.isFinite then plain.writeDouble x
  else if x.negative then ['-', 'i', 'n', 'f'] else ['i', 'n', 'f']

def escape (c : Char) : List Char :=
  if c = '\\' then ['\\', '\\']
  else if c = '"' then ['\\', '"']
  else if c = '\n' then ['\\', 'n']
  else [c]

def labelText (label : String × String) : String :=
  label.1 ++ "=\"" ++ String.ofList (label.2.toList.flatMap escape) ++ "\""

def Sample.line (s : Sample) : String :=
  let labels :=
    if s.labels.isEmpty then ""
    else "\x7b" ++ String.intercalate "," (s.labels.map labelText) ++ "\x7d"
  s.name ++ labels ++ " " ++ String.ofList (valueText s.value) ++ "\n"

/-- A family without samples is left out. -/
def Family.text (f : Family) : String :=
  if f.samples.isEmpty then ""
  else
    "# HELP " ++ f.name ++ " " ++ f.help ++ "\n# TYPE " ++ f.name ++ " " ++ f.kind.name ++ "\n" ++
      String.join (f.samples.map Sample.line)

/-- The text of families, which are given in the order of their names. -/
def expose (families : List Family) : String := String.join (families.map Family.text)

end DialectGateway.Metrics
