/-
# Ledger.Rank — the busiest models or platforms

Entries are grouped by name. The groups with most entries come first, groups with
as many entries in the order of their names, and at most ten are listed.
-/
import DialectGateway.Ledger.Entry
import DialectGateway.Keyed
import DialectGateway.Text.Lowercase

set_option autoImplicit false

namespace DialectGateway.Ledger

open Decimal (Double)

inductive Dimension where
  | model
  | platform
  deriving DecidableEq, Repr

namespace Dimension

def name : Dimension → String
  | model => "model"
  | platform => "platform"

def of : Dimension → Entry → String
  | model, e => e.model
  | platform, e => e.platform

/-- The dimension of a word, letter case aside; or the complaint about it. -/
def ofWord (s : String) : Except String Dimension :=
  let word := Text.lowercase s
  if word = "model" then .ok model
  else if word = "platform" then .ok platform
  else .error ("Unknown rank dimension '" ++ word ++ "', expected model or platform")

end Dimension

/-- How many entries a group has, and how many of them succeeded. -/
structure Count where
  entries : Nat := 0
  successes : Nat := 0
  deriving DecidableEq, Repr

def Count.add (c : Count) (e : Entry) : Count :=
  ⟨c.entries + 1, if e.success then c.successes + 1 else c.successes⟩

/-- A quotient of counts, 0 if there is nothing to divide by. -/
def ratio (part whole : Nat) : Double :=
  if whole = 0 then Double.ofNat 0 else (Double.ofNat part).div (Double.ofNat whole)

@[ext]
structure RankItem where
  name : String
  count : Nat
  successRate : Double
  share : Double
  deriving DecidableEq, Repr

def RankItem.json (i : RankItem) : Json :=
  .record [
    ("name", .text i.name),
    ("count", .nat i.count),
    ("success_rate", .real i.successRate),
    ("share", .real i.share)]

/-- The groups by name. -/
def groups (entries : List Entry) (dimension : Dimension) : List (String × Count) :=
  entries.foldl (fun groups e => Keyed.adjust (dimension.of e) {} (·.add e) groups) []

/-- One group comes before another, or they are the same. -/
def busier (a b : String × Count) : Bool :=
  b.2.entries < a.2.entries || (a.2.entries == b.2.entries && !(b.1 < a.1 : Bool))

def rankLimit : Nat := 10

/-- The busiest of the groups, in order. There are `total` entries in all. -/
def listing (groups : List (String × Count)) (total : Nat) : List RankItem :=
  ((groups.mergeSort busier).take rankLimit).map fun (name, count) =>
    ⟨name, count.entries, ratio count.successes count.entries, ratio count.entries total⟩

def rank (entries : List Entry) (dimension : Dimension) : List RankItem :=
  listing (groups entries dimension) entries.length

end DialectGateway.Ledger
