/-
# Text.Lowercase — texts in lower case

Every character takes its lower case by itself, with two exceptions: the dotted
capital I becomes two characters, and a capital sigma at the end of a word
becomes the final small sigma. A word ends where the next character that is not
passed over has no case.
-/
import DialectGateway.Text.CaseTable

set_option autoImplicit false

namespace DialectGateway.Text

def CaseRun.has (r : CaseRun) (n : Nat) : Bool :=
  r.first ≤ n && n ≤ r.last && (n - r.first) % r.step == 0

def lowerCode (n : Nat) : Nat :=
  match lowering.find? (·.has n) with
  | some r => (n + r.shift).toNat
  | none => n

def within (ranges : List (Nat × Nat)) (n : Nat) : Bool :=
  ranges.any fun (first, last) => first ≤ n && n ≤ last

/-- The nearest character that is not passed over has case. -/
def meetsCased (cs : List Char) : Bool :=
  match cs.dropWhile (within ignorable ·.toNat) with
  | c :: _ => within cased c.toNat
  | [] => false

/-- One character in lower case, between the characters before it (nearest
first) and after it. -/
def lowerAt (before : List Char) (c : Char) (after : List Char) : List Char :=
  if c.toNat = 0x130 then ['i', Char.ofNat 0x307]
  else if c.toNat = 0x3A3 then
    [if meetsCased before && !meetsCased after then Char.ofNat 0x3C2 else Char.ofNat 0x3C3]
  else [Char.ofNat (lowerCode c.toNat)]

def lowerFrom (before : List Char) : List Char → List Char
  | [] => []
  | c :: after => lowerAt before c after ++ lowerFrom (c :: before) after

def lowercase (s : String) : String := String.ofList (lowerFrom [] s.toList)

end DialectGateway.Text
