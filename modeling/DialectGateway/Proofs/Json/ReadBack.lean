/-
# Proofs.Json.ReadBack — what is printed reads back

The text of a value is scanned into the tokens of the value's tree, and the tokens are
assembled to this tree (`Tree.ofSymbols?_print`). Whatever characters the texts of the
value have, they stay inside their quotes: each is escaped into pieces that the scanner
gathers up to the closing quote (`Scanner.run_escape`). A printed value is one line
(`unbroken_print`).

All this is about values without reals (`Plain`).

Scanning goes on behind a value with a scanner that amounts to the tokens so far
(`Scanner.Amounts`). It is not always between tokens: a numeral ends only with the
character behind it, or with the text.
-/
import DialectGateway.Json.Printer
import DialectGateway.Json.Tree
import Mathlib.Tactic.IntervalCases

set_option autoImplicit false

namespace DialectGateway.Json

open Decimal (digits digitChar digitValue isDigit)

/-! ## Plain values and their trees -/

/-- No number of the value is a real. -/
inductive Plain : Json → Prop
  | null : Plain .null
  | bool (b : Bool) : Plain (.bool b)
  | int (n : Int) : Plain (.int n)
  | text (s : String) : Plain (.text s)
  | list {items : List Json} (parts : ∀ v ∈ items, Plain v) : Plain (.list items)
  | record {fields : List (String × Json)} (parts : ∀ field ∈ fields, Plain field.2) :
      Plain (.record fields)

attribute [simp] Plain.null Plain.bool Plain.int Plain.text

@[simp] theorem plain_list_iff (items : List Json) :
    Plain (.list items) ↔ ∀ v ∈ items, Plain v := by
  refine ⟨?_, .list⟩
  rintro ⟨⟩
  assumption

@[simp] theorem plain_record_iff (fields : List (String × Json)) :
    Plain (.record fields) ↔ ∀ field ∈ fields, Plain field.2 := by
  refine ⟨?_, .record⟩
  rintro ⟨⟩
  assumption

@[simp] theorem plain_nat (n : Nat) : Plain (.nat n) := .int n

@[simp] theorem plain_optText (s : Option String) : Plain (.optText s) := by
  cases s <;> simp [optText]

/-- How a character stands in a quoted text. -/
def pieceOf (c : Char) : Piece :=
  if c.toNat < 32 ∧ c ≠ '\n' ∧ c ≠ '\r' ∧ c ≠ '\t' ∧ c.toNat ≠ 8 ∧ c.toNat ≠ 12 then
    .unit c.toNat
  else .symbol (some c)

def piecesOf (s : String) : List Piece := s.toList.map pieceOf

/-- How a whole number is written. -/
def numeralOf (n : Int) : Numeral where
  negative := n < 0
  whole := ((digits n.natAbs).map digitValue).reverse

mutual

/-- The tree of a plain value's text. -/
def treeOf : Json → Tree
  | .null | .real _ => .null
  | .bool b => .bool b
  | .int n => .number (numeralOf n)
  | .text s => .text (piecesOf s)
  | .list items => .list (treesOf items)
  | .record fields => .record (membersOf fields)

def treesOf : List Json → List Tree
  | [] => []
  | v :: rest => treeOf v :: treesOf rest

def membersOf : List (String × Json) → List (List Piece × Tree)
  | [] => []
  | (key, v) :: rest => (piecesOf key, treeOf v) :: membersOf rest

end

namespace Tree

mutual

/-- The tokens of a tree. -/
def tokens : Tree → List Token
  | .null => [.null]
  | .bool b => [.bool b]
  | .number n => [.number n]
  | .text pieces => [.text pieces]
  | .list items => .listOpen :: itemTokens items ++ [.listClose]
  | .record fields => .recordOpen :: memberTokens fields ++ [.recordClose]

def itemTokens : List Tree → List Token
  | [] => []
  | [t] => tokens t
  | t :: u :: rest => tokens t ++ .comma :: itemTokens (u :: rest)

def memberTokens : List (List Piece × Tree) → List Token
  | [] => []
  | [(key, t)] => .text key :: .colon :: tokens t
  | (key, t) :: next :: rest =>
    .text key :: .colon :: (tokens t ++ .comma :: memberTokens (next :: rest))

end
end Tree

/-! ## Tokens into trees -/

namespace Assembly

/-- Takes tokens one after another. -/
def run (a : Assembly) (tokens : List Token) : Option Assembly := tokens.foldlM step a

theorem run_singleton (a : Assembly) (token : Token) : a.run [token] = a.step token :=
  Option.bind_fun_some _

theorem run_cons (a : Assembly) (token : Token) (rest : List Token) :
    a.run (token :: rest) = (a.step token).bind (·.run rest) := rfl

theorem run_append (a : Assembly) (tokens rest : List Token) :
    a.run (tokens ++ rest) = (a.run tokens).bind (·.run rest) := List.foldlM_append

/-- A value may begin where a value is wanted or the first item of a list. -/
theorem step_begin {openings : List Opening} {wanted : Wanted} {token : Token}
    (ready : wanted = .value ∨ wanted = .firstItem) (begins : token ≠ .listClose) :
    step ⟨openings, wanted⟩ token = begin openings token := by
  rcases ready with rfl | rfl
  · rfl
  · cases token <;> first | exact absurd rfl begins | rfl

mutual

/-- The tokens of a tree put it into the innermost opening. -/
theorem run_tokens (t : Tree) (openings : List Opening) {wanted : Wanted}
    (ready : wanted = .value ∨ wanted = .firstItem) :
    run ⟨openings, wanted⟩ t.tokens = place t openings := by
  cases t with
  | null | bool b | number n | text pieces =>
      rw [Tree.tokens, run_singleton, step_begin ready (by simp), begin]
  | list items =>
      have opened := run_itemTokens items [] openings (.inr rfl)
      rw [Tree.tokens, List.cons_append, run_cons, step_begin ready (by simp), begin,
        Option.bind_some, run_append, opened, Option.bind_some, run_singleton]
      cases items with
      | nil => rfl
      | cons first rest =>
          simp only [List.append_nil, List.isEmpty_cons, Bool.false_eq_true, if_false, step,
            List.reverse_reverse]
  | record fields =>
      have opened := run_memberTokens fields [] openings (.inr rfl)
      rw [Tree.tokens, List.cons_append, run_cons, step_begin ready (by simp), begin,
        Option.bind_some, run_append, opened, Option.bind_some, run_singleton]
      cases fields with
      | nil => rfl
      | cons first rest =>
          simp only [List.append_nil, List.isEmpty_cons, Bool.false_eq_true, if_false, step,
            List.reverse_reverse]

theorem run_itemTokens (items acc : List Tree) (outer : List Opening) {wanted : Wanted}
    (ready : wanted = .value ∨ wanted = .firstItem) :
    run ⟨.list acc :: outer, wanted⟩ (Tree.itemTokens items) =
      some ⟨.list (items.reverse ++ acc) :: outer,
        if items.isEmpty then wanted else .separator⟩ := by
  match items with
  | [] => rfl
  | [t] =>
      rw [Tree.itemTokens, run_tokens t _ ready]
      rfl
  | t :: u :: rest =>
      have later := run_itemTokens (u :: rest) (t :: acc) outer (.inl rfl)
      rw [Tree.itemTokens, run_append, run_tokens t _ ready]
      exact later.trans (by simp)

theorem run_memberTokens (fields acc : List (List Piece × Tree)) (outer : List Opening)
    {wanted : Wanted} (ready : wanted = .key ∨ wanted = .firstKey) :
    run ⟨.record acc :: outer, wanted⟩ (Tree.memberTokens fields) =
      some ⟨.record (fields.reverse ++ acc) :: outer,
        if fields.isEmpty then wanted else .separator⟩ := by
  have key (pieces : List Piece) (tokens : List Token) :
      run ⟨.record acc :: outer, wanted⟩ (.text pieces :: .colon :: tokens) =
        run ⟨.member acc pieces :: outer, .value⟩ tokens := by
    rcases ready with rfl | rfl <;> rfl
  match fields with
  | [] => rfl
  | [(pieces, t)] =>
      rw [Tree.memberTokens, key, run_tokens t _ (.inl rfl)]
      rfl
  | (pieces, t) :: next :: rest =>
      have later := run_memberTokens (next :: rest) ((pieces, t) :: acc) outer (.inl rfl)
      rw [Tree.memberTokens, key, run_append, run_tokens t _ (.inl rfl)]
      exact later.trans (by simp)

end

/-- **The tokens of a tree are assembled to it.** -/
theorem finish_run_tokens (t : Tree) : (start.run t.tokens).bind finish = some t := by
  rw [start, run_tokens t [] (.inl rfl)]
  rfl

end Assembly
/-! ## Texts into tokens -/

namespace Scanner

/-- Reads characters one after another. -/
def run (s : Scanner) (cs : List Char) : Option Scanner := (cs.map some).foldlM step s

theorem run_cons (s : Scanner) (c : Char) (cs : List Char) :
    s.run (c :: cs) = (s.step (some c)).bind (·.run cs) := rfl

theorem run_cons_of_step {s s' : Scanner} {c : Char} (steps : s.step (some c) = some s')
    (cs : List Char) : s.run (c :: cs) = s'.run cs := by
  rw [run_cons, steps]
  rfl

/-! ### Quoted texts -/

theorem value?_digit {d : Nat} (small : d < 16) : Text.Hex.value? (Text.Hex.digit d) = some d := by
  interval_cases d <;> rfl

/-- The four digits of a unit are read as this unit. -/
theorem run_unit {n : Nat} (small : n < 65536) (pieces : List Piece) (tokens : List Token)
    (rest : List Char) : run ⟨.unit pieces 4 0, tokens⟩ (Text.Hex.fixed 4 n ++ rest) =
      run ⟨.quoted (.unit n :: pieces), tokens⟩ rest := by
  have sixteen (k : Nat) : k % 16 < 16 := Nat.mod_lt k (by decide)
  have whole : (((n / 16 / 16 / 16 % 16) * 16 + n / 16 / 16 % 16) * 16 + n / 16 % 16) * 16 +
      n % 16 = n := by omega
  simp [Text.Hex.fixed, run_cons, step, value?_digit, sixteen, whole]

/-- **A character of a quoted text stays within it.** -/
theorem run_escape (c : Char) (pieces : List Piece) (tokens : List Token) (rest : List Char) :
    run ⟨.quoted pieces, tokens⟩ (escape c ++ rest) =
      run ⟨.quoted (pieceOf c :: pieces), tokens⟩ rest := by
  fun_cases escape c with
  | case1 | case2 | case3 | case4 | case5 =>
      subst_vars
      rfl
  | case6 _ _ _ _ _ backspace =>
      obtain rfl : Char.ofNat 8 = c := backspace ▸ Char.ofNat_toNat c
      rfl
  | case7 _ _ _ _ _ _ formFeed =>
      obtain rfl : Char.ofNat 12 = c := formFeed ▸ Char.ofNat_toNat c
      rfl
  | case8 _ _ feed ret tab back form control =>
      rw [pieceOf, if_pos ⟨control, feed, ret, tab, back, form⟩]
      exact run_unit (by omega) pieces tokens rest
  | case9 quote slash _ _ _ _ _ visible =>
      have plain : ¬c.toNat < 32 := visible
      rw [pieceOf, if_neg fun control => plain control.1]
      refine run_cons_of_step ?_ rest
      simp only [step, quote, slash, plain, if_false]

theorem run_text (cs : List Char) (pieces : List Piece) (tokens : List Token)
    (tail : List Char) :
    run ⟨.quoted pieces, tokens⟩ (cs.foldr (fun c rest => escape c ++ rest) ('"' :: tail)) =
      run ⟨.between, .text (pieces.reverse ++ cs.map pieceOf) :: tokens⟩ tail := by
  induction cs generalizing pieces with
  | nil =>
      rw [List.foldr_nil, List.map_nil, List.append_nil]
      exact run_cons_of_step rfl tail
  | cons c cs ih =>
      rw [List.foldr_cons, run_escape, ih]
      simp

/-- **A quoted text is read as one token**, whatever characters it has. -/
theorem run_writeText (s : String) (tokens : List Token) (tail : List Char) :
    run ⟨.between, tokens⟩ (writeText s tail) =
      run ⟨.between, .text (piecesOf s) :: tokens⟩ tail := by
  have quoted : step ⟨.between, tokens⟩ (some '"') = some ⟨.quoted [], tokens⟩ := rfl
  rw [writeText, run_cons_of_step quoted, run_text]
  rfl

/-! ### Whole numbers -/

theorem digits_of_lt {n : Nat} (small : n < 10) : digits n = [digitChar n] := by
  rw [digits, if_pos small]

theorem digits_of_le {n : Nat} (large : 10 ≤ n) :
    digits n = digits (n / 10) ++ [digitChar (n % 10)] := by
  rw [digits, if_neg (by omega)]

theorem step_digit {d : Nat} (small : d < 10) (n : Numeral) (tokens : List Token) :
    step ⟨.numeral .whole n, tokens⟩ (some (digitChar d)) =
      some ⟨.numeral .whole { n with whole := d :: n.whole }, tokens⟩ := by
  simp [step, extend?, Decimal.isDigit_digitChar small, Decimal.digitValue_digitChar small]

/-- Digits that do not begin with a zero are gathered, if the first of them is. -/
theorem run_digits {s : Scanner} {negative : Bool} {tokens : List Token}
    (begins : ∀ d, 0 < d → d < 10 →
      s.step (some (digitChar d)) = some ⟨.numeral .whole { negative, whole := [d] }, tokens⟩)
    {n : Nat} (positive : 0 < n) (tail : List Char) :
    run s (digits n ++ tail) = run ⟨.numeral .whole
      { negative, whole := ((digits n).map digitValue).reverse }, tokens⟩ tail := by
  induction n using Nat.strongRecOn generalizing tail with
  | _ n ih =>
      by_cases small : n < 10
      · rw [digits_of_lt small, List.singleton_append, run_cons_of_step (begins n positive small)]
        simp [Decimal.digitValue_digitChar small]
      · have last : n % 10 < 10 := Nat.mod_lt n (by decide)
        rw [digits_of_le (by omega), List.append_assoc, ih (n / 10) (by omega) (by omega),
          List.singleton_append, run_cons_of_step (step_digit last _ tokens)]
        simp [Decimal.digitValue_digitChar last]

/-- A scanner that has read these tokens, last first, or has the last of them at hand as a
numeral that may end. -/
inductive Amounts : Scanner → List Token → Prop
  | between (tokens : List Token) : Amounts ⟨.between, tokens⟩ tokens
  | numeral {stage : Stage} (n : Numeral) (tokens : List Token)
      (whole : stage = .zero ∨ stage = .whole) :
      Amounts ⟨.numeral stage n, tokens⟩ (.number n :: tokens)

/-- **A whole number is read as its numeral.** -/
theorem run_signed (n : Int) (tokens : List Token) :
    ∃ s, Amounts s (.number (numeralOf n) :: tokens) ∧
      ∀ tail, run ⟨.between, tokens⟩ (Decimal.signed n ++ tail) = run s tail := by
  rcases lt_trichotomy n 0 with negative | zero | positive
  · refine ⟨_, .numeral (numeralOf n) tokens (.inr rfl), ?_⟩
    intro tail
    have begins (d : Nat) (low : 0 < d) (high : d < 10) :
        step ⟨.numeral .sign { negative := true }, tokens⟩ (some (digitChar d)) =
          some ⟨.numeral .whole { negative := true, whole := [d] }, tokens⟩ := by
      interval_cases d <;> rfl
    have minus : step ⟨.between, tokens⟩ (some '-') =
        some ⟨.numeral .sign { negative := true }, tokens⟩ := rfl
    rw [Decimal.signed, if_pos negative, List.cons_append, run_cons_of_step minus,
      run_digits begins (Int.natAbs_pos.2 negative.ne), numeralOf, decide_eq_true negative]
  · refine ⟨_, .numeral (numeralOf n) tokens (.inl rfl), ?_⟩
    intro tail
    rw [zero]
    have digits_zero : digits 0 = ['0'] := by rw [digits_of_lt (by decide)]; rfl
    have read : step ⟨.between, tokens⟩ (some '0') =
        some ⟨.numeral .zero { whole := [0] }, tokens⟩ := rfl
    simp only [Decimal.signed, numeralOf, lt_irrefl, if_false, Int.natAbs_zero, digits_zero,
      List.singleton_append, run_cons_of_step read]
    rfl
  · refine ⟨_, .numeral (numeralOf n) tokens (.inr rfl), ?_⟩
    intro tail
    have begins (d : Nat) (low : 0 < d) (high : d < 10) :
        step ⟨.between, tokens⟩ (some (digitChar d)) =
          some ⟨.numeral .whole { whole := [d] }, tokens⟩ := by
      interval_cases d <;> rfl
    have unsigned : ¬n < 0 := by omega
    rw [Decimal.signed, if_neg unsigned, run_digits begins (Int.natAbs_pos.2 positive.ne'),
      numeralOf, decide_eq_false unsigned]

namespace Amounts

variable {s : Scanner} {tokens : List Token}

/-- A character that no numeral holds ends one. -/
theorem step (amounts : Amounts s tokens) {c : Char} (delimits : c = ',' ∨ c = ']' ∨ c = '}') :
    s.step (some c) = Scanner.between tokens (some c) := by
  cases amounts with
  | between => rfl
  | numeral n tokens stage =>
      rcases stage with rfl | rfl <;> rcases delimits with rfl | rfl | rfl <;> rfl

theorem finish (amounts : Amounts s tokens) : s.finish = some tokens.reverse := by
  cases amounts with
  | between => rfl
  | numeral n tokens stage => rcases stage with rfl | rfl <;> rfl

end Amounts

/-! ### Values -/

/-- Behind items, which commas part, the scanner amounts to their tokens if it does so behind
each of them. -/
theorem run_items {items : List Json}
    (each : ∀ v ∈ items, ∀ tokens, ∃ s, Amounts s ((treeOf v).tokens.reverse ++ tokens) ∧
      ∀ tail, run ⟨.between, tokens⟩ (v.write tail) = run s tail) (tokens : List Token) :
    ∃ s, Amounts s ((Tree.itemTokens (treesOf items)).reverse ++ tokens) ∧
      ∀ tail, run ⟨.between, tokens⟩ (writeItems items tail) = run s tail := by
  induction items generalizing tokens with
  | nil => exact ⟨_, .between tokens, fun _ => rfl⟩
  | cons v rest ih =>
      obtain ⟨s, amounts, reads⟩ := each v (by simp) tokens
      cases rest with
      | nil => exact ⟨s, amounts, reads⟩
      | cons w rest =>
          obtain ⟨s', amounts', reads'⟩ :=
            ih (fun u member => each u (List.mem_cons_of_mem v member))
              (.comma :: ((treeOf v).tokens.reverse ++ tokens))
          refine ⟨s', ?_, ?_⟩
          · simpa [treesOf, Tree.itemTokens] using amounts'
          · intro tail
            rw [writeItems, reads, run_cons, amounts.step (.inl rfl)]
            exact reads' tail

theorem run_fields {fields : List (String × Json)}
    (each : ∀ field ∈ fields, ∀ tokens,
      ∃ s, Amounts s ((treeOf field.2).tokens.reverse ++ tokens) ∧
        ∀ tail, run ⟨.between, tokens⟩ (field.2.write tail) = run s tail) (tokens : List Token) :
    ∃ s, Amounts s ((Tree.memberTokens (membersOf fields)).reverse ++ tokens) ∧
      ∀ tail, run ⟨.between, tokens⟩ (writeFields fields tail) = run s tail := by
  induction fields generalizing tokens with
  | nil => exact ⟨_, .between tokens, fun _ => rfl⟩
  | cons field rest ih =>
      obtain ⟨key, v⟩ := field
      obtain ⟨s, amounts, reads⟩ :=
        each (key, v) (by simp) (.colon :: .text (piecesOf key) :: tokens)
      have named (tail : List Char) :
          run ⟨.between, tokens⟩ (writeText key (':' :: v.write tail)) = run s tail := by
        rw [run_writeText]
        exact (run_cons_of_step rfl _).trans (reads tail)
      cases rest with
      | nil =>
          refine ⟨s, ?_, named⟩
          simpa [membersOf, Tree.memberTokens] using amounts
      | cons next rest =>
          obtain ⟨s', amounts', reads'⟩ :=
            ih (fun other member => each other (List.mem_cons_of_mem _ member))
              (.comma :: ((treeOf v).tokens.reverse ++ .colon :: .text (piecesOf key) :: tokens))
          refine ⟨s', ?_, ?_⟩
          · obtain ⟨key', v'⟩ := next
            simpa [membersOf, Tree.memberTokens] using amounts'
          · intro tail
            rw [writeFields, named, run_cons, amounts.step (.inl rfl)]
            exact reads' tail

/-- **The text of a value is read as the tokens of its tree.** -/
theorem run_write {v : Json} (plain : Plain v) (tokens : List Token) :
    ∃ s, Amounts s ((treeOf v).tokens.reverse ++ tokens) ∧
      ∀ tail, run ⟨.between, tokens⟩ (v.write tail) = run s tail := by
  induction plain generalizing tokens with
  | null => exact ⟨_, .between _, fun _ => rfl⟩
  | bool b => cases b <;> exact ⟨_, .between _, fun _ => rfl⟩
  | int n => exact run_signed n tokens
  | text s => exact ⟨_, .between _, run_writeText s tokens⟩
  | @list items _ ih =>
      obtain ⟨s, amounts, reads⟩ := run_items ih (.listOpen :: tokens)
      refine ⟨⟨.between, (treeOf (.list items)).tokens.reverse ++ tokens⟩, .between _, ?_⟩
      intro tail
      have opened : step ⟨.between, tokens⟩ (some '[') = some ⟨.between, .listOpen :: tokens⟩ := rfl
      rw [write, run_cons_of_step opened, reads]
      refine run_cons_of_step ?_ tail
      rw [amounts.step (.inr (.inl rfl))]
      simp [between, isSpace, treeOf, Tree.tokens]
  | @record fields _ ih =>
      obtain ⟨s, amounts, reads⟩ := run_fields ih (.recordOpen :: tokens)
      refine ⟨⟨.between, (treeOf (.record fields)).tokens.reverse ++ tokens⟩, .between _, ?_⟩
      intro tail
      have opened : step ⟨.between, tokens⟩ (some '{') =
          some ⟨.between, .recordOpen :: tokens⟩ := rfl
      rw [write, run_cons_of_step opened, reads]
      refine run_cons_of_step ?_ tail
      rw [amounts.step (.inr (.inr rfl))]
      simp [between, isSpace, treeOf, Tree.tokens]

theorem scan_print {v : Json} (plain : Plain v) :
    scan (v.print.toList.map some) = some (treeOf v).tokens := by
  obtain ⟨s, amounts, reads⟩ := run_write plain []
  have whole : start.run v.print.toList = some s := by
    rw [print, String.toList_ofList]
    exact reads []
  rw [scan]
  show (start.run v.print.toList).bind Scanner.finish = _
  rw [whole, Option.bind_some, amounts.finish]
  simp

end Scanner

/-- **A printed value is read back as its tree.** -/
theorem Tree.ofSymbols?_print {v : Json} (plain : Plain v) :
    Tree.ofSymbols? (v.print.toList.map some) = some (treeOf v) := by
  rw [Tree.ofSymbols?, Scanner.scan_print plain]
  exact Assembly.finish_run_tokens (treeOf v)

/-! ## One line -/

/-- None of the characters ends a line. -/
def Unbroken (cs : List Char) : Prop := ∀ c ∈ cs, isBreak c = false

theorem unbroken_append {left right : List Char} (l : Unbroken left) (r : Unbroken right) :
    Unbroken (left ++ right) := fun c member => (List.mem_append.1 member).elim (l c) (r c)

theorem unbroken_cons {c : Char} {cs : List Char} (first : isBreak c = false)
    (rest : Unbroken cs) : Unbroken (c :: cs) := List.forall_mem_cons.2 ⟨first, rest⟩

theorem isBreak_digit {d : Nat} (small : d < 16) : isBreak (Text.Hex.digit d) = false := by
  interval_cases d <;> rfl

theorem unbroken_escape (c : Char) : Unbroken (escape c) := by
  have unit (n : Nat) : Unbroken (Text.Hex.fixed 4 n) := by
    have sixteen (k : Nat) : k % 16 < 16 := Nat.mod_lt k (by decide)
    simp [Unbroken, Text.Hex.fixed, isBreak_digit, sixteen]
  fun_cases escape c with
  | case1 | case2 | case3 | case4 | case5 | case6 | case7 => simp [Unbroken, isBreak]
  | case8 => exact unbroken_cons rfl (unbroken_cons rfl (unit c.toNat))
  | case9 _ _ feed ret => simp [Unbroken, isBreak, feed, ret]

theorem unbroken_writeText (s : String) {tail : List Char} (rest : Unbroken tail) :
    Unbroken (writeText s tail) := by
  refine unbroken_cons rfl ?_
  induction s.toList with
  | nil => exact unbroken_cons rfl rest
  | cons c cs ih => exact unbroken_append (unbroken_escape c) ih

theorem unbroken_signed (n : Int) : Unbroken (Decimal.signed n) := by
  have digit (c : Char) (member : c ∈ digits n.natAbs) : isBreak c = false := by
    have numeric := List.all_eq_true.1 (Decimal.all_isDigit_digits n.natAbs) c member
    have feed : c ≠ '\n' := by
      rintro rfl
      exact absurd numeric (by decide)
    have ret : c ≠ '\r' := by
      rintro rfl
      exact absurd numeric (by decide)
    simp [isBreak, feed, ret]
  rw [Decimal.signed]
  split
  · exact unbroken_cons rfl digit
  · exact digit

theorem unbroken_items {items : List Json}
    (each : ∀ v ∈ items, ∀ {tail}, Unbroken tail → Unbroken (v.write tail)) {tail : List Char}
    (rest : Unbroken tail) : Unbroken (writeItems items tail) := by
  induction items with
  | nil => exact rest
  | cons v more ih =>
      cases more with
      | nil => exact each v (by simp) rest
      | cons w more =>
          have later := ih fun u member => each u (List.mem_cons_of_mem v member)
          exact each v (by simp) (unbroken_cons rfl later)

theorem unbroken_fields {fields : List (String × Json)}
    (each : ∀ field ∈ fields, ∀ {tail}, Unbroken tail → Unbroken (field.2.write tail))
    {tail : List Char} (rest : Unbroken tail) : Unbroken (writeFields fields tail) := by
  induction fields with
  | nil => exact rest
  | cons field more ih =>
      have value {tail : List Char} (rest : Unbroken tail) :
          Unbroken (writeText field.1 (':' :: field.2.write tail)) :=
        unbroken_writeText field.1 (unbroken_cons rfl (each field (by simp) rest))
      cases more with
      | nil => exact value rest
      | cons next more =>
          have later := ih fun other member => each other (List.mem_cons_of_mem field member)
          exact value (unbroken_cons rfl later)

theorem unbroken_write {v : Json} (plain : Plain v) {tail : List Char} (rest : Unbroken tail) :
    Unbroken (v.write tail) := by
  induction plain generalizing tail with
  | null => exact unbroken_append (by simp [Unbroken, isBreak]) rest
  | bool b => cases b <;> exact unbroken_append (by simp [Unbroken, isBreak]) rest
  | int n => exact unbroken_append (unbroken_signed n) rest
  | text s => exact unbroken_writeText s rest
  | list _ ih =>
      exact unbroken_cons rfl (unbroken_items (fun v member _ => ih v member)
        (unbroken_cons rfl rest))
  | record _ ih =>
      exact unbroken_cons rfl (unbroken_fields (fun field member _ => ih field member)
        (unbroken_cons rfl rest))

/-- **A printed value is one line.** -/
theorem unbroken_print {v : Json} (plain : Plain v) : Unbroken v.print.toList := by
  rw [print, String.toList_ofList]
  exact unbroken_write plain fun _ member => absurd member List.not_mem_nil

end DialectGateway.Json
