/-
# Proofs.Json.Kept — what is printed is read back as it was

Printing and reading a value gives the value again if nothing has to be changed in it: its
records are sorted, its numbers are whole and of a size that stays whole, and lists and
records are nested no deeper than is read (`Kept`, `ofText?_print`). Texts may hold any
characters.
-/
import DialectGateway.Proofs.Json.ReadBack

set_option autoImplicit false

namespace DialectGateway.Json

open Decimal (digits digitChar digitValue)

/-- Reading keeps the value as it is, with at most `n` lists and records nested in it. -/
inductive Kept : Nat → Json → Prop
  | null (n : Nat) : Kept n .null
  | bool (n : Nat) (b : Bool) : Kept n (.bool b)
  | int (n : Nat) {k : Int} (least : -9223372036854775808 ≤ k) (below : k < UInt64.size) :
      Kept n (.int k)
  | text (n : Nat) (s : String) : Kept n (.text s)
  | list {n : Nat} {items : List Json} (parts : ∀ v ∈ items, Kept n v) :
      Kept (n + 1) (.list items)
  | record {n : Nat} {fields : List (String × Json)}
      (ascending : (fields.map Prod.fst).Pairwise (· < ·))
      (parts : ∀ field ∈ fields, Kept n field.2) : Kept (n + 1) (.record fields)

namespace Kept

attribute [simp] Kept.null Kept.bool Kept.text

@[simp] theorem nat_word (n : Nat) (k : UInt32) : Kept n (.nat k.toNat) := by
  have small := k.toNat_lt
  refine .int n (by omega) ?_
  simp only [UInt64.size]
  omega

@[simp] theorem optText (n : Nat) (s : Option String) : Kept n (.optText s) := by
  cases s <;> simp [Json.optText]

/-- What is kept with less room is kept with more. -/
theorem mono {n m : Nat} {v : Json} (kept : Kept n v) (more : n ≤ m) : Kept m v := by
  induction kept generalizing m with
  | null => exact .null m
  | bool _ b => exact .bool m b
  | int _ least below => exact .int m least below
  | text _ s => exact .text m s
  | list _ ih =>
      obtain ⟨m, rfl⟩ := Nat.exists_eq_add_of_le' more
      exact .list fun v member => ih v member (Nat.le_add_left _ m)
  | record ascending _ ih =>
      obtain ⟨m, rfl⟩ := Nat.exists_eq_add_of_le' more
      exact .record ascending fun field member => ih field member (Nat.le_add_left _ m)

theorem plain {n : Nat} {v : Json} (kept : Kept n v) : Plain v := by
  induction kept with
  | null | bool | int | text => simp
  | list _ ih => exact .list ih
  | record _ _ ih => exact .record ih

end Kept

/-- Fields whose keys are among the given ones, in their order, and whose values are kept. -/
structure KeptFields (n : Nat) (keys : List String) (fields : List (String × Json)) : Prop where
  among : (fields.map Prod.fst).Sublist keys
  parts : ∀ field ∈ fields, Kept n field.2

namespace KeptFields

variable {n : Nat} {keys keys' : List String} {fields fields' : List (String × Json)} {key : String}

theorem nil : KeptFields n [] [] := ⟨.slnil, by simp⟩

theorem cons {v : Json} (kept : Kept n v) (rest : KeptFields n keys fields) :
    KeptFields n (key :: keys) ((key, v) :: fields) :=
  ⟨rest.among.cons_cons key, List.forall_mem_cons.2 ⟨kept, rest.parts⟩⟩

theorem skip (rest : KeptFields n keys fields) : KeptFields n (key :: keys) fields :=
  ⟨rest.among.cons key, rest.parts⟩

theorem append (left : KeptFields n keys fields) (right : KeptFields n keys' fields') :
    KeptFields n (keys ++ keys') (fields ++ fields') := by
  refine ⟨?_, List.forall_mem_append.2 ⟨left.parts, right.parts⟩⟩
  rw [List.map_append]
  exact left.among.append right.among

theorem optField {α : Type} {value : Option α} {form : α → Json} (each : ∀ a, Kept n (form a)) :
    KeptFields n [key] (Json.optField key value form) := by
  cases value with
  | none => exact nil.skip
  | some a => exact nil.cons (each a)

end KeptFields

/-- A record is kept if its keys are among ascending ones. -/
theorem Kept.of_fields {n : Nat} {keys : List String} {fields : List (String × Json)}
    (parts : KeptFields n keys fields) (ascending : keys.Pairwise (· < ·)) :
    Kept (n + 1) (.record fields) :=
  .record (ascending.sublist parts.among) parts.parts

/-! ## Texts and numbers -/

theorem text?_piecesOf (s : String) : Piece.text? (piecesOf s) = some s.toList := by
  rw [piecesOf]
  induction s.toList with
  | nil => rfl
  | cons c cs ih =>
      rw [List.map_cons, pieceOf]
      split
      · next control =>
        have low : ¬ (0xD800 ≤ c.toNat ∧ c.toNat < 0xDC00) := by omega
        have high : ¬ (0xDC00 ≤ c.toNat ∧ c.toNat < 0xE000) := by omega
        rw [Piece.text?.eq_def]
        simp only [low, high, if_false, ih, Char.ofNat_toNat, Option.map_some]
      · rw [Piece.text?, ih]
        rfl

/-- Digits of a number below 2^64 are gathered to the last. -/
theorem gather_digits {n : Nat} (below : n < UInt64.size) (rest : List Nat) :
    Numeral.gather 0 ((digits n).map digitValue ++ rest) = Numeral.gather n rest := by
  induction n using Nat.strongRecOn generalizing rest with
  | _ n ih =>
    rw [digits]
    by_cases small : n < 10
    · rw [if_pos small]
      simp [Numeral.gather, Decimal.digitValue_digitChar small, below]
    · have last : n / 10 * 10 + n % 10 = n := by omega
      rw [if_neg small, List.map_append, List.append_assoc, ih (n / 10) (by omega) (by omega)]
      simp [Numeral.gather, Decimal.digitValue_digitChar (Nat.mod_lt n (by omega : 0 < 10)), last,
        below]

/-- A whole number of a size that stays whole is the value of its numeral. -/
theorem value?_numeralOf {n : Int} (least : -9223372036854775808 ≤ n) (below : n < UInt64.size) :
    (numeralOf n).value? = some (.int n) := by
  have size : n.natAbs < UInt64.size := by
    simp only [UInt64.size] at below ⊢
    omega
  have gathered : Numeral.gather 0 (numeralOf n).whole.reverse = (n.natAbs, []) := by
    have all := gather_digits size []
    rw [List.append_nil] at all
    rw [numeralOf, List.reverse_reverse, all, Numeral.gather]
  rw [Numeral.value?, gathered]
  by_cases negative : n < 0
  · have within : ¬ (n.natAbs = 0 ∨ UInt64.size / 2 < n.natAbs) := by
      simp only [UInt64.size]
      omega
    have same : -(n.natAbs : Int) = n := by omega
    simp only [numeralOf, negative, decide_true, List.isEmpty_nil, Bool.and_self, if_true,
      Bool.not_true, Bool.false_eq_true, if_false, if_neg within, same]
  · have same : (n.natAbs : Int) = n := by omega
    simp only [numeralOf, negative, decide_false, List.isEmpty_nil, Bool.and_self, if_true,
      Bool.not_false, same]

/-! ## Values -/

/-- A record of sorted fields is the record of its fields. -/
theorem ofFields_of_ascending {fields : List (String × Json)}
    (ascending : (fields.map Prod.fst).Pairwise (· < ·)) : ofFields fields = .record fields := by
  have sorted : fields.foldr (fun field sorted => insertNew field.1 field.2 sorted) [] =
      fields := by
    induction fields with
    | nil => rfl
    | cons field rest ih =>
        rw [List.map_cons, List.pairwise_cons] at ascending
        rw [List.foldr_cons, ih ascending.2]
        cases rest with
        | nil => rfl
        | cons next rest =>
            have less : field.1 < next.1 := ascending.1 next.1 (by simp)
            have apart : field.1 ≠ next.1 := by
              intro same
              exact String.lt_irrefl _ (same ▸ less)
            rw [insertNew, if_neg apart, if_pos less]
  rw [ofFields, sorted]

theorem keptItems?_treesOf {n : Nat} {items : List Json}
    (each : ∀ v ∈ items, (treeOf v).kept? n = some v) :
    Tree.keptItems? (treesOf items) n = some items := by
  induction items with
  | nil => rfl
  | cons v rest ih =>
      rw [List.forall_mem_cons] at each
      rw [treesOf, Tree.keptItems?, each.1, ih each.2]
      rfl

theorem keptFields?_membersOf {n : Nat} {fields : List (String × Json)}
    (each : ∀ field ∈ fields, (treeOf field.2).kept? n = some field.2) :
    Tree.keptFields? (membersOf fields) n = some fields := by
  induction fields with
  | nil => rfl
  | cons field rest ih =>
      obtain ⟨key, v⟩ := field
      rw [List.forall_mem_cons] at each
      rw [membersOf, Tree.keptFields?, text?_piecesOf, each.1, ih each.2]
      simp

theorem kept?_treeOf {n : Nat} {v : Json} (kept : Kept n v) : (treeOf v).kept? n = some v := by
  induction kept with
  | null | bool => rfl
  | int n least below => exact value?_numeralOf least below
  | text n s =>
      rw [treeOf, Tree.kept?, text?_piecesOf]
      simp
  | list _ ih =>
      rw [treeOf, Tree.kept?, keptItems?_treesOf ih]
      rfl
  | record ascending _ ih =>
      rw [treeOf, Tree.kept?, keptFields?_membersOf ih, Option.map_some,
        ofFields_of_ascending ascending]

/-- **A printed value reads back as it was.** -/
theorem ofText?_print {v : Json} (kept : Kept depthLimit v) : ofText? v.print = some v := by
  rw [ofText?, ofChars?, ofSymbols?, Tree.ofSymbols?_print kept.plain]
  exact kept?_treeOf kept

/-- A printed value reads back from its bytes. -/
theorem ofBytes?_print {v : Json} (kept : Kept depthLimit v) :
    ofBytes? (Text.Utf8.encodeText v.print) = some v := by
  rw [ofBytes?, Text.Utf8.encodeText, Text.Utf8.read_encode]
  exact ofText?_print kept

end DialectGateway.Json
