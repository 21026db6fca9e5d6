/-
# Proofs.Json.Meant — the value that a text stands for

Many texts stand for one value: blanks, escapes and the order of fields make no difference.
`Tree.meant?` is this value, with no bound on how deep lists and records are nested, for a text
in which no record repeats a key; `Means` says it of the bytes of a text.

Reading keeps the value if it is nested no deeper than is asked for, and else refuses the text
(`kept?_of_meant`). What is printed stands for what was printed (`means_print`).
-/
import DialectGateway.Proofs.Json.Kept
import Mathlib.Data.List.Nodup

set_option autoImplicit false

namespace DialectGateway.Json

/-! ## Nesting -/

mutual

/-- How deep lists and records are nested. -/
def depth : Json → Nat
  | .list items => depthItems items + 1
  | .record fields => depthFields fields + 1
  | .null | .bool _ | .int _ | .real _ | .text _ => 0

def depthItems : List Json → Nat
  | [] => 0
  | v :: rest => max (depth v) (depthItems rest)

def depthFields : List (String × Json) → Nat
  | [] => 0
  | (_, v) :: rest => max (depth v) (depthFields rest)

end

theorem depthItems_le {items : List Json} {n : Nat} :
    depthItems items ≤ n ↔ ∀ v ∈ items, v.depth ≤ n := by
  induction items with
  | nil => simp [depthItems]
  | cons v rest ih => rw [depthItems, Nat.max_le, ih, List.forall_mem_cons]

theorem depthFields_le {fields : List (String × Json)} {n : Nat} :
    depthFields fields ≤ n ↔ ∀ field ∈ fields, field.2.depth ≤ n := by
  induction fields with
  | nil => simp [depthFields]
  | cons field rest ih => rw [depthFields, Nat.max_le, ih, List.forall_mem_cons]

/-! ## Sorted fields -/

/-- The fields of a record in order; of equal keys the last wins. -/
def sortFields (fields : List (String × Json)) : List (String × Json) :=
  fields.foldr (fun field sorted => insertNew field.1 field.2 sorted) []

theorem ofFields_eq (fields : List (String × Json)) :
    ofFields fields = .record (sortFields fields) := rfl

theorem mem_insertNew {key : String} {v : Json} {fields : List (String × Json)}
    (absent : key ∉ fields.map Prod.fst) {field : String × Json} :
    field ∈ insertNew key v fields ↔ field = (key, v) ∨ field ∈ fields := by
  induction fields with
  | nil => simp [insertNew]
  | cons first rest ih =>
      rw [List.map_cons, List.mem_cons, not_or] at absent
      rw [insertNew, if_neg absent.1]
      split
      · rw [List.mem_cons]
      · rw [List.mem_cons, ih absent.2, List.mem_cons]
        tauto

theorem lookup_insertNew {key : String} {v : Json} {fields : List (String × Json)}
    (absent : key ∉ fields.map Prod.fst) (k : String) :
    (insertNew key v fields).lookup k = ((key, v) :: fields).lookup k := by
  induction fields with
  | nil => rfl
  | cons first rest ih =>
      obtain ⟨other, w⟩ := first
      rw [List.map_cons, List.mem_cons, not_or] at absent
      rw [insertNew, if_neg absent.1]
      split
      · rfl
      · simp only [List.lookup_cons, ih absent.2]
        cases here : k == other with
        | false => rfl
        | true =>
            have apart : (k == key) = false := by
              rw [beq_eq_false_iff_ne]
              exact fun new => absent.1 (new.symm.trans (beq_iff_eq.1 here))
            rw [apart]

theorem mem_sortFields {fields : List (String × Json)} (distinct : (fields.map Prod.fst).Nodup)
    {field : String × Json} : field ∈ sortFields fields ↔ field ∈ fields := by
  induction fields generalizing field with
  | nil => rfl
  | cons first rest ih =>
      rw [List.map_cons, List.nodup_cons] at distinct
      have absent : first.1 ∉ (sortFields rest).map Prod.fst := by
        intro again
        obtain ⟨other, member, same⟩ := List.mem_map.1 again
        exact distinct.1 (List.mem_map.2 ⟨other, (ih distinct.2).1 member, same⟩)
      rw [sortFields, List.foldr_cons, ← sortFields, mem_insertNew absent, ih distinct.2,
        List.mem_cons]

theorem lookup_sortFields {fields : List (String × Json)}
    (distinct : (fields.map Prod.fst).Nodup) (key : String) :
    (sortFields fields).lookup key = fields.lookup key := by
  induction fields with
  | nil => rfl
  | cons first rest ih =>
      rw [List.map_cons, List.nodup_cons] at distinct
      have absent : first.1 ∉ (sortFields rest).map Prod.fst := by
        intro again
        obtain ⟨other, member, same⟩ := List.mem_map.1 again
        exact distinct.1 (List.mem_map.2 ⟨other, (mem_sortFields distinct.2).1 member, same⟩)
      rw [sortFields, List.foldr_cons, ← sortFields, lookup_insertNew absent, List.lookup_cons,
        ih distinct.2, List.lookup_cons]

theorem keys_insertNew (key : String) (v : Json) (fields : List (String × Json)) {k : String}
    (member : k ∈ (insertNew key v fields).map Prod.fst) :
    k = key ∨ k ∈ fields.map Prod.fst := by
  induction fields with
  | nil => exact .inl (List.mem_singleton.1 member)
  | cons first rest ih =>
      rw [insertNew] at member
      split at member
      · exact .inr member
      · split at member
        · exact List.mem_cons.1 member
        · rcases List.mem_cons.1 member with same | later
          · exact .inr (List.mem_cons.2 (.inl same))
          · exact (ih later).imp_right (List.mem_cons_of_mem _)

theorem ascending_insertNew (key : String) (v : Json) {fields : List (String × Json)}
    (ascending : (fields.map Prod.fst).Pairwise (· < ·)) :
    ((insertNew key v fields).map Prod.fst).Pairwise (· < ·) := by
  induction fields with
  | nil => exact List.pairwise_singleton _ _
  | cons first rest ih =>
      have parts := List.pairwise_cons.1 ascending
      rw [insertNew]
      split
      · exact ascending
      · next other =>
        split
        · next less =>
          refine List.pairwise_cons.2 ⟨?_, ascending⟩
          rw [List.map_cons, List.forall_mem_cons]
          exact ⟨less, fun k member => String.lt_trans less (parts.1 k member)⟩
        · next more =>
          refine List.pairwise_cons.2 ⟨?_, ih parts.2⟩
          intro k member
          rcases keys_insertNew key v rest member with rfl | old
          · exact Std.lt_of_le_of_ne (String.not_lt.1 more) (Ne.symm other)
          · exact parts.1 k old

/-- Sorted fields ascend. -/
theorem ascending_sortFields (fields : List (String × Json)) :
    ((sortFields fields).map Prod.fst).Pairwise (· < ·) := by
  induction fields with
  | nil => exact .nil
  | cons first rest ih => exact ascending_insertNew first.1 first.2 ih

/-- A record of different fields is kept if they are. -/
theorem Kept.ofFields {n : Nat} {fields : List (String × Json)}
    (distinct : (fields.map Prod.fst).Nodup) (parts : ∀ field ∈ fields, Kept n field.2) :
    Kept (n + 1) (.ofFields fields) :=
  .record (ascending_sortFields fields) fun field member =>
    parts field ((mem_sortFields distinct).1 member)

/-! ## The value of a tree -/

namespace Tree

mutual

/-- The value that a tree stands for if no record in it repeats a key. -/
def meant? : Tree → Option Json
  | .null => some .null
  | .bool b => some (.bool b)
  | .number n => n.value?
  | .text pieces => (Piece.text? pieces).map fun cs => .text (String.ofList cs)
  | .list items => (meantItems? items).map .list
  | .record fields => do
    let fields ← meantFields? fields
    if (fields.map Prod.fst).Nodup then some (Json.ofFields fields) else none

def meantItems? : List Tree → Option (List Json)
  | [] => some []
  | t :: rest => do
    let v ← meant? t
    let vs ← meantItems? rest
    pure (v :: vs)

def meantFields? : List (List Piece × Tree) → Option (List (String × Json))
  | [] => some []
  | (key, t) :: rest => do
    let key ← Piece.text? key
    let v ← meant? t
    let vs ← meantFields? rest
    pure ((String.ofList key, v) :: vs)

end

end Tree

/-- A numeral stands for a number. -/
theorem Numeral.value?_number {n : Numeral} {v : Json} (value : n.value? = some v) :
    (∃ k, v = .int k) ∨ ∃ x, v = .real x := by
  rw [Numeral.value?] at value
  rcases gather 0 n.whole.reverse with ⟨whole, dropped⟩
  simp only at value
  split at value
  · split at value
    · cases value
      exact .inl ⟨_, rfl⟩
    · split at value <;> cases value
      · exact .inr ⟨_, rfl⟩
      · exact .inl ⟨_, rfl⟩
  · obtain ⟨x, -, rfl⟩ := Option.map_eq_some_iff.1 value
    exact .inr ⟨_, rfl⟩

namespace Tree

/-- Which trees stand for which values. -/
inductive Stands : Tree → Json → Prop
  | null : Stands .null .null
  | bool (b : Bool) : Stands (.bool b) (.bool b)
  | int {n : Numeral} {k : Int} (value : n.value? = some (.int k)) : Stands (.number n) (.int k)
  | real {n : Numeral} {x : Decimal.Double} (value : n.value? = some (.real x)) :
      Stands (.number n) (.real x)
  | text {pieces : List Piece} {cs : List Char} (text : Piece.text? pieces = some cs) :
      Stands (.text pieces) (.text (String.ofList cs))
  | list {items : List Tree} {vs : List Json} (each : meantItems? items = some vs) :
      Stands (.list items) (.list vs)
  | record {members : List (List Piece × Tree)} {written fields : List (String × Json)}
      (each : meantFields? members = some written) (distinct : (written.map Prod.fst).Nodup)
      (sorted : fields = sortFields written) : Stands (.record members) (.record fields)

/-- A tree is of the kind of its value. -/
theorem stands {t : Tree} {v : Json} (meant : t.meant? = some v) : Stands t v := by
  cases t with
  | null =>
      cases meant
      exact .null
  | bool b =>
      cases meant
      exact .bool b
  | number n =>
      rcases Numeral.value?_number meant with ⟨k, rfl⟩ | ⟨x, rfl⟩
      · exact .int meant
      · exact .real meant
  | text pieces =>
      obtain ⟨cs, text, rfl⟩ := Option.map_eq_some_iff.1 meant
      exact .text text
  | list items =>
      obtain ⟨vs, each, rfl⟩ := Option.map_eq_some_iff.1 meant
      exact .list each
  | record members =>
      rw [meant?] at meant
      obtain ⟨fields, each, whole⟩ := Option.bind_eq_some_iff.1 meant
      split at whole
      · next distinct =>
        cases whole
        exact .record each distinct rfl
      · cases whole

theorem depthFields_sortFields {fields : List (String × Json)}
    (distinct : (fields.map Prod.fst).Nodup) (n : Nat) :
    depthFields (sortFields fields) ≤ n ↔ depthFields fields ≤ n := by
  simp only [depthFields_le, mem_sortFields distinct]

mutual

/-- **Reading keeps the value of a text that is nested no deeper than is asked for**, and refuses
any other. -/
theorem kept?_of_meant {t : Tree} {v : Json} (meant : t.meant? = some v) (room : Nat) :
    t.kept? room = if v.depth ≤ room then some v else none := by
  cases stands meant with
  | null | bool b => rfl
  | int value | real value => exact value
  | text text => exact meant
  | @list items vs each =>
      cases room with
      | zero => rw [kept?, depth, if_neg (Nat.not_succ_le_zero _)]
      | succ room =>
          rw [kept?, keptItems?_of_meant each room, depth]
          by_cases shallow : depthItems vs ≤ room
          · rw [if_pos shallow, if_pos (Nat.succ_le_succ shallow)]
            rfl
          · rw [if_neg shallow, if_neg fun deep => shallow (Nat.le_of_succ_le_succ deep)]
            rfl
  | @record members written fields each distinct sorted =>
      subst sorted
      cases room with
      | zero => rw [kept?, depth, if_neg (Nat.not_succ_le_zero _)]
      | succ room =>
          rw [kept?, keptFields?_of_meant each room, depth]
          by_cases shallow : depthFields written ≤ room
          · have sorted := (depthFields_sortFields distinct room).2 shallow
            rw [if_pos shallow, if_pos (Nat.succ_le_succ sorted)]
            rfl
          · have sorted := mt (depthFields_sortFields distinct room).1 shallow
            rw [if_neg shallow, if_neg fun deep => sorted (Nat.le_of_succ_le_succ deep)]
            rfl

theorem keptItems?_of_meant {items : List Tree} {vs : List Json}
    (meant : meantItems? items = some vs) (room : Nat) :
    keptItems? items room = if depthItems vs ≤ room then some vs else none := by
  cases items with
  | nil =>
      cases meant
      rw [depthItems, if_pos (Nat.zero_le room)]
      rfl
  | cons t rest =>
      obtain ⟨v, first, meant⟩ := Option.bind_eq_some_iff.1 meant
      obtain ⟨vs, others, same⟩ := Option.bind_eq_some_iff.1 meant
      cases same
      rw [keptItems?, kept?_of_meant first room, keptItems?_of_meant others room, depthItems]
      by_cases one : v.depth ≤ room <;> by_cases all : depthItems vs ≤ room <;>
        simp [one, all]

theorem keptFields?_of_meant {members : List (List Piece × Tree)} {fields : List (String × Json)}
    (meant : meantFields? members = some fields) (room : Nat) :
    keptFields? members room = if depthFields fields ≤ room then some fields else none := by
  cases members with
  | nil =>
      cases meant
      rw [depthFields, if_pos (Nat.zero_le room)]
      rfl
  | cons member rest =>
      obtain ⟨pieces, t⟩ := member
      obtain ⟨key, named, meant⟩ := Option.bind_eq_some_iff.1 meant
      obtain ⟨v, first, meant⟩ := Option.bind_eq_some_iff.1 meant
      obtain ⟨fields, others, same⟩ := Option.bind_eq_some_iff.1 meant
      cases same
      rw [keptFields?, named, kept?_of_meant first room, keptFields?_of_meant others room,
        depthFields]
      by_cases one : v.depth ≤ room <;> by_cases all : depthFields fields ≤ room <;>
        simp [one, all]

end

end Tree

/-! ## Texts that stand for a value -/

/-- The bytes are a text that stands for the value. -/
def Means (bytes : List UInt8) (v : Json) : Prop :=
  (Tree.ofSymbols? (Text.Utf8.read bytes)).bind Tree.meant? = some v

theorem meantItems?_treesOf {items : List Json}
    (each : ∀ v ∈ items, (treeOf v).meant? = some v) :
    Tree.meantItems? (treesOf items) = some items := by
  induction items with
  | nil => rfl
  | cons v rest ih =>
      rw [List.forall_mem_cons] at each
      rw [treesOf, Tree.meantItems?, each.1, ih each.2]
      rfl

theorem meantFields?_membersOf {fields : List (String × Json)}
    (each : ∀ field ∈ fields, (treeOf field.2).meant? = some field.2) :
    Tree.meantFields? (membersOf fields) = some fields := by
  induction fields with
  | nil => rfl
  | cons field rest ih =>
      obtain ⟨key, v⟩ := field
      rw [List.forall_mem_cons] at each
      rw [membersOf, Tree.meantFields?, text?_piecesOf, each.1, ih each.2]
      simp

theorem meant?_treeOf {n : Nat} {v : Json} (kept : Kept n v) : (treeOf v).meant? = some v := by
  induction kept with
  | null | bool => rfl
  | int n least below => exact value?_numeralOf least below
  | text n s =>
      rw [treeOf, Tree.meant?, text?_piecesOf]
      simp
  | list _ ih =>
      rw [treeOf, Tree.meant?, meantItems?_treesOf ih]
      rfl
  | @record n fields ascending _ ih =>
      have distinct : (fields.map Prod.fst).Nodup := by
        refine List.Pairwise.imp ?_ ascending
        rintro key _ less rfl
        exact String.lt_irrefl key less
      rw [treeOf, Tree.meant?, meantFields?_membersOf ih]
      simp only [Option.bind_eq_bind, Option.bind_some, if_pos distinct,
        ofFields_of_ascending ascending]

/-- **A printed value stands for itself.** -/
theorem means_print {n : Nat} {v : Json} (kept : Kept n v) :
    Means (Text.Utf8.encodeText v.print) v := by
  have printed : v.print.toList = v.write [] := String.toList_ofList
  have read := Tree.ofSymbols?_print kept.plain
  rw [printed] at read
  rw [Means, Text.Utf8.encodeText, printed, Text.Utf8.read_encode, read]
  exact meant?_treeOf kept

end DialectGateway.Json
