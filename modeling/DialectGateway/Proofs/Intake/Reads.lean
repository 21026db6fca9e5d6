/-
# Proofs.Intake.Reads — what the typed readers make of a text

A reader reads a value as something if it makes this of every text that stands for the value
(`Reads`). There is one law for each reader, and one for each way to put readers together, so
that what a reader of bodies makes of a body is put together from what it makes of the fields.
A structure's fields are found by their names, in whatever order they are written
(`fields_of_meant`).
-/
import DialectGateway.Intake.Request
import DialectGateway.Proofs.Json.Meant

set_option autoImplicit false

namespace DialectGateway.Intake

open Json (Tree Piece)

/-- The reader makes this of every text that stands for the value, with so much room. -/
def Reads {A : Type} (read : Reader A) (room : Nat) (v : Json) (a : A) : Prop :=
  ∀ t : Tree, t.meant? = some v → read t room = some a

/-! ## Plain values -/

theorem reads_text (room : Nat) (s : String) : Reads text room (.text s) s := by
  intro t meant
  generalize same : Json.text s = v at meant
  cases Tree.stands meant with
  | text found =>
      cases same
      rw [text, found]
      rfl
  | _ => cases same

theorem reads_flag (room : Nat) (b : Bool) : Reads flag room (.bool b) b := by
  intro t meant
  cases Tree.stands meant with
  | bool => rfl

theorem reads_word (room : Nat) (n : UInt32) : Reads word room (.nat n.toNat) n := by
  intro t meant
  have small := n.toNat_lt
  cases Tree.stands meant with
  | int value =>
      have within : (0 : Int) ≤ n.toNat ∧ (n.toNat : Int) < UInt32.size := by
        simp only [UInt32.size]
        omega
      rw [word, value]
      simp only [if_pos within, Int.toNat_natCast, Nat.toUInt32_eq, UInt32.ofNat_toNat]

/-- A number as it may be written. -/
inductive Amount where
  | int (k : Int)
  | real (x : Decimal.Double)
  deriving Repr

def Amount.json : Amount → Json
  | .int k => .int k
  | .real x => .real x

/-- The number in single precision. -/
def Amount.single : Amount → Decimal.Single
  | .int k => .ofInt k
  | .real x => .ofDouble x

theorem reads_single (room : Nat) (x : Amount) : Reads single room x.json x.single := by
  intro t meant
  cases x with
  | int k =>
      cases Tree.stands meant with
      | int value =>
          rw [single, value]
          rfl
  | real x =>
      cases Tree.stands meant with
      | real value =>
          rw [single, value]
          rfl

/-! ## Readers put together -/

section
variable {A X : Type} {room : Nat}

theorem reads_nullable {read : Reader A} {v : Json} {a : A} (reads : Reads read room v a)
    (something : v ≠ .null) : Reads (nullable read) room v (some a) := by
  intro t meant
  cases t with
  | null => exact absurd (Option.some.inj meant).symm something
  | bool | number | text | list | record => rw [nullable, reads _ meant, Option.map_some]; simp

/-- Items are read one by one. -/
theorem mapM_of_meant {read : Tree → Option A} {form : X → Json} {result : X → A} {xs : List X}
    (each : ∀ x ∈ xs, ∀ t : Tree, t.meant? = some (form x) → read t = some (result x))
    {items : List Tree} (meant : Tree.meantItems? items = some (xs.map form)) :
    items.mapM read = some (xs.map result) := by
  induction items generalizing xs with
  | nil =>
      cases xs with
      | nil => rfl
      | cons x rest => cases meant
  | cons t items ih =>
      obtain ⟨v, first, meant⟩ := Option.bind_eq_some_iff.1 meant
      obtain ⟨vs, others, same⟩ := Option.bind_eq_some_iff.1 meant
      cases xs with
      | nil => cases same
      | cons x rest =>
          rw [List.forall_mem_cons] at each
          cases same
          rw [List.mapM_cons, each.1 t first, ih each.2 others]
          rfl

theorem reads_listOf {read : Reader A} {form : X → Json} {result : X → A} {xs : List X}
    (each : ∀ x ∈ xs, Reads read room (form x) (result x)) :
    Reads (listOf read) (room + 1) (.list (xs.map form)) (xs.map result) := by
  intro t meant
  cases Tree.stands meant with
  | list items => exact mapM_of_meant each items

theorem reads_whole {read : Tree → Option A} {v : Json} {a : A} (shallow : v.depth ≤ room)
    (reads : ∀ t : Tree, t.meant? = some v → read t = some a) : Reads (whole read) room v a := by
  intro t meant
  rw [whole, Tree.kept?_of_meant meant, if_pos shallow]
  exact reads t meant

/-- Any values are read if they are not nested too deep, and else there is no list. -/
theorem listOf_value_of_meant {t : Tree} {vs : List Json} (meant : t.meant? = some (.list vs)) :
    listOf value t (room + 1) = if Json.depthItems vs ≤ room then some vs else none := by
  cases Tree.stands meant with
  | @list items _ each =>
      have same : items.mapM (value · room) = Tree.keptItems? items room := by
        clear each meant
        induction items with
        | nil => rfl
        | cons t rest ih =>
            rw [List.mapM_cons, ih]
            rfl
      rw [listOf, same, Tree.keptItems?_of_meant each]

/-! ## Structures -/

theorem lookup_map_snd {B C : Type} (f : B → C) (key : String) (l : List (String × B)) :
    (l.map fun p => (p.1, f p.2)).lookup key = (l.lookup key).map f := by
  induction l with
  | nil => rfl
  | cons p rest ih =>
      obtain ⟨k, b⟩ := p
      simp only [List.map_cons, List.lookup_cons, ih]
      cases key == k <;> rfl

/-- A key that stands once stands for what is found under it. -/
theorem only?_of_nodup {named : List (String × Tree)} (distinct : (named.map Prod.fst).Nodup)
    (key : String) : only? key named = some (named.lookup key) := by
  induction named with
  | nil => rfl
  | cons first rest ih =>
      obtain ⟨k, t⟩ := first
      rw [List.map_cons, List.nodup_cons] at distinct
      have others := ih distinct.2
      rw [only?] at others ⊢
      rw [List.filter_cons, List.lookup_cons, BEq.comm]
      cases here : key == k with
      | false => exact others
      | true =>
          have none_ : rest.filter (·.1 == key) = [] := by
            rw [List.filter_eq_nil_iff]
            intro other member again
            have same : other.1 = k := (beq_iff_eq.1 again).trans (beq_iff_eq.1 here)
            exact distinct.1 (List.mem_map.2 ⟨other, member, same⟩)
          simp only [if_true, none_]

/-- The members of a record with their keys as texts. -/
theorem named_of_meant {members : List (List Piece × Tree)} {written : List (String × Json)}
    (meant : Tree.meantFields? members = some written) :
    ∃ named : List (String × Tree),
      (members.mapM fun (key, t) => (Piece.text? key).map fun k => (String.ofList k, t)) =
        some named ∧
      named.map (fun p => (p.1, p.2.meant?)) = written.map fun p => (p.1, some p.2) := by
  induction members generalizing written with
  | nil =>
      cases meant
      exact ⟨[], rfl, rfl⟩
  | cons member members ih =>
      obtain ⟨pieces, t⟩ := member
      obtain ⟨key, text, meant⟩ := Option.bind_eq_some_iff.1 meant
      obtain ⟨v, first, meant⟩ := Option.bind_eq_some_iff.1 meant
      obtain ⟨rest, others, same⟩ := Option.bind_eq_some_iff.1 meant
      cases same
      obtain ⟨named, read, each⟩ := ih others
      refine ⟨(String.ofList key, t) :: named, ?_, ?_⟩
      · rw [List.mapM_cons, read]
        simp only [text]
        rfl
      · simp only [List.map_cons, each, first]

/-- **A structure's fields are found by their names.** -/
theorem fields_of_meant {t : Tree} {fields : List (String × Json)}
    (meant : t.meant? = some (.record fields)) :
    ∃ found : String → Option Tree, (∀ names, fieldsOf names t = some (names.map found)) ∧
      ∀ key, (found key).map Tree.meant? = (fields.lookup key).map some := by
  cases Tree.stands meant with
  | @record members written _ each distinct sorted =>
      obtain ⟨named, read, same⟩ := named_of_meant each
      have keys : named.map Prod.fst = written.map Prod.fst := by
        have firsts := congrArg (List.map Prod.fst) same
        rwa [List.map_map, List.map_map] at firsts
      refine ⟨fun key => named.lookup key, ?_, ?_⟩
      · intro names
        rw [fieldsOf, read]
        simp only [Option.bind_eq_bind, Option.bind_some,
          only?_of_nodup (keys.symm ▸ distinct)]
        induction names with
        | nil => rfl
        | cons name rest ih =>
            rw [List.mapM_cons, ih]
            rfl
      · intro key
        rw [sorted, Json.lookup_sortFields distinct, ← lookup_map_snd, ← lookup_map_snd]
        exact congrArg (List.lookup key) same

/-- The same for fields that are not in order, if their keys are among different ones. -/
theorem fields_of_meant_ofFields {t : Tree} {fields : List (String × Json)} {keys : List String}
    (meant : t.meant? = some (.ofFields fields)) (among : (fields.map Prod.fst).Sublist keys)
    (distinct : keys.Nodup) :
    ∃ found : String → Option Tree, (∀ names, fieldsOf names t = some (names.map found)) ∧
      ∀ key, (found key).map Tree.meant? = (fields.lookup key).map some := by
  rw [Json.ofFields_eq] at meant
  obtain ⟨found, named, means⟩ := fields_of_meant meant
  refine ⟨found, named, fun key => ?_⟩
  rw [means key, Json.lookup_sortFields (among.nodup distinct)]

variable {field : Option Tree} {read : Reader A} {v : Json} {a dflt : A}

/-- A field that is there is what its value is read as. -/
theorem optional_of_meant (means : field.map Tree.meant? = (some v).map some)
    (reads : Reads read room v a) : optional field dflt read room = some a := by
  obtain ⟨t, rfl, meant⟩ := Option.map_eq_some_iff.1 means
  exact reads t meant

/-- A field that is not there is what it is by default. -/
theorem optional_of_missing (means : field.map Tree.meant? = (none : Option Json).map some) :
    optional field dflt read room = some dflt := by
  rw [Option.map_eq_none_iff.1 means]
  rfl

/-- A field that may be missing is read if it is there. -/
theorem optional_nullable {field : Option Tree} {read : Reader A} {x? : Option X}
    {form : X → Json} {result : X → A}
    (means : field.map Tree.meant? = (x?.map form).map some)
    (reads : ∀ x, Reads read room (form x) (result x)) (something : ∀ x, form x ≠ .null) :
    optional field none (nullable read) room = some (x?.map result) := by
  cases x? with
  | none => exact optional_of_missing means
  | some x => exact optional_of_meant means (reads_nullable (reads x) (something x))

theorem required_of_meant (means : field.map Tree.meant? = (some v).map some)
    (reads : Reads read room v a) : required field read room = some a := by
  obtain ⟨t, rfl, meant⟩ := Option.map_eq_some_iff.1 means
  exact reads t meant

end

/-! ## Messages -/

def Part.json (p : Part) : Json :=
  .record (Json.optField "text" p.text .text ++ [("type", .text p.kind)])

def Content.json : Content → Json
  | .text s => .text s
  | .parts ps => .list (ps.map Part.json)

def Item.json (i : Item) : Json :=
  .record [("content", i.content.json), ("role", .text i.role)]

theorem part?_of_meant (p : Part) {t : Tree} (meant : t.meant? = some p.json) :
    part? t = some p := by
  obtain ⟨found, named, means⟩ := fields_of_meant meant
  have kind : required (found "type") text 0 = some p.kind := by
    refine required_of_meant ((means "type").trans ?_) (reads_text 0 p.kind)
    simp [List.lookup_append, Json.lookup_optField]
  have text_ : optional (found "text") none (nullable text) 0 = some (p.text.map id) := by
    refine optional_nullable ((means "text").trans ?_) (reads_text 0) (by simp)
    simp [List.lookup_append, Json.lookup_optField, List.lookup_cons]
  rw [Option.map_id] at text_
  rw [part?, named]
  simp only [List.map_cons, List.map_nil, Option.bind_eq_bind, Option.bind_some, kind, text_]
  rfl

theorem content?_of_meant (c : Content) {t : Tree} (meant : t.meant? = some c.json) :
    content? t = some c := by
  cases c with
  | text s =>
      have found := reads_text 0 s t meant
      cases t with
      | text pieces => exact congrArg (Option.map Content.text) found
      | null | bool | number | list | record => cases found
  | parts ps =>
      cases Tree.stands meant with
      | list each =>
          have parts : _ = some (ps.map id) := mapM_of_meant (fun p _ _ => part?_of_meant p) each
          rw [content?, parts, List.map_id]
          rfl

/-- Content is nested twice at most: a list of records. -/
theorem Content.depth_json (c : Content) : c.json.depth ≤ 2 := by
  cases c with
  | text s => exact Nat.zero_le 2
  | parts ps =>
      rw [json, Json.depth]
      refine Nat.succ_le_succ (Json.depthItems_le.2 ?_)
      intro v member
      obtain ⟨p, -, rfl⟩ := List.mem_map.1 member
      cases text : p.text <;> simp [Part.json, text, Json.optField, Json.depth, Json.depthFields]

theorem reads_item {assumed : Option String} {read : Reader Content} {room : Nat} {i : Item}
    (reads : Reads read room i.content.json i.content) :
    Reads (itemWith assumed read) (room + 1) i.json i := by
  intro t meant
  obtain ⟨found, named, means⟩ := fields_of_meant meant
  obtain ⟨t₁, there, means_⟩ := Option.map_eq_some_iff.1 (means "role")
  have role : required (some t₁) text room = some i.role := reads_text room i.role t₁ means_
  have content_ : optional (found "content") (.text "") read room = some i.content :=
    optional_of_meant (means "content") reads
  rw [itemWith, structure?, named]
  simp only [List.map_cons, List.map_nil, Option.map_some, Option.bind_eq_bind, Option.bind_some,
    there, role, content_]
  rfl

theorem reads_message {room : Nat} (i : Item) : Reads message (room + 3) i.json i := by
  refine reads_item (reads_whole ?_ fun t meant => content?_of_meant i.content meant)
  exact Nat.le_trans i.content.depth_json (Nat.le_add_left 2 room)

theorem inputItem?_of_meant (i : Item) {t : Tree} (meant : t.meant? = some i.json) :
    inputItem? t = some i := by
  have reads : Reads (fun t _ => content? t) 0 i.content.json i.content := fun _ =>
    content?_of_meant i.content
  exact reads_item reads t meant

/-- An item is a record around its content. -/
theorem Item.depth_json (i : Item) : i.json.depth ≤ 3 := by
  have content_ := i.content.depth_json
  simp only [json, Json.depth, Json.depthFields]
  omega

theorem reads_input {room : Nat} (items : List Item) :
    Reads (whole input?) (room + 4) (.list (items.map Item.json)) (.items items) := by
  refine reads_whole ?_ ?_
  · rw [Json.depth]
    refine Nat.succ_le_succ (Json.depthItems_le.2 ?_)
    intro v member
    obtain ⟨i, -, rfl⟩ := List.mem_map.1 member
    exact Nat.le_trans i.depth_json (Nat.le_add_left 3 room)
  · intro t meant
    cases Tree.stands meant with
    | list each =>
        have read : _ = some (items.map id) :=
          mapM_of_meant (fun i _ _ => inputItem?_of_meant i) each
        rw [input?, read, List.map_id]
        rfl

end DialectGateway.Intake
