/-
# Proofs.Dialect.Responses.Lives — the notices of a stream, item by item

A stream interleaves the lives of its items. The life of an item is its announcement,
its deltas and its ending, all at one place (`Life.notices`); `Said` is the grammar of
streams: after the response is created an item is added at the next place, or an open
item gains a piece, or an open item is finished. Reasoning and messages are added only
while neither is open.

Lives are numbered without end; the place of a life is the word for its number. Items are
added at the places 0, 1, 2 and so on in words (`Said.added`), and at no time are two items
of text open (`Said.calm`). What else a client relies on holds as long as there are places
for all lives. The notices about a place are the life at that place
(`Said.filter_isAbout`), so a notice speaks of an item that is then open
(`Said.subject_open`), and names differ (`Said.nodup_names`).
-/
import DialectGateway.Dialect.Responses.Frame
import DialectGateway.Proofs.Dialect.Words

set_option autoImplicit false

namespace DialectGateway.Responses

/-! ## The notices of one item -/

namespace Item

/-- What is generated of an item: its summary, its text or its arguments. -/
def text : Item → String
  | reasoning _ summary => summary
  | message _ text => text
  | call _ _ _ arguments => arguments

def withText (text : String) : Item → Item
  | reasoning id _ => .reasoning id text
  | message id _ => .message id text
  | call id callId name _ => .call id callId name text

/-- Reasoning and messages are text; tool calls are not. -/
def isText : Item → Bool
  | call .. => false
  | _ => true

/-- The name of an item of this kind at a place. -/
def nameAt (response : String) (place : UInt32) : Item → String
  | reasoning .. => reasoningId response place.toNat
  | message .. => messageId response place.toNat
  | call .. => callItemId response place.toNat

def opening (place : UInt32) : Item → List Notice
  | message id text => [.itemAdded place (.message id text), .partAdded ⟨id, place⟩]
  | item => [.itemAdded place item]

def delta (place : UInt32) (piece : String) : Item → Notice
  | reasoning id _ => .summaryDelta ⟨id, place⟩ piece
  | message id _ => .textDelta ⟨id, place⟩ piece
  | call id .. => .argumentsDelta ⟨id, place⟩ piece

/-- The done notices of a kind, each with the whole text, and the end of the item. -/
def ending (place : UInt32) : Item → List Notice
  | reasoning id text => [.summaryDone ⟨id, place⟩ text, .itemDone place (.reasoning id text)]
  | message id text =>
    [.textDone ⟨id, place⟩ text, .partDone ⟨id, place⟩ text, .itemDone place (.message id text)]
  | call id callId name text =>
    [.argumentsDone ⟨id, place⟩ text, .itemDone place (.call id callId name text)]

@[simp] theorem id_withText (item : Item) (s : String) : (item.withText s).id = item.id := by
  cases item <;> rfl

@[simp] theorem isText_withText (item : Item) (s : String) :
    (item.withText s).isText = item.isText := by
  cases item <;> rfl

@[simp] theorem text_withText (item : Item) (s : String) : (item.withText s).text = s := by
  cases item <;> rfl

@[simp] theorem withText_withText (item : Item) (s t : String) :
    (item.withText s).withText t = item.withText t := by
  cases item <;> rfl

theorem withText_text (item : Item) : item.withText item.text = item := by
  cases item <;> rfl

@[simp] theorem delta_withText (item : Item) (place : UInt32) (piece s : String) :
    (item.withText s).delta place piece = item.delta place piece := by
  cases item <;> rfl

/-- Two items of a response have one name only if they have one place. -/
theorem place_eq_of_nameAt_eq {response : String} {p q : UInt32} {i j : Item}
    (same : i.nameAt response p = j.nameAt response q) : p = q := by
  have digits : Decimal.digits p.toNat = Decimal.digits q.toNat := by
    have spelled := congrArg String.toList same
    cases i <;> cases j <;>
      simp [nameAt, reasoningId, messageId, callItemId, Decimal.text] at spelled <;>
        exact spelled
  rw [← UInt32.toNat_inj, ← Decimal.value_digits p.toNat, digits, Decimal.value_digits]

end Item

namespace Notice

/-- The item that a notice is about. -/
def subject? : Notice → Option Subject
  | itemAdded place item | itemDone place item => some ⟨item.id, place⟩
  | partAdded s | textDelta s _ | textDone s _ | partDone s _ | summaryDelta s _
  | summaryDone s _ | argumentsDelta s _ | argumentsDone s _ => some s
  | created _ | completed _ | incomplete .. => none

def isAbout (place : UInt32) (n : Notice) : Bool := n.subject?.any (·.place == place)

/-- The item that a notice adds, with its place. -/
def added? : Notice → Option (UInt32 × Item)
  | itemAdded place item => some (place, item)
  | _ => none

/-- The notice ends the item at the place. -/
def finishes (place : UInt32) : Notice → Bool
  | itemDone p _ => p == place
  | _ => false

theorem isAbout_of_finishes {n : Notice} {place : UInt32} (finishes : n.finishes place = true) :
    n.isAbout place = true := by
  cases n <;> first | exact finishes | exact absurd finishes Bool.false_ne_true

end Notice

namespace Item

theorem subject_opening {item : Item} {place : UInt32} {n : Notice}
    (member : n ∈ item.opening place) : n.subject? = some ⟨item.id, place⟩ := by
  cases item with
  | message id text =>
      rcases List.mem_cons.1 member with rfl | rest
      · rfl
      · rw [List.mem_singleton.1 rest]
        rfl
  | reasoning | call =>
      rw [List.mem_singleton.1 member]
      rfl

theorem subject_delta (item : Item) (place : UInt32) (piece : String) :
    (item.delta place piece).subject? = some ⟨item.id, place⟩ := by
  cases item <;> rfl

theorem subject_ending {item : Item} {place : UInt32} {n : Notice}
    (member : n ∈ item.ending place) : n.subject? = some ⟨item.id, place⟩ := by
  cases item <;> simp only [ending, List.mem_cons, List.not_mem_nil, or_false] at member <;>
    rcases member with rfl | rfl | rfl <;> rfl

/-- An item is announced by the first notice of its opening alone. -/
theorem opening_eq (item : Item) (place : UInt32) : ∃ parts,
    item.opening place = .itemAdded place item :: parts ∧
      ∀ n ∈ parts, n.added? = none ∧ n.finishes place = false := by
  cases item with
  | message id text =>
      exact ⟨[.partAdded ⟨id, place⟩], rfl, by simp [Notice.added?, Notice.finishes]⟩
  | reasoning | call => exact ⟨[], rfl, by simp⟩

theorem delta_quiet (item : Item) (place : UInt32) (piece : String) :
    (item.delta place piece).added? = none ∧
      (item.delta place piece).finishes place = false := by
  cases item <;> exact ⟨rfl, rfl⟩

/-- An item ends with the last notice of its ending alone. -/
theorem ending_eq (item : Item) (place : UInt32) : ∃ parts,
    item.ending place = parts ++ [.itemDone place item] ∧
      ∀ n ∈ parts, n.added? = none ∧ n.finishes place = false := by
  cases item with
  | reasoning id s =>
      exact ⟨[.summaryDone ⟨id, place⟩ s], rfl, by simp [Notice.added?, Notice.finishes]⟩
  | message id s =>
      exact ⟨[.textDone ⟨id, place⟩ s, .partDone ⟨id, place⟩ s], rfl,
        by simp [Notice.added?, Notice.finishes]⟩
  | call id callId name s =>
      exact ⟨[.argumentsDone ⟨id, place⟩ s], rfl, by simp [Notice.added?, Notice.finishes]⟩

theorem added_ending {item : Item} {place : UInt32} {n : Notice}
    (member : n ∈ item.ending place) : n.added? = none := by
  obtain ⟨parts, eq, quiet⟩ := item.ending_eq place
  rw [eq] at member
  rcases List.mem_append.1 member with old | last
  · exact (quiet n old).1
  · rw [List.mem_singleton.1 last]
    rfl

end Item

/-! ## Lives -/

/-- An item as it was announced, the pieces it has gained, and whether it is finished. -/
structure Life where
  announced : Item
  pieces : List String := []
  done : Bool := false
  deriving DecidableEq, Repr

namespace Life

/-- The item with all that has been generated of it. -/
def item (l : Life) : Item := l.announced.withText (String.join l.pieces)

def extend (l : Life) (piece : String) : Life := { l with pieces := l.pieces ++ [piece] }

def finish (l : Life) : Life := { l with done := true }

/-- The notices of an item so far. -/
def notices (place : UInt32) (l : Life) : List Notice :=
  l.announced.opening place ++ l.pieces.map (fun piece => l.announced.delta place piece) ++
    if l.done then l.item.ending place else []

theorem item_extend (l : Life) (piece : String) :
    (l.extend piece).item = l.item.withText (l.item.text ++ piece) := by
  simp [item, extend, String.join, List.foldl_append]

theorem notices_extend {l : Life} (undone : l.done = false) (place : UInt32) (piece : String) :
    (l.extend piece).notices place = l.notices place ++ [l.announced.delta place piece] := by
  simp [notices, extend, undone]

theorem notices_finish {l : Life} (undone : l.done = false) (place : UInt32) :
    l.finish.notices place = l.notices place ++ l.item.ending place := by
  have same : l.finish.item = l.item := rfl
  simp only [notices, same, undone, Bool.false_eq_true, if_false, List.append_nil]
  rfl

theorem subject_of_mem {l : Life} {place : UInt32} {n : Notice} (member : n ∈ l.notices place) :
    n.subject? = some ⟨l.announced.id, place⟩ := by
  rw [notices] at member
  rcases List.mem_append.1 member with before | ending
  · rcases List.mem_append.1 before with opening | delta
    · exact Item.subject_opening opening
    · obtain ⟨piece, _, rfl⟩ := List.mem_map.1 delta
      exact Item.subject_delta l.announced place piece
  · split at ending
    · have subject := Item.subject_ending ending
      rw [item, Item.id_withText] at subject
      exact subject
    · exact absurd ending List.not_mem_nil

/-- Of the notices of an item the first adds it, no other adds one, and at most the
last finishes it. -/
theorem notices_eq (l : Life) (place : UInt32) : ∃ rest,
    l.notices place = .itemAdded place l.announced :: rest ∧
      (∀ n ∈ rest, n.added? = none) ∧
      ∀ n ∈ (l.notices place).dropLast, n.finishes place = false := by
  obtain ⟨parts, opening, quiet⟩ := l.announced.opening_eq place
  have deltas : ∀ n ∈ l.pieces.map (fun piece => l.announced.delta place piece),
      n.added? = none ∧ n.finishes place = false := by
    intro n member
    obtain ⟨piece, _, rfl⟩ := List.mem_map.1 member
    exact l.announced.delta_quiet place piece
  generalize hidden : l.pieces.map (fun piece => l.announced.delta place piece) = said at deltas
  cases done : l.done with
  | false =>
      have eq : l.notices place = .itemAdded place l.announced :: (parts ++ said) := by
        simp [notices, done, opening, hidden]
      have silent : ∀ n ∈ parts ++ said, n.added? = none ∧ n.finishes place = false := by
        intro n member
        exact (List.mem_append.1 member).elim (quiet n) (deltas n)
      refine ⟨parts ++ said, eq, fun n member => (silent n member).1, ?_⟩
      intro n member
      have within := (List.dropLast_sublist _).mem member
      rw [eq] at within
      rcases List.mem_cons.1 within with rfl | rest
      · rfl
      · exact (silent n rest).2
  | true =>
      obtain ⟨last, ending, soft⟩ := l.item.ending_eq place
      have eq : l.notices place =
          .itemAdded place l.announced :: (parts ++ said ++ last ++ [.itemDone place l.item]) := by
        simp [notices, done, opening, hidden, ending]
      have silent : ∀ n ∈ parts ++ said ++ last, n.added? = none ∧ n.finishes place = false := by
        intro n member
        rcases List.mem_append.1 member with early | late
        · exact (List.mem_append.1 early).elim (quiet n) (deltas n)
        · exact soft n late
      refine ⟨parts ++ said ++ last ++ [.itemDone place l.item], eq, ?_, ?_⟩
      · intro n member
        rcases List.mem_append.1 member with early | late
        · exact (silent n early).1
        · rw [List.mem_singleton.1 late]
          rfl
      · intro n member
        rw [eq, ← List.cons_append, List.dropLast_concat] at member
        rcases List.mem_cons.1 member with rfl | rest
        · rfl
        · exact (silent n rest).2

end Life

/-- The items as they were announced, in order. -/
def announced (lives : List Life) : List Item := lives.map (·.announced)

/-- The place and the item of a life that is not finished. Lives are counted without end,
places in words. -/
def Life.open? : Life × Nat → Option (UInt32 × Item)
  | (l, n) => if l.done then none else some (UInt32.ofNat n, l.item)

/-- The items that are not finished, with their places. -/
def openLives (lives : List Life) : List (UInt32 × Item) := lives.zipIdx.filterMap Life.open?

theorem announced_set {lives : List Life} {n : Nat} {l l' : Life} (at_ : lives[n]? = some l)
    (same : l'.announced = l.announced) : announced (lives.set n l') = announced lives := by
  apply List.ext_getElem?
  intro p
  rw [announced, announced, List.getElem?_map, List.getElem?_map, List.getElem?_set]
  split
  · next equal =>
      subst equal
      obtain ⟨bound, _⟩ := List.getElem?_eq_some_iff.1 at_
      rw [if_pos bound, at_]
      exact congrArg some same
  · rfl

theorem announced_extend {lives : List Life} {n : Nat} {l : Life} (at_ : lives[n]? = some l)
    (piece : String) : announced (lives.set n (l.extend piece)) = announced lives :=
  announced_set at_ rfl

theorem announced_finish {lives : List Life} {n : Nat} {l : Life} (at_ : lives[n]? = some l) :
    announced (lives.set n l.finish) = announced lives :=
  announced_set at_ rfl

theorem openLives_append_singleton (lives : List Life) (l : Life) :
    openLives (lives ++ [l]) = openLives lives ++ (Life.open? (l, lives.length)).toList := by
  rw [openLives, List.zipIdx_append, List.filterMap_append, Nat.zero_add, List.zipIdx_singleton]
  cases one : Life.open? (l, lives.length) <;> simp [openLives, one]

/-- What is open, seen from one life: what is open elsewhere does not depend on it. -/
theorem openLives_set {lives : List Life} {n : Nat} {l : Life} (at_ : lives[n]? = some l) :
    ∃ left right, ∀ l',
      openLives (lives.set n l') = left ++ (Life.open? (l', n)).toList ++ right := by
  obtain ⟨bound, _⟩ := List.getElem?_eq_some_iff.1 at_
  refine ⟨openLives (lives.take n),
    ((lives.drop (n + 1)).zipIdx (n + 1)).filterMap Life.open?, ?_⟩
  intro l'
  have length : (lives.take n ++ [l']).length = n + 1 := by
    rw [List.length_append, List.length_take, List.length_singleton]
    omega
  rw [List.set_eq_take_append_cons_drop, if_pos bound, List.append_cons, openLives,
    List.zipIdx_append, List.filterMap_append, length, Nat.zero_add]
  have front := openLives_append_singleton (lives.take n) l'
  rw [List.length_take, Nat.min_eq_left (Nat.le_of_lt bound)] at front
  rw [← front]
  rfl

theorem mem_openLives {lives : List Life} {place : UInt32} {item : Item} :
    (place, item) ∈ openLives lives ↔ ∃ (n : Nat) (l : Life), lives[n]? = some l ∧
      UInt32.ofNat n = place ∧ l.done = false ∧ l.item = item := by
  simp only [openLives, List.mem_filterMap, List.mem_zipIdx_iff_getElem?, Life.open?, Prod.exists]
  constructor
  · rintro ⟨l, n, found, open_⟩
    cases done : l.done with
    | true => simp [done] at open_
    | false =>
        obtain ⟨rfl, rfl⟩ : UInt32.ofNat n = place ∧ l.item = item := by simpa [done] using open_
        exact ⟨n, l, found, rfl, done, rfl⟩
  · rintro ⟨n, l, found, rfl, undone, rfl⟩
    exact ⟨l, n, found, by simp [undone]⟩

/-- The item of a life that is over, at its place. -/
def Finished (lives : List Life) (place : UInt32) (item : Item) : Prop :=
  ∃ (n : Nat) (l : Life), lives[n]? = some l ∧ UInt32.ofNat n = place ∧ l.done = true ∧
    l.item = item

/-- A new life is not over. -/
theorem finished_append_singleton {lives : List Life} {l : Life} (undone : l.done = false)
    (place : UInt32) (item : Item) :
    Finished (lives ++ [l]) place item ↔ Finished lives place item := by
  constructor
  · rintro ⟨n, m, at_, rest⟩
    rw [List.getElem?_append] at at_
    split at at_
    · exact ⟨n, m, at_, rest⟩
    · obtain rfl : l = m := by
        have member := List.mem_of_getElem? at_
        exact (List.mem_singleton.1 member).symm
      exact absurd (undone.symm.trans rest.2.1) Bool.false_ne_true
  · rintro ⟨n, m, at_, rest⟩
    exact ⟨n, m, by rw [List.getElem?_append_left (List.getElem?_eq_some_iff.1 at_).1, at_], rest⟩

/-- A life that goes on, seen from the items of lives that are over: it may be one more. -/
theorem finished_set {lives : List Life} {n : Nat} {l : Life} (at_ : lives[n]? = some l)
    (undone : l.done = false) (l' : Life) (place : UInt32) (item : Item) :
    Finished (lives.set n l') place item ↔ Finished lives place item ∨
      UInt32.ofNat n = place ∧ l'.done = true ∧ l'.item = item := by
  obtain ⟨bound, _⟩ := List.getElem?_eq_some_iff.1 at_
  constructor
  · rintro ⟨p, m, there, rest⟩
    rw [List.getElem?_set] at there
    split at there
    · next same =>
        subst same
        obtain rfl := Option.some.inj there
        exact .inr rest
    · exact .inl ⟨p, m, there, rest⟩
  · rintro (⟨p, m, there, rest⟩ | last)
    · refine ⟨p, m, ?_, rest⟩
      rw [List.getElem?_set, if_neg, there]
      rintro rfl
      obtain rfl := Option.some.inj (at_.symm.trans there)
      exact absurd (undone.symm.trans rest.2.1) Bool.false_ne_true
    · exact ⟨n, l', List.getElem?_set_self bound, last⟩

/-! ## Streams -/

/-- A stream of the response has said these lives in these notices. The place of a life is
the word for its number. -/
inductive Said (response : String) : List Life → List Notice → Prop
  | created (r : Snapshot) (named : r.id = response) : Said response [] [.created r]
  | add {lives : List Life} {said : List Notice} (item : Item) (before : Said response lives said)
      (empty : item.text = "")
      (named : item.id = item.nameAt response (UInt32.ofNat lives.length))
      (alone : item.isText = true → ∀ x ∈ openLives lives, x.2.isText = false) :
      Said response (lives ++ [⟨item, [], false⟩])
        (said ++ item.opening (UInt32.ofNat lives.length))
  | extend {lives : List Life} {said : List Notice} {n : Nat} {l : Life} (piece : String)
      (before : Said response lives said) (at_ : lives[n]? = some l) (undone : l.done = false) :
      Said response (lives.set n (l.extend piece))
        (said ++ [l.announced.delta (UInt32.ofNat n) piece])
  | finish {lives : List Life} {said : List Notice} {n : Nat} {l : Life}
      (before : Said response lives said) (at_ : lives[n]? = some l) (undone : l.done = false) :
      Said response (lives.set n l.finish) (said ++ l.item.ending (UInt32.ofNat n))

namespace Said

variable {response : String} {lives : List Life} {said : List Notice}

/-- A stream begins with the creation; all that follows is about items. -/
theorem created_first (told : Said response lives said) : ∃ r rest,
    said = .created r :: rest ∧ r.id = response ∧ ∀ n ∈ rest, n.subject?.isSome = true := by
  have grow {said more : List Notice}
      (about : ∀ n ∈ more, ∃ s, n.subject? = some s) (ih : ∃ r rest,
        said = .created r :: rest ∧ r.id = response ∧ ∀ n ∈ rest, n.subject?.isSome = true) :
      ∃ r rest, said ++ more = .created r :: rest ∧ r.id = response ∧
        ∀ n ∈ rest, n.subject?.isSome = true := by
    obtain ⟨r, rest, rfl, named, subjects⟩ := ih
    refine ⟨r, rest ++ more, rfl, named, ?_⟩
    intro n member
    rcases List.mem_append.1 member with old | new
    · exact subjects n old
    · obtain ⟨s, subject⟩ := about n new
      rw [subject]
      rfl
  induction told with
  | created r named => exact ⟨r, [], rfl, named, by simp⟩
  | add item _ _ _ _ ih => exact grow (fun n member => ⟨_, Item.subject_opening member⟩) ih
  | extend piece _ _ _ ih =>
      refine grow ?_ ih
      intro n member
      rw [List.mem_singleton.1 member]
      exact ⟨_, Item.subject_delta _ _ piece⟩
  | finish _ _ _ ih => exact grow (fun n member => ⟨_, Item.subject_ending member⟩) ih

/-- Items are added at the places 0, 1, 2 and so on, in words. -/
theorem added (told : Said response lives said) : said.filterMap Notice.added? =
    (announced lives).zipIdx.map fun (item, n) => (UInt32.ofNat n, item) := by
  have none_ {more : List Notice} (quiet : ∀ n ∈ more, n.added? = none) :
      more.filterMap Notice.added? = [] := List.filterMap_eq_nil_iff.2 quiet
  induction told with
  | created r named => rfl
  | @add lives said item _ _ _ _ ih =>
      obtain ⟨parts, opening, quiet⟩ := item.opening_eq (UInt32.ofNat lives.length)
      rw [List.filterMap_append, ih, opening, List.filterMap_cons,
        none_ fun n member => (quiet n member).1]
      simp [announced, Notice.added?, List.zipIdx_append]
  | @extend lives said n l piece _ at_ undone ih =>
      rw [List.filterMap_append, ih, announced_extend at_, none_, List.append_nil]
      intro notice member
      rw [List.mem_singleton.1 member]
      exact (l.announced.delta_quiet (UInt32.ofNat n) piece).1
  | finish _ at_ _ ih =>
      rw [List.filterMap_append, ih, announced_finish at_,
        none_ fun n member => Item.added_ending member, List.append_nil]

theorem length_added (told : Said response lives said) :
    (said.filterMap Notice.added?).length = lives.length := by
  rw [told.added, List.length_map, List.length_zipIdx, announced, List.length_map]

/-- The places of items that are added are the words for the numbers of lives. -/
theorem map_added (told : Said response lives said) :
    (said.filterMap Notice.added?).map Prod.fst = (List.range lives.length).map UInt32.ofNat := by
  have numbers : (announced lives).zipIdx.map Prod.snd = List.range lives.length := by
    rw [List.zipIdx_map_snd, List.range_eq_range', announced, List.length_map]
  rw [told.added, ← numbers, List.map_map, List.map_map]
  rfl

/-- The item of a life has been added. -/
theorem added_of_life (told : Said response lives said) {n : Nat} {l : Life}
    (at_ : lives[n]? = some l) :
    (UInt32.ofNat n, l.announced) ∈ said.filterMap Notice.added? := by
  rw [told.added]
  refine List.mem_map.2 ⟨(l.announced, n), ?_, rfl⟩
  rw [List.mem_zipIdx_iff_getElem?, announced, List.getElem?_map, at_]
  rfl

/-- An item that has been added has a life. -/
theorem life_of_added (told : Said response lives said) {place : UInt32} {item : Item}
    (added : (place, item) ∈ said.filterMap Notice.added?) : ∃ (n : Nat) (l : Life),
      lives[n]? = some l ∧ UInt32.ofNat n = place ∧ l.announced = item := by
  rw [told.added] at added
  obtain ⟨⟨item', n⟩, member, same⟩ := List.mem_map.1 added
  obtain ⟨rfl, rfl⟩ := Prod.mk.inj same
  rw [List.mem_zipIdx_iff_getElem?, announced, List.getElem?_map, Option.map_eq_some_iff] at member
  obtain ⟨l, at_, announced⟩ := member
  exact ⟨n, l, at_, rfl, announced⟩

theorem named (told : Said response lives said) {n : Nat} {item : Item}
    (at_ : (announced lives)[n]? = some item) :
    item.id = item.nameAt response (UInt32.ofNat n) := by
  induction told generalizing n item with
  | created r named => exact absurd at_ (by simp [announced])
  | @add lives said added _ _ named _ ih =>
      rw [announced, List.map_append, List.getElem?_append] at at_
      split at at_
      · exact ih at_
      · next beyond =>
          rw [List.length_map] at at_ beyond
          rw [List.map_singleton, List.getElem?_singleton] at at_
          split at at_
          · next same =>
              cases at_
              have last : n = lives.length := by omega
              rw [last]
              exact named
          · exact absurd at_ (by simp)
  | extend piece _ found _ ih =>
      rw [announced_extend found] at at_
      exact ih at_
  | finish _ found _ ih =>
      rw [announced_finish found] at at_
      exact ih at_

/-- Nothing has been generated of an item that is added. -/
theorem blank_of_added (told : Said response lives said) {place : UInt32} {item : Item}
    (added : .itemAdded place item ∈ said) : item.text = "" := by
  induction told with
  | created r named => exact absurd added (by simp)
  | @add lives said new _ empty _ _ ih =>
      rcases List.mem_append.1 added with old | here
      · exact ih old
      · cases new <;> simp only [Item.opening, List.mem_cons, List.not_mem_nil, or_false] at here
        · cases here
          exact empty
        · rcases here with here | here
          · cases here
            exact empty
          · cases here
        · cases here
          exact empty
  | @extend lives said n l piece _ _ _ ih =>
      refine ih ((List.mem_append.1 added).resolve_right ?_)
      cases l.announced <;> simp [Item.delta]
  | @finish lives said n l _ _ _ ih =>
      refine ih ((List.mem_append.1 added).resolve_right ?_)
      cases l.item <;> simp [Item.ending]

/-- What is finished is the item of a life that is over. -/
theorem itemDone_iff (told : Said response lives said) (place : UInt32) (item : Item) :
    .itemDone place item ∈ said ↔ Finished lives place item := by
  induction told with
  | created r named =>
      refine ⟨fun member => absurd member (by simp), ?_⟩
      rintro ⟨n, l, at_, _⟩
      exact absurd at_ (by simp)
  | @add lives said added _ _ _ _ ih =>
      have silent : Notice.itemDone place item ∉ added.opening (UInt32.ofNat lives.length) := by
        cases added <;> simp [Item.opening]
      rw [List.mem_append, or_iff_left silent, ih, finished_append_singleton rfl]
  | @extend lives said n l piece _ at_ undone ih =>
      have silent : Notice.itemDone place item ∉ [l.announced.delta (UInt32.ofNat n) piece] := by
        cases l.announced <;> simp [Item.delta]
      have still : (l.extend piece).done ≠ true := by simp [Life.extend, undone]
      rw [List.mem_append, or_iff_left silent, ih, finished_set at_ undone,
        or_iff_left fun over_ => still over_.2.1]
  | @finish lives said n l _ at_ undone ih =>
      have last : Notice.itemDone place item ∈ l.item.ending (UInt32.ofNat n) ↔
          UInt32.ofNat n = place ∧ l.item = item := by
        cases l.item <;> simp [Item.ending, eq_comm]
      have through : l.finish.done = true := rfl
      have same : l.finish.item = l.item := rfl
      rw [List.mem_append, last, ih, finished_set at_ undone, through, same]
      simp only [true_and]

/-- An item keeps the name of its place and its kind. -/
theorem named_finished (told : Said response lives said) {place : UInt32} {item : Item}
    (finished : .itemDone place item ∈ said) : item.id = item.nameAt response place := by
  obtain ⟨n, l, at_, rfl, _, rfl⟩ := (told.itemDone_iff place item).1 finished
  have announced : (announced lives)[n]? = some l.announced := by
    rw [Responses.announced, List.getElem?_map, at_]
    rfl
  have named := told.named announced
  rw [Life.item, Item.id_withText, named]
  cases l.announced <;> rfl

end Said

/-! ## As long as there are places

Up to `UInt32.size` lives each have a place to themselves. -/

namespace Said

variable {response : String} {lives : List Life} {said : List Notice}

/-- The number of a life is one that a word holds. -/
theorem lt_size {n : Nat} {l : Life} (fits : lives.length ≤ UInt32.size)
    (at_ : lives[n]? = some l) : n < UInt32.size :=
  Nat.lt_of_lt_of_le (List.getElem?_eq_some_iff.1 at_).1 fits

/-- No two items have one name. -/
theorem nodup_names (told : Said response lives said) (fits : lives.length ≤ UInt32.size) :
    ((said.filterMap Notice.added?).map (·.2.id)).Nodup := by
  have names : (said.filterMap Notice.added?).map (·.2.id) = (announced lives).map Item.id := by
    rw [told.added, List.map_map]
    show (announced lives).zipIdx.map (Item.id ∘ Prod.fst) = _
    rw [← List.map_map, List.zipIdx_map_fst]
  rw [names, List.Nodup, List.pairwise_iff_getElem]
  intro p q left right before same
  rw [List.getElem_map, List.getElem_map] at same
  rw [told.named (List.getElem?_eq_getElem (by simpa using left)),
    told.named (List.getElem?_eq_getElem (by simpa using right))] at same
  have within : (announced lives).length ≤ UInt32.size := by
    rw [announced, List.length_map]
    exact fits
  rw [List.length_map] at left right
  have equal := Word.eq_of_ofNat_eq (Nat.lt_of_lt_of_le left within)
    (Nat.lt_of_lt_of_le right within) (Item.place_eq_of_nameAt_eq same)
  exact absurd equal (Nat.ne_of_lt before)

theorem filter_isAbout_of_subject {more : List Notice} {s : Subject}
    (about : ∀ n ∈ more, n.subject? = some s) (place : UInt32) :
    more.filter (Notice.isAbout place) = if s.place = place then more else [] := by
  split
  · next same =>
      rw [List.filter_eq_self]
      intro n member
      simp [Notice.isAbout, about n member, same]
  · next other =>
      rw [List.filter_eq_nil_iff]
      intro n member
      simp [Notice.isAbout, about n member, other]

/-- **The notices about a place are the life at that place.** -/
theorem filter_isAbout (told : Said response lives said) (fits : lives.length ≤ UInt32.size)
    (place : UInt32) :
    said.filter (Notice.isAbout place) = (lives[place.toNat]?).elim [] (·.notices place) := by
  -- A life that grows says what it gains, and the other lives say nothing.
  have grow {lives : List Life} {said more : List Notice} {p : Nat} {l l' : Life}
      (fits : (lives.set p l').length ≤ UInt32.size) (at_ : lives[p]? = some l)
      (gain : l'.notices (UInt32.ofNat p) = l.notices (UInt32.ofNat p) ++ more)
      (about : ∀ n ∈ more, n.subject? = some ⟨l.announced.id, UInt32.ofNat p⟩)
      (ih : lives.length ≤ UInt32.size → said.filter (Notice.isAbout place) =
        (lives[place.toNat]?).elim [] (·.notices place)) :
      (said ++ more).filter (Notice.isAbout place) =
        ((lives.set p l')[place.toNat]?).elim [] (·.notices place) := by
    rw [List.length_set] at fits
    rw [List.filter_append, ih fits, filter_isAbout_of_subject about, List.getElem?_set]
    split
    · next same =>
        obtain ⟨bound, _⟩ := List.getElem?_eq_some_iff.1 at_
        have here : UInt32.ofNat p = place := same
        have own : p = place.toNat := by rw [← here, Word.toNat_ofNat_of_lt (lt_size fits at_)]
        rw [← own, at_, if_pos rfl, if_pos bound, ← here]
        exact gain.symm
    · next other =>
        have elsewhere : p ≠ place.toNat := by
          rintro rfl
          exact other UInt32.ofNat_toNat
        rw [if_neg elsewhere]
        exact List.append_nil _
  induction told with
  | created r named => rfl
  | @add lives said item _ _ _ _ ih =>
      rw [List.length_append, List.length_singleton] at fits
      have own : (UInt32.ofNat lives.length).toNat = lives.length := Word.toNat_ofNat_of_lt fits
      rw [List.filter_append, ih (Nat.le_of_succ_le fits),
        filter_isAbout_of_subject fun n member => Item.subject_opening member,
        List.getElem?_append]
      have fresh (place : UInt32) : (Life.mk item [] false).notices place = item.opening place := by
        simp [Life.notices]
      split
      · next same =>
          have here : UInt32.ofNat lives.length = place := same
          subst here
          simp [fresh, own]
      · next other =>
          have there : lives.length ≠ place.toNat := by
            intro same
            exact other (show UInt32.ofNat lives.length = place by
              rw [same, UInt32.ofNat_toNat])
          split
          · rw [List.append_nil]
          · next beyond =>
              have past : place.toNat - lives.length ≠ 0 := by omega
              rw [List.getElem?_eq_none (by omega), List.getElem?_singleton, if_neg past]
              rfl
  | @extend lives said p l piece _ at_ undone ih =>
      refine grow fits at_ (Life.notices_extend undone _ piece) ?_ ih
      intro n member
      rw [List.mem_singleton.1 member]
      exact Item.subject_delta _ _ piece
  | @finish lives said p l _ at_ undone ih =>
      refine grow fits at_ (Life.notices_finish undone _) ?_ ih
      intro n member
      have subject := Item.subject_ending member
      rw [Life.item, Item.id_withText] at subject
      exact subject

/-- A notice about a place belongs to the life at that place. -/
theorem mem_notices (told : Said response lives said) (fits : lives.length ≤ UInt32.size)
    {n : Notice} {s : Subject} (member : n ∈ said) (about : n.subject? = some s) : ∃ l,
      lives[s.place.toNat]? = some l ∧
        said.filter (Notice.isAbout s.place) = l.notices s.place ∧ n ∈ l.notices s.place := by
  have kept : n ∈ said.filter (Notice.isAbout s.place) :=
    List.mem_filter.2 ⟨member, by simp [Notice.isAbout, about]⟩
  have whole := told.filter_isAbout fits s.place
  cases at_ : lives[s.place.toNat]? with
  | none =>
      rw [whole, at_] at kept
      exact absurd kept List.not_mem_nil
  | some l =>
      rw [at_] at whole
      exact ⟨l, rfl, whole, by rw [whole] at kept; exact kept⟩

end Said

/-! ## What is open at a time -/

/-- The items that a client has seen added and not done, with their places. -/
def openIn (said : List Notice) : List (UInt32 × Item) :=
  (said.filterMap Notice.added?).filter fun (place, _) => !said.any (Notice.finishes place)

theorem openIn_append_singleton (said : List Notice) (n : Notice) :
    (openIn (said ++ [n])).Sublist (openIn said ++ n.added?.toList) := by
  have added : (said ++ [n]).filterMap Notice.added? =
      said.filterMap Notice.added? ++ n.added?.toList := by
    rw [List.filterMap_append]
    cases one : n.added? <;> simp [one]
  rw [openIn, added, List.filter_append]
  refine List.Sublist.append ?_ List.filter_sublist
  have twice : ((said.filterMap Notice.added?).filter fun (place, _) =>
      !(said ++ [n]).any (Notice.finishes place)) =
        (openIn said).filter fun (place, _) => !n.finishes place := by
    rw [openIn, List.filter_filter]
    congr 1
    funext x
    simp [Bool.and_comm]
  rw [twice]
  exact List.filter_sublist

/-- At no time so far have two items of text been open. -/
def Calm (said : List Notice) : Prop :=
  ∀ before, before <+: said → ((openIn before).filter (·.2.isText)).length ≤ 1

theorem Calm.append_quiet {said more : List Notice} (calm : Calm said)
    (quiet : ∀ n ∈ more, n.added? = none) : Calm (said ++ more) := by
  induction more generalizing said with
  | nil =>
      rw [List.append_nil]
      exact calm
  | cons n rest ih =>
      rw [List.append_cons]
      refine ih ?_ fun n' member => quiet n' (List.mem_cons_of_mem _ member)
      intro before upto
      rcases List.prefix_concat_iff.1 upto with rfl | earlier
      · have fewer := (openIn_append_singleton said n).filter (·.2.isText)
        rw [quiet n List.mem_cons_self] at fewer
        have count := fewer.length_le
        rw [Option.toList_none, List.append_nil] at count
        exact Nat.le_trans count (calm said (List.prefix_refl said))
      · exact calm before earlier

namespace Said

variable {response : String} {lives : List Life} {said : List Notice}

/-- What a client holds open is not finished. -/
theorem undone_of_mem_openIn (told : Said response lives said) {place : UInt32} {item : Item}
    (open_ : (place, item) ∈ openIn said) : ∃ (n : Nat) (l : Life),
      lives[n]? = some l ∧ UInt32.ofNat n = place ∧ l.done = false ∧ l.announced = item := by
  obtain ⟨added, unfinished⟩ := List.mem_filter.1 open_
  obtain ⟨n, l, at_, here, same⟩ := told.life_of_added added
  refine ⟨n, l, at_, here, ?_, same⟩
  cases done : l.done with
  | false => rfl
  | true =>
      have last := (told.itemDone_iff place l.item).2 ⟨n, l, at_, here, done, rfl⟩
      have finished : said.any (Notice.finishes place) = true :=
        List.any_eq_true.2 ⟨_, last, by simp [Notice.finishes]⟩
      simp [finished] at unfinished

/-- **A notice speaks of an item that is open at its time**, unless it adds one. -/
theorem subject_open (told : Said response lives said) (fits : lives.length ≤ UInt32.size)
    {before after : List Notice} {n : Notice} {s : Subject} (at_ : said = before ++ n :: after)
    (about : n.subject? = some s) (later : n.added? = none) :
    ∃ item, (s.place, item) ∈ openIn before ∧ item.id = s.id := by
  have member : n ∈ said := by simp [at_]
  obtain ⟨l, _, whole, within⟩ := told.mem_notices fits member about
  obtain ⟨rest, first, _, last⟩ := l.notices_eq s.place
  have here : n.isAbout s.place = true := by simp [Notice.isAbout, about]
  rw [at_, List.filter_append, List.filter_cons_of_pos here] at whole
  refine ⟨l.announced, List.mem_filter.2 ⟨?_, ?_⟩, ?_⟩
  · -- The notices about the place begin with the announcement, which is not this notice.
    have announcement : Notice.itemAdded s.place l.announced ∈
        before.filter (Notice.isAbout s.place) := by
      rw [first] at whole
      generalize before.filter (Notice.isAbout s.place) = early at whole ⊢
      cases early with
      | nil =>
          injection whole with same
          rw [same] at later
          exact absurd later (by simp [Notice.added?])
      | cons head tail =>
          injection whole with same
          rw [same]
          exact List.mem_cons_self
    exact List.mem_filterMap.2 ⟨_, (List.mem_filter.1 announcement).1, rfl⟩
  · -- Only the last of them finishes it, and that is this notice or a later one.
    simp only [Bool.not_eq_true', List.any_eq_false]
    intro m early finishes
    have kept : m ∈ (l.notices s.place).dropLast := by
      rw [← whole, List.dropLast_append_of_ne_nil (List.cons_ne_nil _ _)]
      exact List.mem_append_left _
        (List.mem_filter.2 ⟨early, Notice.isAbout_of_finishes finishes⟩)
    rw [last m kept] at finishes
    exact absurd finishes (by simp)
  · have subject := Life.subject_of_mem within
    rw [about] at subject
    exact (congrArg Subject.id (Option.some.inj subject)).symm

/-- **At no time are two items of text open.** -/
theorem calm (told : Said response lives said) : Calm said := by
  induction told with
  | created r named =>
      have silent : Calm [] := by
        intro before upto
        rw [List.prefix_nil.1 upto]
        exact Nat.zero_le 1
      have quiet : ∀ n ∈ [Notice.created r], n.added? = none := by
        intro n member
        rw [List.mem_singleton.1 member]
        rfl
      exact silent.append_quiet quiet
  | @add lives said item told _ _ alone ih =>
      obtain ⟨parts, opening, quiet⟩ := item.opening_eq (UInt32.ofNat lives.length)
      rw [opening, List.append_cons]
      refine Calm.append_quiet ?_ fun n member => (quiet n member).1
      intro before upto
      rcases List.prefix_concat_iff.1 upto with rfl | earlier
      · have fewer := (openIn_append_singleton said
          (.itemAdded (UInt32.ofNat lives.length) item)).filter (·.2.isText)
        have count := fewer.length_le
        rw [List.filter_append, List.length_append] at count
        cases text : item.isText with
        | false =>
            have now := ih said (List.prefix_refl said)
            simp [Notice.added?, text] at count
            omega
        | true =>
            have idle : (openIn said).filter (·.2.isText) = [] := by
              rw [List.filter_eq_nil_iff]
              rintro ⟨place, other⟩ open_ isText
              obtain ⟨n, l, at_, here, undone, rfl⟩ := told.undone_of_mem_openIn open_
              have silent := alone text (place, l.item)
                (mem_openLives.2 ⟨n, l, at_, here, undone, rfl⟩)
              rw [Life.item, Item.isText_withText] at silent
              exact absurd isText (by simp [silent])
            rw [idle] at count
            exact Nat.le_trans count (by simp [Notice.added?, text])
      · exact ih before earlier
  | extend piece _ _ _ ih =>
      refine ih.append_quiet ?_
      intro n member
      rw [List.mem_singleton.1 member]
      exact (Item.delta_quiet _ _ piece).1
  | finish _ _ _ ih => exact ih.append_quiet fun n member => Item.added_ending member

/-! ## How a stream goes on -/

/-- An item is added at the next place. -/
theorem addItem (told : Said response lives said) {item : Item} (empty : item.text = "")
    (named : item.id = item.nameAt response (UInt32.ofNat lives.length))
    (alone : item.isText = true → ∀ x ∈ openLives lives, x.2.isText = false) :
    ∃ lives', Said response lives' (said ++ item.opening (UInt32.ofNat lives.length)) ∧
      openLives lives' = openLives lives ++ [(UInt32.ofNat lives.length, item)] ∧
      lives'.length = lives.length + 1 := by
  refine ⟨lives ++ [⟨item, [], false⟩], told.add item empty named alone, ?_, ?_⟩
  · have blank : item.withText "" = item := by
      rw [← empty]
      exact item.withText_text
    rw [openLives_append_singleton]
    show openLives lives ++ [(UInt32.ofNat lives.length, item.withText "")] = _
    rw [blank]
  · rw [List.length_append, List.length_singleton]

/-- An open item is one life; whatever takes its place, the others stay open. -/
theorem life_of_open {place : UInt32} {item : Item} {rest : List (UInt32 × Item)}
    (open_ : (openLives lives).Perm ((place, item) :: rest)) : ∃ (n : Nat) (l : Life),
      lives[n]? = some l ∧ UInt32.ofNat n = place ∧ l.done = false ∧ l.item = item ∧ ∀ l',
      (openLives (lives.set n l')).Perm ((Life.open? (l', n)).toList ++ rest) := by
  obtain ⟨n, l, at_, here, undone, same⟩ :=
    mem_openLives.1 (open_.mem_iff.2 List.mem_cons_self)
  obtain ⟨left, right, split⟩ := openLives_set at_
  have unchanged : lives.set n l = lives := by
    obtain ⟨bound, there⟩ := List.getElem?_eq_some_iff.1 at_
    rw [← there]
    exact List.set_getElem_self bound
  have others : (left ++ right).Perm rest := by
    have whole := split l
    rw [unchanged] at whole
    rw [whole] at open_
    have first : (Life.open? (l, n)).toList = [(place, item)] := by
      simp [Life.open?, undone, same, here]
    rw [first, List.append_assoc] at open_
    exact (List.perm_middle.symm.trans open_).cons_inv
  refine ⟨n, l, at_, here, undone, same, ?_⟩
  intro l'
  rw [split l', List.append_assoc]
  have front : (left ++ ((Life.open? (l', n)).toList ++ right)).Perm
      ((Life.open? (l', n)).toList ++ (left ++ right)) :=
    List.perm_append_comm_assoc _ _ _
  exact front.trans (others.append_left _)

/-- An open item gains a piece. -/
theorem extendItem (told : Said response lives said) {place : UInt32} {item : Item}
    {rest : List (UInt32 × Item)} (open_ : (openLives lives).Perm ((place, item) :: rest))
    (piece : String) :
    ∃ lives', Said response lives' (said ++ [item.delta place piece]) ∧
      (openLives lives').Perm ((place, item.withText (item.text ++ piece)) :: rest) ∧
      lives'.length = lives.length := by
  obtain ⟨n, l, at_, rfl, undone, rfl, swap⟩ := life_of_open open_
  have now := told.extend piece at_ undone
  refine ⟨lives.set n (l.extend piece), ?_, ?_, List.length_set⟩
  · rw [Life.item, Item.delta_withText]
    exact now
  · have others := swap (l.extend piece)
    have still : (l.extend piece).done = false := undone
    simp only [Life.open?, still, Bool.false_eq_true, if_false, Life.item_extend] at others
    exact others

/-- Open items are finished one after another. -/
theorem finishItems (told : Said response lives said) {items rest : List (UInt32 × Item)}
    (open_ : (openLives lives).Perm (items ++ rest)) :
    ∃ lives', Said response lives' (said ++ items.flatMap fun (place, item) => item.ending place) ∧
      (openLives lives').Perm rest ∧ lives'.length = lives.length := by
  induction items generalizing lives said with
  | nil =>
      rw [List.flatMap_nil, List.append_nil]
      exact ⟨lives, told, open_, rfl⟩
  | cons x items ih =>
      obtain ⟨place, item⟩ := x
      obtain ⟨n, l, at_, rfl, undone, rfl, swap⟩ := life_of_open open_
      have others := swap l.finish
      have through : l.finish.done = true := rfl
      simp only [Life.open?, through, if_true] at others
      obtain ⟨lives', told', open', length⟩ := ih (told.finish at_ undone) others
      refine ⟨lives', ?_, open', ?_⟩
      · rw [List.flatMap_cons, ← List.append_assoc]
        exact told'
      · rw [length, List.length_set]

/-- When nothing is open, every item has lived its whole life. -/
theorem complete (told : Said response lives said) (fits : lives.length ≤ UInt32.size)
    (idle : openLives lives = []) {place : UInt32} {item : Item}
    (added : (place, item) ∈ said.filterMap Notice.added?) :
    ∃ pieces, said.filter (Notice.isAbout place) = (Life.mk item pieces true).notices place := by
  obtain ⟨n, ⟨announced, pieces, done⟩, at_, rfl, rfl⟩ := told.life_of_added added
  cases done with
  | false =>
      have open_ := mem_openLives.2 ⟨n, _, at_, rfl, rfl, rfl⟩
      rw [idle] at open_
      exact absurd open_ List.not_mem_nil
  | true =>
      refine ⟨pieces, ?_⟩
      rw [told.filter_isAbout fits, Word.toNat_ofNat_of_lt (lt_size fits at_), at_]
      rfl

theorem openIn_eq_nil (told : Said response lives said) (idle : openLives lives = []) :
    openIn said = [] := by
  rw [List.eq_nil_iff_forall_not_mem]
  rintro ⟨place, item⟩ open_
  obtain ⟨n, l, at_, here, undone, _⟩ := told.undone_of_mem_openIn open_
  have member := mem_openLives.2 ⟨n, l, at_, here, undone, rfl⟩
  rw [idle] at member
  exact List.not_mem_nil member

end Said
end DialectGateway.Responses
