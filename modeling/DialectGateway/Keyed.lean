/-
# Keyed — values by key, in the order of the keys

A keyed list holds at most one value for a key and its keys ascend. `put` keeps
both, whatever was there before.
-/

set_option autoImplicit false

namespace DialectGateway.Keyed

variable {K V : Type} [LT K] [DecidableLT K] [DecidableEq K]

/-- Gives a key its value, in place of the value it may have had. -/
def put (key : K) (v : V) : List (K × V) → List (K × V)
  | [] => [(key, v)]
  | (k, w) :: rest =>
    if key = k then (key, v) :: rest
    else if key < k then (key, v) :: (k, w) :: rest
    else (k, w) :: put key v rest

/-- Changes the value of a key, which is `dflt` if it has none. -/
def adjust (key : K) (dflt : V) (f : V → V) (entries : List (K × V)) : List (K × V) :=
  put key (f ((entries.lookup key).getD dflt)) entries

omit [LT K] [DecidableLT K] in
theorem lookup_cons_ne {key k : K} (w : V) (rest : List (K × V)) (h : key ≠ k) :
    ((k, w) :: rest).lookup key = rest.lookup key := by
  have : (key == k) = false := by simpa using h
  simp [List.lookup_cons, this]

theorem lookup_put_self (key : K) (v : V) (entries : List (K × V)) :
    (put key v entries).lookup key = some v := by
  induction entries with
  | nil => simp [put]
  | cons entry rest ih =>
    obtain ⟨k, w⟩ := entry
    by_cases same : key = k
    · simp [put, same]
    · by_cases before : key < k
      · simp [put, same, before]
      · simp only [put, same, before, if_false]
        rw [lookup_cons_ne w _ same, ih]

theorem lookup_put_ne {key k : K} (other : k ≠ key) (v : V) (entries : List (K × V)) :
    (put key v entries).lookup k = entries.lookup k := by
  induction entries with
  | nil => exact lookup_cons_ne v [] other
  | cons entry rest ih =>
    obtain ⟨k', w⟩ := entry
    rw [put]
    split
    · next same =>
      rw [lookup_cons_ne v rest other, lookup_cons_ne w rest (same ▸ other)]
    · split
      · exact lookup_cons_ne v _ other
      · rw [List.lookup_cons, List.lookup_cons, ih]

/-- The value of a key, which is `dflt` if it has none. -/
def value (key : K) (dflt : V) (entries : List (K × V)) : V := (entries.lookup key).getD dflt

theorem value_adjust_self (key : K) (dflt : V) (f : V → V) (entries : List (K × V)) :
    value key dflt (adjust key dflt f entries) = f (value key dflt entries) := by
  rw [value, adjust, lookup_put_self]
  rfl

theorem value_adjust_ne {key k : K} (other : k ≠ key) (dflt : V) (f : V → V)
    (entries : List (K × V)) :
    value k dflt (adjust key dflt f entries) = value k dflt entries := by
  rw [value, adjust, lookup_put_ne other]
  rfl

/-- The keys ascend, so that each occurs once. -/
def Ascending (entries : List (K × V)) : Prop := entries.Pairwise fun a b => a.1 < b.1

theorem mem_put {key : K} {v : V} {entries : List (K × V)} {x : K × V}
    (member : x ∈ put key v entries) : x = (key, v) ∨ x ∈ entries := by
  induction entries with
  | nil => exact .inl (List.mem_singleton.1 member)
  | cons entry rest ih =>
    obtain ⟨k, w⟩ := entry
    rw [put] at member
    split at member
    · exact (List.mem_cons.1 member).imp id (List.mem_cons_of_mem _)
    · split at member
      · exact List.mem_cons.1 member
      · rcases List.mem_cons.1 member with first | later
        · exact .inr (first ▸ List.mem_cons_self)
        · exact (ih later).imp id (List.mem_cons_of_mem _)

theorem mem_keys_put {key k : K} {v : V} {entries : List (K × V)} :
    k ∈ (put key v entries).map Prod.fst ↔ k = key ∨ k ∈ entries.map Prod.fst := by
  induction entries with
  | nil => simp [put]
  | cons entry rest ih =>
    obtain ⟨k', w⟩ := entry
    rw [put]
    split
    · next same => simp [same]
    · split
      · simp
      · rw [List.map_cons, List.mem_cons, ih, List.map_cons, List.mem_cons]
        exact or_left_comm

omit [LT K] [DecidableLT K] in
/-- A change to all values, keys apart, is a change to the value of each key. -/
theorem lookup_map (f : V → V) (key : K) (entries : List (K × V)) :
    (entries.map fun (k, v) => (k, f v)).lookup key = (entries.lookup key).map f := by
  induction entries with
  | nil => rfl
  | cons entry rest ih =>
    obtain ⟨k, v⟩ := entry
    by_cases same : key = k
    · simp [same]
    · rw [List.map_cons, lookup_cons_ne _ _ same, lookup_cons_ne _ _ same, ih]

/-- Gives keys their values, one after another. -/
def putAll (news entries : List (K × V)) : List (K × V) :=
  news.foldl (fun entries (k, v) => put k v entries) entries

theorem putAll_append (news later entries : List (K × V)) :
    putAll (news ++ later) entries = putAll later (putAll news entries) := List.foldl_append

theorem mem_putAll {news entries : List (K × V)} {x : K × V}
    (member : x ∈ putAll news entries) : x ∈ news ∨ x ∈ entries := by
  induction news generalizing entries with
  | nil => exact .inr member
  | cons new rest ih =>
    rcases ih member with later | there
    · exact .inl (List.mem_cons_of_mem _ later)
    · rcases mem_put there with rfl | old
      · exact .inl List.mem_cons_self
      · exact .inr old

theorem mem_keys_putAll {news entries : List (K × V)} {k : K} :
    k ∈ (putAll news entries).map Prod.fst ↔
      k ∈ news.map Prod.fst ∨ k ∈ entries.map Prod.fst := by
  induction news generalizing entries with
  | nil => simp [putAll]
  | cons new rest ih =>
    rw [putAll, List.foldl_cons]
    show k ∈ (putAll rest _).map Prod.fst ↔ _
    rw [ih, mem_keys_put, List.map_cons, List.mem_cons, or_assoc]
    exact or_left_comm

/-- A new key is put between others. -/
theorem put_of_lookup_none {key : K} {entries : List (K × V)}
    (absent : entries.lookup key = none) (v : V) :
    ∃ left right, entries = left ++ right ∧ put key v entries = left ++ (key, v) :: right := by
  induction entries with
  | nil => exact ⟨[], [], rfl, rfl⟩
  | cons entry rest ih =>
    obtain ⟨k, w⟩ := entry
    have other : key ≠ k := by
      rintro rfl
      exact absurd absent (by simp)
    rw [lookup_cons_ne w rest other] at absent
    rw [put, if_neg other]
    split
    · exact ⟨[], (k, w) :: rest, rfl, rfl⟩
    · obtain ⟨left, right, rfl, result⟩ := ih absent
      exact ⟨(k, w) :: left, right, rfl, congrArg _ result⟩

omit [LT K] [DecidableLT K] [DecidableEq K] in
/-- Where the keys are the words for the numbers from 0 on, a key is the place of its value. -/
theorem getElem?_map_snd_iff {entries : List (UInt32 × V)} {n : Nat}
    (keys : entries.map (·.1.toNat) = List.range n) (k : UInt32) (v : V) :
    (entries.map Prod.snd)[k.toNat]? = some v ↔ (k, v) ∈ entries := by
  have numbered {place : Nat} {key : UInt32} {w : V} (at_ : entries[place]? = some (key, w)) :
      key.toNat = place := by
    have there := congrArg (·[place]?) keys
    simp only [List.getElem?_map, at_, Option.map_some] at there
    obtain ⟨_, same⟩ := List.getElem?_eq_some_iff.1 there.symm
    exact (List.getElem_range _).symm.trans same |>.symm
  rw [List.mem_iff_getElem?, List.getElem?_map, Option.map_eq_some_iff]
  constructor
  · rintro ⟨⟨key, w⟩, at_, rfl⟩
    obtain rfl := UInt32.toNat_inj.1 (numbered at_)
    exact ⟨_, at_⟩
  · rintro ⟨place, at_⟩
    obtain rfl := numbered at_
    exact ⟨_, at_, rfl⟩

section Sums

variable {A : Type} (p : A → Bool)

/-- The sum of the values whose keys have a property. -/
def sumWhere : List (A × Nat) → Nat
  | [] => 0
  | (key, n) :: rest => (if p key then n else 0) + sumWhere rest

theorem sumWhere_append (left right : List (A × Nat)) :
    sumWhere p (left ++ right) = sumWhere p left + sumWhere p right := by
  induction left with
  | nil => exact (Nat.zero_add _).symm
  | cons entry left ih =>
    rw [List.cons_append, sumWhere, ih, sumWhere, Nat.add_assoc]

theorem sumWhere_cons (key : A) (n : Nat) (rest : List (A × Nat)) :
    sumWhere p ((key, n) :: rest) = (if p key then n else 0) + sumWhere p rest := rfl

end Sums

section Order

variable [Trans (α := K) (β := K) (γ := K) (· < ·) (· < ·) (· < ·)]
  [Std.Asymm (α := K) (· < ·)] [Std.Trichotomous (α := K) (· < ·)]

omit [Std.Asymm (α := K) (· < ·)] in
theorem ascending_put {entries : List (K × V)} (ascending : Ascending entries) (key : K) (v : V) :
    Ascending (put key v entries) := by
  induction entries with
  | nil => exact List.pairwise_singleton _ _
  | cons entry rest ih =>
    obtain ⟨k, w⟩ := entry
    obtain ⟨first, later⟩ := List.pairwise_cons.1 ascending
    rw [put]
    split
    · next same => exact List.pairwise_cons.2 ⟨same ▸ first, later⟩
    · next other =>
      split
      · next before =>
        refine List.pairwise_cons.2 ⟨?_, ascending⟩
        intro x member
        rcases List.mem_cons.1 member with rfl | tail
        · exact before
        · exact Trans.trans before (first x tail)
      · next notBefore =>
        refine List.pairwise_cons.2 ⟨?_, ih later⟩
        intro x member
        rcases mem_put member with rfl | old
        · by_cases after : k < key
          · exact after
          · exact absurd (Std.Trichotomous.trichotomous key k notBefore after) other
        · exact first x old

omit [Std.Asymm (α := K) (· < ·)] in
theorem ascending_putAll {entries : List (K × V)} (ascending : Ascending entries)
    (news : List (K × V)) : Ascending (putAll news entries) := by
  induction news generalizing entries with
  | nil => exact ascending
  | cons new rest ih => exact ih (ascending_put ascending new.1 new.2)

omit [DecidableLT K] [DecidableEq K] [Trans (α := K) (β := K) (γ := K) (· < ·) (· < ·) (· < ·)]
  [Std.Trichotomous (α := K) (· < ·)] in
theorem nodup_keys {entries : List (K × V)} (ascending : Ascending entries) :
    (entries.map Prod.fst).Nodup := by
  refine List.pairwise_map.2 (ascending.imp ?_)
  rintro x y less same
  exact Std.Asymm.asymm x.1 y.1 less (same ▸ less)

omit [Trans (α := K) (β := K) (γ := K) (· < ·) (· < ·) (· < ·)]
  [Std.Trichotomous (α := K) (· < ·)] in
/-- A key that is there keeps its place, and nothing else changes. -/
theorem put_of_lookup {key : K} {w : V} {entries : List (K × V)} (ascending : Ascending entries)
    (present : entries.lookup key = some w) :
    ∃ left right, entries = left ++ (key, w) :: right ∧
      ∀ v, put key v entries = left ++ (key, v) :: right := by
  induction entries with
  | nil => exact absurd present (by simp)
  | cons entry rest ih =>
    obtain ⟨k, u⟩ := entry
    obtain ⟨first, later⟩ := List.pairwise_cons.1 ascending
    by_cases same : key = k
    · subst same
      obtain rfl : u = w := by simpa using present
      exact ⟨[], rest, rfl, fun v => by simp [put]⟩
    · rw [lookup_cons_ne u rest same] at present
      obtain ⟨left, right, rfl, result⟩ := ih later present
      refine ⟨(k, u) :: left, right, rfl, ?_⟩
      intro v
      have before : k < key := first (key, w) (by simp)
      rw [put, if_neg same, if_neg (Std.Asymm.asymm k key before), result]
      rfl

omit [Trans (α := K) (β := K) (γ := K) (· < ·) (· < ·) (· < ·)]
  [Std.Trichotomous (α := K) (· < ·)] in
/-- A key is put after all that are below it. -/
theorem put_append {key : K} {before : List (K × V)} (below : ∀ x ∈ before, x.1 < key) (v : V)
    (rest : List (K × V)) : put key v (before ++ rest) = before ++ put key v rest := by
  induction before with
  | nil => rfl
  | cons entry before ih =>
    obtain ⟨k, w⟩ := entry
    have less : k < key := below (k, w) List.mem_cons_self
    have other : key ≠ k := by
      rintro rfl
      exact Std.Asymm.asymm key key less less
    rw [List.cons_append, put, if_neg other, if_neg (Std.Asymm.asymm k key less),
      ih fun x member => below x (List.mem_cons_of_mem _ member)]
    rfl

omit [DecidableLT K] [Trans (α := K) (β := K) (γ := K) (· < ·) (· < ·) (· < ·)]
  [Std.Trichotomous (α := K) (· < ·)] in
/-- Each key occurs once, with its value. -/
theorem lookup_eq_of_mem {key : K} {v : V} {entries : List (K × V)}
    (ascending : Ascending entries) (member : (key, v) ∈ entries) :
    entries.lookup key = some v := by
  induction entries with
  | nil => cases member
  | cons entry rest ih =>
    obtain ⟨k, w⟩ := entry
    obtain ⟨first, later⟩ := List.pairwise_cons.1 ascending
    rcases List.mem_cons.1 member with here | there
    · cases here
      exact List.lookup_cons_self
    · have less : k < key := first (key, v) there
      have other : key ≠ k := by
        rintro rfl
        exact Std.Asymm.asymm key key less less
      rw [lookup_cons_ne w rest other]
      exact ih later there

omit [DecidableLT K] [Trans (α := K) (β := K) (γ := K) (· < ·) (· < ·) (· < ·)]
  [Std.Trichotomous (α := K) (· < ·)] in
theorem lookup_append {key : K} {before : List (K × V)} (below : ∀ x ∈ before, x.1 < key)
    (rest : List (K × V)) : (before ++ rest).lookup key = rest.lookup key := by
  induction before with
  | nil => rfl
  | cons entry before ih =>
    obtain ⟨k, w⟩ := entry
    have less : k < key := below (k, w) List.mem_cons_self
    have other : key ≠ k := by
      rintro rfl
      exact Std.Asymm.asymm key key less less
    rw [List.cons_append, lookup_cons_ne w _ other]
    exact ih fun x member => below x (List.mem_cons_of_mem _ member)

omit [Std.Asymm (α := K) (· < ·)] in
theorem ascending_adjust {entries : List (K × V)} (ascending : Ascending entries) (key : K)
    (dflt : V) (f : V → V) : Ascending (adjust key dflt f entries) :=
  ascending_put ascending key _

omit [Trans (α := K) (β := K) (γ := K) (· < ·) (· < ·) (· < ·)]
  [Std.Trichotomous (α := K) (· < ·)] in
/-- Adding to one key adds to every sum over that key, and to no other. -/
theorem sumWhere_adjust (p : K → Bool) {entries : List (K × Nat)} (ascending : Ascending entries)
    (key : K) (n : Nat) :
    sumWhere p (adjust key 0 (· + n) entries) = sumWhere p entries + if p key then n else 0 := by
  rw [adjust]
  cases present : entries.lookup key with
  | none =>
    obtain ⟨left, right, rfl, result⟩ := put_of_lookup_none present (0 + n)
    rw [Option.getD_none, result, sumWhere_append, sumWhere_append, sumWhere_cons, Nat.zero_add]
    omega
  | some w =>
    obtain ⟨left, right, rfl, result⟩ := put_of_lookup ascending present
    rw [Option.getD_some, result, sumWhere_append, sumWhere_append, sumWhere_cons, sumWhere_cons]
    split <;> omega

end Order

end DialectGateway.Keyed
