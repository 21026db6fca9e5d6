/-
# Proofs.Ledger.Ranking — the busiest groups of the log, in order

The ranking lists the ten groups with most entries, groups with as many in the order of their
names. `Ranking` says so of the entries alone: how many are listed, which they are, in what order,
and what is said of each. No more than one list is such a ranking (`Ranking.unique`), and it is the
same for the same entries in another order (`Ranking.perm`), so that neither the order of the
entries nor the order in which their groups are held can make a difference (`rank_busiest`).

That the code gives a ranking has two parts. The groups hold the counts of the entries
(`Grouped`, kept by `Grouped.step`), and what is listed is the first part of all groups in strict
order (`ranking_listing`).
-/
import DialectGateway.Ledger.Rank
import Mathlib.Algebra.BigOperators.Group.List.Lemmas
import Mathlib.Algebra.Order.BigOperators.Group.List
import Mathlib.Algebra.Order.Ring.Nat
import Mathlib.Data.List.Dedup
import Mathlib.Data.List.Perm.Subperm

set_option autoImplicit false

namespace DialectGateway.Ledger

open Decimal (Double)

/-! ## What a ranking is -/

/-- The entries of the group with this name. -/
def group (entries : List Entry) (d : Dimension) (name : String) : List Entry :=
  entries.filter (d.of · = name)

/-- One group comes before another: it has more entries, or as many and the lesser name. -/
def Precedes (entries : List Entry) (d : Dimension) (a b : String) : Prop :=
  (group entries d b).length < (group entries d a).length ∨
    (group entries d a).length = (group entries d b).length ∧ a < b

/-- The items list the ten busiest groups of the entries, or all groups if there are fewer. -/
structure Ranking (entries : List Entry) (d : Dimension) (items : List RankItem) : Prop where
  length : items.length = min 10 (entries.map d.of).dedup.length
  names : ∀ i ∈ items, i.name ∈ entries.map d.of
  distinct : (items.map RankItem.name).Nodup
  ordered : (items.map RankItem.name).Pairwise (Precedes entries d)
  rest : ∀ i ∈ items, ∀ name ∈ entries.map d.of, name ∉ items.map RankItem.name →
    Precedes entries d i.name name
  count : ∀ i ∈ items, i.count = (group entries d i.name).length
  successRate : ∀ i ∈ items, i.successRate =
    (Double.ofNat ((group entries d i.name).countP Entry.success)).div (Double.ofNat i.count)
  share : ∀ i ∈ items, i.share = (Double.ofNat i.count).div (Double.ofNat entries.length)

section
variable {entries : List Entry} {d : Dimension}

theorem Precedes.asymm {a b : String} (before : Precedes entries d a b) :
    ¬ Precedes entries d b a := by
  rintro (more | ⟨same, less⟩)
  · rcases before with more' | ⟨same', -⟩ <;> omega
  · rcases before with more' | ⟨-, less'⟩
    · omega
    · exact String.lt_asymm less less'

theorem length_group (name : String) :
    (group entries d name).length = (entries.map d.of).count name := by
  rw [group, ← List.countP_eq_length_filter, List.count, List.countP_map]
  rfl

/-- A name that occurs has an entry. -/
theorem length_group_pos {name : String} (occurs : name ∈ entries.map d.of) :
    0 < (group entries d name).length := by
  rw [length_group]
  exact List.count_pos_iff.2 occurs

theorem group_perm {entries' : List Entry} (perm : entries'.Perm entries) (name : String) :
    (group entries' d name).Perm (group entries d name) := perm.filter _

/-- All groups together are the entries. -/
theorem sum_groups :
    ((entries.map d.of).dedup.map fun name => (group entries d name).length).sum =
      entries.length := by
  simp only [length_group]
  rw [List.sum_map_count_dedup_eq_length, List.length_map]

namespace Ranking

variable {items items' : List RankItem}

/-- What is said of an item is determined by its name. -/
theorem ext_of_names (ranks : Ranking entries d items) (ranks' : Ranking entries d items')
    (same : items.map RankItem.name = items'.map RankItem.name) : items = items' := by
  have each {i j : RankItem} (listed : i ∈ items) (listed' : j ∈ items')
      (name : i.name = j.name) : i = j := by
    have count : i.count = j.count := by rw [ranks.count i listed, ranks'.count j listed', name]
    have rate : i.successRate = j.successRate := by
      rw [ranks.successRate i listed, ranks'.successRate j listed', name, count]
    have share : i.share = j.share := by rw [ranks.share i listed, ranks'.share j listed', count]
    exact RankItem.ext name count rate share
  have length := congrArg List.length same
  rw [List.length_map, List.length_map] at length
  refine List.ext_getElem length ?_
  intro n here there
  refine each (List.getElem_mem here) (List.getElem_mem there) ?_
  have at_ := congrArg (·[n]?) same
  simpa [here, there] using at_

/-- A name that one ranking leaves out and another lists would have to come before itself. -/
theorem names_subset (ranks : Ranking entries d items) (ranks' : Ranking entries d items') :
    items.map RankItem.name ⊆ items'.map RankItem.name := by
  have length : (items'.map RankItem.name).length = (items.map RankItem.name).length := by
    rw [List.length_map, List.length_map, ranks.length, ranks'.length]
  intro name listed
  by_contra left_out
  -- A name that only the other list has would come both before and after this one.
  have within : items'.map RankItem.name ⊆ items.map RankItem.name := by
    intro other listed'
    by_contra left_out'
    obtain ⟨i, item, rfl⟩ := List.mem_map.1 listed
    obtain ⟨j, item', rfl⟩ := List.mem_map.1 listed'
    exact (ranks.rest i item j.name (ranks'.names j item') left_out').asymm
      (ranks'.rest j item' i.name (ranks.names i item) left_out)
  have perm := (List.subperm_of_subset ranks'.distinct within).perm_of_length_le length.ge
  exact left_out (perm.mem_iff.2 listed)

/-- **No more than one list is a ranking of the entries.** -/
theorem unique (ranks : Ranking entries d items) (ranks' : Ranking entries d items') :
    items = items' := by
  have perm : (items.map RankItem.name).Perm (items'.map RankItem.name) :=
    (List.perm_ext_iff_of_nodup ranks.distinct ranks'.distinct).2 fun _ =>
      ⟨(names_subset ranks ranks' ·), (names_subset ranks' ranks ·)⟩
  exact ext_of_names ranks ranks' (perm.eq_of_pairwise
    (fun _ _ _ _ before after => absurd after before.asymm) ranks.ordered ranks'.ordered)

/-- The order of the entries makes no difference. -/
theorem perm {entries' : List Entry} (same : entries'.Perm entries)
    (ranks : Ranking entries' d items) : Ranking entries d items := by
  have names : (entries'.map d.of).Perm (entries.map d.of) := same.map d.of
  have size (name : String) : (group entries' d name).length = (group entries d name).length :=
    (group_perm same name).length_eq
  have precedes : Precedes entries' d = Precedes entries d := by
    funext a b
    rw [Precedes, Precedes, size, size]
  constructor
  case length => rw [ranks.length, names.dedup.length_eq]
  case names => exact fun i listed => names.mem_iff.1 (ranks.names i listed)
  case distinct => exact ranks.distinct
  case ordered => exact precedes ▸ ranks.ordered
  case rest =>
    intro i listed name there left_out
    exact precedes ▸ ranks.rest i listed name (names.mem_iff.2 there) left_out
  case count => exact fun i listed => (ranks.count i listed).trans (size i.name)
  case successRate =>
    intro i listed
    rw [ranks.successRate i listed, (group_perm same i.name).countP_eq]
  case share =>
    intro i listed
    rw [ranks.share i listed, same.length_eq]

/-- The listed groups are among all groups. -/
theorem names_subperm (ranks : Ranking entries d items) :
    (items.map RankItem.name).Subperm (entries.map d.of).dedup := by
  refine List.subperm_of_subset ranks.distinct ?_
  intro name listed
  obtain ⟨i, item, rfl⟩ := List.mem_map.1 listed
  exact List.mem_dedup.2 (ranks.names i item)

theorem counts (ranks : Ranking entries d items) :
    items.map RankItem.count =
      (items.map RankItem.name).map fun name => (group entries d name).length := by
  rw [List.map_map]
  exact List.map_congr_left ranks.count

theorem sum_le (ranks : Ranking entries d items) :
    (items.map RankItem.count).sum ≤ entries.length := by
  obtain ⟨listed, perm, within⟩ := ranks.names_subperm
  rw [ranks.counts, ← (perm.map _).sum_eq, ← sum_groups (d := d)]
  exact (within.map _).sum_le_sum fun _ _ => Nat.zero_le _

/-- Where all groups are listed, every entry is counted. -/
theorem sum_eq (ranks : Ranking entries d items) (few : (entries.map d.of).dedup.length ≤ 10) :
    (items.map RankItem.count).sum = entries.length := by
  have all : (items.map RankItem.name).Perm (entries.map d.of).dedup := by
    refine ranks.names_subperm.perm_of_length_le ?_
    rw [List.length_map, ranks.length]
    omega
  rw [ranks.counts, (all.map _).sum_eq, sum_groups]

end Ranking

end

/-! ## The groups hold the counts of the entries -/

/-- The counts of the entries of one group. -/
def Count.of (entries : List Entry) : Count := ⟨entries.length, entries.countP Entry.success⟩

theorem Count.of_append (entries : List Entry) (e : Entry) :
    Count.of (entries ++ [e]) = (Count.of entries).add e := by
  rw [of, of, add, List.length_append, List.countP_append, List.countP_singleton]
  cases e.success <;> rfl

/-- Each name that occurs has its group, with the counts of its entries. -/
structure Grouped (d : Dimension) (entries : List Entry) (groups : List (String × Count)) :
    Prop where
  ascending : Keyed.Ascending groups
  names : ∀ name, name ∈ groups.map Prod.fst ↔ name ∈ entries.map d.of
  counts : ∀ name, Keyed.value name {} groups = Count.of (group entries d name)

section
variable {d : Dimension} {entries : List Entry} {held : List (String × Count)}

theorem Grouped.step (grouped : Grouped d entries held) (e : Entry) :
    Grouped d (entries ++ [e]) (Keyed.adjust (d.of e) {} (·.add e) held) := by
  refine ⟨Keyed.ascending_adjust grouped.ascending _ _ _, fun name => ?_, fun name => ?_⟩
  · rw [Keyed.adjust, Keyed.mem_keys_put, grouped.names, List.map_append, List.mem_append,
      List.map_singleton, List.mem_singleton]
    exact or_comm
  · rw [group, List.filter_append]
    by_cases own : d.of e = name
    · rw [List.filter_singleton, decide_eq_true own, cond_true, Count.of_append, ← own,
        Keyed.value_adjust_self, grouped.counts]
      rfl
    · rw [List.filter_singleton, decide_eq_false own, cond_false, List.append_nil,
        Keyed.value_adjust_ne (Ne.symm own)]
      exact grouped.counts name

theorem Grouped.run (grouped : Grouped d entries held) (later : List Entry) :
    Grouped d (entries ++ later)
      (later.foldl (fun held e => Keyed.adjust (d.of e) {} (·.add e) held) held) := by
  induction later generalizing entries held with
  | nil => rwa [List.append_nil]
  | cons e later ih =>
    have more := ih (grouped.step e)
    rwa [List.append_assoc] at more

/-- **The groups of the entries hold their counts.** -/
theorem grouped (entries : List Entry) (d : Dimension) : Grouped d entries (groups entries d) := by
  have empty : Grouped d [] [] := ⟨.nil, fun _ => Iff.rfl, fun _ => rfl⟩
  exact empty.run entries

theorem mem_groups (name : String) (c : Count) :
    (name, c) ∈ groups entries d ↔
      name ∈ entries.map d.of ∧ c = Count.of (group entries d name) := by
  have counts {c : Count} (member : (name, c) ∈ groups entries d) :
      c = Count.of (group entries d name) := by
    rw [← (grouped entries d).counts name, Keyed.value,
      Keyed.lookup_eq_of_mem (grouped entries d).ascending member]
    rfl
  rw [← (grouped entries d).names name]
  constructor
  · intro member
    exact ⟨List.mem_map_of_mem member, counts member⟩
  · rintro ⟨there, rfl⟩
    obtain ⟨⟨_, c⟩, member, rfl⟩ := List.mem_map.1 there
    exact counts member ▸ member

/-- The groups are one for each name that occurs. -/
theorem groups_perm :
    (groups entries d).Perm
      ((entries.map d.of).dedup.map fun name => (name, Count.of (group entries d name))) := by
  have once : (groups entries d).Nodup := by
    refine (grouped entries d).ascending.imp ?_
    rintro a b less rfl
    exact String.lt_irrefl a.1 less
  have once' : ((entries.map d.of).dedup.map fun name =>
      (name, Count.of (group entries d name))).Nodup :=
    (List.nodup_dedup _).map fun a b same => congrArg Prod.fst same
  refine (List.perm_ext_iff_of_nodup once once').2 ?_
  rintro ⟨name, c⟩
  rw [mem_groups]
  constructor
  · rintro ⟨occurs, rfl⟩
    exact List.mem_map_of_mem (List.mem_dedup.2 occurs)
  · intro member
    obtain ⟨_, occurs, same⟩ := List.mem_map.1 member
    cases same
    exact ⟨List.mem_dedup.1 occurs, rfl⟩

end

/-! ## The first of the groups are listed -/

theorem busier_iff (a b : String × Count) : busier a b = true ↔
    b.2.entries < a.2.entries ∨ a.2.entries = b.2.entries ∧ a.1 ≤ b.1 := by
  rw [busier, Bool.or_eq_true, Bool.and_eq_true, decide_eq_true_eq, beq_iff_eq,
    Bool.not_eq_true', decide_eq_false_iff_not, String.not_lt]

theorem busier_total (a b : String × Count) : (busier a b || busier b a) = true := by
  rw [Bool.or_eq_true, busier_iff, busier_iff]
  rcases Nat.lt_trichotomy a.2.entries b.2.entries with fewer | same | more
  · exact .inr (.inl fewer)
  · exact (String.le_total a.1 b.1).imp (.inr ⟨same, ·⟩) (.inr ⟨same.symm, ·⟩)
  · exact .inl (.inl more)

theorem busier_trans (a b c : String × Count) (first : busier a b = true)
    (second : busier b c = true) : busier a c = true := by
  rw [busier_iff] at first second ⊢
  rcases first with more | ⟨same, le⟩
  · refine .inl ?_
    rcases second with more' | ⟨same', -⟩ <;> omega
  · rcases second with more' | ⟨same', le'⟩
    · exact .inl (by omega)
    · exact .inr ⟨same.trans same', String.le_trans le le'⟩

section
variable {entries : List Entry} {d : Dimension}

theorem ratio_of_pos {whole : Nat} (pos : 0 < whole) (part : Nat) :
    ratio part whole = (Double.ofNat part).div (Double.ofNat whole) := if_neg pos.ne'

/-- What is listed of a group. -/
def itemOf (entries : List Entry) (d : Dimension) (name : String) : RankItem :=
  let c := Count.of (group entries d name)
  ⟨name, c.entries, ratio c.successes c.entries, ratio c.entries entries.length⟩

theorem map_name_itemOf (names : List String) :
    (names.map (itemOf entries d)).map RankItem.name = names := by
  rw [List.map_map]
  exact List.map_id'' (fun _ => rfl) names

/-- The first ten of all names in order are a ranking. -/
theorem ranking_take {names : List String} (all : names.Perm (entries.map d.of).dedup)
    (ordered : names.Pairwise (Precedes entries d)) :
    Ranking entries d ((names.take rankLimit).map (itemOf entries d)) := by
  have mem {name : String} : name ∈ names ↔ name ∈ entries.map d.of :=
    all.mem_iff.trans List.mem_dedup
  have each {P : RankItem → Prop} (listed : ∀ name ∈ entries.map d.of, P (itemOf entries d name)) :
      ∀ i ∈ (names.take rankLimit).map (itemOf entries d), P i :=
    List.forall_mem_map.2 fun name first => listed name (mem.1 (List.mem_of_mem_take first))
  constructor
  case length => rw [List.length_map, List.length_take, all.length_eq, rankLimit]
  case names => exact each fun _ occurs => occurs
  case distinct =>
    rw [map_name_itemOf]
    exact (all.nodup_iff.2 (List.nodup_dedup _)).sublist (List.take_sublist _ _)
  case ordered =>
    rw [map_name_itemOf]
    exact ordered.sublist (List.take_sublist _ _)
  case rest =>
    rw [map_name_itemOf]
    rw [← List.take_append_drop rankLimit names, List.pairwise_append] at ordered
    refine List.forall_mem_map.2 fun first listed name occurs left_out => ?_
    refine ordered.2.2 first listed name ?_
    rw [← mem, ← List.take_append_drop rankLimit names, List.mem_append] at occurs
    exact occurs.resolve_left left_out
  case count => exact each fun _ _ => rfl
  -- Neither quotient is one of nothing.
  case successRate => exact each fun _ occurs => ratio_of_pos (length_group_pos occurs) _
  case share =>
    refine each fun name occurs => ratio_of_pos ?_ _
    exact (length_group_pos occurs).trans_le (List.length_filter_le _ _)

/-- **In whatever order the groups are held, what is listed is a ranking.** -/
theorem ranking_listing {order : List (String × Count)} (held : order.Perm (groups entries d)) :
    Ranking entries d (listing order entries.length) := by
  have sorted_perm : (order.mergeSort busier).Perm (groups entries d) :=
    (List.mergeSort_perm _ busier).trans held
  have own {g : String × Count} (member : g ∈ order.mergeSort busier) :
      g.2 = Count.of (group entries d g.1) :=
    ((mem_groups g.1 g.2).1 (sorted_perm.mem_iff.1 member)).2
  have all : ((order.mergeSort busier).map Prod.fst).Perm (entries.map d.of).dedup := by
    have names := (sorted_perm.trans groups_perm).map Prod.fst
    rwa [List.map_map, List.map_id'' (f := Prod.fst ∘ _) fun _ => rfl] at names
  have ordered : ((order.mergeSort busier).map Prod.fst).Pairwise (Precedes entries d) := by
    have sorted := List.pairwise_mergeSort busier_trans busier_total order
    have distinct := List.pairwise_map.1 (all.nodup_iff.2 (List.nodup_dedup _))
    refine List.pairwise_map.2 ((sorted.and distinct).imp_of_mem ?_)
    rintro a b first second ⟨busier, other⟩
    rw [busier_iff, own first, own second] at busier
    exact busier.imp id fun ⟨same, le⟩ => ⟨same, Std.lt_of_le_of_ne le other⟩
  have listed : listing order entries.length =
      (((order.mergeSort busier).map Prod.fst).take rankLimit).map (itemOf entries d) := by
    rw [listing, ← List.map_take, List.map_map]
    refine List.map_congr_left ?_
    rintro ⟨name, c⟩ member
    obtain rfl : c = Count.of (group entries d name) := own (List.mem_of_mem_take member)
    rfl
  rw [listed]
  exact ranking_take all ordered

end

/-- **The busiest groups are listed, in order.** The ranking of any entries lists the ten groups
with most entries, ties in the order of the names, with their exact counts and quotients
(`Ranking`). The counts add up to no more than the number of entries, and to this number if no
group is left out. The same is listed for the entries in any other order, and in whatever order
their groups are held. -/
theorem rank_busiest (entries : List Entry) (d : Dimension) :
    Ranking entries d (rank entries d) ∧
    ((rank entries d).map RankItem.count).sum ≤ entries.length ∧
    ((entries.map d.of).dedup.length ≤ 10 →
      ((rank entries d).map RankItem.count).sum = entries.length) ∧
    ∀ entries' order, entries'.Perm entries → order.Perm (groups entries' d) →
      listing order entries'.length = rank entries d := by
  have ranks : Ranking entries d (rank entries d) := ranking_listing (.refl _)
  refine ⟨ranks, ranks.sum_le, ranks.sum_eq, fun entries' order same held => ?_⟩
  exact ((ranking_listing held).perm same).unique ranks

/-- Two groups of two entries and one of one, held in the opposite order. -/
theorem rank_busiest_ties :
    let entries : List Entry := ["b", "a", "c", "a", "b"].map fun name =>
      { timestamp := ⟨0, 0⟩, model := name, success := name = "a" }
    (entries.map Dimension.model.of).dedup.length ≤ 10 ∧
    (rank entries .model).length = 3 ∧
    ((rank entries .model).map RankItem.count).sum = 5 ∧
    listing (groups entries.reverse .model).reverse 5 = rank entries .model := by
  intro entries
  have few : (entries.map Dimension.model.of).dedup.length ≤ 10 := by decide
  obtain ⟨ranks, -, whole, same⟩ := rank_busiest entries .model
  exact ⟨few, ranks.length, whole few, same _ _ entries.reverse_perm (List.reverse_perm _)⟩

end DialectGateway.Ledger
