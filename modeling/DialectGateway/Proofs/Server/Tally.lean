/-
# Proofs.Server.Tally — the counts say what the entries say

Every recorded request is counted and leaves an entry, and the two agree. `Tallied`
says of counts that they count given notes, `Tallied.note` that one more note keeps
that. Read against the entries, the counter of completed requests is the number of
successful entries (`Tallied.completed`), the other counters together are the number of
the rest (`Tallied.others`), and as many times to a first byte were observed as entries
have one (`Tallied.firstBytes`).
-/
import DialectGateway.Server.Generation

set_option autoImplicit false

namespace DialectGateway

/-! ## Endings -/

namespace Delivery.Ending

/-- The label, the message and the success of an ending agree. -/
structure Sound (e : Ending) : Prop where
  label : e.label = "completed" ↔ e.success = true
  message : e.message = none ↔ e.success = true

theorem sound_completed (o : Origin) (isStream : Bool) : (completed o isStream).Sound :=
  ⟨by simp [completed, Outcome.label], by simp [completed]⟩

theorem sound_failed (o : Origin) (isStream : Bool) (f : Failure) :
    (failed o isStream f.label f.message).Sound := by
  refine ⟨?_, by simp [failed]⟩
  show f.label = "completed" ↔ false = true
  cases f <;> simp [Failure.label]

theorem sound_delivered (o : Origin) (outcome : Outcome) (written : Nat) :
    (delivered o outcome written).Sound := by
  refine ⟨?_, outcome.message?_eq_none_iff⟩
  show outcome.label = "completed" ↔ outcome.isSuccess = true
  cases outcome <;> simp [Outcome.label, Outcome.isSuccess]

end Delivery.Ending

namespace Server

open Delivery (Ending Timing)
open Ledger (Entry)
open Metrics (Counts)

/-- A request whose end has been recorded, by its number. -/
structure Note where
  request : Nat
  ending : Ending
  timing : Timing

namespace Note

def entry (n : Note) : Entry := n.ending.entry n.timing

def key (n : Note) : List String :=
  Counts.requestKey n.ending.origin.dialect.name n.ending.isStream n.ending.label

end Note

/-- The entries of notes. -/
def entriesOf (notes : List Note) : List Entry := notes.map Note.entry

/-! ## Counters -/

/-- How many requests have ended under a key. -/
def counter (c : Counts) (key : List String) : Nat := Keyed.value key 0 c.requests

/-- How many requests of a dialect, streamed or not, have ended in another way than
completed. -/
def otherCounters (c : Counts) (d : Dialect) (isStream : Bool) : Nat :=
  Keyed.sumWhere
    (fun key => key.tail == [d.name, Counts.flag isStream] && key.head? != some "completed")
    c.requests

/-- How many times to a first byte have been observed in a dialect. -/
def firstBytes (c : Counts) (dialect : String) : Nat :=
  (Keyed.value dialect {} c.firstByte).count

/-- The counts count the notes, whatever one asks them. -/
structure Tallied (c : Counts) (notes : List Note) : Prop where
  ascending : Keyed.Ascending c.requests
  counter : ∀ key, counter c key = notes.countP fun n => n.key == key
  sums : ∀ p, Keyed.sumWhere p c.requests = notes.countP fun n => p n.key
  firsts : ∀ name, Server.firstBytes c name = notes.countP fun n =>
    n.ending.origin.dialect.name == name && n.entry.firstByteMs.isSome

theorem requests_count (e : Ending) (t : Timing) (c : Counts) :
    (e.count t c).requests = Keyed.adjust
      (Counts.requestKey e.origin.dialect.name e.isStream e.label) 0 (· + 1) c.requests := by
  unfold Ending.count
  cases e.frames <;> cases e.firstByteMs t <;> rfl

theorem firstBytes_count (e : Ending) (t : Timing) (c : Counts) (name : String) :
    firstBytes (e.count t c) name = firstBytes c name +
      if e.origin.dialect.name == name && (e.firstByteMs t).isSome then 1 else 0 := by
  have only : (e.count t c).firstByte = (e.firstByteMs t).elim c.firstByte fun ms =>
      Keyed.adjust e.origin.dialect.name {} (·.observe (Ending.seconds ms)) c.firstByte := by
    unfold Ending.count
    cases e.frames <;> cases e.firstByteMs t <;> rfl
  rw [firstBytes, only]
  cases e.firstByteMs t with
  | none =>
      rw [Option.isSome_none, Bool.and_false]
      rfl
  | some ms =>
      rw [Option.elim_some]
      by_cases same : e.origin.dialect.name = name
      · subst same
        simp only [Keyed.value_adjust_self, firstBytes, BEq.rfl, Option.isSome_some, Bool.and_self,
          if_true]
        rfl
      · have other : (e.origin.dialect.name == name) = false := by simpa using same
        simp only [Keyed.value_adjust_ne (Ne.symm same), firstBytes, other, Bool.false_and,
          Bool.false_eq_true, if_false, Nat.add_zero]

namespace Tallied

variable {c : Counts} {notes : List Note}

theorem fresh : Tallied {} [] where
  ascending := List.Pairwise.nil
  counter _ := rfl
  sums _ := rfl
  firsts _ := rfl

/-- **A recorded request is counted once.** -/
theorem note (tallied : Tallied c notes) (n : Note) :
    Tallied (n.ending.count n.timing c) (notes ++ [n]) where
  ascending := by
    rw [requests_count]
    exact Keyed.ascending_adjust tallied.ascending _ _ _
  counter key := by
    rw [List.countP_append, List.countP_singleton, ← tallied.counter key, Server.counter,
      requests_count]
    by_cases same : n.key = key
    · subst same
      rw [BEq.rfl, if_pos rfl]
      exact Keyed.value_adjust_self _ 0 _ _
    · have other : (n.key == key) = false := by simpa using same
      rw [other, if_neg Bool.false_ne_true]
      exact Keyed.value_adjust_ne (Ne.symm same) 0 _ _
  sums p := by
    rw [List.countP_append, List.countP_singleton, ← tallied.sums p, requests_count]
    exact Keyed.sumWhere_adjust p tallied.ascending _ _
  firsts name := by
    rw [List.countP_append, List.countP_singleton, ← tallied.firsts name]
    exact firstBytes_count n.ending n.timing c name

theorem perm (tallied : Tallied c notes) {notes' : List Note} (same : notes.Perm notes') :
    Tallied c notes' where
  ascending := tallied.ascending
  counter key := (tallied.counter key).trans (same.countP_eq _)
  sums p := (tallied.sums p).trans (same.countP_eq _)
  firsts name := (tallied.firsts name).trans (same.countP_eq _)

/-- What is shown of the requests in flight is not a count. -/
theorem setActive (tallied : Tallied c notes) (n : Int) : Tallied (c.setActive n) notes :=
  ⟨tallied.ascending, tallied.counter, tallied.sums, tallied.firsts⟩

/-! ## Counters and entries -/

theorem tail_key_eq_iff (n : Note) (d : Dialect) (isStream : Bool) :
    n.key.tail = [d.name, Counts.flag isStream] ↔
      n.entry.dialect = d ∧ n.entry.isStream = isStream := by
  show [n.ending.origin.dialect.name, Counts.flag n.ending.isStream] = _ ↔
    n.ending.origin.dialect = d ∧ n.ending.isStream = isStream
  rw [List.cons.injEq, List.cons.injEq]
  refine and_congr Dialect.name_inj ?_
  cases n.ending.isStream <;> cases isStream <;> simp [Counts.flag]

/-- As many entries are successful as requests were counted completed. -/
theorem completed (tallied : Tallied c notes) (sound : ∀ n ∈ notes, n.ending.Sound) (d : Dialect)
    (isStream : Bool) :
    Server.counter c (Counts.requestKey d.name isStream "completed") =
      (entriesOf notes).countP fun e => e.dialect == d && e.isStream == isStream && e.success := by
  rw [tallied.counter, entriesOf, List.countP_map]
  apply List.countP_congr
  intro n member
  have split_ : n.key = Counts.requestKey d.name isStream "completed" ↔
      n.ending.label = "completed" ∧ n.key.tail = [d.name, Counts.flag isStream] :=
    List.cons.injEq .. ▸ Iff.rfl
  simp only [beq_iff_eq, split_, tail_key_eq_iff, (sound n member).label, Function.comp_apply,
    Bool.and_eq_true]
  exact and_comm

/-- As many entries are not successful as requests were counted under another outcome. -/
theorem others (tallied : Tallied c notes) (sound : ∀ n ∈ notes, n.ending.Sound) (d : Dialect)
    (isStream : Bool) :
    otherCounters c d isStream =
      (entriesOf notes).countP fun e => e.dialect == d && e.isStream == isStream && !e.success := by
  rw [otherCounters, tallied.sums, entriesOf, List.countP_map]
  apply List.countP_congr
  intro n member
  have label : n.key.head? = some n.ending.label := rfl
  have failed : n.ending.label ≠ "completed" ↔ n.ending.success = false := by
    rw [Ne, (sound n member).label, Bool.not_eq_true]
  simp only [Bool.and_eq_true, beq_iff_eq, bne_iff_ne, label, Option.some.injEq, tail_key_eq_iff,
    failed, Function.comp_apply, ne_eq, Bool.not_eq_true']
  exact Iff.rfl

theorem firstBytes (tallied : Tallied c notes) (d : Dialect) :
    Server.firstBytes c d.name =
      (entriesOf notes).countP fun e => e.dialect == d && e.firstByteMs.isSome := by
  rw [tallied.firsts, entriesOf, List.countP_map]
  apply List.countP_congr
  intro n _
  have same : n.ending.origin.dialect.name = d.name ↔ n.entry.dialect = d := Dialect.name_inj
  simp only [Bool.and_eq_true, beq_iff_eq, same, Function.comp_apply]

end Tallied
end Server
end DialectGateway
