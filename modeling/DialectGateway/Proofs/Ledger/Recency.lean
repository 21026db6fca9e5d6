/-
# Proofs.Ledger.Recency — what a count of requests says is what has happened

A count under a clock takes turns: a request begins and gets the next pass, the request with
a pass ends, the rate is read, time goes on (`Turn`). What has happened is read off the turns
alone: when requests began (`begun`) and which passes are still out (`held`).

The window forgets begins, when it is read and when a begin finds it crowded. It forgets them
from the front, and only those that have left the horizon (`Kept`). As begins are in the order
of their times, what a prune leaves is all that is young, whatever was forgotten before
(`Kept.window_prune`). So at every moment of every run the count is exact (`run_tells`).
-/
import DialectGateway.Ledger.Traffic
import Mathlib.Data.List.Induction
import Mathlib.Data.List.Nodup
import Mathlib.Data.List.TakeWhile

set_option autoImplicit false

namespace DialectGateway.Ledger.Traffic

/-! ## What happens -/

inductive Turn where
  | start
  /-- The request that began as this one, counted from 0, ends. -/
  | finish (pass : Nat)
  | read
  | wait (span : Nat)
  deriving DecidableEq, Repr

def Turn.span : Turn → Nat
  | wait span => span
  | _ => 0

/-- The time that turns take. -/
def elapsed : List Turn → Nat
  | [] => 0
  | t :: rest => t.span + elapsed rest

/-- The times of the begins, if the first turn is taken at this time. -/
def begun (now : Nat) : List Turn → List Nat
  | [] => []
  | t :: rest => (if t = .start then [now] else []) ++ begun (now + t.span) rest

/-- The passes that were given out and have not come back. -/
def held (turns : List Turn) : List Nat :=
  (List.range (turns.count .start)).filter fun pass => .finish pass ∉ turns

/-- A pass comes back once, and after it was given out. -/
def Lawful (turns : List Turn) : Prop :=
  ∀ before pass after, turns = before ++ .finish pass :: after → pass ∈ held before

theorem elapsed_append_singleton (turns : List Turn) (t : Turn) :
    elapsed (turns ++ [t]) = elapsed turns + t.span := by
  induction turns with
  | nil => simp [elapsed]
  | cons first rest ih => rw [List.cons_append, elapsed, ih, elapsed, Nat.add_assoc]

theorem begun_append_singleton (now : Nat) (turns : List Turn) (t : Turn) :
    begun now (turns ++ [t]) =
      begun now turns ++ if t = .start then [now + elapsed turns] else [] := by
  induction turns generalizing now with
  | nil => simp [begun, elapsed]
  | cons first rest ih =>
      rw [List.cons_append, begun, ih, begun, List.append_assoc]
      simp [elapsed, Nat.add_assoc]

theorem length_begun (now : Nat) (turns : List Turn) :
    (begun now turns).length = turns.count .start := by
  induction turns generalizing now with
  | nil => rfl
  | cons t rest ih =>
      rw [begun, List.length_append, ih, List.count_cons]
      by_cases starts : t = .start <;> simp [starts, Nat.add_comm]

theorem mem_held {turns : List Turn} {pass : Nat} :
    pass ∈ held turns ↔ pass < turns.count .start ∧ .finish pass ∉ turns := by
  simp [held]

theorem nodup_held (turns : List Turn) : (held turns).Nodup := List.nodup_range.filter _

namespace Lawful

variable {turns : List Turn}

theorem of_append {more : List Turn} (lawful : Lawful (turns ++ more)) : Lawful turns := by
  intro before pass after same
  refine lawful before pass (after ++ more) ?_
  rw [same, List.append_assoc]
  rfl

theorem last {pass : Nat} (lawful : Lawful (turns ++ [.finish pass])) : pass ∈ held turns :=
  lawful turns pass [] rfl

theorem of_unfinished (none_ : ∀ pass, .finish pass ∉ turns) : Lawful turns := by
  rintro before pass after rfl
  exact absurd (List.mem_append_right before List.mem_cons_self) (none_ pass)

theorem append_singleton (lawful : Lawful turns) {t : Turn}
    (out : ∀ pass, t = .finish pass → pass ∈ held turns) : Lawful (turns ++ [t]) := by
  intro before pass after same
  rcases List.eq_nil_or_concat after with rfl | ⟨tail, final, rfl⟩
  · obtain ⟨rfl, last⟩ := List.append_inj' same rfl
    exact out pass (List.singleton_inj.1 last)
  · rw [List.concat_eq_append, ← List.cons_append, ← List.append_assoc] at same
    obtain ⟨rfl, _⟩ := List.append_inj' same rfl
    exact lawful before pass tail rfl

/-- No pass comes back that was not given out. -/
theorem lt_count (lawful : Lawful turns) {pass : Nat} (back : .finish pass ∈ turns) :
    pass < turns.count .start := by
  obtain ⟨before, after, rfl⟩ := List.append_of_mem back
  have out := (mem_held.1 (lawful before pass after rfl)).1
  rw [List.count_append]
  omega

theorem held_start (lawful : Lawful turns) :
    (held (turns ++ [.start])).length = (held turns).length + 1 := by
  have new : .finish (turns.count .start) ∉ turns := fun back =>
    absurd (lawful.lt_count back) (Nat.lt_irrefl _)
  simp [held, List.range_succ, new]

theorem held_finish {pass : Nat} (lawful : Lawful (turns ++ [.finish pass])) :
    (held (turns ++ [.finish pass])).length + 1 = (held turns).length := by
  have out := lawful.last
  have left : held (turns ++ [.finish pass]) = (held turns).erase pass := by
    rw [(nodup_held turns).erase_eq_filter, held, held, List.filter_filter]
    simp [and_comm, bne, beq_eq_decide]
  rw [left, List.length_erase_of_mem out]
  have := List.length_pos_of_mem out
  omega

end Lawful

theorem held_other (turns : List Turn) {t : Turn} (starts : t ≠ .start)
    (ends : ∀ pass, t ≠ .finish pass) : held (turns ++ [t]) = held turns := by
  have count : (turns ++ [t]).count .start = turns.count .start := by
    simp [List.count_append, starts]
  simp [held, count, (ends _).symm]

/-! ## What a count remembers -/

/-- If what follows a young element is young, all that is old is at the front. -/
theorem dropWhile_eq_filter {A : Type} {old : A → Bool} {as : List A}
    (ordered : as.Pairwise fun a b => old b = true → old a = true) :
    as.dropWhile old = as.filter (!old ·) := by
  induction as with
  | nil => rfl
  | cons a rest ih =>
      obtain ⟨first, later⟩ := List.pairwise_cons.1 ordered
      cases aged : old a with
      | true =>
          rw [List.dropWhile_cons_of_pos aged, ih later]
          simp [aged]
      | false =>
          have young : ∀ b ∈ rest, (!old b) = true := by
            intro b member
            rw [Bool.not_eq_true', Bool.eq_false_iff]
            intro aged'
            exact absurd (first b member aged') (by simp [aged])
          rw [List.dropWhile_cons_of_neg (by simp [aged]), List.filter_cons_of_pos (by simp [aged]),
            List.filter_eq_self.2 young]

/-- Of begins at these times a count remembers how many they are, and all that have not left
the horizon. -/
structure Kept (t : Traffic) (now : Nat) (times : List Nat) : Prop where
  total : t.total = times.length
  window : ∃ forgotten, times = forgotten ++ t.window ∧ ∀ time ∈ forgotten, t.horizon ≤ now - time
  ordered : times.Pairwise (· ≤ ·)
  past : ∀ time ∈ times, time ≤ now

namespace Kept

variable {t : Traffic} {now : Nat} {times : List Nat}

theorem fresh (horizon now : Nat) : Kept { horizon } now [] :=
  ⟨rfl, ⟨[], rfl, by simp⟩, List.Pairwise.nil, by simp⟩

/-- **What a prune leaves is all that is young.** -/
theorem window_prune (kept : Kept t now times) :
    (t.prune now).window = times.filter fun time => now - time < t.horizon := by
  obtain ⟨forgotten, rfl, old⟩ := kept.window
  have ordered := (List.pairwise_append.1 kept.ordered).2.1
  have front : t.window.Pairwise fun a b =>
      decide (t.horizon ≤ now - b) = true → decide (t.horizon ≤ now - a) = true := by
    refine ordered.imp ?_
    intro a b before aged
    rw [decide_eq_true_eq] at aged ⊢
    omega
  have none_ : forgotten.filter (fun time => now - time < t.horizon) = [] := by
    rw [List.filter_eq_nil_iff]
    intro time member
    simpa using old time member
  rw [List.filter_append, none_, List.nil_append, prune, dropWhile_eq_filter front]
  simp [← decide_not]

/-- Pruning forgets what has left the horizon, and it is never missed. -/
theorem prune (kept : Kept t now times) : Kept (t.prune now) now times := by
  obtain ⟨forgotten, same, old⟩ := kept.window
  refine ⟨kept.total, ⟨forgotten ++ t.window.takeWhile fun time => t.horizon ≤ now - time, ?_, ?_⟩,
    kept.ordered, kept.past⟩
  · rw [List.append_assoc, Traffic.prune, List.takeWhile_append_dropWhile]
    exact same
  · intro time member
    rcases List.mem_append.1 member with before | late
    · exact old time before
    · have aged := List.mem_takeWhile_imp late
      exact of_decide_eq_true aged

/-- **A begin is remembered**, whether or not the window is pruned on the way. -/
theorem start (kept : Kept t now times) : Kept (t.start now) now (times ++ [now]) := by
  obtain ⟨forgotten, same, old⟩ := kept.window
  have grown : Kept
      { t with total := t.total + 1, balance := t.balance + 1, window := t.window ++ [now] }
      now (times ++ [now]) := by
    refine ⟨?_, ⟨forgotten, ?_, old⟩, ?_, ?_⟩
    · rw [List.length_append, ← kept.total]
      rfl
    · rw [← List.append_assoc, ← same]
    · refine List.pairwise_append.2 ⟨kept.ordered, List.pairwise_singleton _ _, ?_⟩
      intro time member last new
      rw [List.mem_singleton.1 new]
      exact kept.past time member
    · intro time member
      rcases List.mem_append.1 member with before | new
      · exact kept.past time before
      · exact Nat.le_of_eq (List.mem_singleton.1 new)
  rw [Traffic.start]
  simp only
  split
  · exact grown.prune
  · exact grown

theorem finish (kept : Kept t now times) : Kept t.finish now times :=
  ⟨kept.total, kept.window, kept.ordered, kept.past⟩

/-- What is too old stays too old. -/
theorem wait (kept : Kept t now times) (span : Nat) : Kept t (now + span) times := by
  obtain ⟨forgotten, same, old⟩ := kept.window
  refine ⟨kept.total, ⟨forgotten, same, ?_⟩, kept.ordered, ?_⟩
  · intro time member
    have := old time member
    omega
  · intro time member
    exact Nat.le_trans (kept.past time member) (Nat.le_add_right now span)

end Kept

theorem start_horizon (t : Traffic) (now : Nat) : (t.start now).horizon = t.horizon := by
  rw [start]
  simp only
  split <;> rfl

/-! ## Runs -/

/-- A count and the time. -/
structure Watch where
  traffic : Traffic
  now : Nat
  deriving Repr

namespace Watch

def step (w : Watch) : Turn → Watch
  | .start => { w with traffic := w.traffic.start w.now }
  | .finish _ => { w with traffic := w.traffic.finish }
  | .read => { w with traffic := (w.traffic.recent w.now).2 }
  | .wait span => { w with now := w.now + span }

def run (w : Watch) (turns : List Turn) : Watch := turns.foldl step w

/-- A new count. -/
def fresh (horizon now : Nat) : Watch := ⟨{ horizon }, now⟩

theorem run_append (w : Watch) (turns more : List Turn) :
    w.run (turns ++ more) = (w.run turns).run more := List.foldl_append

/-- The count never falls. -/
theorem total_step (w : Watch) (t : Turn) : w.traffic.total ≤ (w.step t).traffic.total := by
  cases t with
  | start =>
      show w.traffic.total ≤ (w.traffic.start w.now).total
      rw [(start_counts w.traffic w.now).1]
      exact Nat.le_succ _
  | finish | read | wait => exact Nat.le_refl _

theorem total_run (w : Watch) (turns : List Turn) :
    w.traffic.total ≤ (w.run turns).traffic.total := by
  induction turns generalizing w with
  | nil => exact Nat.le_refl _
  | cons t rest ih => exact Nat.le_trans (w.total_step t) (ih (w.step t))

end Watch

/-- What a count knows after turns taken from a time on. -/
structure Watched (horizon start : Nat) (turns : List Turn) (w : Watch) : Prop where
  now : w.now = start + elapsed turns
  horizon : w.traffic.horizon = horizon
  kept : Kept w.traffic w.now (begun start turns)
  balance : w.traffic.balance = (held turns).length

namespace Watched

variable {horizon start : Nat} {turns : List Turn} {w : Watch}

theorem fresh (horizon start : Nat) : Watched horizon start [] (Watch.fresh horizon start) :=
  ⟨rfl, rfl, Kept.fresh horizon start, rfl⟩

/-- **A turn is watched**, if it gives back no pass but one that is out. -/
theorem step (watched : Watched horizon start turns w) {t : Turn}
    (lawful : Lawful (turns ++ [t])) : Watched horizon start (turns ++ [t]) (w.step t) := by
  obtain ⟨now, same, kept, balance⟩ := watched
  cases t with
  | start =>
      refine ⟨?_, (start_horizon _ _).trans same, ?_, ?_⟩
      · rw [elapsed_append_singleton]
        exact now
      · rw [begun_append_singleton, if_pos rfl, ← now]
        exact kept.start
      · show (w.traffic.start w.now).balance = _
        rw [(start_counts w.traffic w.now).2, balance, lawful.of_append.held_start]
        rfl
  | finish pass =>
      refine ⟨?_, same, ?_, ?_⟩
      · rw [elapsed_append_singleton]
        exact now
      · rw [begun_append_singleton, if_neg (by simp), List.append_nil]
        exact kept.finish
      · show w.traffic.balance - 1 = _
        rw [balance, ← lawful.held_finish]
        omega
  | read =>
      refine ⟨?_, same, ?_, ?_⟩
      · rw [elapsed_append_singleton]
        exact now
      · rw [begun_append_singleton, if_neg (by simp), List.append_nil]
        exact kept.prune
      · rw [held_other turns (by simp) (by simp)]
        exact balance
  | wait span =>
      refine ⟨?_, same, ?_, ?_⟩
      · show w.now + span = _
        rw [elapsed_append_singleton, now, Nat.add_assoc]
        rfl
      · rw [begun_append_singleton, if_neg (by simp), List.append_nil]
        exact kept.wait span
      · rw [held_other turns (by simp) (by simp)]
        exact balance

theorem run (horizon start : Nat) {turns : List Turn} (lawful : Lawful turns) :
    Watched horizon start turns ((Watch.fresh horizon start).run turns) := by
  induction turns using List.reverseRecOn with
  | nil => exact fresh horizon start
  | append_singleton turns t ih =>
      rw [Watch.run_append]
      exact (ih lawful.of_append).step lawful

end Watched

/-- What a count says at a moment, after these turns, is what has happened. -/
structure Tells (horizon start : Nat) (turns : List Turn) (w : Watch) : Prop where
  now : w.now = start + elapsed turns
  active : w.traffic.active = (held turns).length
  /-- The balance is never below zero. -/
  balance : w.traffic.balance = w.traffic.active
  total : w.traffic.total = turns.count .start
  recent : (w.traffic.recent w.now).1 =
    (begun start turns).countP fun time => w.now - time < horizon

theorem Watched.tells {horizon start : Nat} {turns : List Turn} {w : Watch}
    (watched : Watched horizon start turns w) : Tells horizon start turns w where
  now := watched.now
  active := by rw [active, watched.balance, Int.toNat_natCast]
  balance := by rw [active, watched.balance, Int.toNat_natCast]
  total := by rw [watched.kept.total, length_begun]
  recent := by
    show (w.traffic.prune w.now).window.length = _
    rw [watched.kept.window_prune, watched.horizon, List.countP_eq_length_filter]

/-- **A count is exact at every moment of every run** in which passes come back once: in what is
active, in all that has begun, which never falls, and in what has begun within the horizon. -/
theorem run_tells (horizon start : Nat) {turns : List Turn} (lawful : Lawful turns)
    (before after : List Turn) (moment : turns = before ++ after) :
    Tells horizon start before ((Watch.fresh horizon start).run before) ∧
      ((Watch.fresh horizon start).run before).traffic.total ≤
        ((Watch.fresh horizon start).run turns).traffic.total := by
  subst moment
  refine ⟨(Watched.run horizon start lawful.of_append).tells, ?_⟩
  rw [Watch.run_append]
  exact Watch.total_run _ _

theorem begun_replicate (now n : Nat) :
    begun now (List.replicate n .start) = List.replicate n now := by
  induction n with
  | zero => rfl
  | succ n ih => exact congrArg (now :: ·) ih

theorem elapsed_replicate (n : Nat) : elapsed (List.replicate n .start) = 0 := by
  induction n with
  | zero => rfl
  | succ n ih => simp [List.replicate_succ, elapsed, ih, Turn.span]

/-- A request, a minute without any, and then many at once. -/
def rush (n : Nat) : List Turn := .start :: .wait 60 :: List.replicate n .start

theorem count_rush (n : Nat) : (rush n).count .start = n + 1 := by
  simp [rush]

theorem unfinished_rush (n pass : Nat) : .finish pass ∉ rush n := by
  simp [rush]

theorem held_rush (n : Nat) : held (rush n) = List.range (n + 1) := by
  rw [held, count_rush, List.filter_eq_self]
  intro pass _
  simpa using unfinished_rush n pass

theorem lawful_rush (n : Nat) : Lawful (rush n ++ [.finish 0]) := by
  refine (Lawful.of_unfinished (unfinished_rush n)).append_singleton ?_
  rintro pass ⟨⟩
  simp [held_rush]

theorem begun_rush (n : Nat) : begun 0 (rush n ++ [.finish 0]) = 0 :: List.replicate n 60 := by
  rw [begun_append_singleton]
  exact (List.append_nil _).trans (congrArg (0 :: ·) (begun_replicate 60 n))

/-- The last begin of a rush finds the window crowded and forgets the first request, which is old
by then. What is read is the same. -/
theorem run_tells_rush : Lawful (rush softLimit ++ [.finish 0]) ∧
    ∃ w, w = (Watch.fresh 60 0).run (rush softLimit ++ [.finish 0]) ∧
      w.traffic.active = softLimit ∧ w.traffic.total = softLimit + 1 ∧
      (w.traffic.recent w.now).1 = softLimit := by
  have lawful := lawful_rush softLimit
  obtain ⟨tells, -⟩ := run_tells 60 0 lawful _ [] (List.append_nil _).symm
  refine ⟨lawful, _, rfl, ?_, ?_, ?_⟩
  · have ended := lawful.held_finish
    rw [held_rush, List.length_range] at ended
    rw [tells.active]
    exact Nat.add_right_cancel ended
  · rw [tells.total, List.count_append, count_rush]
    rfl
  · rw [tells.recent, tells.now, elapsed_append_singleton, begun_rush]
    generalize softLimit = n
    simp [elapsed, rush, elapsed_replicate, Turn.span, List.countP_replicate]

end DialectGateway.Ledger.Traffic
