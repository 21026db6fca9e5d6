/-
# Proofs.Ledger.Order — entries are written in the order in which they were accepted

A pipeline is told of in three lists: the commands that entered its queue, the commands
that its writer obeyed, and the entries that were stored. The queue is what has entered
and not been obeyed, and the buffer is what has been obeyed and not been stored, so that
nothing is lost or told twice, whatever turns are taken in whatever order (`Ordered`).
Behind an answered flush request nothing is left in the buffer, so everything that entered
before the request has been stored.

`Store.pushAll_ofCapacity` says what the store makes of the entries it is given: the last
of them, each under its number. `run_keeps_order` puts both together.
-/
import DialectGateway.Proofs.Ledger.Holding
import Mathlib.Data.List.Induction

set_option autoImplicit false

namespace DialectGateway.Ledger

/-! ## What a store keeps -/

/-- Entries under their numbers, from 1. -/
def numbered (es : List Entry) : List Entry := es.mapIdx fun n e => { e with id := n + 1 }

theorem length_numbered (es : List Entry) : (numbered es).length = es.length := List.length_mapIdx

theorem numbered_append_singleton (es : List Entry) (e : Entry) :
    numbered (es ++ [e]) = numbered es ++ [{ e with id := es.length + 1 }] := List.mapIdx_concat

namespace Store

theorem pushAll_append (s : Store) (es more : List Entry) :
    s.pushAll (es ++ more) = (s.pushAll es).pushAll more := List.foldl_append

/-- **A store keeps the last of the entries it was given**, as many as it has room for, each under
its number among all of them. -/
theorem pushAll_ofCapacity (capacity : Nat) (es : List Entry) :
    (ofCapacity capacity).pushAll es =
      { capacity := max capacity 1
        stored := es.length
        entries := (numbered es).drop (es.length - max capacity 1) } := by
  have some_ : 1 ≤ max capacity 1 := Nat.le_max_right capacity 1
  induction es using List.reverseRecOn with
  | nil => simp [pushAll, ofCapacity, numbered]
  | append_singleton es e ih =>
      rw [pushAll_append, ih]
      generalize max capacity 1 = room at some_
      have kept : (if room ≤ ((numbered es).drop (es.length - room)).length
            then ((numbered es).drop (es.length - room)).drop 1
            else (numbered es).drop (es.length - room)) =
          (numbered es).drop (es.length + 1 - room) := by
        rw [List.length_drop, length_numbered, List.drop_drop]
        split <;> congr 1 <;> omega
      have within : es.length + 1 - room ≤ (numbered es).length := by
        rw [length_numbered]
        omega
      show push _ e = _
      simp only [push, kept, numbered_append_singleton, List.length_append, List.length_singleton,
        List.drop_append_of_le_length within]

end Store

/-! ## What a pipeline is told of -/

def Command.isFlush : Command → Bool
  | .record _ => false
  | .flush => true

/-- The entries that commands bring. -/
def entriesOf (commands : List Command) : List Entry := commands.filterMap Command.entry?

theorem entriesOf_append (commands more : List Command) :
    entriesOf (commands ++ more) = entriesOf commands ++ entriesOf more := List.filterMap_append

namespace Pipeline

/-- The commands that enter the queue in a turn. -/
def enters (p : Pipeline) : Turn → List Command
  | .log e => if p.hasRoom then [.record e] else []
  | .askFlush => if p.hasRoom then [.flush] else []
  | .tick | .take => []

/-- The commands that the writer obeys in a turn. -/
def obeys (p : Pipeline) : Turn → List Command
  | .take => p.queue.head?.toList
  | .log _ | .askFlush | .tick => []

/-- The entries that are stored in a turn. -/
def stores (p : Pipeline) : Turn → List Entry
  | .tick => p.buffer
  | .take =>
    match p.queue with
    | .record e :: _ => if p.batchSize ≤ p.buffer.length + 1 then p.buffer ++ [e] else []
    | .flush :: _ => p.buffer
    | [] => []
  | .log _ | .askFlush => []

/-- What is told of a run, turn by turn. -/
def tell {A : Type} (say : Pipeline → Turn → List A) (p : Pipeline) : List Turn → List A
  | [] => []
  | t :: rest => say p t ++ tell say (p.step t) rest

/-- The entries that were logged and found room, in order. -/
def accepted (p : Pipeline) (turns : List Turn) : List Entry := entriesOf (p.tell enters turns)

/-- The entries that were stored, in order. -/
def written (p : Pipeline) (turns : List Turn) : List Entry := p.tell stores turns

/-- How many flush requests found room. -/
def asked (p : Pipeline) (turns : List Turn) : Nat := (p.tell enters turns).countP Command.isFlush

theorem tell_append {A : Type} (say : Pipeline → Turn → List A) (p : Pipeline)
    (turns more : List Turn) :
    p.tell say (turns ++ more) = p.tell say turns ++ (p.run turns).tell say more := by
  induction turns generalizing p with
  | nil => rfl
  | cons t rest ih =>
      rw [List.cons_append, tell, tell, ih, List.append_assoc]
      rfl

theorem tell_append_singleton {A : Type} (say : Pipeline → Turn → List A) (p : Pipeline)
    (turns : List Turn) (t : Turn) :
    p.tell say (turns ++ [t]) = p.tell say turns ++ say (p.run turns) t := by
  rw [tell_append, tell, tell, List.append_nil]

theorem run_append_singleton (p : Pipeline) (turns : List Turn) (t : Turn) :
    p.run (turns ++ [t]) = (p.run turns).step t := List.foldl_append

/-! ## One turn -/

theorem queue_step (p : Pipeline) (t : Turn) :
    p.queue ++ p.enters t = p.obeys t ++ (p.step t).queue := by
  cases t with
  | log e | askFlush =>
      simp only [enters, obeys, step]
      split <;> simp
  | tick => simp [enters, obeys, step, write]
  | take =>
      simp only [enters, obeys, step]
      cases queue : p.queue with
      | nil => simp [queue]
      | cons command rest =>
          cases command with
          | record e =>
              simp only [obey]
              split <;> simp [write]
          | flush => simp [obey, write]

theorem buffer_step (p : Pipeline) (t : Turn) :
    p.buffer ++ entriesOf (p.obeys t) = p.stores t ++ (p.step t).buffer := by
  cases t with
  | log e | askFlush =>
      simp only [obeys, stores, step]
      split <;> simp [entriesOf]
  | tick => simp [obeys, stores, step, write, entriesOf]
  | take =>
      simp only [obeys, stores, step]
      cases p.queue with
      | nil => simp [entriesOf]
      | cons command rest =>
          cases command with
          | record e =>
              simp only [obey, List.length_append, List.length_singleton]
              split <;> simp [write, entriesOf, Command.entry?]
          | flush => simp [obey, write, entriesOf, Command.entry?]

theorem store_step (p : Pipeline) (t : Turn) : (p.step t).store = p.store.pushAll (p.stores t) := by
  cases t with
  | log e | askFlush =>
      simp only [stores, step]
      split <;> rfl
  | tick => rfl
  | take =>
      simp only [stores, step]
      cases p.queue with
      | nil => rfl
      | cons command rest =>
          cases command with
          | record e =>
              simp only [obey, List.length_append, List.length_singleton]
              split <;> rfl
          | flush => rfl

theorem answered_step (p : Pipeline) (t : Turn) :
    (p.step t).answered = p.answered + (p.obeys t).countP Command.isFlush := by
  cases t with
  | log e | askFlush =>
      simp only [obeys, step]
      split <;> rfl
  | tick => rfl
  | take =>
      simp only [obeys, step]
      cases p.queue with
      | nil => rfl
      | cons command rest =>
          cases command with
          | record e =>
              simp only [obey]
              split <;> rfl
          | flush => rfl

/-- A flush request is answered over an empty buffer. -/
theorem buffer_of_obeys_flush {p : Pipeline} {t : Turn} (flush : p.obeys t = [.flush]) :
    (p.step t).buffer = [] := by
  cases t with
  | log e | askFlush | tick => exact absurd flush (by simp [obeys])
  | take =>
      rw [obeys, step] at *
      cases queue : p.queue with
      | nil => exact absurd flush (by simp [queue])
      | cons command rest =>
          obtain rfl : command = .flush := by simpa [queue] using flush
          rfl

theorem obeys_eq (p : Pipeline) (t : Turn) : p.obeys t = [] ∨ ∃ command, p.obeys t = [command] := by
  cases t with
  | log e | askFlush | tick => exact .inl rfl
  | take =>
      rw [obeys]
      cases p.queue.head? with
      | none => exact .inl rfl
      | some command => exact .inr ⟨command, rfl⟩

/-! ## Every run -/

/-- The commands that entered were obeyed or wait, and the entries that the obeyed ones brought
were stored or are in the buffer, all in order. Whatever was obeyed before an answered flush
request has been stored. -/
structure Ordered (p : Pipeline) (entered obeyed : List Command) (written : List Entry) :
    Prop where
  queue : entered = obeyed ++ p.queue
  buffer : entriesOf obeyed = written ++ p.buffer
  answered : p.answered = obeyed.countP Command.isFlush
  flushed : ∀ before after, obeyed = before ++ .flush :: after → entriesOf before <+: written

namespace Ordered

variable {p : Pipeline} {entered obeyed : List Command} {written : List Entry}

theorem ofSizes (capacity queueCapacity batchSize : Nat) :
    Ordered (Pipeline.ofSizes capacity queueCapacity batchSize) [] [] [] where
  queue := rfl
  buffer := rfl
  answered := rfl
  flushed := by simp

theorem step (ordered : Ordered p entered obeyed written) (t : Turn) :
    Ordered (p.step t) (entered ++ p.enters t) (obeyed ++ p.obeys t) (written ++ p.stores t) where
  queue := by
    rw [ordered.queue, List.append_assoc, queue_step, List.append_assoc]
  buffer := by
    rw [entriesOf_append, ordered.buffer, List.append_assoc, buffer_step, List.append_assoc]
  answered := by
    rw [answered_step, ordered.answered, List.countP_append]
  flushed := by
    intro before after split
    have kept (before after : List Command) (old : obeyed = before ++ .flush :: after) :
        entriesOf before <+: written ++ p.stores t :=
      (ordered.flushed before after old).trans (List.prefix_append _ _)
    rcases p.obeys_eq t with none | ⟨command, one⟩
    · rw [none, List.append_nil] at split
      exact kept before after split
    · rw [one] at split
      -- The request was obeyed before this turn, or it is what is obeyed now.
      rcases List.eq_nil_or_concat after with rfl | ⟨after, last, rfl⟩
      · obtain ⟨rfl, now⟩ := List.append_inj' split rfl
        have nothing := buffer_of_obeys_flush (one.trans now)
        have all := p.buffer_step t
        rw [one, now, nothing, List.append_nil] at all
        rw [ordered.buffer, ← all]
        exact ⟨[], by simp [entriesOf, Command.entry?]⟩
      · have cut : obeyed ++ [command] = (before ++ .flush :: after) ++ [last] := by
          rw [split]
          simp
        exact kept before after (List.append_inj' cut rfl).1

theorem run (ordered : Ordered p [] [] []) (turns : List Turn) :
    Ordered (p.run turns) (p.tell enters turns) (p.tell obeys turns) (p.tell stores turns) := by
  induction turns using List.reverseRecOn with
  | nil => exact ordered
  | append_singleton turns t ih =>
      simp only [tell_append_singleton, run_append_singleton]
      exact ih.step t

/-- What has entered was stored, or is in the buffer, or waits. -/
theorem entriesOf_entered (ordered : Ordered p entered obeyed written) :
    entriesOf entered = written ++ p.buffer ++ p.queued := by
  rw [ordered.queue, entriesOf_append, ordered.buffer]
  rfl

/-- Requests are answered in the order in which they entered, so when more requests have been
answered than had entered before this one, this one has been answered. -/
theorem entriesOf_before (ordered : Ordered p entered obeyed written) {before after : List Command}
    (placed : entered = before ++ .flush :: after)
    (answered : before.countP Command.isFlush < p.answered) : entriesOf before <+: written := by
  rw [ordered.answered] at answered
  rw [ordered.queue] at placed
  rcases List.append_eq_append_iff.1 placed with ⟨more, rfl, _⟩ | ⟨more, rfl, rest⟩
  · rw [List.countP_append] at answered
    omega
  · cases more with
    | nil =>
        rw [List.append_nil] at answered
        exact absurd answered (Nat.lt_irrefl _)
    | cons command more =>
        obtain ⟨rfl, _⟩ := List.cons.inj rest
        exact ordered.flushed before more rfl

end Ordered

theorem store_run (p : Pipeline) (turns : List Turn) :
    (p.run turns).store = p.store.pushAll (p.written turns) := by
  induction turns using List.reverseRecOn with
  | nil => rfl
  | append_singleton turns t ih =>
      rw [run_append_singleton, store_step, ih, written, written, tell_append_singleton,
        Store.pushAll_append]

/-- **Entries are written in the order in which they were accepted**, whoever takes whatever turns.
At every moment the entries written, then those in the buffer, then those in the queue are the
entries accepted. The store has the last of the entries written, each under its number among all
of them. When a flush request has been answered, every entry that was accepted before it entered
the queue has been written; requests are answered in the order in which they entered. -/
theorem run_keeps_order (capacity queueCapacity batchSize : Nat) (turns : List Turn) :
    let start := ofSizes capacity queueCapacity batchSize
    let p := start.run turns
    start.accepted turns = start.written turns ++ p.buffer ++ p.queued ∧
    p.store.entries = (numbered (start.written turns)).drop
      ((start.written turns).length - max capacity 1) ∧
    start.asked turns = p.answered + p.queue.countP Command.isFlush ∧
    ∀ before after, turns = before ++ .askFlush :: after → (start.run before).hasRoom = true →
      start.asked before < p.answered → start.accepted before <+: start.written turns := by
  intro start p
  have ordered : Ordered p (start.tell enters turns) (start.tell obeys turns)
      (start.written turns) := (Ordered.ofSizes capacity queueCapacity batchSize).run turns
  refine ⟨ordered.entriesOf_entered, ?_, ?_, ?_⟩
  · have stored : p.store = (Store.ofCapacity capacity).pushAll (start.written turns) :=
      start.store_run turns
    rw [stored, Store.pushAll_ofCapacity]
  · rw [asked, ordered.queue, List.countP_append, ordered.answered]
  · intro before after parted room answered
    have placed : start.tell enters turns = start.tell enters before ++
        .flush :: ((start.run before).step .askFlush).tell enters after := by
      rw [parted, tell_append, tell, enters, if_pos room]
      rfl
    exact ordered.entriesOf_before placed answered

/-- The entry that was logged before the flush request has been written when it is answered. -/
theorem run_keeps_order_answered :
    let e : Entry := { timestamp := ⟨0, 0⟩ }
    let start := ofSizes 1 2 5
    let turns := [.log e, .askFlush, .take, .take]
    start.asked [.log e] < (start.run turns).answered ∧
      start.accepted [.log e] <+: start.written turns := by
  intro e start turns
  have answered : start.asked [.log e] < (start.run turns).answered := by decide
  exact ⟨answered,
    (run_keeps_order 1 2 5 turns).2.2.2 [.log e] [.take, .take] rfl rfl answered⟩

end Pipeline
end DialectGateway.Ledger
