/-
# Delivery.Pipe — a bounded pipe to a client

The writing side waits when the pipe is full and fails when the reader is gone.
What was accepted is read in order, once.
-/

set_option autoImplicit false

namespace DialectGateway.Delivery

structure Pipe (A : Type) where
  capacity : Nat
  /-- What has been accepted and not yet read, oldest first. -/
  queue : List A := []
  readerGone : Bool := false
  /-- The writing side has ended; what is queued may still be read. -/
  writerGone : Bool := false
  deriving Repr

namespace Pipe

variable {A : Type}

/-- An empty pipe; a capacity of 0 counts as 1. -/
def ofCapacity (capacity : Nat) : Pipe A := { capacity := max capacity 1 }

inductive Written (A : Type) where
  | accepted (pipe : Pipe A)
  /-- The pipe is full for now. -/
  | full
  | gone
  deriving Repr

def write (p : Pipe A) (a : A) : Written A :=
  if p.readerGone then .gone
  else if p.queue.length < p.capacity then .accepted { p with queue := p.queue ++ [a] }
  else .full

inductive Read (A : Type) where
  | item (a : A) (pipe : Pipe A)
  /-- Nothing is queued for now. -/
  | empty
  /-- Nothing is queued and nothing will be. -/
  | ended
  deriving Repr

def read (p : Pipe A) : Read A :=
  match p.queue with
  | a :: queue => .item a { p with queue }
  | [] => if p.writerGone then .ended else .empty

variable {p p' : Pipe A} {a : A}

/-- What is accepted comes last in the queue. -/
theorem accepted_of_write (accepted : p.write a = .accepted p') :
    p.readerGone = false ∧ p.queue.length < p.capacity ∧
      p' = { p with queue := p.queue ++ [a] } := by
  unfold write at accepted
  split at accepted
  · cases accepted
  · next present =>
    split at accepted <;> cases accepted
    next room => exact ⟨Bool.eq_false_iff.2 present, room, rfl⟩

theorem gone_of_write (refused : p.write a = .gone) : p.readerGone = true := by
  unfold write at refused
  split at refused
  · next gone => exact gone
  · split at refused <;> cases refused

/-- What is read comes first in the queue. -/
theorem item_of_read (item : p.read = .item a p') :
    ∃ queue, p.queue = a :: queue ∧ p' = { p with queue } := by
  unfold read at item
  split at item
  · next queue queued =>
    cases item
    exact ⟨queue, queued, rfl⟩
  · split at item <;> cases item

theorem ended_of_read (ended : p.read = .ended) : p.queue = [] ∧ p.writerGone = true := by
  unfold read at ended
  split at ended
  · cases ended
  · next empty =>
    split at ended <;> cases ended
    next closed => exact ⟨empty, closed⟩

/-- The reader goes away, and what was queued is lost. -/
def dropReader (p : Pipe A) : Pipe A := { p with readerGone := true, queue := [] }

def dropWriter (p : Pipe A) : Pipe A := { p with writerGone := true }

end Pipe
end DialectGateway.Delivery
