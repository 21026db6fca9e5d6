/-
# Delivery.Cancellation — the stop signal of one stream

Everybody who may stop a stream, or must notice that it was stopped, shares one
cancellation. It is signalled at most once, and not at all after the stream has
been completed.
-/

set_option autoImplicit false

namespace DialectGateway.Delivery

structure Cancellation where
  signalled : Bool := false
  completed : Bool := false
  /-- How often a call really signalled. -/
  signals : Nat := 0
  deriving DecidableEq, Repr

namespace Cancellation

def cancel (c : Cancellation) : Cancellation :=
  if c.completed || c.signalled then c
  else { c with signalled := true, signals := c.signals + 1 }

def complete (c : Cancellation) : Cancellation := { c with completed := true }

/-- The signal count tells whether the signal was given. -/
def Counted (c : Cancellation) : Prop := c.signals = if c.signalled then 1 else 0

theorem counted_new : Counted {} := rfl

theorem counted_cancel {c : Cancellation} (h : c.Counted) : c.cancel.Counted := by
  obtain ⟨signalled, completed, signals⟩ := c
  cases signalled <;> cases completed <;> simp_all [Counted, cancel]

theorem counted_complete {c : Cancellation} (h : c.Counted) : c.complete.Counted := h

theorem signalled_cancel (c : Cancellation) :
    c.cancel.signalled = (c.signalled || !c.completed) := by
  obtain ⟨signalled, completed, signals⟩ := c
  cases signalled <;> cases completed <;> rfl

@[simp] theorem completed_cancel (c : Cancellation) : c.cancel.completed = c.completed := by
  unfold cancel
  split <;> rfl

theorem cancel_of_completed {c : Cancellation} (h : c.completed = true) : c.cancel = c := by
  rw [cancel, h, Bool.true_or, if_pos rfl]

end Cancellation
end DialectGateway.Delivery
