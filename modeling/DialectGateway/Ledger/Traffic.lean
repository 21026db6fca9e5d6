/-
# Ledger.Traffic — how many requests there are and have been

Counts all requests, those not yet ended, and those begun within the last
`horizon`. Times are nanoseconds of a clock that never goes back. The window
holds the times of begins, oldest first; what has left the horizon is dropped
when the rate is read, and also when a begin finds more than `soft limit` times.
-/

set_option autoImplicit false

namespace DialectGateway.Ledger

structure Traffic where
  horizon : Nat
  total : Nat := 0
  /-- May fall below zero if an end has no begin. -/
  balance : Int := 0
  window : List Nat := []
  deriving Repr

namespace Traffic

/-- How many times the window holds before begins prune it too. -/
def softLimit : Nat := 4096

def prune (t : Traffic) (now : Nat) : Traffic :=
  { t with window := t.window.dropWhile fun begun => t.horizon ≤ now - begun }

def start (t : Traffic) (now : Nat) : Traffic :=
  let t := { t with total := t.total + 1, balance := t.balance + 1, window := t.window ++ [now] }
  if softLimit < t.window.length then t.prune now else t

theorem start_counts (t : Traffic) (now : Nat) :
    (t.start now).total = t.total + 1 ∧ (t.start now).balance = t.balance + 1 := by
  rw [start]
  simp only
  split <;> exact ⟨rfl, rfl⟩

def finish (t : Traffic) : Traffic := { t with balance := t.balance - 1 }

/-- The requests not yet ended. -/
def active (t : Traffic) : Nat := t.balance.toNat

/-- The requests begun within the horizon. -/
def recent (t : Traffic) (now : Nat) : Nat × Traffic :=
  let t := t.prune now
  (t.window.length, t)

end Traffic
end DialectGateway.Ledger
