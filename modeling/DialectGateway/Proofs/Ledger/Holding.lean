/-
# Proofs.Ledger.Holding — a pipeline loses nothing that it has accepted

Every accepted entry is stored, or in the writer's buffer, or in the queue, and they are
so in the order in which they were accepted (`Pipeline.Holds`). An entry that finds room
is accepted, and no turn of the writer or of a caller who asks for a flush changes what
has been (`Holds.log`, `Holds.step`).
-/
import DialectGateway.Ledger.Store

set_option autoImplicit false

namespace DialectGateway.Ledger

theorem Store.stored_pushAll (s : Store) (es : List Entry) :
    (s.pushAll es).stored = s.stored + es.length := by
  induction es generalizing s with
  | nil => rfl
  | cons e rest ih =>
      show ((s.push e).pushAll rest).stored = _
      rw [ih, List.length_cons]
      show s.stored + 1 + rest.length = _
      omega

/-- The entry that a command brings, if it brings one. -/
def Command.entry? : Command → Option Entry
  | .record e => some e
  | .flush => none

namespace Pipeline

def queued (p : Pipeline) : List Entry := p.queue.filterMap Command.entry?

/-- The entries were accepted in this order, and as many have been written as are stored. -/
def Holds (p : Pipeline) (accepted : List Entry) : Prop :=
  ∃ written, accepted = written ++ p.buffer ++ p.queued ∧ p.store.stored = written.length

namespace Holds

variable {p : Pipeline} {accepted : List Entry}

theorem ofSizes (capacity queueCapacity batchSize : Nat) :
    (Pipeline.ofSizes capacity queueCapacity batchSize).Holds [] := ⟨[], rfl, rfl⟩

theorem log (holds : p.Holds accepted) (room : p.hasRoom = true) (e : Entry) :
    (p.log e).Holds (accepted ++ [e]) := by
  obtain ⟨written, rfl, stored⟩ := holds
  have grown : p.log e = { p with queue := p.queue ++ [.record e] } := if_pos room
  rw [grown]
  refine ⟨written, ?_, stored⟩
  simp only [queued, List.filterMap_append, List.append_assoc]
  rfl

theorem write (holds : p.Holds accepted) : p.write.Holds accepted := by
  obtain ⟨written, rfl, stored⟩ := holds
  refine ⟨written ++ p.buffer, ?_, ?_⟩
  · show _ = written ++ p.buffer ++ [] ++ p.queued
    rw [List.append_nil]
  · show (p.store.pushAll p.buffer).stored = _
    rw [Store.stored_pushAll, stored, List.length_append]

theorem take (holds : p.Holds accepted) : (p.step .take).Holds accepted := by
  rw [step]
  split
  · next command rest queue =>
      obtain ⟨written, rfl, stored⟩ := holds
      cases command with
      | record e =>
          have moved : Holds { p with queue := rest, buffer := p.buffer ++ [e] }
              (written ++ p.buffer ++ p.queued) := by
            refine ⟨written, ?_, stored⟩
            rw [queued, queue]
            show written ++ p.buffer ++ (e :: rest.filterMap Command.entry?) =
              written ++ (p.buffer ++ [e]) ++ rest.filterMap Command.entry?
            simp only [List.append_assoc, List.singleton_append]
          rw [obey]
          simp only
          split
          · exact moved.write
          · exact moved
      | flush =>
          have moved : Holds { p with queue := rest } (written ++ p.buffer ++ p.queued) := by
            refine ⟨written, ?_, stored⟩
            rw [queued, queue, List.filterMap_cons_none rfl]
            rfl
          obtain ⟨more, same, length⟩ := moved.write
          exact ⟨more, same, length⟩
  · exact holds

/-- Only logging changes what has been accepted. -/
theorem step (holds : p.Holds accepted) {t : Turn} (silent : ∀ e, t ≠ .log e) :
    (p.step t).Holds accepted := by
  cases t with
  | log e => exact absurd rfl (silent e)
  | askFlush =>
      rw [Pipeline.step]
      split
      · obtain ⟨written, rfl, stored⟩ := holds
        refine ⟨written, ?_, stored⟩
        simp only [queued, List.filterMap_append]
        exact congrArg _ (List.append_nil _).symm
      · exact holds
  | tick => exact holds.write
  | take => exact holds.take

end Holds
end Pipeline
end DialectGateway.Ledger
