/-
# Delivery.Sink — where the frames of a delivery go

A sink is asked to take a frame and to flush what it has taken. Every call is
answered with whether it succeeded and the sink as it is afterwards; nothing else
is assumed of it, so a sink may fail at any call and for any reason.

`handOver` is what delivering frames means: each is written and then flushed,
until they are through or a call fails. A `Journal` is a sink that notes every
call it was given, the failed one included, and asks another sink for the answer.
-/
import DialectGateway.Sse.Frame

set_option autoImplicit false

namespace DialectGateway.Delivery

class Sink (S : Type) where
  write : S → Sse.Frame → Bool × S
  flush : S → Bool × S
  /-- Whether the reading side is known to be gone. -/
  isClosed : S → Bool

/-- A call of a sink. -/
inductive Call where
  | write (f : Sse.Frame)
  | flush
  deriving DecidableEq, Repr

namespace Call

/-- The calls that deliver frames: each is written and then flushed. -/
def delivering (frames : List Sse.Frame) : List Call := frames.flatMap fun f => [.write f, .flush]

@[simp] theorem delivering_nil : delivering [] = [] := rfl

@[simp] theorem delivering_cons (f : Sse.Frame) (rest : List Sse.Frame) :
    delivering (f :: rest) = .write f :: .flush :: delivering rest := rfl

end Call

namespace Sink

variable {S : Type} [Sink S]

/-- Writes and flushes frames until they are through or a call fails, and tells
how many were delivered. -/
def handOver (s : S) : List Sse.Frame → Nat × S
  | [] => (0, s)
  | f :: rest =>
    match write s f with
    | (false, s) => (0, s)
    | (true, s) =>
      match flush s with
      | (false, s) => (0, s)
      | (true, s) =>
        let (n, s) := handOver s rest
        (n + 1, s)

theorem handOver_le (s : S) (frames : List Sse.Frame) : (handOver s frames).1 ≤ frames.length := by
  fun_induction handOver s frames with
  | case1 => exact Nat.le_refl 0
  | case2 => exact Nat.zero_le _
  | case3 => exact Nat.zero_le _
  | case4 s f rest _ _ _ _ n s' h ih =>
      rw [h] at ih
      exact Nat.succ_le_succ ih

/-- Frames that come after frames that were not all delivered make no difference. -/
theorem handOver_append_of_lt {s : S} {frames : List Sse.Frame}
    (short : (handOver s frames).1 < frames.length) (more : List Sse.Frame) :
    handOver s (frames ++ more) = handOver s frames := by
  fun_induction handOver s frames with
  | case1 => exact absurd short (Nat.lt_irrefl 0)
  | case2 s f rest s' refused => simp only [List.cons_append, handOver, refused]
  | case3 s f rest s' accepted s'' refused =>
      simp only [List.cons_append, handOver, accepted, refused]
  | case4 s f rest s' accepted s'' flushed n s₃ h ih =>
      rw [h] at ih
      have rest := ih (Nat.lt_of_succ_lt_succ short)
      simp only [List.cons_append, handOver, accepted, flushed, rest]

/-- Frames that come after delivered ones are delivered to the sink as it is then. -/
theorem handOver_append_of_eq {s : S} {frames : List Sse.Frame}
    (through : (handOver s frames).1 = frames.length) (more : List Sse.Frame) :
    handOver s (frames ++ more) =
      (frames.length + (handOver (handOver s frames).2 more).1,
        (handOver (handOver s frames).2 more).2) := by
  fun_induction handOver s frames with
  | case1 s => simp only [List.nil_append, List.length_nil, Nat.zero_add]
  | case2 => exact absurd through (by simp)
  | case3 => exact absurd through (by simp)
  | case4 s f rest s' accepted s'' flushed n s₃ h ih =>
      rw [h] at ih
      have rest := ih (Nat.succ.inj through)
      simp only [List.cons_append, handOver, accepted, flushed, rest, List.length_cons]
      exact Prod.ext (by simp only; omega) rfl

end Sink

/-- A sink that notes every call and its answer. -/
structure Journal (S : Type) where
  sink : S
  calls : List (Call × Bool) := []

namespace Journal

variable {S : Type} [Sink S]

/-- The journal after a call and its answer. -/
def note (j : Journal S) (call : Call) (answer : Bool × S) : Bool × Journal S :=
  (answer.1, ⟨answer.2, j.calls ++ [(call, answer.1)]⟩)

instance : Sink (Journal S) where
  write j f := j.note (.write f) (Sink.write j.sink f)
  flush j := j.note .flush (Sink.flush j.sink)
  isClosed j := Sink.isClosed j.sink

end Journal
end DialectGateway.Delivery
