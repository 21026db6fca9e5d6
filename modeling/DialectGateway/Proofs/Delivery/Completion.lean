/-
# Proofs.Delivery.Completion — when a completed delivery has delivered a whole body

A delivery that takes its events from a body looks at the cancellation before it asks for the
next event. The stream that it asks looks again, before it waits for more of the body, and ends
if the cancellation has been signalled by then. The delivery takes this for the end of the body.

So a completed delivery has delivered everything if its cancellation was never signalled
(`Relayed.complete`). The condition is needed: signalled between the two looks, a
cancellation lets a delivery complete that was given nothing of its body, whatever the body is
(`Relayed.completed_cut`).

Both are about every order in which the two look, the signal comes and the sink answers
(`Relayed.Step`). What is still to be handed out and still to be written is accounted for by
`Relayed.Due`. Seen from the sink, such a delivery is a course like any other
(`Relayed.course`).
-/
import DialectGateway.Proofs.Backend.Reading
import DialectGateway.Proofs.Delivery.Course
import Mathlib.Logic.Relation

set_option autoImplicit false

namespace DialectGateway

namespace Backend.EventStream

/-- The events that the stream would still hand out. -/
def remaining (s : EventStream) : List Event := s.ready ++ eventsOf s.arrivals s.reader

variable {s s' : EventStream} {cancelled : Bool}

theorem remaining_of_event {e : Event} (turn : s.turn cancelled = .event e s') :
    s.remaining = e :: s'.remaining := by
  rw [EventStream.turn] at turn
  split at turn
  · next ready first =>
    cases turn
    rw [remaining, first]
    rfl
  · split at turn
    · cases turn
    · split at turn <;> cases turn

theorem remaining_of_read (turn : s.turn cancelled = .read s') : s.remaining = s'.remaining := by
  rw [EventStream.turn] at turn
  split at turn
  · cases turn
  · next empty =>
    split at turn
    · cases turn
    · split at turn
      · cases turn
      · next first =>
        cases turn
        rw [remaining, empty, first]
        rfl

/-- A stream that ends without being cancelled has handed out everything. -/
theorem remaining_of_ended (turn : s.turn false = .ended) : s.remaining = [] := by
  rw [EventStream.turn] at turn
  split at turn
  · cases turn
  · next empty =>
    rw [remaining, empty]
    split at turn
    · next ends =>
      rw [Bool.or_false] at ends
      exact eventsOf_of_ended ends s.arrivals
    · split at turn
      · next none_ => rw [none_]; rfl
      · cases turn

end Backend.EventStream

namespace Delivery

open Backend (Arrival EventStream eventsOf)

/-- A delivery and the stream of a body, and what has come of them. -/
structure Relayed where
  delivery : Delivery
  stream : EventStream
  /-- The delivery has seen no signal and asks the stream. -/
  asks : Bool := false
  taken : List Event := []
  accepted : List Sse.Frame := []

namespace Relayed

/-- Before anything has happened. -/
def fresh (mint : Nat → String) (dialect : Dialect) (arrivals : List Arrival) : Relayed where
  delivery := .fresh mint dialect
  stream := { arrivals }

/-- What may happen next. -/
inductive Step : Relayed → Relayed → Prop
  | signal (r : Relayed) : Step r { r with delivery := r.delivery.cancel }
  | notice {r : Relayed} (idle : r.asks = false) (waits : r.delivery.stage = .awaiting)
      (signalled : r.delivery.cancellation.signalled = true) (closed : Bool) :
      Step r { r with delivery := r.delivery.noticeCancel closed }
  | look {r : Relayed} (idle : r.asks = false) (waits : r.delivery.stage = .awaiting)
      (quiet : r.delivery.cancellation.signalled = false) : Step r { r with asks := true }
  /-- The stream waits for more of the body, and the delivery will look again. -/
  | park (r : Relayed) : Step r { r with asks := false }
  | event {r : Relayed} (asks : r.asks = true) {e : Event} {stream : EventStream}
      (turn : r.stream.turn r.delivery.cancellation.signalled = .event e stream) :
      Step r { delivery := r.delivery.takeEvent e, stream, taken := r.taken ++ [e]
               accepted := r.accepted }
  | read {r : Relayed} (asks : r.asks = true) {stream : EventStream}
      (turn : r.stream.turn r.delivery.cancellation.signalled = .read stream) :
      Step r { r with stream }
  | ended {r : Relayed} (asks : r.asks = true)
      (turn : r.stream.turn r.delivery.cancellation.signalled = .ended) :
      Step r { r with delivery := r.delivery.takeEnd, asks := false }
  | wrote {r : Relayed} (idle : r.asks = false) {f : Sse.Frame} {rest : List Sse.Frame}
      {purpose : Purpose} (writes : r.delivery.stage = .writing (f :: rest) purpose) :
      Step r { r with delivery := r.delivery.wrote, accepted := r.accepted ++ [f] }
  | flushed {r : Relayed} (idle : r.asks = false) : Step r { r with delivery := r.delivery.flushed }
  | failed {r : Relayed} (idle : r.asks = false) : Step r { r with delivery := r.delivery.failed }

/-- Everything that has been taken and everything that is left is accounted for, as long as the
delivery goes on or comes to completion. -/
structure Due (start : Encoder) (body : List Event) (r : Relayed) : Prop where
  body : r.taken ++ r.stream.remaining = body
  waits : r.asks = true → r.delivery.stage = .awaiting
  goesOn : r.delivery.goesOn = true → ∀ rest, start.owed (r.taken ++ rest) =
    (r.accepted ++ r.delivery.unwritten ++ (r.delivery.encoder.owed rest).1,
      (r.delivery.encoder.owed rest).2)
  closes : r.delivery.closes = true →
    start.owed r.taken = (r.accepted ++ r.delivery.unwritten, .completed) ∧
    (r.delivery.cancellation.signalled = false → r.stream.remaining = [])

namespace Due

variable {start : Encoder} {body : List Event} {r r' : Relayed}

/-- While events are awaited, what is owed for the rest is what the encoder owes for it. -/
theorem awaiting (due : Due start body r) (waits : r.delivery.stage = .awaiting)
    (rest : List Event) : start.owed (r.taken ++ rest) =
      (r.accepted ++ (r.delivery.encoder.owed rest).1, (r.delivery.encoder.owed rest).2) := by
  have owed := due.goesOn (by rw [Delivery.goesOn, waits]) rest
  rwa [unwritten, waits, List.append_nil] at owed

/-- Nothing is owed by a delivery that neither goes on nor comes to completion. -/
theorem broken (body' : r'.taken ++ r'.stream.remaining = body) (idle : r'.asks = false)
    (goesOn : r'.delivery.goesOn = false) (closes : r'.delivery.closes = false) :
    Due start body r' where
  body := body'
  waits asks := absurd asks (by simp [idle])
  goesOn still := absurd still (by simp [goesOn])
  closes still := absurd still (by simp [closes])

theorem signal (due : Due start body r) :
    Due start body { r with delivery := r.delivery.cancel } where
  body := due.body
  waits := due.waits
  goesOn := due.goesOn
  closes closes := by
    obtain ⟨owed, whole⟩ := due.closes closes
    refine ⟨owed, fun quiet => whole ?_⟩
    have signalled := r.delivery.cancellation.signalled_cancel
    rw [show r.delivery.cancellation.cancel.signalled = false from quiet] at signalled
    exact (Bool.or_eq_false_iff.1 signalled.symm).1

theorem event (due : Due start body r) (asks : r.asks = true) {e : Event} {stream : EventStream}
    (turn : r.stream.turn r.delivery.cancellation.signalled = .event e stream) :
    Due start body { delivery := r.delivery.takeEvent e, stream, taken := r.taken ++ [e]
                     accepted := r.accepted } := by
  have split : r.taken ++ [e] ++ stream.remaining = body := by
    rw [← due.body, EventStream.remaining_of_event turn, List.append_assoc, List.singleton_append]
  have owed (rest : List Event) := due.awaiting (due.waits asks) (e :: rest)
  cases faulty : e.fault with
  | some fault => exact broken split rfl (by simp [takeEvent, faulty]) (by simp [takeEvent, faulty])
  | none =>
      rcases fed : r.delivery.encoder.feed e with ⟨encoder, refusal | frames⟩
      · exact broken split rfl (by simp [takeEvent, faulty, fed]) (by simp [takeEvent, faulty, fed])
      · refine ⟨split, ?_, ?_, ?_⟩
        · intro asks
          exact absurd asks Bool.false_ne_true
        · intro _ rest
          have whole := owed rest
          rw [Encoder.owed_cons_encoded rest faulty fed] at whole
          simp [takeEvent, faulty, fed, whole]
        · intro closes
          exact absurd closes (by simp [takeEvent, faulty, fed])

theorem ended (due : Due start body r) (asks : r.asks = true)
    (turn : r.stream.turn r.delivery.cancellation.signalled = .ended) :
    Due start body { r with delivery := r.delivery.takeEnd, asks := false } where
  body := due.body
  waits asks := absurd asks Bool.false_ne_true
  goesOn still := absurd still (by simp [takeEnd])
  closes _ := by
    have owed := due.awaiting (due.waits asks) []
    rw [List.append_nil, Encoder.owed_nil] at owed
    refine ⟨owed.trans (by simp [takeEnd, Encoder.conclusion]), ?_⟩
    intro quiet
    have same : r.delivery.takeEnd.cancellation.signalled = r.delivery.cancellation.signalled :=
      signalled_send ..
    exact EventStream.remaining_of_ended (quiet ▸ same ▸ turn)

/-- What is written moves from what is left to what has been accepted. -/
theorem resumes (due : Due start body r) (idle : r.asks = false) {d : Delivery}
    {accepted : List Sse.Frame} (resumes : d.Resumes r.delivery)
    (whole : accepted ++ d.unwritten = r.accepted ++ r.delivery.unwritten) :
    Due start body { r with delivery := d, accepted } where
  body := due.body
  waits asks := absurd asks (by simp [idle])
  goesOn still := by
    have owed := due.goesOn (resumes.goesOn ▸ still)
    rwa [← whole, ← resumes.encoder] at owed
  closes still := by
    have owed := due.closes (resumes.closes ▸ still)
    rwa [← whole, ← resumes.signalled] at owed

/-- **A step keeps account.** -/
theorem step (due : Due start body r) (step : Step r r') : Due start body r' := by
  cases step with
  | signal => exact due.signal
  | notice idle waits signalled closed =>
      refine broken due.body idle rfl ?_
      cases closed <;> simp [noticeCancel]
  | look idle waits quiet => exact ⟨due.body, fun _ => waits, due.goesOn, due.closes⟩
  | park =>
      have idle : false = true → r.delivery.stage = .awaiting := fun asks =>
        absurd asks Bool.false_ne_true
      exact ⟨due.body, idle, due.goesOn, due.closes⟩
  | event asks turn => exact due.event asks turn
  | read asks turn =>
      have same := EventStream.remaining_of_read turn
      exact ⟨same ▸ due.body, due.waits, due.goesOn, same ▸ due.closes⟩
  | ended asks turn => exact due.ended asks turn
  | wrote idle writes =>
      refine due.resumes idle r.delivery.resumes_wrote ?_
      rw [unwritten_wrote writes, List.append_assoc, List.singleton_append]
  | flushed idle =>
      refine due.resumes idle r.delivery.resumes_flushed ?_
      rw [unwritten_flushed]
  | failed idle =>
      rcases r.delivery.failed_eq with same | ⟨d', outcome, same, -, short⟩
      · exact same.symm ▸ due
      · refine broken due.body idle ?_ ?_ <;> rw [same]
        · rfl
        · simp [short]

end Due

open Relation (ReflTransGen)

variable {mint : Nat → String} {dialect : Dialect} {arrivals : List Arrival} {r : Relayed}

/-- **A run keeps account.** -/
theorem due (run : ReflTransGen Step (fresh mint dialect arrivals) r) :
    Due (Encoder.fresh mint dialect) (eventsOf arrivals {}) r := by
  induction run with
  | refl =>
      refine ⟨rfl, ?_, fun _ rest => rfl, ?_⟩
      · intro asks
        exact absurd asks Bool.false_ne_true
      · intro closes
        exact absurd closes Bool.false_ne_true
  | tail _ step ih => exact ih.step step

/-- A delivery of a body is a delivery like any other. -/
theorem course (run : ReflTransGen Step (fresh mint dialect arrivals) r) :
    Course mint dialect r.delivery r.accepted := by
  induction run with
  | refl => exact .fresh
  | tail run step ih =>
      have waiting := (due run).waits
      cases step with
      | signal => exact ih.cancel
      | notice idle waits signalled closed => exact ih.noticeCancel waits closed
      | look | park | read => exact ih
      | event asks turn => exact ih.takeEvent (waiting asks) _
      | ended asks turn => exact ih.takeEnd (waiting asks)
      | wrote idle writes => exact ih.wrote writes
      | flushed => exact ih.flushed
      | failed => exact ih.failed

/-- What the events taken owe has been accepted once the delivery has been completed, and they are
all events if it was not cancelled. -/
theorem owed_of_completed (run : ReflTransGen Step (fresh mint dialect arrivals) r)
    (completed : r.delivery.outcome? = some .completed) :
    (Encoder.fresh mint dialect).owed r.taken = (r.accepted, .completed) ∧
    (r.delivery.cancellation.signalled = false → r.stream.remaining = []) := by
  have done : r.delivery.stage = .over .completed := by
    rw [outcome?] at completed
    split at completed <;> simp_all
  have owed := (due run).closes (by rw [closes, done])
  rwa [unwritten, done, List.append_nil] at owed

/-- **A completed delivery has delivered the whole body, if it was never cancelled**: it has taken
all events, and all that they owe has been accepted. -/
theorem complete (run : ReflTransGen Step (fresh mint dialect arrivals) r)
    (completed : r.delivery.outcome? = some .completed)
    (quiet : r.delivery.cancellation.signalled = false) :
    r.taken = eventsOf arrivals {} ∧
    (Encoder.fresh mint dialect).owed r.taken = (r.accepted, .completed) := by
  obtain ⟨owed, whole⟩ := owed_of_completed run completed
  have taken := (due run).body
  rw [whole quiet, List.append_nil] at taken
  exact ⟨taken, owed⟩

/-- Closing frames can be written and flushed until the delivery has been completed. -/
theorem finish {r : Relayed} (idle : r.asks = false) {d : Delivery} {frames : List Sse.Frame}
    (sent : r.delivery = d.send frames .closing) :
    ∃ r', ReflTransGen Step r r' ∧ r'.delivery.outcome? = some .completed ∧
      r'.taken = r.taken := by
  induction frames generalizing r d with
  | nil =>
      refine ⟨r, .refl, ?_, rfl⟩
      rw [sent]
      rfl
  | cons f rest ih =>
      have writes : r.delivery.stage = .writing (f :: rest) .closing := by
        rw [sent]
        rfl
      have next : r.delivery.wrote.flushed = (d.count .closing 1).send rest .closing := by
        rw [sent, count_flushed_send]
      have wrote := Step.wrote idle writes
      have flushed := Step.flushed (r := { r with
        delivery := r.delivery.wrote, accepted := r.accepted ++ [f] }) idle
      obtain ⟨r', run, completed, taken⟩ := ih (r := { r with
        delivery := r.delivery.wrote.flushed, accepted := r.accepted ++ [f] }) idle next
      exact ⟨r', .head wrote (.head flushed run), completed, taken⟩

/-- **A cancelled delivery may complete without anything of its body**, whatever the body is: the
cancellation, signalled after the delivery has looked, ends the stream. What has been accepted is
what an empty body owes. -/
theorem completed_cut (mint : Nat → String) (dialect : Dialect) (arrivals : List Arrival) :
    ∃ r, ReflTransGen Step (fresh mint dialect arrivals) r ∧
      r.delivery.outcome? = some .completed ∧ r.taken = [] ∧
      (Encoder.fresh mint dialect).owed [] = (r.accepted, .completed) := by
  have looked : Step (fresh mint dialect arrivals) { fresh mint dialect arrivals with
      asks := true } := .look rfl rfl rfl
  have signalled := Step.signal { fresh mint dialect arrivals with asks := true }
  have ended := Step.ended (r := { fresh mint dialect arrivals with
      delivery := (Delivery.fresh mint dialect).cancel, asks := true }) rfl rfl
  obtain ⟨r, closing, completed, taken⟩ := finish (r := { fresh mint dialect arrivals with
      delivery := (Delivery.fresh mint dialect).cancel.takeEnd }) rfl rfl
  have run := ReflTransGen.head looked (.head signalled (.head ended closing))
  have owed := (owed_of_completed run completed).1
  rw [taken] at owed
  exact ⟨r, run, completed, taken, owed⟩

end Relayed
end Delivery
end DialectGateway
