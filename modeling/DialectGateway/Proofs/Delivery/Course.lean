/-
# Proofs.Delivery.Course — everything a delivery may live through

A delivery meets cancellations at any time, and the backend's doings and the sink's answers
at their times. `Course` is every such history, of which only the frames that the sink
accepted are kept. What holds of all courses holds whoever drives the delivery: `deliver`,
with any script and any sink, runs through a course (`deliver_course`), and so does a live
delivery over a pipe, whenever its client reads or goes away (`Live.Met.course`).

`Course` does not ask whether the cancellation was signalled before it is noticed, so there
are more courses than histories.
-/
import DialectGateway.Delivery.Live
import DialectGateway.Proofs.Delivery.Handover

set_option autoImplicit false

namespace DialectGateway.Delivery

/-- A delivery in the dialect may come to this, with these frames accepted by then. -/
inductive Course (mint : Nat → String) (dialect : Dialect) : Delivery → List Sse.Frame → Prop
  | fresh : Course mint dialect (.fresh mint dialect) []
  | cancel {d : Delivery} {accepted : List Sse.Frame} (before : Course mint dialect d accepted) :
      Course mint dialect d.cancel accepted
  | noticeCancel {d : Delivery} {accepted : List Sse.Frame}
      (before : Course mint dialect d accepted) (waits : d.stage = .awaiting) (closed : Bool) :
      Course mint dialect (d.noticeCancel closed) accepted
  | takeEvent {d : Delivery} {accepted : List Sse.Frame}
      (before : Course mint dialect d accepted) (waits : d.stage = .awaiting) (event : Event) :
      Course mint dialect (d.takeEvent event) accepted
  | takeEnd {d : Delivery} {accepted : List Sse.Frame} (before : Course mint dialect d accepted)
      (waits : d.stage = .awaiting) : Course mint dialect d.takeEnd accepted
  | takePanic {d : Delivery} {accepted : List Sse.Frame}
      (before : Course mint dialect d accepted) (waits : d.stage = .awaiting) (message : String) :
      Course mint dialect (d.takePanic message) accepted
  | wrote {d : Delivery} {accepted : List Sse.Frame} (before : Course mint dialect d accepted)
      {f : Sse.Frame} {rest : List Sse.Frame} {purpose : Purpose}
      (writes : d.stage = .writing (f :: rest) purpose) :
      Course mint dialect d.wrote (accepted ++ [f])
  | flushed {d : Delivery} {accepted : List Sse.Frame} (before : Course mint dialect d accepted) :
      Course mint dialect d.flushed accepted
  | failed {d : Delivery} {accepted : List Sse.Frame} (before : Course mint dialect d accepted) :
      Course mint dialect d.failed accepted

/-- The frames whose writes succeeded. -/
def acceptedBy (calls : List (Call × Bool)) : List Sse.Frame :=
  calls.filterMap fun
    | (.write f, true) => some f
    | _ => none

theorem acceptedBy_append (before : List (Call × Bool)) (call : Call) (answer : Bool) :
    acceptedBy (before ++ [(call, answer)]) = acceptedBy before ++
      match call, answer with
      | .write f, true => [f]
      | _, _ => [] := by
  rw [acceptedBy, List.filterMap_append]
  cases call <;> cases answer <;> rfl

/-- An event is answered with what is sent for it. -/
theorem takeEvent_eq_send (d : Delivery) (event : Event) :
    ∃ d' frames purpose, d.takeEvent event = send d' frames purpose := by
  rw [takeEvent]
  split
  · exact ⟨_, _, _, rfl⟩
  · split <;> exact ⟨_, _, _, rfl⟩

/-- Behind what was sent the delivery waits again or is over. -/
theorem stage_pumpAll_send {S : Type} [Sink S] (d : Delivery) (s : S) (frames : List Sse.Frame)
    (purpose : Purpose) : ((d.send frames purpose).pumpAll s).1.stage = .awaiting ∨
      ((d.send frames purpose).pumpAll s).1.isOver = true := by
  rw [pumpAll_send, afterHandOver]
  split
  · cases purpose with
    | event => exact .inl rfl
    | closing | fault | refusal | panic => exact .inr rfl
  · cases purpose <;> exact .inr rfl

namespace Course

variable {S : Type} [Sink S] {mint : Nat → String} {dialect : Dialect}

/-- Frames to be written are written and flushed until one fails, as part of the course. -/
theorem pump {d : Delivery} {j : Journal S} (frames : List Sse.Frame)
    (before : Course mint dialect d (acceptedBy j.calls))
    (writes : frames = [] ∨ ∃ purpose, d.stage = .writing frames purpose) :
    Course mint dialect (d.pump j frames).1 (acceptedBy (d.pump j frames).2.calls) := by
  induction frames generalizing d j with
  | nil => exact before
  | cons f rest ih =>
      obtain ⟨purpose, writing⟩ := writes.resolve_left (List.cons_ne_nil f rest)
      have noted : Sink.write j f = j.note (.write f) (Sink.write j.sink f) := rfl
      rw [Delivery.pump, noted]
      rcases Sink.write j.sink f with ⟨_ | _, sink⟩
      · have same := acceptedBy_append j.calls (.write f) false
        rw [List.append_nil] at same
        exact same ▸ before.failed
      · have wrote : Course mint dialect d.wrote (acceptedBy (j.calls ++ [(.write f, true)])) :=
          acceptedBy_append j.calls (.write f) true ▸ before.wrote writing
        simp only [Journal.note]
        generalize j.calls ++ [(.write f, true)] = calls at wrote
        have flushing : Sink.flush (Journal.mk sink calls) =
            (Journal.mk sink calls).note .flush (Sink.flush sink) := rfl
        have same (answer : Bool) :
            acceptedBy (calls ++ [(.flush, answer)]) = acceptedBy calls := by
          rw [acceptedBy_append, List.append_nil]
        rw [flushing]
        rcases Sink.flush sink with ⟨_ | _, sink'⟩
        · exact (same false).symm ▸ wrote.failed
        · refine ih ((same true).symm ▸ wrote.flushed) ?_
          cases rest with
          | nil => exact .inl rfl
          | cons g rest =>
              refine .inr ⟨purpose, ?_⟩
              simp [Delivery.wrote, Delivery.flushed, writing, send]

/-- What is sent is written and flushed as part of the course. -/
theorem pumpAll {d : Delivery} {j : Journal S} {frames : List Sse.Frame} {purpose : Purpose}
    (before : Course mint dialect (d.send frames purpose) (acceptedBy j.calls)) :
    Course mint dialect ((d.send frames purpose).pumpAll j).1
      (acceptedBy ((d.send frames purpose).pumpAll j).2.calls) := by
  rw [Delivery.pumpAll]
  refine before.pump _ ?_
  cases frames with
  | nil => exact .inl (by cases purpose <;> rfl)
  | cons f rest => exact .inr ⟨purpose, rfl⟩

theorem deliverTail {d : Delivery} {j : Journal S}
    (before : Course mint dialect d (acceptedBy j.calls)) (waits : d.stage = .awaiting)
    (tail : Tail) : Course mint dialect (d.deliverTail j tail).1
      (acceptedBy (d.deliverTail j tail).2.calls) := by
  rw [Delivery.deliverTail.eq_def]
  split
  · exact before.noticeCancel waits _
  · cases tail with
    | ends => exact (before.takeEnd waits).pumpAll
    | cancels => exact before.cancel.noticeCancel waits _
    | panics message => exact (before.takePanic waits message).pumpAll
    | hangs => exact before

theorem deliverEvents {d : Delivery} {j : Journal S}
    (before : Course mint dialect d (acceptedBy j.calls)) (waits : d.stage = .awaiting)
    (tail : Tail) (handouts : List Handout) :
    Course mint dialect (d.deliverEvents j tail handouts).1
      (acceptedBy (d.deliverEvents j tail handouts).2.calls) := by
  induction handouts generalizing d j with
  | nil => exact before.deliverTail waits tail
  | cons h rest ih =>
      rw [Delivery.deliverEvents]
      split
      · exact before.noticeCancel waits _
      · have handed : Course mint dialect (if h.cancels then d.cancel else d)
            (acceptedBy j.calls) := by
          split
          · exact before.cancel
          · exact before
        have still : (if h.cancels then d.cancel else d).stage = .awaiting := by
          split <;> exact waits
        generalize (if h.cancels then d.cancel else d) = d at handed still
        obtain ⟨d', frames, purpose, sent⟩ := takeEvent_eq_send d h.event
        have taken := handed.takeEvent still h.event
        rw [sent] at taken
        have pumped := taken.pumpAll
        have idle := stage_pumpAll_send d' j frames purpose
        simp only [sent]
        split
        · exact pumped
        · next going => exact ih pumped (idle.resolve_right going)

end Course

/-- **A delivery runs through a course**, whatever the script and the sink. -/
theorem deliver_course {S : Type} [Sink S] (mint : Nat → String) (dialect : Dialect) (sink : S)
    (script : Script) :
    let run := (Delivery.fresh mint dialect).deliver (Journal.mk sink []) script
    Course mint dialect run.1 (acceptedBy run.2.calls) := by
  rw [deliver]
  split
  · exact Course.fresh.cancel.deliverEvents rfl script.tail script.handouts
  · exact Course.fresh.deliverEvents rfl script.tail script.handouts

/-! ## What is left to write -/

/-- The frames that are still to be written. -/
def unwritten (d : Delivery) : List Sse.Frame :=
  match d.stage with
  | .writing frames _ => frames
  | .flushing frames _ => frames.tail
  | _ => []

/-- More events may be taken once the frames at hand are through. -/
def goesOn (d : Delivery) : Bool :=
  match d.stage with
  | .awaiting | .writing _ .event | .flushing _ .event => true
  | _ => false

/-- The closing frames are being written, or all has been written. -/
def closes (d : Delivery) : Bool :=
  match d.stage with
  | .writing _ .closing | .flushing _ .closing | .over .completed => true
  | _ => false

section
variable (d : Delivery)

@[simp] theorem encoder_send (frames : List Sse.Frame) (purpose : Purpose) :
    (d.send frames purpose).encoder = d.encoder := by
  cases frames <;> cases purpose <;> rfl

@[simp] theorem unwritten_send (frames : List Sse.Frame) (purpose : Purpose) :
    (d.send frames purpose).unwritten = frames := by
  cases frames <;> cases purpose <;> rfl

@[simp] theorem goesOn_send (frames : List Sse.Frame) (purpose : Purpose) :
    (d.send frames purpose).goesOn = decide (purpose = .event) := by
  cases frames <;> cases purpose <;> simp [send, settle, goesOn, ended]

@[simp] theorem closes_send (frames : List Sse.Frame) (purpose : Purpose) :
    (d.send frames purpose).closes = decide (purpose = .closing) := by
  cases frames <;> cases purpose <;> simp [send, settle, closes, ended]

theorem unwritten_wrote {d : Delivery} {f : Sse.Frame} {rest : List Sse.Frame} {purpose : Purpose}
    (writes : d.stage = .writing (f :: rest) purpose) : d.unwritten = f :: d.wrote.unwritten := by
  simp only [unwritten, wrote, writes, List.tail_cons]

@[simp] theorem signalled_send (frames : List Sse.Frame) (purpose : Purpose) :
    (d.send frames purpose).cancellation.signalled = d.cancellation.signalled := by
  cases frames <;> cases purpose <;> rfl

/-- One delivery does what the other does, but for what has been written. -/
structure Resumes (d' d : Delivery) : Prop where
  encoder : d'.encoder = d.encoder
  goesOn : d'.goesOn = d.goesOn
  closes : d'.closes = d.closes
  signalled : d'.cancellation.signalled = d.cancellation.signalled

theorem resumes_wrote : d.wrote.Resumes d := by
  obtain ⟨encoder, stage, cancellation, written⟩ := d
  cases stage with
  | writing frames purpose => cases purpose <;> exact ⟨rfl, rfl, rfl, rfl⟩
  | _ => exact ⟨rfl, rfl, rfl, rfl⟩

theorem resumes_flushed : d.flushed.Resumes d := by
  obtain ⟨encoder, stage, cancellation, written⟩ := d
  cases stage with
  | flushing frames purpose =>
      refine ⟨encoder_send .., (goesOn_send ..).trans ?_, (closes_send ..).trans ?_,
        signalled_send ..⟩
      · cases purpose <;> simp [goesOn]
      · cases purpose <;> simp [closes]
  | _ => exact ⟨rfl, rfl, rfl, rfl⟩

/-- A flush leaves to write what was left to write. -/
theorem unwritten_flushed : d.flushed.unwritten = d.unwritten := by
  obtain ⟨encoder, stage, cancellation, written⟩ := d
  cases stage with
  | flushing frames purpose => exact unwritten_send ..
  | _ => rfl

@[simp] theorem goesOn_ended (outcome : Outcome) : (d.ended outcome).goesOn = false := rfl

@[simp] theorem closes_ended (outcome : Outcome) :
    (d.ended outcome).closes = decide (outcome = .completed) := by
  cases outcome <;> simp [ended, closes]

/-- A delivery that fails is over, and has not been completed. -/
theorem failed_eq : d.failed = d ∨ ∃ (d' : Delivery) (outcome : Outcome),
    d.failed = d'.ended outcome ∧ d'.encoder = d.encoder ∧ outcome ≠ .completed := by
  rw [failed]
  split
  · next purpose _ => cases purpose <;> exact .inr ⟨_, _, rfl, rfl, by simp⟩
  · next purpose _ => cases purpose <;> exact .inr ⟨_, _, rfl, rfl, by simp⟩
  · exact .inl rfl

end

/-! ## Over a pipe -/

/-- What is sent is something, if it is still to be written. -/
theorem ne_nil_of_send {d : Delivery} {frames left : List Sse.Frame} {purpose purpose' : Purpose}
    (writes : (d.send frames purpose).stage = .writing left purpose') : left ≠ [] := by
  cases frames with
  | nil => cases purpose <;> exact absurd writes Stage.noConfusion
  | cons f rest =>
      cases writes
      exact List.cons_ne_nil f rest

/-- A delivery never turns to writing nothing. -/
theorem Course.ne_nil {mint : Nat → String} {dialect : Dialect} {d : Delivery}
    {accepted : List Sse.Frame} (course : Course mint dialect d accepted) {frames : List Sse.Frame}
    {purpose : Purpose} (writes : d.stage = .writing frames purpose) : frames ≠ [] := by
  induction course with
  | fresh => exact absurd writes (by simp [Delivery.fresh])
  | cancel _ ih => exact ih writes
  | noticeCancel => exact absurd writes (by simp [Delivery.noticeCancel, ended])
  | @takeEvent d _ _ _ event =>
      obtain ⟨d', sent, purpose', same⟩ := takeEvent_eq_send d event
      exact ne_nil_of_send (same ▸ writes)
  | takeEnd | takePanic => exact ne_nil_of_send writes
  | wrote _ before =>
      rw [Delivery.wrote, before] at writes
      exact absurd writes (by simp)
  | @flushed d _ _ ih =>
      rw [Delivery.flushed] at writes
      split at writes
      · exact ne_nil_of_send writes
      · exact ih writes
  | @failed d _ _ ih =>
      rcases d.failed_eq with same | ⟨d', outcome, same, -⟩ <;> rw [same] at writes
      · exact ih writes
      · exact absurd writes (by simp [ended])

namespace Live

/-- A live delivery may come to this, with these frames read by its client by then. -/
inductive Met (mint : Nat → String) (dialect : Dialect) : Live → List Sse.Frame → Prop
  | start (capacity : Nat) (script : Script) :
      Met mint dialect (.ofScript mint dialect capacity script) []
  | advance {l l' : Live} {read : List Sse.Frame} (before : Met mint dialect l read)
      (step : l.advance = some l') : Met mint dialect l' read
  | leave {l : Live} {read : List Sse.Frame} (before : Met mint dialect l read) :
      Met mint dialect l.leave read
  | hangUp {l : Live} {read : List Sse.Frame} (before : Met mint dialect l read) :
      Met mint dialect l.hangUp read
  | read {l : Live} {read : List Sse.Frame} (before : Met mint dialect l read) {f : Sse.Frame}
      {pipe : Pipe Sse.Frame} (item : l.pipe.read = .item f pipe) :
      Met mint dialect { l with pipe } (read ++ [f])

/-- What has been read, then what is in the pipe, then what was lost in it has been accepted.
Nothing is lost while the client is there. -/
def Flows (mint : Nat → String) (dialect : Dialect) (l : Live) (read : List Sse.Frame) : Prop :=
  ∃ lost, Course mint dialect l.delivery (read ++ l.pipe.queue ++ lost) ∧
    (l.pipe.readerGone = false → lost = [])

namespace Flows

variable {mint : Nat → String} {dialect : Dialect} {l l' : Live} {read : List Sse.Frame}

theorem afterLast (flows : Flows mint dialect l read) (waits : l.delivery.stage = .awaiting)
    (step : l.afterLast = some l') : Flows mint dialect l' read := by
  obtain ⟨lost, course, present⟩ := flows
  unfold Live.afterLast at step
  split at step
  · cases step
    exact ⟨lost, course.takeEnd waits, present⟩
  · cases step
    exact ⟨lost, course.cancel, present⟩
  · cases step
    exact ⟨lost, course.takePanic waits _, present⟩
  · cases step

theorem await (flows : Flows mint dialect l read) (waits : l.delivery.stage = .awaiting)
    (step : l.await = some l') : Flows mint dialect l' read := by
  unfold Live.await at step
  obtain ⟨lost, course, present⟩ := id flows
  split at step
  · cases step
    exact ⟨lost, course.noticeCancel waits _, present⟩
  · split at step
    · next h _ _ =>
      cases step
      refine ⟨lost, ?_, present⟩
      simp only
      split
      · exact course.cancel.takeEvent waits h.event
      · exact course.takeEvent waits h.event
    · exact flows.afterLast waits step

theorem put (flows : Flows mint dialect l read) {frames : List Sse.Frame} {purpose : Purpose}
    (writes : l.delivery.stage = .writing frames purpose) (step : l.put frames = some l') :
    Flows mint dialect l' read := by
  obtain ⟨lost, course, present⟩ := flows
  cases frames with
  | nil => exact absurd rfl (course.ne_nil writes)
  | cons f rest =>
      rw [Live.put] at step
      split at step
      · next pipe accepted =>
        cases step
        obtain ⟨reader, -, rfl⟩ := Pipe.accepted_of_write accepted
        have none_ := present reader
        have wrote := course.wrote writes
        rw [none_, List.append_nil, List.append_assoc] at wrote
        exact ⟨[], (List.append_nil _).symm ▸ wrote, fun _ => rfl⟩
      · cases step
      · cases step
        exact ⟨lost, course.failed, present⟩

theorem advance (flows : Flows mint dialect l read) (step : l.advance = some l') :
    Flows mint dialect l' read := by
  unfold Live.advance at step
  split at step
  · next waits => exact flows.await waits step
  · next writes => exact flows.put writes step
  · obtain ⟨lost, course, present⟩ := flows
    cases step
    refine ⟨lost, ?_, present⟩
    simp only
    split
    · exact course.failed
    · exact course.flushed
  · split at step
    · cases step
    · cases step
      exact flows

end Flows

/-- **A live delivery runs through a course**, and its client reads the first frames that have
been accepted. -/
theorem Met.course {mint : Nat → String} {dialect : Dialect} {l : Live} {read : List Sse.Frame}
    (met : Met mint dialect l read) :
    ∃ unread, Course mint dialect l.delivery (read ++ unread) := by
  have flows : Flows mint dialect l read := by
    induction met with
    | start capacity script =>
        refine ⟨[], ?_, fun _ => rfl⟩
        simp only [ofScript]
        split
        · exact Course.fresh.cancel
        · exact Course.fresh
    | advance _ step ih => exact ih.advance step
    | leave _ ih =>
        obtain ⟨lost, course, present⟩ := ih
        exact ⟨lost, course.cancel, present⟩
    | @hangUp l read _ ih =>
        obtain ⟨lost, course, -⟩ := ih
        refine ⟨l.pipe.queue ++ lost, ?_, fun there => absurd there.symm Bool.false_ne_true⟩
        rw [List.append_assoc] at course
        exact (List.append_nil read).symm ▸ course
    | @read l read _ f pipe item ih =>
        obtain ⟨lost, course, present⟩ := ih
        obtain ⟨queue, queued, rfl⟩ := Pipe.item_of_read item
        rw [queued] at course
        refine ⟨lost, ?_, present⟩
        rw [List.append_assoc read]
        exact course
  obtain ⟨lost, course, -⟩ := flows
  exact ⟨l.pipe.queue ++ lost, List.append_assoc .. ▸ course⟩

end Live
end DialectGateway.Delivery
