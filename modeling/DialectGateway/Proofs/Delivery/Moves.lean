/-
# Proofs.Delivery.Moves — a delivery and its cancellation, move by move

`Move` is one thing a delivery may do, with what must be the case for it to be done: the
cancellation is noticed only if it was signalled, and the closing frames are turned to only if
it was not. Every delivery into a sink is a run of moves (`deliver_moves`).

What the cancellation says and how the delivery ends go together (`Lawful`): it was signalled
at most once, it is marked as completed exactly when the delivery has been completed, and a
delivery that stops short of that has signalled it. A move keeps this (`Lawful.move`). A move
also keeps closing frames free of a signal (`Quiet.move`), because it signals only while there
are none.

A signal that comes with an event stops the delivery behind the frames of this event
(`deliver_ofEvents_cancelled`).
-/
import DialectGateway.Proofs.Delivery.Course
import Mathlib.Logic.Relation

set_option autoImplicit false

namespace DialectGateway.Delivery

open Relation (ReflTransGen)

/-- One thing a delivery may do. -/
inductive Move (d : Delivery) : Delivery → Prop
  | cancel (early : d.closes = false) : Move d d.cancel
  | notice (waits : d.stage = .awaiting) (signalled : d.cancellation.signalled = true)
      (closed : Bool) : Move d (d.noticeCancel closed)
  | takeEvent (waits : d.stage = .awaiting) (event : Event) : Move d (d.takeEvent event)
  | takeEnd (waits : d.stage = .awaiting) (quiet : d.cancellation.signalled = false) :
      Move d d.takeEnd
  | takePanic (waits : d.stage = .awaiting) (message : String) : Move d (d.takePanic message)
  | wrote : Move d d.wrote
  | flushed : Move d d.flushed
  | failed : Move d d.failed

/-! ## What the cancellation says of the delivery -/

/-- The delivery stopped because something went wrong on this side, or the client went away, or
somebody stopped it. -/
def Outcome.stops : Outcome → Bool
  | .refused _ | .disconnected | .cancelled | .panicked _ => true
  | .completed | .backendError _ => false

/-- The frames tell why the delivery stops. -/
def Purpose.stops : Purpose → Bool
  | .refusal _ | .panic _ => true
  | _ => false

def stops (d : Delivery) : Bool :=
  match d.stage with
  | .awaiting => false
  | .writing _ purpose | .flushing _ purpose => purpose.stops
  | .over outcome => outcome.stops

/-- The cancellation says what has become of the delivery. -/
structure Lawful (d : Delivery) : Prop where
  counted : d.cancellation.Counted
  completed : d.cancellation.completed = true ↔ d.stage = .over .completed
  stopped : d.stops = true → d.cancellation.signalled = true

/-- The delivery has not been completed. -/
structure Unfinished (d : Delivery) : Prop where
  counted : d.cancellation.Counted
  running : d.cancellation.completed = false

namespace Unfinished

variable {d : Delivery}

theorem cancel (unfinished : Unfinished d) : Unfinished d.cancel where
  counted := Cancellation.counted_cancel unfinished.counted
  running := (Cancellation.completed_cancel d.cancellation).trans unfinished.running

/-- Before completion, to cancel is to signal. -/
theorem signalled_cancel (unfinished : Unfinished d) :
    d.cancel.cancellation.signalled = true := by
  rw [Delivery.cancel, Cancellation.signalled_cancel, unfinished.running, Bool.not_false,
    Bool.or_true]

/-- A delivery ends short of completion only after the signal, if it stops. -/
theorem ended (unfinished : Unfinished d) {outcome : Outcome} (short : outcome ≠ .completed)
    (stopped : outcome.stops = true → d.cancellation.signalled = true) :
    Lawful (d.ended outcome) where
  counted := unfinished.counted
  completed := by simp [Delivery.ended, unfinished.running, short]
  stopped := stopped

theorem settle (unfinished : Unfinished d) (purpose : Purpose)
    (stopped : purpose.stops = true → d.cancellation.signalled = true) :
    Lawful (d.settle purpose) := by
  cases purpose with
  | event =>
      refine ⟨unfinished.counted, ?_, ?_⟩
      · simp [Delivery.settle, unfinished.running]
      · simp [Delivery.settle, stops]
  | closing =>
      refine ⟨unfinished.counted, ?_, ?_⟩
      · simp [Delivery.settle, Delivery.ended, Cancellation.complete]
      · simp [Delivery.settle, Delivery.ended, stops, Outcome.stops]
  | fault message => exact unfinished.ended (by simp) (by simp [Outcome.stops])
  | refusal message => exact unfinished.ended (by simp) fun _ => stopped rfl
  | panic message => exact unfinished.ended (by simp) fun _ => stopped rfl

theorem send (unfinished : Unfinished d) (frames : List Sse.Frame) (purpose : Purpose)
    (stopped : purpose.stops = true → d.cancellation.signalled = true) :
    Lawful (d.send frames purpose) := by
  rw [Delivery.send]
  split
  · exact unfinished.settle purpose stopped
  · exact ⟨unfinished.counted, by simp [unfinished.running], stopped⟩

/-- A client that does not take what is written is gone, and that is signalled. -/
theorem giveUp (unfinished : Unfinished d) (purpose : Purpose)
    (stopped : purpose.stops = true → d.cancellation.signalled = true) :
    Lawful (d.giveUp purpose) := by
  cases purpose with
  | event | closing | fault =>
      exact unfinished.cancel.ended (by simp) fun _ => unfinished.signalled_cancel
  | refusal message => exact unfinished.ended (by simp) fun _ => stopped rfl
  | panic message => exact unfinished.ended (by simp) fun _ => stopped rfl

end Unfinished

namespace Lawful

variable {d d' : Delivery}

theorem fresh (mint : Nat → String) (dialect : Dialect) : Lawful (.fresh mint dialect) :=
  ⟨rfl, by simp [Delivery.fresh], by simp [Delivery.fresh, stops]⟩

theorem unfinished (lawful : Lawful d) (short : d.stage ≠ .over .completed) : Unfinished d where
  counted := lawful.counted
  running := Bool.eq_false_iff.2 fun completed => short (lawful.completed.1 completed)

/-- Anybody may cancel at any time. -/
theorem cancel (lawful : Lawful d) : Lawful d.cancel where
  counted := Cancellation.counted_cancel lawful.counted
  completed := (Cancellation.completed_cancel d.cancellation) ▸ lawful.completed
  stopped stops := by
    have before := lawful.stopped stops
    rw [Delivery.cancel, Cancellation.signalled_cancel, before, Bool.true_or]

theorem takeEvent (lawful : Lawful d) (waits : d.stage = .awaiting) (event : Event) :
    Lawful (d.takeEvent event) := by
  have unfinished := lawful.unfinished (by simp [waits])
  rw [Delivery.takeEvent]
  split
  · exact unfinished.send _ _ (by simp [Purpose.stops])
  · split
    · next encoder frames _ =>
      have next : Unfinished { d with encoder } := ⟨unfinished.counted, unfinished.running⟩
      exact next.send frames .event (by simp [Purpose.stops])
    · next encoder refusal _ =>
      have next : Unfinished { d with encoder } := ⟨unfinished.counted, unfinished.running⟩
      exact next.cancel.send _ _ fun _ => next.signalled_cancel

/-- **A move keeps the cancellation and the delivery together.** -/
theorem move (lawful : Lawful d) (move : Move d d') : Lawful d' := by
  cases move with
  | cancel early => exact lawful.cancel
  | notice waits signalled closed =>
      refine (lawful.unfinished (by simp [waits])).ended ?_ fun _ => signalled
      cases closed <;> simp
  | takeEvent waits event => exact lawful.takeEvent waits event
  | takeEnd waits quiet =>
      have unfinished := lawful.unfinished (by simp [waits])
      have next : Unfinished { d with encoder := d.encoder.close.1 } :=
        ⟨unfinished.counted, unfinished.running⟩
      exact next.send _ .closing (by simp [Purpose.stops])
  | takePanic waits message =>
      have unfinished := lawful.unfinished (by simp [waits])
      exact unfinished.cancel.send _ _ fun _ => unfinished.signalled_cancel
  | wrote =>
      rw [Delivery.wrote]
      split
      · next writes =>
        refine ⟨lawful.counted, ?_, ?_⟩
        · simp [(lawful.unfinished (by simp [writes])).running]
        · exact fun stops => lawful.stopped (by rwa [Delivery.stops, writes])
      · exact lawful
  | flushed =>
      rw [Delivery.flushed]
      split
      · next frames purpose flushes =>
        have unfinished := lawful.unfinished (by simp [flushes])
        have next : Unfinished (d.count purpose 1) := ⟨unfinished.counted, unfinished.running⟩
        exact next.send frames.tail purpose fun stops =>
          lawful.stopped (by rwa [Delivery.stops, flushes])
      · exact lawful
  | failed =>
      rw [Delivery.failed]
      split
      · next purpose writes =>
        exact (lawful.unfinished (by simp [writes])).giveUp purpose fun stops =>
          lawful.stopped (by rwa [Delivery.stops, writes])
      · next purpose flushes =>
        exact (lawful.unfinished (by simp [flushes])).giveUp purpose fun stops =>
          lawful.stopped (by rwa [Delivery.stops, flushes])
      · exact lawful

/-- **A run of moves keeps them together.** -/
theorem moves (lawful : Lawful d) (run : ReflTransGen Move d d') : Lawful d' := by
  induction run with
  | refl => exact lawful
  | tail _ move ih => exact ih.move move

end Lawful

/-- Closing frames are written without a signal. -/
def Quiet (d : Delivery) : Prop := d.closes = true → d.cancellation.signalled = false

namespace Quiet

variable {d d' : Delivery}

theorem of_not_closes (early : d.closes = false) : Quiet d :=
  fun closes => absurd closes (by simp [early])

theorem resumes (quiet : Quiet d) (resumes : d'.Resumes d) : Quiet d' :=
  fun closes => resumes.signalled.trans (quiet (resumes.closes ▸ closes))

/-- **A move keeps closing frames free of a signal.** -/
theorem move (quiet : Quiet d) (move : Move d d') : Quiet d' := by
  cases move with
  | cancel early => exact of_not_closes early
  | notice waits signalled closed => exact of_not_closes (by cases closed <;> rfl)
  | takeEvent waits event =>
      refine of_not_closes ?_
      rw [takeEvent]
      split
      · exact closes_send ..
      · split <;> exact closes_send ..
  | takeEnd waits free => exact fun _ => (signalled_send ..).trans free
  | takePanic waits message => exact of_not_closes (closes_send ..)
  | wrote => exact quiet.resumes d.resumes_wrote
  | flushed => exact quiet.resumes d.resumes_flushed
  | failed =>
      rcases d.failed_eq with same | ⟨d', outcome, same, -, short⟩
      · exact same.symm ▸ quiet
      · exact of_not_closes (by simp [same, short])

/-- **A run of moves keeps them free of one.** -/
theorem moves (quiet : Quiet d) (run : ReflTransGen Move d d') : Quiet d' := by
  induction run with
  | refl => exact quiet
  | tail _ move ih => exact ih.move move

end Quiet

/-! ## A whole delivery, move by move -/

/-- A delivery that waits has nothing closing about it. -/
theorem closes_of_awaiting {d : Delivery} (waits : d.stage = .awaiting) : d.closes = false := by
  rw [closes, waits]

section
variable {S : Type} [Sink S] {d : Delivery}

theorem pump_moves (d : Delivery) (s : S) (frames : List Sse.Frame) :
    ReflTransGen Move d (d.pump s frames).1 := by
  induction frames generalizing d s with
  | nil => exact .refl
  | cons f rest ih =>
      rw [pump]
      rcases Sink.write s f with ⟨_ | _, s'⟩
      · exact .single .failed
      · simp only
        rcases Sink.flush s' with ⟨_ | _, s''⟩
        · exact .head .wrote (.single .failed)
        · exact .head .wrote (.head .flushed (ih _ _))

theorem deliverTail_moves (lawful : Lawful d) (waits : d.stage = .awaiting) (s : S) (tail : Tail) :
    ReflTransGen Move d (d.deliverTail s tail).1 := by
  rw [deliverTail.eq_def]
  split
  · next signalled => exact .single (.notice waits signalled _)
  · next quiet =>
    rw [Bool.not_eq_true] at quiet
    cases tail with
    | ends => exact .head (.takeEnd waits quiet) (pump_moves _ _ _)
    | cancels =>
        have signalled := (lawful.unfinished (by simp [waits])).signalled_cancel
        have cancelled : Move d d.cancel := .cancel (closes_of_awaiting waits)
        have noticed : Move d.cancel (d.cancel.noticeCancel (Sink.isClosed s)) :=
          @Move.notice d.cancel waits signalled _
        exact .head cancelled (.single noticed)
    | panics message => exact .head (.takePanic waits message) (pump_moves _ _ _)
    | hangs => exact .refl

theorem deliverEvents_moves (lawful : Lawful d) (waits : d.stage = .awaiting) (s : S) (tail : Tail)
    (handouts : List Handout) : ReflTransGen Move d (d.deliverEvents s tail handouts).1 := by
  induction handouts generalizing d s with
  | nil => exact deliverTail_moves lawful waits s tail
  | cons h rest ih =>
      rw [deliverEvents]
      split
      · next signalled => exact .single (.notice waits signalled _)
      · have handed : ReflTransGen Move d (if h.cancels then d.cancel else d) := by
          split
          · exact .single (.cancel (closes_of_awaiting waits))
          · exact .refl
        have still : (if h.cancels then d.cancel else d).stage = .awaiting := by
          split <;> exact waits
        generalize (if h.cancels then d.cancel else d) = d₁ at handed still
        have taken := (handed.tail (.takeEvent still h.event)).trans
          (pump_moves _ s (d₁.takeEvent h.event).pending)
        obtain ⟨d₂, frames, purpose, sent⟩ := takeEvent_eq_send d₁ h.event
        have idle := stage_pumpAll_send d₂ s frames purpose
        rw [← sent] at idle
        simp only
        split
        · exact taken
        · next going => exact taken.trans (ih (lawful.moves taken) (idle.resolve_right going) _)

/-- **A delivery into a sink is a run of moves**, whatever the script and the sink. -/
theorem deliver_moves (mint : Nat → String) (dialect : Dialect) (s : S) (script : Script) :
    ReflTransGen Move (.fresh mint dialect) ((Delivery.fresh mint dialect).deliver s script).1 := by
  have lawful := Lawful.fresh mint dialect
  rw [deliver]
  split
  · exact .head (.cancel rfl) (deliverEvents_moves lawful.cancel rfl s script.tail script.handouts)
  · exact deliverEvents_moves lawful rfl s script.tail script.handouts

end

/-! ## A signal that comes with an event -/

section
variable {S : Type} [Sink S]

/-- A delivery that has been cancelled looks at nothing else. -/
theorem deliverEvents_cancelled {d : Delivery} (signalled : d.cancellation.signalled = true) (s : S)
    (tail : Tail) (handouts : List Handout) :
    d.deliverEvents s tail handouts = (d.noticeCancel (Sink.isClosed s), s) := by
  cases handouts with
  | nil => rw [deliverEvents, deliverTail.eq_def, if_pos signalled]
  | cons h rest => rw [deliverEvents, if_pos signalled]

/-- If events can be encoded, the first can, and the others after it. -/
theorem encode_cons {e e' : Encoder} {event : Event} {rest : List Event} {frames : List Sse.Frame}
    (encoded : e.encode (event :: rest) = (e', frames, none)) :
    ∃ next first later, event.fault = none ∧ e.feed event = (next, .ok first) ∧
      next.encode rest = (e', later, none) ∧ frames = first ++ later := by
  rw [Encoder.encode] at encoded
  split at encoded
  · cases encoded
  · next sound =>
    split at encoded
    · cases encoded
    · next next first fed =>
      rcases others : next.encode rest with ⟨last, later, halt⟩
      rw [others] at encoded
      cases encoded
      exact ⟨next, first, later, sound, fed, others, rfl⟩

/-- What an event brings is written and flushed, if the sink takes it, and then the delivery
waits again. -/
theorem pumpAll_takeEvent {d : Delivery} {event : Event} {e : Encoder} {frames : List Sse.Frame}
    (sound : event.fault = none) (fed : d.encoder.feed event = (e, .ok frames)) {s : S}
    (through : (Sink.handOver s frames).1 = frames.length) :
    (d.takeEvent event).pumpAll s =
      ({ d with encoder := e, stage := .awaiting, written := d.written + frames.length },
        (Sink.handOver s frames).2) := by
  have sent : d.takeEvent event = { d with encoder := e }.send frames .event := by
    rw [takeEvent, sound]
    simp only [fed]
  rw [sent, pumpAll_send, afterHandOver_event, if_pos through, through]
  rfl

/-- A sink that takes frames takes the first of them, and then the others. -/
theorem handOver_split {s : S} {first later : List Sse.Frame}
    (through : (Sink.handOver s (first ++ later)).1 = (first ++ later).length) :
    (Sink.handOver s first).1 = first.length ∧
    (Sink.handOver (Sink.handOver s first).2 later).1 = later.length ∧
    (Sink.handOver s (first ++ later)).2 = (Sink.handOver (Sink.handOver s first).2 later).2 := by
  have taken : (Sink.handOver s first).1 = first.length := by
    rcases Nat.lt_or_eq_of_le (Sink.handOver_le s first) with short | all
    · rw [Sink.handOver_append_of_lt short, List.length_append] at through
      omega
    · exact all
  rw [Sink.handOver_append_of_eq taken, List.length_append] at through
  exact ⟨taken, Nat.add_left_cancel through, by rw [Sink.handOver_append_of_eq taken]⟩

/-- **A signal that comes with an event stops the delivery behind the frames of this event**, if
the events so far can be encoded and the sink takes their frames. -/
theorem deliverEvents_mark {events : List Event} {n : Nat} {e : Encoder} {d : Delivery} {s : S}
    {frames : List Sse.Frame} (tail : Tail) (unfinished : Unfinished d)
    (waits : d.stage = .awaiting) (free : d.cancellation.signalled = false)
    (reached : n < events.length)
    (encoded : d.encoder.encode (events.take (n + 1)) = (e, frames, none))
    (through : (Sink.handOver s frames).1 = frames.length) :
    ∃ d', d.deliverEvents s tail (Script.mark n events) = (d', (Sink.handOver s frames).2) ∧
      d'.written = d.written + frames.length ∧
      d'.outcome? = some (if Sink.isClosed (Sink.handOver s frames).2 then .disconnected
        else .cancelled) := by
  induction events generalizing n d s frames with
  | nil => exact absurd reached (Nat.not_lt_zero n)
  | cons event rest ih =>
      rw [List.take_succ_cons] at encoded
      obtain ⟨next, first, later, sound, fed, others, rfl⟩ := encode_cons encoded
      obtain ⟨taken, through, last⟩ := handOver_split through
      rw [last]
      cases n with
      | zero =>
          cases others
          have pumped := pumpAll_takeEvent (d := d.cancel) sound fed taken
          let stopped : Delivery := { d.cancel with
            encoder := e, stage := .awaiting, written := d.written + first.length }
          have run : d.deliverEvents s tail (Script.mark 0 (event :: rest)) =
              (stopped.noticeCancel (Sink.isClosed (Sink.handOver s first).2),
                (Sink.handOver s first).2) := by
            rw [Script.mark, deliverEvents, free]
            simp only [Bool.false_eq_true, if_false, if_true]
            rw [pumped]
            exact deliverEvents_cancelled (d := stopped) unfinished.signalled_cancel
              (Sink.handOver s first).2 tail _
          refine ⟨_, run, ?_, rfl⟩
          rw [List.append_nil]
          rfl
      | succ n =>
          have pumped := pumpAll_takeEvent (d := d) sound fed taken
          obtain ⟨d', run, written, ended⟩ := @ih n
            { d with encoder := next, stage := .awaiting, written := d.written + first.length }
            (Sink.handOver s first).2 later ⟨unfinished.counted, unfinished.running⟩ rfl free
            (Nat.lt_of_succ_lt_succ reached) others through
          refine ⟨d', ?_, ?_, ended⟩
          · rw [Script.mark, deliverEvents, free]
            simp only [Bool.false_eq_true, if_false]
            rw [pumped]
            exact run
          · rw [written, List.length_append, Nat.add_assoc]

/-- The same for a whole delivery. A signal before the first event stops it before any frame. -/
theorem deliver_ofEvents_cancelled (mint : Nat → String) (dialect : Dialect) {events : List Event}
    {k : Int} {e : Encoder} {s : S} {frames : List Sse.Frame} (tail : Tail) (early : -1 ≤ k)
    (reached : k < events.length)
    (encoded : (Encoder.fresh mint dialect).encode (events.take (k + 1).toNat) = (e, frames, none))
    (through : (Sink.handOver s frames).1 = frames.length) :
    ∃ d', (Delivery.fresh mint dialect).deliver s (.ofEvents events tail (some k)) =
        (d', (Sink.handOver s frames).2) ∧
      d'.written = frames.length ∧
      d'.outcome? = some (if Sink.isClosed (Sink.handOver s frames).2 then .disconnected
        else .cancelled) := by
  have lawful := Lawful.fresh mint dialect
  by_cases before : k < 0
  · have first : k = -1 := by omega
    subst first
    cases encoded
    have run := deliverEvents_cancelled (d := (Delivery.fresh mint dialect).cancel) rfl s tail
      (events.map fun event => ⟨event, false⟩)
    exact ⟨_, run, rfl, rfl⟩
  · obtain ⟨n, rfl⟩ := Int.eq_ofNat_of_zero_le (Int.not_lt.1 before)
    obtain ⟨d', run, written, ended⟩ := deliverEvents_mark tail
      (lawful.unfinished (by simp [Delivery.fresh])) rfl rfl (Int.ofNat_lt.1 reached) encoded
      through
    refine ⟨d', ?_, written.trans (Nat.zero_add _), ended⟩
    rw [deliver, Script.ofEvents, if_neg before]
    exact run

/-- What a journal notes is answered by its sink. -/
theorem handOver_journal (j : Journal S) (frames : List Sse.Frame) :
    (Sink.handOver j frames).1 = (Sink.handOver j.sink frames).1 ∧
    (Sink.handOver j frames).2.sink = (Sink.handOver j.sink frames).2 := by
  induction frames generalizing j with
  | nil => exact ⟨rfl, rfl⟩
  | cons f rest ih =>
      have note : Sink.write j f = j.note (.write f) (Sink.write j.sink f) := rfl
      simp only [Sink.handOver, note]
      rcases Sink.write j.sink f with ⟨_ | _, sink⟩
      · exact ⟨rfl, rfl⟩
      · have note' (calls : List (Call × Bool)) : Sink.flush (Journal.mk sink calls) =
            (Journal.mk sink calls).note .flush (Sink.flush sink) := rfl
        simp only [Journal.note, note']
        rcases Sink.flush sink with ⟨_ | _, sink'⟩
        · exact ⟨rfl, rfl⟩
        · obtain ⟨count, same⟩ := ih ⟨sink', j.calls ++ [(.write f, true)] ++ [(.flush, true)]⟩
          exact ⟨congrArg (· + 1) count, same⟩

/-- A journal of frames that were all delivered. -/
theorem calls_of_through {j : Journal S} {frames : List Sse.Frame}
    (through : (Sink.handOver j frames).1 = frames.length) :
    (Sink.handOver j frames).2.calls = j.calls ++ (Call.delivering frames).map (·, true) := by
  obtain ⟨made, calls, noted⟩ := calls_handOver j frames
  rw [calls]
  cases noted with
  | through all same succeeded =>
      have each : made.map (fun c => (c.1, true)) = made.map id :=
        List.map_congr_left fun c member => Prod.ext rfl (succeeded c member).symm
      rw [← same, List.map_map]
      exact congrArg (j.calls ++ ·) ((List.map_id made).symm.trans each.symm)
  | failed before call last first succeeded short place =>
      exact absurd through (Nat.ne_of_lt short)

end
end DialectGateway.Delivery
