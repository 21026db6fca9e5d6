/-
# Proofs.Delivery.Signals — one signal at most, and what it tells

A delivery and everybody who may stop it share one cancellation. Whoever cancels and however
often, what the cancellation says in the end goes with how the delivery ended (`Tells`): it was
signalled once if the delivery stopped, and it is marked as completed, and deaf to whatever comes
later, exactly if the delivery was completed.

A completed delivery was never signalled at all, if nobody signals while closing frames are
written without going away as well. For deliveries into a sink this is so because signals come
before the first event or with an event. For live deliveries it is asked of the turns (`Timely`);
a client that goes away may do so at any time, because the next write or flush fails then
(`QuietOrGone`).
-/
import DialectGateway.Proofs.Delivery.Session

set_option autoImplicit false

namespace DialectGateway.Delivery

/-- What the cancellation tells of how the delivery ended. -/
structure Tells (d : Delivery) : Prop where
  once : d.cancellation.signals ≤ 1
  completed : d.cancellation.completed = true ↔ d.outcome? = some .completed
  /-- Nobody can cancel what has been completed. -/
  immune : d.outcome? = some .completed → d.cancellation.cancel = d.cancellation
  stopped : ∀ outcome, d.outcome? = some outcome → outcome.stops = true →
    d.cancellation.signalled = true ∧ d.cancellation.signals = 1

/-- The delivery was never signalled if it has been completed. -/
def Unsignalled (d : Delivery) : Prop :=
  d.outcome? = some .completed → d.cancellation.signalled = false ∧ d.cancellation.signals = 0

@[simp] theorem closes_giveUp (d : Delivery) (purpose : Purpose) :
    (d.giveUp purpose).closes = false := by
  cases purpose <;> rfl

theorem completed_of_closes {d : Delivery} (closes : d.closes = true) (ended : d.isOver = true) :
    d.stage = .over .completed := by
  rw [Delivery.closes] at closes
  split at closes
  · next writes => exact absurd ended (by simp [isOver, writes])
  · next flushes => exact absurd ended (by simp [isOver, flushes])
  · next completed => exact completed
  · exact absurd closes Bool.false_ne_true

theorem outcome?_eq_some {d : Delivery} {outcome : Outcome} :
    d.outcome? = some outcome ↔ d.stage = .over outcome := by
  rw [outcome?]
  split
  · next ended => simp [ended]
  · next other =>
    refine ⟨fun absent => absurd absent (by simp), fun ended => absurd ended ?_⟩
    exact other outcome

theorem Lawful.tells {d : Delivery} (lawful : Lawful d) : Tells d where
  once := by
    rw [lawful.counted]
    split <;> decide
  completed := lawful.completed.trans outcome?_eq_some.symm
  immune ended := Cancellation.cancel_of_completed (lawful.completed.2 (outcome?_eq_some.1 ended))
  stopped outcome ended stops := by
    have signalled := lawful.stopped (by rwa [Delivery.stops, outcome?_eq_some.1 ended])
    exact ⟨signalled, by rw [lawful.counted, signalled, if_pos rfl]⟩

theorem Lawful.unsignalled {d : Delivery} (lawful : Lawful d)
    (quiet : d.stage = .over .completed → d.cancellation.signalled = false) : Unsignalled d := by
  intro ended
  have free := quiet (outcome?_eq_some.1 ended)
  exact ⟨free, by rw [lawful.counted, free]; rfl⟩

namespace Session

/-- Nobody signals and stays while closing frames are written. -/
def Timely : Session → List Turn → Prop
  | _, [] => True
  | s, t :: rest => (t = .signal → s.live.delivery.closes = false) ∧ (s.turn t).Timely rest

/-- Closing frames are written without a signal, or into a pipe that nobody reads, and then
to no avail. -/
def QuietOrGone (s : Session) : Prop :=
  s.live.delivery.closes = true → s.live.delivery.cancellation.signalled = false ∨
    s.live.pipe.readerGone = true ∧ s.live.delivery.isOver = false

namespace QuietOrGone

variable {s : Session}

theorem of_quiet (quiet : Quiet s.live.delivery) : QuietOrGone s :=
  fun closes => .inl (quiet closes)

/-- A step of the writing side is quiet if the delivery was, and else the client is gone and the
step cannot succeed. -/
theorem advance (quiet : QuietOrGone s) {put : List Sse.Frame} {live : Live}
    (step : Live.Advance s.live put live) (written : List Sse.Frame) :
    QuietOrGone { s with live, written } := by
  by_cases before : Quiet s.live.delivery
  · exact of_quiet (before.moves step.moves)
  · rw [Quiet, Classical.not_imp] at before
    obtain ⟨closes, signalled⟩ := before
    obtain ⟨gone, going⟩ := (quiet closes).resolve_left signalled
    have awaits (waits : s.live.delivery.stage = .awaiting) : False := by
      simp [closes_of_awaiting waits] at closes
    cases step with
    | notice waits | event waits | ends waits | cancels waits | panics waits =>
        exact (awaits waits).elim
    | nothing writes =>
        refine fun _ => .inr ⟨gone, ?_⟩
        simp [wrote, writes, isOver]
    | wrote writes present | flushed writes present => exact absurd gone (by simp [present])
    | refused writes =>
        refine of_quiet (.of_not_closes ?_)
        simp only [failed, writes, closes_giveUp]
    | unflushed flushes =>
        refine of_quiet (.of_not_closes ?_)
        simp only [failed, flushes, closes_giveUp]
    | close ended => exact absurd going (by simp [isOver, ended])

/-- A client that goes away while closing frames are written is gone before they are through,
and a delivery that is through is deaf. -/
theorem drop (quiet : QuietOrGone s) (lawful : Lawful s.live.delivery) :
    QuietOrGone (s.turn .drop) := by
  intro (closes : s.live.delivery.closes = true)
  cases ended : s.live.delivery.isOver with
  | false => exact .inr ⟨rfl, ended⟩
  | true =>
      have free := (quiet closes).resolve_right fun gone => absurd ended (by simp [gone.2])
      have completed := lawful.completed.2 (completed_of_closes closes ended)
      have deaf : (s.turn .drop).live.delivery.cancellation = s.live.delivery.cancellation :=
        Cancellation.cancel_of_completed completed
      exact .inl (deaf ▸ free)

/-- **A turn leaves closing frames without a signal**, or without a reader. -/
theorem turn (quiet : QuietOrGone s) (lawful : Lawful s.live.delivery) {t : Turn}
    (timely : t = .signal → s.live.delivery.closes = false) : QuietOrGone (s.turn t) := by
  cases t with
  | advance =>
      rcases s.turn_advance with same | ⟨live, step, same⟩
      · exact same.symm ▸ quiet
      · exact same.symm ▸ quiet.advance step _
  | read =>
      rcases s.turn_read with same | ⟨f, queue, queued, same⟩ <;> exact same.symm ▸ quiet
  | signal =>
      intro (closes : s.live.delivery.closes = true)
      exact absurd closes (by simp [timely rfl])
  | hangUp =>
      intro closes
      exact (quiet closes).imp_right fun gone => ⟨rfl, gone.2⟩
  | drop => exact quiet.drop lawful

/-- **So does a run of timely turns.** -/
theorem run (quiet : QuietOrGone s) (lawful : Lawful s.live.delivery) {turns : List Turn}
    (timely : s.Timely turns) : QuietOrGone (s.run turns) := by
  induction turns generalizing s with
  | nil => exact quiet
  | cons t rest ih => exact ih (quiet.turn lawful timely.1) (lawful_turn lawful t) timely.2

end QuietOrGone

/-- The beginning has nothing closing about it. -/
theorem quiet_ofScript (mint : Nat → String) (dialect : Dialect) (buffer : Nat)
    (script : Script) : QuietOrGone (ofScript mint dialect buffer script) := by
  refine .of_quiet (.of_not_closes ?_)
  simp only [ofScript, Live.ofScript]
  split <;> rfl

theorem unsignalled {s : Session} (lawful : Lawful s.live.delivery) (quiet : QuietOrGone s) :
    Unsignalled s.live.delivery := by
  refine lawful.unsignalled fun ended => ?_
  refine (quiet (by rw [closes, ended])).resolve_right fun gone => ?_
  exact absurd gone.2 (by simp [isOver, ended])

end Session

/-- **The cancellation goes with how a delivery ends**, for every dialect.

A signal that comes while an event is handed out, or before the first, stops the delivery behind
the frames of this event: if these events can be encoded and the sink takes their frames, it is
asked for exactly these and for nothing more, and the client counts as gone if the sink says so.

However a delivery into a sink runs, and whatever turns a live delivery and its client take, the
cancellation was signalled at most once and tells how the delivery ended; and a completed delivery
was never signalled. In a live delivery this last takes that nobody signals, and stays, while
closing frames are written. -/
theorem cancellation_tells (mint : Nat → String) (dialect : Dialect) :
    (∀ {S : Type} [Sink S] (sink : S) (events : List Event) (tail : Tail) (k : Int) (e : Encoder)
        (frames : List Sse.Frame),
      -1 ≤ k → k < events.length →
      (Encoder.fresh mint dialect).encode (events.take (k + 1).toNat) = (e, frames, none) →
      (Sink.handOver sink frames).1 = frames.length →
      let run := (Delivery.fresh mint dialect).deliver (Journal.mk sink [])
        (.ofEvents events tail (some k))
      run.2.calls = (Call.delivering frames).map (·, true) ∧ run.1.written = frames.length ∧
      run.1.outcome? = some (if Sink.isClosed run.2 then .disconnected else .cancelled)) ∧
    (∀ {S : Type} [Sink S] (sink : S) (script : Script),
      let d := ((Delivery.fresh mint dialect).deliver sink script).1
      Tells d ∧ Unsignalled d) ∧
    (∀ (buffer : Nat) (script : Script) (turns : List Turn),
      let start := Session.ofScript mint dialect buffer script
      let d := (start.run turns).live.delivery
      Tells d ∧ (start.Timely turns → Unsignalled d)) := by
  refine ⟨?_, ?_, ?_⟩
  · intro S _ sink events tail k e frames early reached encoded through
    obtain ⟨count, same⟩ := handOver_journal (Journal.mk sink []) frames
    obtain ⟨d', run, written, ended⟩ := deliver_ofEvents_cancelled mint dialect
      (s := Journal.mk sink []) tail early reached encoded (count.trans through)
    intro run'
    rw [show run' = _ from run]
    refine ⟨?_, written, ended⟩
    exact (calls_of_through (count.trans through)).trans (List.nil_append _)
  · intro S _ sink script d
    have moves := deliver_moves mint dialect sink script
    have lawful : Lawful d := (Lawful.fresh mint dialect).moves moves
    have quiet : Quiet d := Quiet.moves (.of_not_closes rfl) moves
    exact ⟨lawful.tells, lawful.unsignalled fun ended => quiet (by rw [closes, ended])⟩
  · intro buffer script turns start d
    have begun := Session.lawful_ofScript mint dialect buffer script
    have lawful : Lawful d := Session.lawful_run begun turns
    refine ⟨lawful.tells, fun timely => ?_⟩
    have quiet := Session.quiet_ofScript mint dialect buffer script
    exact Session.unsignalled lawful (quiet.run begun timely)

/-- Of two events the second is never taken if the first comes with a signal; the client counts as
gone from a sink that is full by then. A panic signals once, and a client that reads to the end
and goes away not at all. -/
theorem cancellation_tells_greeting :
    let fresh := Delivery.fresh (fun _ => "") .chat
    let frame : Sse.Frame := .json none (Chat.chunkJson Session.greeting)
    let cut := fresh.deliver (Journal.mk ({ writeLimit := some 1 } : Recorder) [])
      (.ofEvents [Session.greeting, Session.greeting] .ends (some 0))
    let panic := (fresh.deliver ({} : Recorder) ⟨false, [], .panics "lost"⟩).1
    let patient := (Session.patient.run [.drop]).live.delivery
    (cut.2.calls = [(.write frame, true), (.flush, true)] ∧
      cut.1.outcome? = some .disconnected) ∧
    (panic.outcome? = some (.panicked "lost") ∧ panic.cancellation.signals = 1) ∧
    patient.outcome? = some .completed ∧ patient.cancellation.signals = 0 := by
  intro fresh frame cut panic patient
  obtain ⟨stopped, told, live⟩ := cancellation_tells (fun _ => "") .chat
  have encoded : (Encoder.fresh (fun _ => "") .chat).encode [Session.greeting] =
    (Encoder.fresh (fun _ => "") .chat, [frame], none) := rfl
  obtain ⟨calls, -, ended⟩ := stopped ({ writeLimit := some 1 } : Recorder)
    [Session.greeting, Session.greeting] .ends 0 _ _ (by decide) (by decide) encoded rfl
  have panicked := ((told ({} : Recorder) ⟨false, [], .panics "lost"⟩).1.stopped _ rfl rfl).2
  obtain ⟨-, unsignalled⟩ := live 0 (.plain [Session.greeting])
    (Session.untilFull ++ [.read, .advance, .advance, .advance, .read] ++ [.drop])
  have finished : patient.outcome? = some .completed := by decide +kernel
  have quiet := unsignalled (by simp [Session.untilFull, Session.Timely]) finished
  exact ⟨⟨calls, ended⟩, ⟨rfl, panicked⟩, finished, quiet.2⟩

end DialectGateway.Delivery
