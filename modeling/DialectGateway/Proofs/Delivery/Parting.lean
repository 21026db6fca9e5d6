/-
# Proofs.Delivery.Parting — a client that goes away in two steps

A client goes away by signalling the cancellation and then closing its end of the pipe, and the
writing side may take its turns in between. A delivery ends as cancelled, which is to say that
the client was still there, in one way only: the writing side notices the signal while the pipe
is open (`Live.Advance.cancelled_iff`). So a client that nobody else disturbs is taken for one
that is still there exactly if the writing side looks between the two steps
(`departure_cancelled_iff`), as it may (`departure_misread`). It is never so taken if the two
steps are one, or before the first or after the second.
-/
import DialectGateway.Proofs.Delivery.Signals

set_option autoImplicit false

namespace DialectGateway.Delivery

open Relation (ReflTransGen)

theorem stage_send_ne_cancelled (d : Delivery) (frames : List Sse.Frame) (purpose : Purpose) :
    (d.send frames purpose).stage ≠ .over .cancelled := by
  cases frames <;> cases purpose <;> simp [send, settle, ended]

theorem stage_takeEvent_ne_cancelled (d : Delivery) (event : Event) :
    (d.takeEvent event).stage ≠ .over .cancelled := by
  obtain ⟨d', frames, purpose, sent⟩ := takeEvent_eq_send d event
  exact sent ▸ stage_send_ne_cancelled d' frames purpose

theorem stage_giveUp_ne_cancelled (d : Delivery) (purpose : Purpose) :
    (d.giveUp purpose).stage ≠ .over .cancelled := by
  cases purpose <;> simp [giveUp, ended]

namespace Live

/-- The writing side is about to notice the signal, and the client is still there. -/
structure NoticesEarly (l : Live) : Prop where
  waits : l.delivery.stage = .awaiting
  signalled : l.delivery.cancellation.signalled = true
  present : l.pipe.readerGone = false

/-- **A delivery is cancelled by noticing the signal while the client is there**, and in no other
way. -/
theorem Advance.cancelled_iff {l l' : Live} {put : List Sse.Frame} (step : Advance l put l') :
    l'.delivery.stage = .over .cancelled ↔
      l.delivery.stage = .over .cancelled ∨ l.NoticesEarly := by
  have never (other : l'.delivery.stage ≠ .over .cancelled)
      (before : l.delivery.stage ≠ .over .cancelled)
      (free : l.delivery.stage = .awaiting → l.delivery.cancellation.signalled = false) :
      l'.delivery.stage = .over .cancelled ↔
        l.delivery.stage = .over .cancelled ∨ l.NoticesEarly := by
    refine iff_of_false other (not_or.2 ⟨before, fun early => ?_⟩)
    exact absurd early.signalled (by simp [free early.waits])
  cases step with
  | notice waits signalled =>
      cases gone : l.pipe.readerGone with
      | true =>
          refine iff_of_false (by simp [noticeCancel, ended]) (not_or.2 ⟨by simp [waits], ?_⟩)
          exact fun early => absurd early.present (by simp [gone])
      | false => exact iff_of_true rfl (.inr ⟨waits, signalled, gone⟩)
  | event waits free =>
      exact never (stage_takeEvent_ne_cancelled _ _) (by simp [waits]) fun _ => free
  | ends waits free => exact never (stage_send_ne_cancelled _ _ _) (by simp [waits]) fun _ => free
  | cancels waits free =>
      refine never ?_ (by simp [waits]) fun _ => free
      simp [cancel, waits]
  | panics waits free => exact never (stage_send_ne_cancelled _ _ _) (by simp [waits]) fun _ => free
  | nothing writes | wrote writes =>
      exact never (by simp [Delivery.wrote, writes]) (by simp [writes]) (by simp [writes])
  | refused stage | unflushed stage =>
      refine never ?_ (by simp [stage]) (by simp [stage])
      simp only [failed, stage]
      exact stage_giveUp_ne_cancelled _ _
  | flushed flushes =>
      refine never ?_ (by simp [flushes]) (by simp [flushes])
      simp only [Delivery.flushed, flushes]
      exact stage_send_ne_cancelled _ _ _
  | close ended =>
      refine (or_iff_left fun early => ?_).symm
      exact absurd early.waits (by simp [ended])

/-- Nobody has stopped the delivery, and its backend will not either. -/
structure Undisturbed (l : Live) : Prop where
  free : l.delivery.goesOn = true → l.delivery.cancellation.signalled = false
  handouts : ∀ h ∈ l.handouts, h.cancels = false
  tail : l.tail ≠ .cancels

theorem Undisturbed.not_noticesEarly {l : Live} (undisturbed : Undisturbed l) :
    ¬ l.NoticesEarly := by
  intro early
  have free := undisturbed.free (by rw [goesOn, early.waits])
  exact absurd early.signalled (by simp [free])

/-- An event that comes without a signal leaves a delivery that goes on without one. -/
theorem free_takeEvent {d : Delivery} (free : d.cancellation.signalled = false) (event : Event)
    (on : (d.takeEvent event).goesOn = true) :
    (d.takeEvent event).cancellation.signalled = false := by
  rw [takeEvent] at on ⊢
  split at on
  · simp at on
  · split at on
    · exact (signalled_send ..).trans free
    · simp at on

/-- **The writing side does not disturb its own delivery**, while it goes on. -/
theorem Undisturbed.advance {l l' : Live} {put : List Sse.Frame} (undisturbed : Undisturbed l)
    (step : Advance l put l') : Undisturbed l' := by
  obtain ⟨free, handouts, tail⟩ := undisturbed
  cases step with
  | notice => exact ⟨fun on => absurd on (by simp [noticeCancel]), handouts, tail⟩
  | @event waits quiet h rest next =>
      rw [next, List.forall_mem_cons] at handouts
      rw [handouts.1]
      exact ⟨free_takeEvent quiet h.event, handouts.2, tail⟩
  | ends | panics => exact ⟨fun on => absurd on (by simp [takeEnd, takePanic]), handouts, by simp⟩
  | cancels waits quiet last => exact absurd last tail
  | nothing | wrote =>
      have same := l.delivery.resumes_wrote
      exact ⟨fun on => same.signalled.trans (free (same.goesOn ▸ on)), handouts, tail⟩
  | flushed =>
      have same := l.delivery.resumes_flushed
      exact ⟨fun on => same.signalled.trans (free (same.goesOn ▸ on)), handouts, tail⟩
  | refused stage | unflushed stage =>
      refine ⟨fun on => absurd on ?_, handouts, tail⟩
      simp only [failed, stage]
      cases ‹Purpose› <;> simp [giveUp]
  | close => exact ⟨free, handouts, tail⟩

end Live

/-! ## What becomes of the cancellation -/

/-- It can no longer be signalled. -/
def Cancellation.Deaf (c : Cancellation) : Prop := c.completed = true ∨ c.signalled = true

theorem Cancellation.deaf_cancel (c : Cancellation) : c.cancel.Deaf := by
  obtain ⟨signalled, completed, signals⟩ := c
  cases signalled <;> cases completed <;> simp [cancel, Deaf]

theorem Cancellation.deaf_complete (c : Cancellation) : c.complete.Deaf := .inl rfl

theorem cancellation_send (d : Delivery) (frames : List Sse.Frame) (purpose : Purpose) :
    (d.send frames purpose).cancellation = d.cancellation ∨
      (d.send frames purpose).cancellation = d.cancellation.complete := by
  cases frames <;> cases purpose <;> first | exact .inl rfl | exact .inr rfl

theorem cancellation_giveUp (d : Delivery) (purpose : Purpose) :
    (d.giveUp purpose).cancellation = d.cancellation ∨
      (d.giveUp purpose).cancellation = d.cancellation.cancel := by
  cases purpose <;> first | exact .inl rfl | exact .inr rfl

/-- A move leaves the cancellation alone, signals it or marks it as completed. -/
theorem Move.cancellation_cases {d d' : Delivery} (move : Move d d') :
    d'.cancellation = d.cancellation ∨ d'.cancellation = d.cancellation.cancel ∨
      d'.cancellation = d.cancellation.complete := by
  cases move with
  | cancel => exact .inr (.inl rfl)
  | notice => exact .inl rfl
  | takeEvent =>
      rw [Delivery.takeEvent]
      split
      · exact .inl rfl
      · split
        · exact (cancellation_send ..).imp_right .inr
        · exact .inr (.inl rfl)
  | takeEnd => exact (cancellation_send ..).imp_right .inr
  | takePanic => exact .inr (.inl rfl)
  | wrote =>
      rw [Delivery.wrote]
      split <;> exact .inl rfl
  | flushed =>
      rw [Delivery.flushed]
      split
      · exact (cancellation_send ..).imp_right .inr
      · exact .inl rfl
  | failed =>
      rw [Delivery.failed]
      split
      · exact (cancellation_giveUp ..).imp_right .inl
      · exact (cancellation_giveUp ..).imp_right .inl
      · exact .inl rfl

theorem Move.deaf {d d' : Delivery} (move : Move d d') (deaf : d.cancellation.Deaf) :
    d'.cancellation.Deaf := by
  rcases move.cancellation_cases with same | signalled | completed
  · exact same ▸ deaf
  · exact signalled ▸ Cancellation.deaf_cancel _
  · exact completed ▸ Cancellation.deaf_complete _

theorem moves_deaf {d d' : Delivery} (moves : ReflTransGen Move d d')
    (deaf : d.cancellation.Deaf) : d'.cancellation.Deaf := by
  induction moves with
  | refl => exact deaf
  | tail _ move ih => exact move.deaf ih

/-- Nothing is signalled by what the backend does. -/
structure Script.Uncancelled (script : Script) : Prop where
  first : script.cancelledFirst = false
  handouts : ∀ h ∈ script.handouts, h.cancels = false
  tail : script.tail ≠ .cancels

/-- The client stays, and nobody signals. -/
def Turn.Stays (t : Turn) : Prop := t = .advance ∨ t = .read

namespace Session

variable {s : Session}

theorem run_cons (s : Session) (t : Turn) (rest : List Turn) :
    s.run (t :: rest) = (s.turn t).run rest := rfl

theorem run_append (s : Session) (turns more : List Turn) :
    s.run (turns ++ more) = (s.run turns).run more := List.foldl_append

/-- What every turn keeps, the run of them keeps. -/
theorem run_keeps {P : Session → Prop} {turns : List Turn}
    (each : ∀ t ∈ turns, ∀ {s : Session}, P s → P (s.turn t)) (begun : P s) : P (s.run turns) := by
  induction turns generalizing s with
  | nil => exact begun
  | cons t rest ih =>
      rw [List.forall_mem_cons] at each
      exact ih each.2 (each.1 begun)

/-! ## How a delivery comes to be cancelled -/

/-- A signal is noticed at the next turn of the writing side. -/
theorem turn_noticesEarly (early : s.live.NoticesEarly) :
    (s.turn .advance).live.delivery.stage = .over .cancelled := by
  have step : s.live.advance =
      some { s.live with delivery := s.live.delivery.noticeCancel s.live.pipe.readerGone } := by
    rw [Live.advance, early.waits]
    simp only [Live.await, early.signalled, if_true]
  rw [turn, step, early.present]
  rfl

/-- The writing side cancels the delivery by noticing the signal early, and no other turn does. -/
theorem turn_cancelled_iff (s : Session) (t : Turn) :
    (s.turn t).live.delivery.stage = .over .cancelled ↔
      s.live.delivery.stage = .over .cancelled ∨ t = .advance ∧ s.live.NoticesEarly := by
  cases t with
  | advance =>
      constructor
      · rcases s.turn_advance with same | ⟨live, step, same⟩ <;> rw [same]
        · exact .inl
        · exact fun ended => (step.cancelled_iff.1 ended).imp_right fun early => ⟨rfl, early⟩
      · rintro (ended | ⟨-, early⟩)
        · exact (over_turn ended .advance).2.1
        · exact turn_noticesEarly early
  | read =>
      have same : (s.turn .read).live.delivery = s.live.delivery := by
        rcases s.turn_read with same | ⟨f, queue, queued, same⟩ <;> rw [same]
      simp [same]
  | signal | hangUp | drop =>
      refine (or_iff_left fun other => ?_).symm
      exact absurd other.1 (by simp)

/-- **A run cancels the delivery at a turn of the writing side**, at which the signal is given and
the client is still there. -/
theorem run_cancelled_iff (s : Session) (turns : List Turn) :
    (s.run turns).live.delivery.stage = .over .cancelled ↔
      s.live.delivery.stage = .over .cancelled ∨
        ∃ earlier later, turns = earlier ++ .advance :: later ∧
          (s.run earlier).live.NoticesEarly := by
  induction turns generalizing s with
  | nil => simp [run]
  | cons t rest ih =>
      rw [run_cons, ih, turn_cancelled_iff, or_assoc]
      refine or_congr_right ⟨?_, ?_⟩
      · rintro (⟨rfl, early⟩ | ⟨earlier, later, rfl, early⟩)
        · exact ⟨[], rest, rfl, early⟩
        · exact ⟨t :: earlier, later, rfl, early⟩
      · rintro ⟨earlier, later, split, early⟩
        cases earlier with
        | nil =>
            cases split
            exact .inl ⟨rfl, early⟩
        | cons first earlier =>
            cases split
            exact .inr ⟨earlier, later, rfl, early⟩

/-! ## What lasts -/

/-- A client that is gone does not come back. -/
theorem gone_lasts (gone : s.live.pipe.readerGone = true) (turns : List Turn) :
    (s.run turns).live.pipe.readerGone = true :=
  run_keeps (P := fun s => s.live.pipe.readerGone = true)
    (fun t _ _ gone => (gone_turn gone t).2) gone

/-- Once the client is gone, whatever else happens does not cancel the delivery. -/
theorem gone_cancelled_iff (gone : s.live.pipe.readerGone = true) (turns : List Turn) :
    (s.run turns).live.delivery.stage = .over .cancelled ↔
      s.live.delivery.stage = .over .cancelled := by
  rw [run_cancelled_iff]
  refine or_iff_left ?_
  rintro ⟨earlier, later, -, early⟩
  exact absurd early.present (by simp [gone_lasts gone earlier])

/-- As long as the client stays, nobody stops the delivery. -/
theorem undisturbed_turn (undisturbed : s.live.Undisturbed) {t : Turn} (stays : t.Stays) :
    (s.turn t).live.Undisturbed := by
  rcases stays with rfl | rfl
  · rcases s.turn_advance with same | ⟨live, step, same⟩ <;> rw [same]
    · exact undisturbed
    · exact undisturbed.advance step
  · rcases s.turn_read with same | ⟨f, queue, queued, same⟩ <;> rw [same]
    · exact undisturbed
    · exact ⟨undisturbed.free, undisturbed.handouts, undisturbed.tail⟩

theorem undisturbed_run (undisturbed : s.live.Undisturbed) {turns : List Turn}
    (stays : ∀ t ∈ turns, t.Stays) : (s.run turns).live.Undisturbed :=
  run_keeps (P := fun s => s.live.Undisturbed)
    (fun t member _ undisturbed => undisturbed_turn undisturbed (stays t member)) undisturbed

/-- A delivery that nobody stops is not cancelled. -/
theorem run_ne_cancelled (undisturbed : s.live.Undisturbed)
    (going : s.live.delivery.stage ≠ .over .cancelled) {turns : List Turn}
    (stays : ∀ t ∈ turns, t.Stays) : (s.run turns).live.delivery.stage ≠ .over .cancelled := by
  rw [Ne, run_cancelled_iff]
  refine not_or.2 ⟨going, ?_⟩
  rintro ⟨earlier, later, rfl, early⟩
  rw [List.forall_mem_append] at stays
  exact (undisturbed_run undisturbed stays.1).not_noticesEarly early

theorem present_turn (present : s.live.pipe.readerGone = false) {t : Turn} (stays : t.Stays) :
    (s.turn t).live.pipe.readerGone = false := by
  rcases stays with rfl | rfl
  · rcases s.turn_advance with same | ⟨live, step, same⟩ <;> rw [same]
    · exact present
    · generalize s.live.puts = put at step
      cases step <;> exact present
  · rcases s.turn_read with same | ⟨f, queue, queued, same⟩ <;> rw [same] <;> exact present

/-- A client that stays is there. -/
theorem present_run (present : s.live.pipe.readerGone = false) {turns : List Turn}
    (stays : ∀ t ∈ turns, t.Stays) : (s.run turns).live.pipe.readerGone = false :=
  run_keeps (P := fun s => s.live.pipe.readerGone = false)
    (fun t member _ present => present_turn present (stays t member)) present

theorem deaf_turn (deaf : s.live.delivery.cancellation.Deaf) (t : Turn) :
    (s.turn t).live.delivery.cancellation.Deaf := by
  cases t with
  | advance =>
      rcases s.turn_advance with same | ⟨live, step, same⟩ <;> rw [same]
      · exact deaf
      · exact moves_deaf step.moves deaf
  | read =>
      rcases s.turn_read with same | ⟨f, queue, queued, same⟩ <;> rw [same] <;> exact deaf
  | signal | drop => exact Cancellation.deaf_cancel _
  | hangUp => exact deaf

theorem deaf_run (deaf : s.live.delivery.cancellation.Deaf) (turns : List Turn) :
    (s.run turns).live.delivery.cancellation.Deaf :=
  run_keeps (P := fun s => s.live.delivery.cancellation.Deaf) (fun t _ _ deaf => deaf_turn deaf t)
    deaf

/-- A delivery that waits with a deaf cancellation has been signalled. -/
theorem signalled_of_deaf {d : Delivery} (lawful : Lawful d) (waits : d.stage = .awaiting)
    (deaf : d.cancellation.Deaf) : d.cancellation.signalled = true := by
  refine deaf.resolve_left fun completed => ?_
  have ended := lawful.completed.1 completed
  simp [waits] at ended

/-! ## The two steps of going away -/

theorem undisturbed_ofScript (mint : Nat → String) (dialect : Dialect) (buffer : Nat)
    {script : Script} (alone : script.Uncancelled) :
    (ofScript mint dialect buffer script).live.Undisturbed := by
  refine ⟨fun _ => ?_, alone.handouts, alone.tail⟩
  simp only [ofScript, Live.ofScript, alone.first]
  rfl

/-- **A client that goes away is taken for one that was stopped exactly if the writing side looks
between its two steps.** Nobody else signals: neither the backend nor, before the second step,
anybody but the client. Then a delivery is not cancelled before the client goes away, nor after,
if the two steps are one. With turns in between it is cancelled if and only if one of these turns
is the writing side's while it waits for the backend. -/
theorem departure_cancelled_iff (mint : Nat → String) (dialect : Dialect) (buffer : Nat)
    {script : Script} (alone : script.Uncancelled) {before between : List Turn}
    (stays : ∀ t ∈ before ++ between, t.Stays) (after : List Turn) :
    let start := ofScript mint dialect buffer script
    let delivery (turns : List Turn) : Delivery := (start.run turns).live.delivery
    (delivery before).outcome? ≠ some .cancelled ∧
    (delivery (before ++ .drop :: after)).outcome? ≠ some .cancelled ∧
    ((delivery (before ++ .signal :: (between ++ .hangUp :: after))).outcome? = some .cancelled ↔
      ∃ earlier later, between = earlier ++ .advance :: later ∧
        (delivery (before ++ .signal :: earlier)).stage = .awaiting) := by
  intro start delivery
  rw [List.forall_mem_append] at stays
  have going : start.live.delivery.stage ≠ .over .cancelled := by
    simp only [start, ofScript, Live.ofScript, alone.first]
    exact Stage.noConfusion
  have calm := run_ne_cancelled (undisturbed_ofScript mint dialect buffer alone) going stays.1
  have present : (start.run before).live.pipe.readerGone = false := present_run rfl stays.1
  have lawful : Lawful (start.run before).live.delivery := lawful_run (lawful_ofScript ..) before
  simp only [Ne, outcome?_eq_some, delivery, run_append, run_cons]
  generalize start.run before = s at calm present lawful
  refine ⟨calm, ?_, ?_⟩
  -- What comes after the second step finds the client gone, so only the turns before it count.
  · rw [gone_cancelled_iff (s := s.turn .drop) rfl after]
    exact calm
  · rw [gone_cancelled_iff (s := ((s.turn .signal).run between).turn .hangUp) rfl after]
    refine (run_cancelled_iff (s.turn .signal) between).trans ((or_iff_right calm).trans ?_)
    refine exists_congr fun earlier => exists_congr fun later => and_congr_right fun split => ?_
    have staying := split ▸ stays.2
    rw [List.forall_mem_append] at staying
    refine ⟨Live.NoticesEarly.waits, fun waits => ⟨waits, ?_, ?_⟩⟩
    · exact signalled_of_deaf (lawful_run lawful.cancel earlier) waits
        (deaf_run (Cancellation.deaf_cancel _) earlier)
    · exact present_run (s := s.turn .signal) present staying.1

/-- A client reads the first frame and goes away. It is taken for gone if the writing side looks
after both steps, or if they are one, and for one that was stopped if it looks in between. -/
theorem departure_cancelled_iff_greeting :
    let start := ofScript (fun _ => "") .chat 0 (.plain [greeting])
    let outcome (turns : List Turn) := (start.run turns).live.delivery.outcome?
    let first : List Turn := [.advance, .advance, .advance, .read]
    (Script.plain [greeting]).Uncancelled ∧ (∀ t ∈ first ++ [.advance], t.Stays) ∧
    outcome first ≠ some .cancelled ∧
    outcome (first ++ [.drop, .advance]) ≠ some .cancelled ∧
    outcome (first ++ [.signal, .hangUp, .advance]) ≠ some .cancelled ∧
    outcome (first ++ [.signal, .advance, .hangUp]) = some .cancelled := by
  intro start outcome first
  have alone : (Script.plain [greeting]).Uncancelled := ⟨rfl, by decide, by decide⟩
  have stays : ∀ t ∈ first ++ [.advance], t.Stays := by simp [first, Turn.Stays]
  have stays' : ∀ t ∈ first ++ [], t.Stays := by simp [first, Turn.Stays]
  obtain ⟨running, dropped, late⟩ := departure_cancelled_iff (fun _ => "") .chat 0 alone stays'
    [.advance]
  obtain ⟨-, -, early⟩ := departure_cancelled_iff (fun _ => "") .chat 0 alone stays []
  refine ⟨alone, stays, running, dropped, fun cancelled => ?_, early.2 ⟨[], [], rfl, ?_⟩⟩
  · obtain ⟨earlier, later, split, -⟩ := late.1 cancelled
    exact absurd split (by simp)
  · decide +kernel

/-- A client goes away, nobody else signals, and the delivery ends as one that somebody stopped
while the client was still there. -/
theorem departure_misread :
    let start := ofScript (fun _ => "") .chat 0 (.plain [greeting])
    let s := start.run [.signal, .advance, .hangUp]
    (Script.plain [greeting]).Uncancelled ∧ s.live.pipe.readerGone = true ∧
    s.live.delivery.cancellation.signals = 1 ∧ s.live.delivery.outcome? = some .cancelled :=
  ⟨⟨rfl, by decide, by decide⟩, rfl, rfl, rfl⟩

end Session
end DialectGateway.Delivery
