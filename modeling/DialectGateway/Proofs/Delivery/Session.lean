/-
# Proofs.Delivery.Session — what a client has is what was written for it

A live delivery and its client take turns in any order: the writing side takes its next step,
the client reads a frame, signals, closes its end of the pipe, or does both at once. A `Session`
is the live delivery with two logs, of the frames put into the pipe and of the frames read from
it.

While the client is there, what was written is what was received and then what is queued, and
no more is queued than the pipe holds; after that, what was received is what the client had when
it went away, and nothing more is written (`Orderly`). Every turn keeps this (`Orderly.turn`).
The end of the pipe is seen only after a delivery is over, and a completed delivery has been
marked as completed by then, so that going away signals nothing (`run_in_order`).

`Advance` says once what a step of the writing side can be, with its guards.
-/
import DialectGateway.Proofs.Delivery.Moves

set_option autoImplicit false

namespace DialectGateway.Delivery

open Relation (ReflTransGen)

/-! ## The steps of the writing side -/

namespace Live

/-- What the next step of the writing side puts into the pipe. -/
def puts (l : Live) : List Sse.Frame :=
  match l.delivery.stage with
  | .writing (f :: _) _ =>
    match l.pipe.write f with
    | .accepted _ => [f]
    | .full | .gone => []
  | _ => []

/-- A step of the writing side, with what it puts into the pipe. -/
inductive Advance (l : Live) : List Sse.Frame → Live → Prop
  | notice (waits : l.delivery.stage = .awaiting)
      (signalled : l.delivery.cancellation.signalled = true) :
      Advance l [] { l with delivery := l.delivery.noticeCancel l.pipe.readerGone }
  | event (waits : l.delivery.stage = .awaiting)
      (free : l.delivery.cancellation.signalled = false) {h : Handout} {handouts : List Handout}
      (next : l.handouts = h :: handouts) :
      Advance l [] { l with
        delivery := (if h.cancels then l.delivery.cancel else l.delivery).takeEvent h.event
        handouts }
  | ends (waits : l.delivery.stage = .awaiting)
      (free : l.delivery.cancellation.signalled = false) (last : l.tail = .ends) :
      Advance l [] { l with delivery := l.delivery.takeEnd, tail := .hangs }
  | cancels (waits : l.delivery.stage = .awaiting)
      (free : l.delivery.cancellation.signalled = false) (last : l.tail = .cancels) :
      Advance l [] { l with delivery := l.delivery.cancel, tail := .hangs }
  | panics (waits : l.delivery.stage = .awaiting)
      (free : l.delivery.cancellation.signalled = false) {message : String}
      (last : l.tail = .panics message) :
      Advance l [] { l with delivery := l.delivery.takePanic message, tail := .hangs }
  | nothing {purpose : Purpose} (writes : l.delivery.stage = .writing [] purpose) :
      Advance l [] { l with delivery := l.delivery.wrote }
  | wrote {f : Sse.Frame} {rest : List Sse.Frame} {purpose : Purpose}
      (writes : l.delivery.stage = .writing (f :: rest) purpose)
      (present : l.pipe.readerGone = false) (room : l.pipe.queue.length < l.pipe.capacity) :
      Advance l [f] { l with
        delivery := l.delivery.wrote
        pipe := { l.pipe with queue := l.pipe.queue ++ [f] } }
  | refused {frames : List Sse.Frame} {purpose : Purpose}
      (writes : l.delivery.stage = .writing frames purpose) (gone : l.pipe.readerGone = true) :
      Advance l [] { l with delivery := l.delivery.failed }
  | flushed {frames : List Sse.Frame} {purpose : Purpose}
      (flushes : l.delivery.stage = .flushing frames purpose)
      (present : l.pipe.readerGone = false) :
      Advance l [] { l with delivery := l.delivery.flushed }
  | unflushed {frames : List Sse.Frame} {purpose : Purpose}
      (flushes : l.delivery.stage = .flushing frames purpose) (gone : l.pipe.readerGone = true) :
      Advance l [] { l with delivery := l.delivery.failed }
  | close {outcome : Outcome} (ended : l.delivery.stage = .over outcome)
      (unclosed : l.pipe.writerGone = false) :
      Advance l [] { l with pipe := l.pipe.dropWriter }

theorem Advance.of_await {l l' : Live} (waits : l.delivery.stage = .awaiting)
    (step : l.await = some l') : Advance l [] l' := by
  unfold await at step
  split at step
  · next signalled =>
    cases step
    exact .notice waits signalled
  · next free =>
    rw [Bool.not_eq_true] at free
    split at step
    · next next =>
      cases step
      exact .event waits free next
    · unfold afterLast at step
      split at step <;> cases step
      · next last => exact .ends waits free last
      · next last => exact .cancels waits free last
      · next last => exact .panics waits free last

theorem Advance.of_put {l l' : Live} {frames : List Sse.Frame} {purpose : Purpose}
    (writes : l.delivery.stage = .writing frames purpose) (step : l.put frames = some l') :
    Advance l l.puts l' := by
  cases frames with
  | nil =>
      cases step
      have none_ : l.puts = [] := by rw [puts, writes]
      exact none_ ▸ .nothing writes
  | cons f rest =>
      simp only [put] at step
      simp only [puts, writes]
      cases answer : l.pipe.write f with
      | accepted pipe =>
          rw [answer] at step
          cases step
          obtain ⟨present, room, rfl⟩ := Pipe.accepted_of_write answer
          exact .wrote writes present room
      | full =>
          rw [answer] at step
          cases step
      | gone =>
          rw [answer] at step
          cases step
          exact .refused writes (Pipe.gone_of_write answer)

/-- **A step of the writing side is one of these.** -/
theorem advance_cases {l l' : Live} (step : l.advance = some l') : Advance l l.puts l' := by
  unfold advance at step
  split at step
  · next waits =>
    have none_ : l.puts = [] := by rw [puts, waits]
    exact none_ ▸ .of_await waits step
  · next writes => exact .of_put writes step
  · next flushes =>
    have none_ : l.puts = [] := by rw [puts, flushes]
    rw [none_]
    cases step
    split
    · next gone => exact .unflushed flushes gone
    · next present => exact .flushed flushes (Bool.eq_false_iff.2 present)
  · next ended =>
    have none_ : l.puts = [] := by rw [puts, ended]
    rw [none_]
    split at step <;> cases step
    next unclosed => exact .close ended (Bool.eq_false_iff.2 unclosed)

/-- A step of the writing side is made of moves of its delivery. -/
theorem Advance.moves {l l' : Live} {put : List Sse.Frame} (step : Advance l put l') :
    ReflTransGen Move l.delivery l'.delivery := by
  cases step with
  | notice waits signalled => exact .single (.notice waits signalled _)
  | event waits free next =>
      split
      · exact .head (.cancel (closes_of_awaiting waits))
          (.single (@Move.takeEvent l.delivery.cancel waits _))
      · exact .single (.takeEvent waits _)
  | ends waits free last => exact .single (.takeEnd waits free)
  | cancels waits free last => exact .single (.cancel (closes_of_awaiting waits))
  | panics waits free last => exact .single (.takePanic waits _)
  | nothing | wrote => exact .single .wrote
  | refused | unflushed => exact .single .failed
  | flushed => exact .single .flushed
  | close => exact .refl

end Live

/-! ## Sessions -/

/-- Whose turn it is, and for what. -/
inductive Turn where
  /-- The writing side takes its next step, if it has one. -/
  | advance
  /-- The client reads a frame, if there is one. -/
  | read
  /-- The cancellation is signalled by anybody, or by a client that begins to go away. -/
  | signal
  /-- The client's end of the pipe is closed. -/
  | hangUp
  /-- The client goes away. -/
  | drop
  deriving DecidableEq, Repr

/-- A live delivery, and what has gone into its pipe and come out of it. -/
structure Session where
  live : Live
  written : List Sse.Frame := []
  received : List Sse.Frame := []

namespace Session

def ofScript (mint : Nat → String) (dialect : Dialect) (buffer : Nat) (script : Script) :
    Session :=
  { live := .ofScript mint dialect buffer script }

def turn (s : Session) : Turn → Session
  | .advance =>
    match s.live.advance with
    | some live => { s with live, written := s.written ++ s.live.puts }
    | none => s
  | .read =>
    match s.live.pipe.read with
    | .item f pipe => { s with live := { s.live with pipe }, received := s.received ++ [f] }
    | .empty | .ended => s
  | .signal => { s with live := s.live.leave }
  | .hangUp => { s with live := s.live.hangUp }
  | .drop => { s with live := s.live.drop }

def run (s : Session) (turns : List Turn) : Session := turns.foldl turn s

/-- What the writing side's turn can be. -/
theorem turn_advance (s : Session) : s.turn .advance = s ∨
    ∃ live, Live.Advance s.live s.live.puts live ∧
      s.turn .advance = { s with live, written := s.written ++ s.live.puts } := by
  rw [turn]
  split
  · next live step => exact .inr ⟨live, Live.advance_cases step, rfl⟩
  · exact .inl rfl

/-- What a turn of the client to read can be. -/
theorem turn_read (s : Session) : s.turn .read = s ∨
    ∃ f queue, s.live.pipe.queue = f :: queue ∧
      s.turn .read = { s with
        live := { s.live with pipe := { s.live.pipe with queue } }
        received := s.received ++ [f] } := by
  rw [turn]
  split
  · next f pipe item =>
    obtain ⟨queue, queued, rfl⟩ := Pipe.item_of_read item
    exact .inr ⟨f, queue, queued, rfl⟩
  · exact .inl rfl
  · exact .inl rfl

/-- The client is there and sees that no frame comes any more. -/
def Ended (s : Session) : Prop := s.live.pipe.readerGone = false ∧ s.live.pipe.read = .ended

/-- The logs and the pipe agree. -/
structure Orderly (mint : Nat → String) (dialect : Dialect) (buffer : Nat) (s : Session) :
    Prop where
  course : Course mint dialect s.live.delivery s.written
  first : s.received <+: s.written
  whole : s.live.pipe.readerGone = false → s.written = s.received ++ s.live.pipe.queue
  lost : s.live.pipe.readerGone = true → s.live.pipe.queue = []
  capacity : s.live.pipe.capacity = max buffer 1
  fits : s.live.pipe.queue.length ≤ max buffer 1
  closed : s.live.pipe.writerGone = true → s.live.delivery.isOver = true

namespace Orderly

variable {mint : Nat → String} {dialect : Dialect} {buffer : Nat} {s : Session}

theorem ofScript (mint : Nat → String) (dialect : Dialect) (buffer : Nat) (script : Script) :
    Orderly mint dialect buffer (.ofScript mint dialect buffer script) where
  course := by
    simp only [Session.ofScript, Live.ofScript]
    split
    · exact Course.fresh.cancel
    · exact Course.fresh
  first := List.prefix_refl []
  whole _ := rfl
  lost gone := absurd gone Bool.false_ne_true
  capacity := rfl
  fits := Nat.zero_le _
  closed gone := absurd gone Bool.false_ne_true

/-- Something happens to the delivery alone, before it is over, and nothing is written. -/
theorem delivery (orderly : Orderly mint dialect buffer s) {live : Live}
    (pipe : live.pipe = s.live.pipe) (going : s.live.delivery.isOver = false)
    (course : Course mint dialect live.delivery s.written) :
    Orderly mint dialect buffer { s with live, written := s.written ++ [] } where
  course := (List.append_nil _).symm ▸ course
  first := (List.append_nil _).symm ▸ orderly.first
  whole present := (List.append_nil _).trans (pipe ▸ orderly.whole (pipe ▸ present))
  lost := pipe ▸ orderly.lost
  capacity := pipe ▸ orderly.capacity
  fits := pipe ▸ orderly.fits
  closed gone := absurd (orderly.closed (pipe ▸ gone)) (by simp [going])

/-- What the writing side does keeps the logs and the pipe in order. -/
theorem advance (orderly : Orderly mint dialect buffer s) {put : List Sse.Frame} {live : Live}
    (step : Live.Advance s.live put live) :
    Orderly mint dialect buffer { s with live, written := s.written ++ put } := by
  have course := orderly.course
  cases step with
  | notice waits =>
      exact orderly.delivery rfl (by rw [isOver, waits]) (course.noticeCancel waits _)
  | event waits free next =>
      refine orderly.delivery rfl (by rw [isOver, waits]) ?_
      simp only
      split
      · exact course.cancel.takeEvent waits _
      · exact course.takeEvent waits _
  | ends waits => exact orderly.delivery rfl (by rw [isOver, waits]) (course.takeEnd waits)
  | cancels waits => exact orderly.delivery rfl (by rw [isOver, waits]) course.cancel
  | panics waits => exact orderly.delivery rfl (by rw [isOver, waits]) (course.takePanic waits _)
  | nothing writes => exact absurd rfl (course.ne_nil writes)
  | wrote writes present room =>
      have whole := orderly.whole present
      refine ⟨course.wrote writes, orderly.first.trans (List.prefix_append _ _), ?_, ?_,
        orderly.capacity, ?_, ?_⟩
      · intro _
        rw [whole, List.append_assoc]
      · exact fun gone => absurd gone (by simp [present])
      · rw [List.length_append, List.length_singleton]
        exact orderly.capacity ▸ room
      · exact fun gone => absurd (orderly.closed gone) (by simp [isOver, writes])
  | refused writes => exact orderly.delivery rfl (by rw [isOver, writes]) course.failed
  | flushed flushes => exact orderly.delivery rfl (by rw [isOver, flushes]) course.flushed
  | unflushed flushes => exact orderly.delivery rfl (by rw [isOver, flushes]) course.failed
  | close ended =>
      rw [List.append_nil]
      refine ⟨course, orderly.first, orderly.whole, orderly.lost, orderly.capacity, orderly.fits,
        ?_⟩
      exact fun _ => by rw [isOver, ended]

theorem signal (orderly : Orderly mint dialect buffer s) :
    Orderly mint dialect buffer { s with live := s.live.leave } where
  course := orderly.course.cancel
  first := orderly.first
  whole := orderly.whole
  lost := orderly.lost
  capacity := orderly.capacity
  fits := orderly.fits
  closed := orderly.closed

theorem hangUp (orderly : Orderly mint dialect buffer s) :
    Orderly mint dialect buffer { s with live := s.live.hangUp } where
  course := orderly.course
  first := orderly.first
  whole present := absurd present.symm Bool.false_ne_true
  lost _ := rfl
  capacity := orderly.capacity
  fits := Nat.zero_le _
  closed := orderly.closed

/-- A frame goes from the queue to what was received. -/
theorem read (orderly : Orderly mint dialect buffer s) {f : Sse.Frame} {queue : List Sse.Frame}
    (queued : s.live.pipe.queue = f :: queue) :
    Orderly mint dialect buffer { s with
      live := { s.live with pipe := { s.live.pipe with queue } }
      received := s.received ++ [f] } := by
  have present : s.live.pipe.readerGone = false :=
    Bool.eq_false_iff.2 fun gone => absurd (orderly.lost gone) (by simp [queued])
  have whole := orderly.whole present
  have fits := orderly.fits
  rw [queued] at whole fits
  have moved : s.written = s.received ++ [f] ++ queue := by
    rw [whole, List.append_assoc, List.singleton_append]
  refine ⟨orderly.course, ?_, fun _ => moved, ?_, orderly.capacity, ?_, orderly.closed⟩
  · exact ⟨queue, moved.symm⟩
  · exact fun gone => absurd gone (by simp [present])
  · exact Nat.le_of_succ_le fits

/-- **Every turn keeps the logs and the pipe in order.** -/
theorem turn (orderly : Orderly mint dialect buffer s) (t : Turn) :
    Orderly mint dialect buffer (s.turn t) := by
  cases t with
  | advance =>
      rcases s.turn_advance with same | ⟨live, step, same⟩
      · exact same.symm ▸ orderly
      · exact same.symm ▸ orderly.advance step
  | read =>
      rcases s.turn_read with same | ⟨f, queue, queued, same⟩
      · exact same.symm ▸ orderly
      · exact same.symm ▸ orderly.read queued
  | signal => exact orderly.signal
  | hangUp => exact orderly.hangUp
  | drop => exact orderly.signal.hangUp

/-- **So does every run of turns.** -/
theorem run (orderly : Orderly mint dialect buffer s) (turns : List Turn) :
    Orderly mint dialect buffer (s.run turns) := by
  induction turns generalizing s with
  | nil => exact orderly
  | cons t rest ih => exact ih (orderly.turn t)

/-- The end is seen only when the delivery is over and everything has been read. -/
theorem ended (orderly : Orderly mint dialect buffer s) (ended : s.Ended) :
    s.received = s.written ∧ s.live.delivery.isOver = true := by
  obtain ⟨present, ended⟩ := ended
  obtain ⟨empty, closed⟩ := Pipe.ended_of_read ended
  have whole := orderly.whole present
  rw [empty, List.append_nil] at whole
  exact ⟨whole.symm, orderly.closed closed⟩

end Orderly

/-! ## What lasts -/

section
variable {s : Session}

theorem lawful_turn (lawful : Lawful s.live.delivery) (t : Turn) :
    Lawful (s.turn t).live.delivery := by
  cases t with
  | advance =>
      rcases s.turn_advance with same | ⟨live, step, same⟩
      · exact same.symm ▸ lawful
      · exact same.symm ▸ lawful.moves step.moves
  | read =>
      rcases s.turn_read with same | ⟨f, queue, queued, same⟩ <;> exact same.symm ▸ lawful
  | signal | drop => exact lawful.cancel
  | hangUp => exact lawful

/-- The cancellation says what has become of the delivery, whatever the turns. -/
theorem lawful_run (lawful : Lawful s.live.delivery) (turns : List Turn) :
    Lawful (s.run turns).live.delivery := by
  induction turns generalizing s with
  | nil => exact lawful
  | cons t rest ih => exact ih (lawful_turn lawful t)

theorem lawful_ofScript (mint : Nat → String) (dialect : Dialect) (buffer : Nat)
    (script : Script) : Lawful (ofScript mint dialect buffer script).live.delivery := by
  have fresh := Lawful.fresh mint dialect
  simp only [ofScript, Live.ofScript]
  split
  · exact fresh.cancel
  · exact fresh

/-- Nothing is written once the delivery is over, and a completed one can no longer be
cancelled. -/
theorem over_turn {outcome : Outcome} (ended : s.live.delivery.stage = .over outcome) (t : Turn) :
    (s.turn t).written = s.written ∧ (s.turn t).live.delivery.stage = .over outcome ∧
    (s.live.delivery.cancellation.completed = true →
      (s.turn t).live.delivery.cancellation = s.live.delivery.cancellation) := by
  cases t with
  | advance =>
      rcases s.turn_advance with same | ⟨live, step, same⟩
      · exact same.symm ▸ ⟨rfl, ended, fun _ => rfl⟩
      · rw [same]
        generalize s.live.puts = put at step
        cases step with
        | close => exact ⟨List.append_nil _, ended, fun _ => rfl⟩
        | notice waits | event waits | ends waits | cancels waits | panics waits =>
            simp [ended] at waits
        | nothing writes | wrote writes | refused writes => simp [ended] at writes
        | flushed flushes | unflushed flushes => simp [ended] at flushes
  | read =>
      rcases s.turn_read with same | ⟨f, queue, queued, same⟩ <;>
        exact same.symm ▸ ⟨rfl, ended, fun _ => rfl⟩
  | signal | drop => exact ⟨rfl, ended, Cancellation.cancel_of_completed⟩
  | hangUp => exact ⟨rfl, ended, fun _ => rfl⟩

theorem over_run {outcome : Outcome} (ended : s.live.delivery.stage = .over outcome)
    (turns : List Turn) :
    (s.run turns).written = s.written ∧
    (s.live.delivery.cancellation.completed = true →
      (s.run turns).live.delivery.cancellation = s.live.delivery.cancellation) := by
  induction turns generalizing s with
  | nil => exact ⟨rfl, fun _ => rfl⟩
  | cons t rest ih =>
      obtain ⟨written, ended, same⟩ := over_turn ended t
      obtain ⟨later, still⟩ := ih ended
      refine ⟨later.trans written, fun completed => ?_⟩
      exact (still ((same completed).symm ▸ completed)).trans (same completed)

/-- Nothing is written once the client is gone, and it does not come back. -/
theorem gone_turn (gone : s.live.pipe.readerGone = true) (t : Turn) :
    (s.turn t).written = s.written ∧ (s.turn t).live.pipe.readerGone = true := by
  cases t with
  | advance =>
      rcases s.turn_advance with same | ⟨live, step, same⟩
      · exact same.symm ▸ ⟨rfl, gone⟩
      · rw [same]
        generalize s.live.puts = put at step
        cases step with
        | wrote writes present => exact absurd gone (by simp [present])
        | close => exact ⟨List.append_nil _, gone⟩
        | _ => exact ⟨List.append_nil _, gone⟩
  | read =>
      rcases s.turn_read with same | ⟨f, queue, queued, same⟩ <;> exact same.symm ▸ ⟨rfl, gone⟩
  | signal => exact ⟨rfl, gone⟩
  | hangUp | drop => exact ⟨rfl, rfl⟩

theorem gone_run (gone : s.live.pipe.readerGone = true) (turns : List Turn) :
    (s.run turns).written = s.written := by
  induction turns generalizing s with
  | nil => rfl
  | cons t rest ih =>
      obtain ⟨written, still⟩ := gone_turn gone t
      exact (ih still).trans written

end

/-- **What a client has is what was written for it, in order.** Whatever the script, the size of
the buffer and the order of turns: what was received is the beginning of what was written, which
is what the course of the delivery wrote; while the client is there, the rest is queued, and the
pipe holds it. A client that sees the end has received everything, nothing more is ever written,
and if the delivery was completed, no later turn signals anything. Once the client is gone,
nothing more is written either. -/
theorem run_in_order (mint : Nat → String) (dialect : Dialect) (buffer : Nat) (script : Script)
    (turns : List Turn) :
    let s := (ofScript mint dialect buffer script).run turns
    Course mint dialect s.live.delivery s.written ∧
    s.received <+: s.written ∧
    (s.live.pipe.readerGone = false →
      s.written = s.received ++ s.live.pipe.queue ∧ s.live.pipe.queue.length ≤ max buffer 1) ∧
    (s.Ended → s.received = s.written ∧ ∃ outcome, s.live.delivery.outcome? = some outcome ∧
      ∀ later, (s.run later).written = s.written ∧
        (outcome = .completed →
          (s.run later).live.delivery.cancellation = s.live.delivery.cancellation)) ∧
    (s.live.pipe.readerGone = true → ∀ later, (s.run later).written = s.written) := by
  intro s
  have orderly : Orderly mint dialect buffer s := (Orderly.ofScript ..).run turns
  have lawful : Lawful s.live.delivery := lawful_run (lawful_ofScript ..) turns
  refine ⟨orderly.course, orderly.first, ?_, ?_, gone_run⟩
  · exact fun present => ⟨orderly.whole present, orderly.fits⟩
  · intro ended
    obtain ⟨all, through⟩ := orderly.ended ended
    rw [isOver] at through
    split at through
    · next outcome ended =>
      refine ⟨all, outcome, by rw [outcome?, ended], fun later => ?_⟩
      obtain ⟨written, still⟩ := over_run ended later
      exact ⟨written, fun completed => still (lawful.completed.2 (completed ▸ ended))⟩
    · exact absurd through Bool.false_ne_true

/-- One event for a client whose pipe holds one frame. -/
def greeting : Event := { choices := [Event.text 0 "Hi"] }

def greeted (turns : List Turn) : Session :=
  (ofScript (fun _ => "") .chat 0 (.plain [greeting])).run turns

/-- The turns up to where the pipe is full and the sentinel is to be written. -/
def untilFull : List Turn := [.advance, .advance, .advance, .advance, .advance]

/-- The client begins to read then, and reads to the end. -/
def patient : Session := greeted (untilFull ++ [.read, .advance, .advance, .advance, .read])

/-- The client goes away then. -/
def impatient : Session := greeted (untilFull ++ [.drop])

/-- A client that waits with its first read until the pipe is full has both frames in the end, and
signals nothing when it goes away. One that goes away while the pipe is full leaves a delivery
that writes nothing more. -/
theorem run_in_order_full :
    let frame : Sse.Frame := .json none (Chat.chunkJson greeting)
    (patient.Ended ∧ patient.received = [frame, .done] ∧ patient.received = patient.written ∧
      (patient.run [.drop]).live.delivery.cancellation.signals = 0) ∧
    impatient.live.pipe.readerGone = true ∧ impatient.written = [frame] ∧
      (impatient.run [.advance]).written = impatient.written := by
  intro frame
  have present : patient.live.pipe.readerGone = false := by decide +kernel
  have empty : patient.live.pipe.queue = [] := by decide +kernel
  have closed : patient.live.pipe.writerGone = true := by decide +kernel
  have completed : patient.live.delivery.outcome? = some .completed := by decide +kernel
  have quiet : patient.live.delivery.cancellation.signals = 0 := by decide +kernel
  have received : patient.received = [frame, .done] := by decide +kernel
  have hungUp : impatient.live.pipe.readerGone = true := by decide +kernel
  have written : impatient.written = [frame] := by decide +kernel
  have ended : patient.Ended := ⟨present, by rw [Pipe.read, empty, closed]; rfl⟩
  obtain ⟨-, -, -, complete, -⟩ := run_in_order (fun _ => "") .chat 0 (.plain [greeting])
    (untilFull ++ [.read, .advance, .advance, .advance, .read])
  obtain ⟨-, -, -, -, lost⟩ := run_in_order (fun _ => "") .chat 0 (.plain [greeting])
    (untilFull ++ [.drop])
  obtain ⟨all, outcome, same, later⟩ := complete ended
  have still := (later [.drop]).2 (Option.some.inj (same.symm.trans completed))
  exact ⟨⟨ended, received, all, (congrArg Cancellation.signals still).trans quiet⟩,
    hungUp, written, lost hungUp [.advance]⟩

end Session
end DialectGateway.Delivery
