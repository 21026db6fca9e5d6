/-
# Proofs.Delivery.Counting — the frames that are counted, and the one that is not

A frame has got through once its write and the flush after it have succeeded. What a delivery
counts, what its ending adds to the total and whether its entry has a time to the first byte all
go by these frames, with one exception: the frame that tells of a panic is written beside them,
and nobody counts it (`frames_counted`). A stream that panics before its first frame therefore
has sent its client a frame, and is recorded as one that sent nothing (`panic_uncounted`).

A delivery that waits is `Level`: no call has failed, and all that got through is counted. From
there, whatever it sends keeps the tally (`Level.send`, `Level.panic`); the run is by induction on
the handouts (`Level.deliverEvents`).
-/
import DialectGateway.Delivery.Account
import DialectGateway.Proofs.Delivery.Course

set_option autoImplicit false

namespace DialectGateway.Delivery

/-! ## What has got through -/

/-- The frames that were written and then flushed. -/
def deliveredBy : List (Call × Bool) → List Sse.Frame
  | (.write f, true) :: (.flush, true) :: rest => f :: deliveredBy rest
  | _ :: rest => deliveredBy rest
  | [] => []

/-- Only a flush completes what was noted before. -/
theorem deliveredBy_append (before : List (Call × Bool)) {later : List (Call × Bool)}
    (fresh : later.head? ≠ some (.flush, true)) :
    deliveredBy (before ++ later) = deliveredBy before ++ deliveredBy later := by
  fun_induction deliveredBy before with
  | case1 f rest ih => simp only [List.cons_append, deliveredBy, ih]
  | case2 call rest incomplete ih =>
      rw [List.cons_append, ← ih]
      refine deliveredBy.eq_2 call (rest ++ later) fun f more first => ?_
      cases rest with
      | nil =>
          intro next
          rw [List.nil_append] at next
          exact fresh (by rw [next]; rfl)
      | cons second rest =>
          intro next
          cases next
          exact incomplete f rest first rfl
  | case3 => rfl

/-- No call has failed. -/
def Unbroken (calls : List (Call × Bool)) : Prop := ∀ c ∈ calls, c.2 = true

instance (calls : List (Call × Bool)) : Decidable (Unbroken calls) :=
  inferInstanceAs (Decidable (∀ c ∈ calls, c.2 = true))

theorem unbroken_append {before later : List (Call × Bool)} :
    Unbroken (before ++ later) ↔ Unbroken before ∧ Unbroken later := List.forall_mem_append

section
variable {S : Type} [Sink S]

/-- What handing frames over notes. It begins with a write, and no call fails if and only if all
frames get through. -/
theorem deliveredBy_handOver (j : Journal S) (frames : List Sse.Frame) :
    ∃ made, (Sink.handOver j frames).2.calls = j.calls ++ made ∧
      made.head? ≠ some (.flush, true) ∧
      deliveredBy made = frames.take (Sink.handOver j frames).1 ∧
      (Unbroken made ↔ (Sink.handOver j frames).1 = frames.length) := by
  induction frames generalizing j with
  | nil => exact ⟨[], (List.append_nil _).symm, by simp, rfl, by simp [Unbroken, Sink.handOver]⟩
  | cons f rest ih =>
      have write : Sink.write j f = j.note (.write f) (Sink.write j.sink f) := rfl
      simp only [Sink.handOver, write]
      rcases Sink.write j.sink f with ⟨_ | _, sink⟩
      · exact ⟨[(.write f, false)], rfl, by simp, rfl, by simp [Unbroken, Journal.note]⟩
      · have flush (calls : List (Call × Bool)) : Sink.flush (Journal.mk sink calls) =
            (Journal.mk sink calls).note .flush (Sink.flush sink) := rfl
        simp only [Journal.note, flush]
        rcases Sink.flush sink with ⟨_ | _, sink'⟩
        · exact ⟨[(.write f, true), (.flush, false)], List.append_assoc .., by simp, rfl,
            by simp [Unbroken]⟩
        · obtain ⟨made, calls, -, through, unbroken⟩ :=
            ih ⟨sink', j.calls ++ [(.write f, true)] ++ [(.flush, true)]⟩
          refine ⟨(.write f, true) :: (.flush, true) :: made, ?_, by simp, ?_, ?_⟩
          · simpa only [List.append_assoc, List.cons_append, List.nil_append] using calls
          · rw [deliveredBy, through, List.take_succ_cons]
          · rw [List.length_cons, Nat.add_right_cancel_iff, ← unbroken]
            simp [Unbroken]

/-! ## The tally of a delivery -/

/-- No call has failed so far, and every frame that has got through is counted. -/
structure Level (written : Nat) (calls : List (Call × Bool)) : Prop where
  unbroken : Unbroken calls
  written_eq : written = (deliveredBy calls).length

/-- The delivery has ended in a panic, and the frame that tells of it has got through. -/
def ToldPanic (d : Delivery) (calls : List (Call × Bool)) : Prop :=
  (∃ message, d.outcome? = some (.panicked message)) ∧ Unbroken calls

/-- All frames that have got through are counted, but the one that tells of a panic. -/
structure Tallied (d : Delivery) (calls : List (Call × Bool)) : Prop where
  counted : ¬ ToldPanic d calls → d.written = (deliveredBy calls).length
  panicked : ToldPanic d calls → ∃ before,
    deliveredBy calls = before ++ [d.encoder.faultFrame panicFault] ∧ d.written = before.length
  unbroken : d.stage = .awaiting → Unbroken calls

theorem Tallied.level {d : Delivery} {calls : List (Call × Bool)} (tallied : Tallied d calls)
    (waits : d.stage = .awaiting) : Level d.written calls where
  unbroken := tallied.unbroken waits
  written_eq := by
    refine tallied.counted fun ⟨⟨message, panicked⟩, _⟩ => ?_
    simp [outcome?, waits] at panicked

/-- An event is answered with something to send that is no panic's frame. -/
theorem takeEvent_counted (d : Delivery) (event : Event) :
    ∃ (d' : Delivery) (frames : List Sse.Frame) (purpose : Purpose),
      d.takeEvent event = d'.send frames purpose ∧ d'.written = d.written ∧
      counted purpose = true := by
  rw [takeEvent]
  split
  · exact ⟨_, _, _, rfl, rfl, rfl⟩
  · split <;> exact ⟨_, _, _, rfl, rfl, rfl⟩

/-- Only frames about a panic lead to a panic's end. -/
theorem outcome?_afterHandOver_ne {purpose : Purpose} (counts : counted purpose = true)
    (d : Delivery) (frames : List Sse.Frame) (n : Nat) (message : String) :
    (d.afterHandOver frames purpose n).outcome? ≠ some (.panicked message) := by
  unfold afterHandOver
  cases purpose with
  | panic => exact absurd counts Bool.false_ne_true
  | event | closing | fault | refusal => split <;> simp [settle, giveUp, ended, outcome?]

theorem stage_giveUp_ne (d : Delivery) (purpose : Purpose) :
    (d.giveUp purpose).stage ≠ .awaiting := by
  cases purpose <;> simp [giveUp, ended]

namespace Level

variable {d : Delivery} {j : Journal S}

/-- A delivery that does not panic stays level, whatever else becomes of it. -/
theorem tallied {calls : List (Call × Bool)} (level : Level d.written calls)
    (calm : ∀ message, d.outcome? ≠ some (.panicked message)) : Tallied d calls where
  counted _ := level.written_eq
  panicked := fun ⟨⟨message, panicked⟩, _⟩ => absurd panicked (calm message)
  unbroken _ := level.unbroken

theorem noticed {calls : List (Call × Bool)} (level : Level d.written calls) (closed : Bool) :
    Tallied (d.noticeCancel closed) calls := by
  refine Level.tallied (d := d.noticeCancel closed) level fun message => ?_
  cases closed <;> simp [noticeCancel, ended, outcome?]

/-- **What is sent, and does not tell of a panic, is counted as it gets through.** -/
theorem send (level : Level d.written j.calls) (frames : List Sse.Frame) {purpose : Purpose}
    (counts : counted purpose = true) :
    Tallied ((d.send frames purpose).pumpAll j).1 ((d.send frames purpose).pumpAll j).2.calls := by
  obtain ⟨made, calls, fresh, through, unbroken⟩ := deliveredBy_handOver j frames
  have calm := outcome?_afterHandOver_ne counts d frames (Sink.handOver j frames).1
  have written : (d.afterHandOver frames purpose (Sink.handOver j frames).1).written =
      d.written + (Sink.handOver j frames).1 := by
    rw [written_afterHandOver, Delivery.count, if_pos counts]
  rw [pumpAll_send]
  refine ⟨fun _ => ?_, fun told => ?_, fun waits => ?_⟩
  · rw [written, calls, deliveredBy_append _ fresh, through, List.length_append, List.length_take,
      Nat.min_eq_left (Sink.handOver_le j frames), level.written_eq]
  · obtain ⟨message, panicked⟩ := told.1
    exact absurd panicked (calm message)
  · rw [calls, unbroken_append]
    refine ⟨level.unbroken, unbroken.2 ?_⟩
    refine Decidable.byContradiction fun short => ?_
    simp only [afterHandOver, if_neg short] at waits
    exact stage_giveUp_ne _ purpose waits

/-- **The frame that tells of a panic is not counted**, whether it gets through or not. -/
theorem panic (level : Level d.written j.calls) (message : String) :
    Tallied ((d.takePanic message).pumpAll j).1 ((d.takePanic message).pumpAll j).2.calls := by
  let frame := d.encoder.faultFrame panicFault
  have run : (d.takePanic message).pumpAll j =
      (d.cancel.afterHandOver [frame] (.panic message) (Sink.handOver j [frame]).1,
        (Sink.handOver j [frame]).2) := pumpAll_send ..
  obtain ⟨made, calls, fresh, through, unbroken⟩ := deliveredBy_handOver j [frame]
  have most := Sink.handOver_le j [frame]
  have told := deliveredBy_append j.calls fresh
  rw [through, ← calls] at told
  have sound : Unbroken (Sink.handOver j [frame]).2.calls ↔ (Sink.handOver j [frame]).1 = 1 := by
    rw [calls, unbroken_append, unbroken]
    exact and_iff_right level.unbroken
  rw [run]
  generalize (Sink.handOver j [frame]).1 = n at *
  show Tallied (d.cancel.afterHandOver [frame] (.panic message) n) (Sink.handOver j [frame]).2.calls
  obtain ⟨written, encoder, ended⟩ :
      let d' := d.cancel.afterHandOver [frame] (.panic message) n
      d'.written = d.written ∧ d'.encoder = d.encoder ∧ d'.outcome? = some (.panicked message) := by
    unfold afterHandOver
    split <;> exact ⟨rfl, rfl, rfl⟩
  refine ⟨fun untold => ?_, fun ⟨_, all⟩ => ?_, fun waits => ?_⟩
  · have none_ : n = 0 := by
      have short : n ≠ 1 := fun all => untold ⟨⟨message, ended⟩, sound.2 all⟩
      rw [List.length_singleton] at most
      omega
    rw [written, told, none_, List.take_zero, List.append_nil, level.written_eq]
  · refine ⟨deliveredBy j.calls, ?_, written.trans level.written_eq⟩
    rw [encoder, told, sound.1 all]
    rfl
  · rw [outcome?, waits] at ended
    cases ended

theorem deliverTail (level : Level d.written j.calls) (waits : d.stage = .awaiting) (tail : Tail) :
    Tallied (d.deliverTail j tail).1 (d.deliverTail j tail).2.calls := by
  rw [Delivery.deliverTail.eq_def]
  split
  · exact level.noticed _
  · cases tail with
    | ends => exact Level.send (d := { d with encoder := d.encoder.close.1 }) level _ rfl
    | cancels => exact Level.noticed (d := d.cancel) level _
    | panics message => exact level.panic message
    | hangs => exact level.tallied fun message => by simp [outcome?, waits]

/-- **A whole delivery keeps the tally**, event by event. -/
theorem deliverEvents (level : Level d.written j.calls) (waits : d.stage = .awaiting) (tail : Tail)
    (handouts : List Handout) :
    Tallied (d.deliverEvents j tail handouts).1 (d.deliverEvents j tail handouts).2.calls := by
  induction handouts generalizing d j with
  | nil => exact level.deliverTail waits tail
  | cons h rest ih =>
      rw [Delivery.deliverEvents]
      split
      · exact level.noticed _
      · have handed : Level (if h.cancels then d.cancel else d).written j.calls := by
          split <;> exact level
        generalize (if h.cancels then d.cancel else d) = d at handed
        obtain ⟨d', frames, purpose, sent, same, counts⟩ := takeEvent_counted d h.event
        have pumped := Level.send (d := d') (same.symm ▸ handed) frames counts
        have idle := stage_pumpAll_send d' j frames purpose
        simp only [sent]
        split
        · exact pumped
        · next going =>
          have waits := idle.resolve_right going
          exact ih (pumped.level waits) waits

end Level

/-- **A delivery keeps the tally**, whatever the script and the sink. -/
theorem deliver_tallied (mint : Nat → String) (dialect : Dialect) (sink : S) (script : Script) :
    let run := (Delivery.fresh mint dialect).deliver (Journal.mk sink []) script
    Tallied run.1 run.2.calls := by
  have level : Level 0 (Journal.mk sink []).calls := ⟨by simp [Unbroken], rfl⟩
  rw [deliver]
  split
  · exact Level.deliverEvents (d := (Delivery.fresh mint dialect).cancel) level rfl _ _
  · exact Level.deliverEvents (d := Delivery.fresh mint dialect) level rfl _ _

/-! ## What is recorded -/

/-- What is recorded of a request is what is recorded of a stream of so many frames. -/
structure Ending.RecordsFrames (e : Ending) (n : Nat) : Prop where
  total : ∀ (t : Timing) (c : Metrics.Counts),
    Keyed.value e.origin.dialect.name 0 (e.count t c).frames =
      Keyed.value e.origin.dialect.name 0 c.frames + n
  firstByte : ∀ t : Timing, (e.entry t).firstByteMs.isSome = true ↔ 1 ≤ n

theorem Ending.recordsFrames_delivered (origin : Origin) (outcome : Outcome) (n : Nat) :
    (Ending.delivered origin outcome n).RecordsFrames n where
  total t c := by
    simp only [Ending.count, Ending.delivered]
    split <;> exact Keyed.value_adjust_self origin.dialect.name 0 (· + n) c.frames
  firstByte t := by
    simp only [Ending.entry, Ending.firstByteMs, Ending.delivered, decide_eq_true_eq]
    by_cases began : 0 < n
    · simp only [if_pos began, Option.isSome_some, true_iff]
      exact began
    · simp only [if_neg began, Option.isSome_none, Bool.false_eq_true, false_iff]
      exact began

/-- **Every frame that gets through is counted, but the one that tells of a panic.** However the
sink answers, whenever the cancellation is signalled and however the stream ends: what it counts,
what the total grows by and whether there is a time to the first byte go by the frames that were
written and flushed. If it ends in a panic and no call failed, the last of these is the frame that
tells of it, and they go by the others alone. -/
theorem frames_counted (mint : Nat → String) (origin : Origin) (sink : S) (script : Script)
    {e : Ending} :
    let run := (Delivery.fresh mint origin.dialect).deliver (Journal.mk sink []) script
    let told := deliveredBy run.2.calls
    run.1.ending? origin = some e →
      (¬ ToldPanic run.1 run.2.calls →
        run.1.written = told.length ∧ e.RecordsFrames told.length) ∧
      (ToldPanic run.1 run.2.calls → ∃ others,
        told = others ++ [run.1.encoder.faultFrame panicFault] ∧
        run.1.written = others.length ∧ e.RecordsFrames others.length) := by
  intro run told ended
  have tallied : Tallied run.1 run.2.calls := deliver_tallied mint origin.dialect sink script
  have recorded : e.RecordsFrames run.1.written := by
    obtain ⟨outcome, -, rfl⟩ := Option.map_eq_some_iff.1 ended
    exact Ending.recordsFrames_delivered origin outcome run.1.written
  refine ⟨fun untold => ?_, fun toldPanic => ?_⟩
  · have counted := tallied.counted untold
    exact ⟨counted, counted ▸ recorded⟩
  · obtain ⟨others, all, counted⟩ := tallied.panicked toldPanic
    exact ⟨others, all, counted, counted ▸ recorded⟩

end

/-- Of an event, a panic and a sink that takes everything two frames get through, and one is
counted; of two events and a sink whose second flush fails one frame gets through, and is
counted. -/
theorem frames_counted_greeting :
    let origin : Origin := ⟨"r", .chat, "m", "p"⟩
    let greeting : Handout := { event := { choices := [Event.text 0 "Hi"] } }
    let fresh := Delivery.fresh (fun _ => "") .chat
    let lost := fresh.deliver (Journal.mk ({} : Recorder) []) ⟨false, [greeting], .panics "lost"⟩
    let cut := fresh.deliver (Journal.mk ({ flushLimit := some 1 } : Recorder) [])
      ⟨false, [greeting, greeting], .ends⟩
    (ToldPanic lost.1 lost.2.calls ∧ (deliveredBy lost.2.calls).length = 2 ∧ lost.1.written = 1 ∧
      (Ending.delivered origin (.panicked "lost") 1).RecordsFrames 1) ∧
    ¬ ToldPanic cut.1 cut.2.calls ∧ (deliveredBy cut.2.calls).length = 1 ∧ cut.1.written = 1 ∧
      (Ending.delivered origin .disconnected 1).RecordsFrames 1 := by
  intro origin greeting fresh lost cut
  have told : ToldPanic lost.1 lost.2.calls := ⟨⟨"lost", rfl⟩, by decide +kernel⟩
  have untold : ¬ ToldPanic cut.1 cut.2.calls := fun ⟨_, all⟩ => absurd all (by decide +kernel)
  have lostEnd : lost.1.ending? origin = some (.delivered origin (.panicked "lost") 1) := rfl
  have cutEnd : cut.1.ending? origin = some (.delivered origin .disconnected 1) := rfl
  obtain ⟨others, all, counted, recorded⟩ := (frames_counted (fun _ => "") origin
    ({} : Recorder) ⟨false, [greeting], .panics "lost"⟩ lostEnd).2 told
  obtain ⟨written, recorded'⟩ := (frames_counted (fun _ => "") origin
    ({ flushLimit := some 1 } : Recorder) ⟨false, [greeting, greeting], .ends⟩ cutEnd).1 untold
  have one : others.length = 1 := counted.symm
  rw [one] at recorded
  refine ⟨⟨told, ?_, rfl, recorded⟩, untold, written.symm, rfl, ?_⟩
  · have length := congrArg List.length all
    rw [List.length_append, one] at length
    exact length
  · rw [← written] at recorded'
    exact recorded'

/-- A stream that panics before its first frame sends its client the frame that tells of it, and
is recorded as a stream that sent nothing. -/
theorem panic_uncounted :
    let origin : Origin := ⟨"r", .chat, "m", "p"⟩
    let fresh := Delivery.fresh (fun _ => "") .chat
    let run := fresh.deliver (Journal.mk ({} : Recorder) []) ⟨false, [], .panics "lost"⟩
    ∃ e, run.1.ending? origin = some e ∧
      deliveredBy run.2.calls = [fresh.encoder.faultFrame panicFault] ∧
      run.1.written = 0 ∧ e.RecordsFrames 0 ∧
      ¬ (run.1.written = (deliveredBy run.2.calls).length ∧
        e.RecordsFrames (deliveredBy run.2.calls).length) := by
  intro origin fresh run
  have recorded := Ending.recordsFrames_delivered origin (.panicked "lost") 0
  exact ⟨_, rfl, rfl, rfl, recorded, fun same => absurd same.1 Nat.zero_ne_one⟩

end DialectGateway.Delivery
