/-
# Proofs.Dialect.Feeding — events fed one after another

An encoder takes events one at a time and answers each with frames or a refusal.
`feedAll` is the run over events none of which is refused, and `feedAll_invariant`
lifts what one such step keeps to the whole run.

Encoders count what they begin in words of 32 bits. `crowd` is a run that begins more than
that (`feedAll_crowd`).
-/
import DialectGateway.Dialect.Refusal
import DialectGateway.Proofs.Generation.Events

set_option autoImplicit false

namespace DialectGateway

/-- What is accepted once a reason to end is known has no output. -/
theorem Event.outputs_of_finished {event : Event} {ended finished : Bool}
    (accepted : event.refusal? ended finished = none) (known : finished = true) :
    event.outputs = [] := by
  rw [Event.outputs_eq_nil_iff]
  cases output : event.hasOutput with
  | false => rfl
  | true =>
      rw [Event.refusal?] at accepted
      split at accepted
      · exact absurd accepted (by simp)
      · split at accepted
        · exact absurd accepted (by simp)
        · simp [known, output] at accepted

/-- An event of one choice is refused neither before a reason to end is known nor, if it has
no output, afterwards. -/
theorem Event.refusal?_of_single {event : Event} {finished : Bool}
    (single : ∀ choice ∈ event.choices, choice.index = 0)
    (late : finished = true → event.outputs = []) : event.refusal? false finished = none := by
  have only : event.choices.find? (·.index != 0) = none := by
    rw [List.find?_eq_none]
    intro choice member
    simp [single choice member]
  rw [Event.refusal?, only]
  cases finished with
  | false => rfl
  | true => simp [(Event.outputs_eq_nil_iff event).1 (late rfl)]

variable {E F : Type} {feed : E → Event → E × Except Refusal (List F)}

/-- The frames of events one after another, if no event is refused. -/
def feedAll (feed : E → Event → E × Except Refusal (List F)) (e : E) :
    List Event → Except Refusal (E × List F)
  | [] => .ok (e, [])
  | event :: rest =>
    match feed e event with
    | (_, .error refusal) => .error refusal
    | (e, .ok frames) =>
      match feedAll feed e rest with
      | .error refusal => .error refusal
      | .ok (e, later) => .ok (e, frames ++ later)

theorem feedAll_cons_ok {e e' : E} {event : Event} {rest : List Event} {frames : List F}
    (fed : feedAll feed e (event :: rest) = .ok (e', frames)) :
    ∃ (middle : E) (now later : List F), feed e event = (middle, .ok now) ∧
      feedAll feed middle rest = .ok (e', later) ∧ frames = now ++ later := by
  rw [feedAll] at fed
  split at fed
  · exact absurd fed (by simp)
  · next middle now step =>
      split at fed
      · exact absurd fed (by simp)
      · next last later tail =>
          cases fed
          exact ⟨middle, now, later, step, tail, rfl⟩

/-- **What every accepted event keeps, a run of accepted events keeps.** The invariant
speaks of the encoder, the events so far and the frames so far. -/
theorem feedAll_invariant (Inv : E → List Event → List F → Prop)
    (step : ∀ e events frames event e' more, Inv e events frames →
      feed e event = (e', .ok more) → Inv e' (events ++ [event]) (frames ++ more))
    {e e' : E} {events : List Event} {frames : List F} (start : Inv e [] [])
    (fed : feedAll feed e events = .ok (e', frames)) : Inv e' events frames := by
  suffices general : ∀ (events : List Event) (e : E) (past : List Event) (said frames : List F),
      Inv e past said → feedAll feed e events = .ok (e', frames) →
        Inv e' (past ++ events) (said ++ frames) by
    simpa using general events e [] [] frames start fed
  intro events
  induction events with
  | nil =>
      intro e past said frames holds fed
      cases fed
      simpa using holds
  | cons event rest ih =>
      intro e past said frames holds fed
      obtain ⟨middle, now, later, first, tail, rfl⟩ := feedAll_cons_ok fed
      have kept := step e past said event middle now holds first
      simpa using ih middle (past ++ [event]) (said ++ now) later kept tail

/-- An event that is always accepted and then says so much is accepted any number of times. -/
theorem feedAll_replicate {A : Type} (told : F → Option A) (Inv : E → Prop) {event : Event}
    {each : Nat} (step : ∀ e, Inv e → ∃ e' frames, feed e event = (e', .ok frames) ∧ Inv e' ∧
      (frames.filterMap told).length = each)
    {e : E} (start : Inv e) (times : Nat) :
    ∃ e' frames, feedAll feed e (List.replicate times event) = .ok (e', frames) ∧ Inv e' ∧
      (frames.filterMap told).length = times * each := by
  induction times generalizing e with
  | zero => exact ⟨e, [], rfl, start, (Nat.zero_mul _).symm⟩
  | succ times ih =>
      obtain ⟨middle, now, first, still, count⟩ := step e start
      obtain ⟨last, later, rest, holds, counts⟩ := ih still
      refine ⟨last, now ++ later, ?_, holds, ?_⟩
      · rw [List.replicate_succ, feedAll, first]
        simp only [rest]
      · rw [List.filterMap_append, List.length_append, count, counts, Nat.succ_mul, Nat.add_comm]

/-! ## More than words can count -/

/-- A thought and a text. -/
def twoSided : Event :=
  { id := "r", model := "x", choices := [{
      index := 0, content := some "b", reasoning := some "a" }] }

/-- So many events of a thought and a text each that there are fewer words than these. -/
def crowd : List Event := List.replicate (UInt32.size / 2 + 1) twoSided

/-- What is said of each thought and each text of a crowd outnumbers the words. -/
theorem feedAll_crowd {A : Type} (told : F → Option A) (Inv : E → Prop)
    (step : ∀ e, Inv e → ∃ e' frames, feed e twoSided = (e', .ok frames) ∧ Inv e' ∧
      (frames.filterMap told).length = 2) {e : E} (start : Inv e) :
    ∃ e' frames, feedAll feed e crowd = .ok (e', frames) ∧
      UInt32.size < (frames.filterMap told).length := by
  obtain ⟨e', frames, fed, _, count⟩ :=
    feedAll_replicate told Inv step start (UInt32.size / 2 + 1)
  refine ⟨e', frames, fed, ?_⟩
  rw [count]
  decide

end DialectGateway
