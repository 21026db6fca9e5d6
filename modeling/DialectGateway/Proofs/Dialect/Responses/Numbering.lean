/-
# Proofs.Dialect.Responses.Numbering — sequence numbers are never given twice

Whatever an encoder does, it numbers the notices it makes from its counter on, without
gaps, and moves the counter past them (`numbers_feed`, `numbers_close`). A refused event
loses its frames and keeps their numbers, so over any history of calls the frames that
get out ascend and the counter stands above them all (`numbers_history`).
-/
import DialectGateway.Dialect.Responses.Encoder

set_option autoImplicit false

namespace DialectGateway.Responses
namespace Encoder

/-! ## What does not touch the counter -/

@[simp] theorem counters_create (e : Encoder) (event : Event) :
    (e.create event).1.counters = e.counters := by
  rw [create]
  split <;> rfl

@[simp] theorem counters_closeReasoning (e : Encoder) :
    e.closeReasoning.1.counters = e.counters := by
  rw [closeReasoning]
  split <;> rfl

@[simp] theorem counters_closeMessage (e : Encoder) :
    e.closeMessage.1.counters = e.counters := by
  rw [closeMessage]
  split <;> rfl

@[simp] theorem counters_closeItems (e : Encoder) : e.closeItems.1.counters = e.counters := by
  show e.closeReasoning.1.closeMessage.1.counters = e.counters
  rw [counters_closeMessage, counters_closeReasoning]

@[simp] theorem counters_noteFinish (e : Encoder) (finish : Option Finish) :
    (e.noteFinish finish).1.counters = e.counters := by
  rw [noteFinish]
  split
  · exact e.counters_closeItems
  · rfl

/-- An output gives out a place at most. -/
theorem nextSequence_output1 {e e' : Encoder} {o : Output} {notices : List Notice}
    (said : e.output1 o = .ok (e', notices)) :
    e'.counters.nextSequence = e.counters.nextSequence := by
  cases o with
  | reasoning s =>
      cases said
      show e.openReasoning.1.counters.nextSequence = _
      rw [openReasoning]
      split
      · rfl
      · show e.closeMessage.1.counters.nextSequence = _
        rw [counters_closeMessage]
  | content s =>
      cases said
      show e.openMessage.1.counters.nextSequence = _
      rw [openMessage]
      split
      · rfl
      · show e.closeReasoning.1.counters.nextSequence = _
        rw [counters_closeReasoning]
  | tool f =>
      have opened {e' : Encoder} {call : OpenCall} {notices : List Notice}
          (asked : e.openCall f = .ok (e', call, notices)) :
          e'.counters.nextSequence = e.counters.nextSequence := by
        rw [openCall] at asked
        split at asked
        · cases asked
          rfl
        · split at asked
          · exact absurd asked (by simp)
          · cases asked
            show e.closeReasoning.1.closeMessage.1.counters.nextSequence = _
            rw [counters_closeMessage, counters_closeReasoning]
      rw [output1, call] at said
      cases asked : e.openCall f with
      | error refusal =>
          rw [asked] at said
          exact absurd said (by simp [bind, Except.bind])
      | ok result =>
          obtain ⟨middle, call, opening⟩ := result
          have kept := opened asked
          simp only [asked, bind, Except.bind, pure, Except.pure, throw, throwThe,
            MonadExceptOf.throw] at said
          split at said
          · cases said
            exact kept
          · split at said
            · exact absurd said (by simp)
            · cases said
              exact kept

/-! ## Numbers of one call -/

/-- The frames are numbered from the counter on, and the counter moves past them. -/
structure Numbers (before after : Encoder) (frames : List Frame) : Prop where
  dense : frames.map (·.sequence) = List.range' before.counters.nextSequence frames.length
  next : after.counters.nextSequence = before.counters.nextSequence + frames.length

/-- The call numbered some frames: those that got out, if any did. -/
def Advances (before after : Encoder) (result : Except Refusal (List Frame)) : Prop :=
  ∃ frames, Numbers before after frames ∧ ∀ said, result = .ok said → said = frames

namespace Numbers

variable {e e' e'' : Encoder} {frames later : List Frame}

theorem of_same (same : e'.counters.nextSequence = e.counters.nextSequence) :
    Numbers e e' [] := ⟨rfl, same⟩

theorem trans (first : Numbers e e' frames) (second : Numbers e' e'' later) :
    Numbers e e'' (frames ++ later) := by
  refine ⟨?_, ?_⟩
  · rw [List.map_append, first.dense, second.dense, first.next, List.length_append,
      List.range'_append_1]
  · rw [second.next, first.next, List.length_append, Nat.add_assoc]

theorem number (e : Encoder) (notices : List Notice) :
    Numbers e (e.number notices).1 (e.number notices).2 := by
  have length : (e.number notices).2.length = notices.length := by
    simp [Encoder.number]
  refine ⟨?_, ?_⟩
  · apply List.ext_getElem
    · simp
    · intro n left right
      simp [Encoder.number]
  · rw [length]
    rfl

/-- Frames in order are below the counter. -/
theorem sequence_lt (numbers : Numbers e e' frames) {f : Frame} (member : f ∈ frames) :
    e.counters.nextSequence ≤ f.sequence ∧ f.sequence < e'.counters.nextSequence := by
  have kept : f.sequence ∈ frames.map (·.sequence) := List.mem_map_of_mem member
  rw [numbers.dense, List.mem_range'_1] at kept
  rw [numbers.next]
  exact kept

theorem ascending (numbers : Numbers e e' frames) :
    (frames.map (·.sequence)).Pairwise (· < ·) := by
  rw [numbers.dense]
  exact List.pairwise_lt_range'

end Numbers

theorem notice_number (e : Encoder) (notices : List Notice) :
    (e.number notices).2.map (·.notice) = notices := by
  apply List.ext_getElem
  · simp [number]
  · intro n left right
    simp [number]

theorem advances_outputs (e : Encoder) (os : List Output) :
    Advances e (e.outputs os).1 (e.outputs os).2 := by
  induction os generalizing e with
  | nil =>
      refine ⟨[], .of_same rfl, ?_⟩
      intro said got
      cases got
      rfl
  | cons o rest ih =>
      rw [outputs]
      split
      · exact ⟨[], .of_same rfl, fun _ got => absurd got (by simp)⟩
      · next middle notices said =>
          obtain ⟨later, numbers, all⟩ := ih (middle.number notices).1
          have first := Numbers.number middle notices
          have begun := Numbers.of_same (nextSequence_output1 said)
          refine ⟨(middle.number notices).2 ++ later, (begun.trans first).trans numbers, ?_⟩
          intro said' got
          cases result : ((middle.number notices).1.outputs rest).2 with
          | error refusal => simp [result, Except.map] at got
          | ok tail =>
              rw [← all tail result]
              simpa [result, Except.map] using got.symm

theorem numbers_announce (e : Encoder) (event : Event) :
    Numbers e (e.announce event).1 (e.announce event).2 := by
  have created := Numbers.of_same (congrArg Counters.nextSequence (e.counters_create event))
  have opening := created.trans (Numbers.number (e.create event).1 (e.create event).2)
  exact ⟨opening.dense, opening.next⟩

theorem numbers_conclude (e : Encoder) (event : Event) :
    Numbers e (e.conclude event).1 (e.conclude event).2 := by
  have noted := Numbers.of_same
    (congrArg Counters.nextSequence (e.counters_noteFinish event.finish))
  exact noted.trans (Numbers.number (e.noteFinish event.finish).1 (e.noteFinish event.finish).2)

/-- **An event numbers its frames from the counter on**, and if it is refused, those
that it would have had until then. -/
theorem advances_feed (e : Encoder) (event : Event) :
    Advances e (e.feed event).1 (e.feed event).2 := by
  rw [feed]
  split
  · refine ⟨[], .of_same rfl, ?_⟩
    intro said got
    cases got
    rfl
  · split
    · exact ⟨[], .of_same rfl, fun _ got => absurd got (by simp)⟩
    · have announced := e.numbers_announce event
      obtain ⟨said, numbers, all⟩ := (e.announce event).1.advances_outputs event.outputs
      simp only
      split
      · next last refusal result =>
          rw [result] at numbers
          exact ⟨_, announced.trans numbers, fun _ got => absurd got (by simp)⟩
      · next last frames result =>
          rw [result] at numbers all
          obtain rfl := all frames rfl
          refine ⟨_, (announced.trans numbers).trans (last.numbers_conclude event), ?_⟩
          intro said got
          cases got
          rfl

/-- The closing frames are numbered from the counter on. -/
theorem numbers_close (e : Encoder) : Numbers e e.close.1 e.close.2 := by
  rw [close]
  split
  · exact .of_same rfl
  · have created := Numbers.of_same (congrArg Counters.nextSequence
      ((counters_closeItems (e.create {}).1).trans (e.counters_create {})))
    have closing := Numbers.number (e.create {}).1.closeItems.1 ((e.create {}).2 ++
      (e.create {}).1.closeItems.2 ++ [(e.create {}).1.closeItems.1.terminal])
    have whole := created.trans closing
    exact ⟨whole.dense, whole.next⟩

/-! ## Histories -/

/-- A call to an encoder. -/
inductive Turn where
  | feed (event : Event)
  | close
  deriving Repr

/-- A call, and the frames that get out. -/
def turn (e : Encoder) : Turn → Encoder × List Frame
  | .feed event =>
    match e.feed event with
    | (e, .ok frames) => (e, frames)
    | (e, .error _) => (e, [])
  | .close => e.close

/-- Calls one after another, whether they are refused or not. -/
def history (e : Encoder) : List Turn → Encoder × List Frame
  | [] => (e, [])
  | t :: rest =>
    let (e, frames) := e.turn t
    let (e, later) := e.history rest
    (e, frames ++ later)

theorem numbers_turn (e : Encoder) (t : Turn) :
    e.counters.nextSequence ≤ (e.turn t).1.counters.nextSequence ∧
      ((e.turn t).2 = [] ∨ Numbers e (e.turn t).1 (e.turn t).2) := by
  cases t with
  | close =>
      have numbers := e.numbers_close
      refine ⟨?_, .inr numbers⟩
      show _ ≤ e.close.1.counters.nextSequence
      rw [numbers.next]
      exact Nat.le_add_right _ _
  | feed event =>
      obtain ⟨frames, numbers, all⟩ := e.advances_feed event
      rw [turn]
      generalize e.feed event = fed at numbers all
      obtain ⟨after, result⟩ := fed
      have further : e.counters.nextSequence ≤ after.counters.nextSequence := by
        rw [numbers.next]
        exact Nat.le_add_right _ _
      cases result with
      | error refusal => exact ⟨further, .inl rfl⟩
      | ok said =>
          rw [← all said rfl] at numbers
          exact ⟨further, .inr numbers⟩

/-- **Over any history the numbers that get out ascend**, and the counter stands between
those of the past and those of the future. -/
theorem ascending_history (e : Encoder) (turns : List Turn) :
    e.counters.nextSequence ≤ (e.history turns).1.counters.nextSequence ∧
      ((e.history turns).2.map (·.sequence)).Pairwise (· < ·) ∧
      ∀ f ∈ (e.history turns).2, e.counters.nextSequence ≤ f.sequence ∧
        f.sequence < (e.history turns).1.counters.nextSequence := by
  induction turns generalizing e with
  | nil => exact ⟨Nat.le_refl _, List.Pairwise.nil, fun _ member => absurd member List.not_mem_nil⟩
  | cons t rest ih =>
      obtain ⟨further, now⟩ := e.numbers_turn t
      obtain ⟨onward, ascending, within⟩ := ih (e.turn t).1
      have first : ∀ f ∈ (e.turn t).2, e.counters.nextSequence ≤ f.sequence ∧
          f.sequence < (e.turn t).1.counters.nextSequence := by
        intro f member
        rcases now with nothing | numbers
        · rw [nothing] at member
          exact absurd member List.not_mem_nil
        · exact numbers.sequence_lt member
      refine ⟨Nat.le_trans further onward, ?_, ?_⟩
      · show (((e.turn t).2 ++ ((e.turn t).1.history rest).2).map (·.sequence)).Pairwise (· < ·)
        rw [List.map_append, List.pairwise_append]
        refine ⟨?_, ascending, ?_⟩
        · rcases now with nothing | numbers
          · rw [nothing]
            exact List.Pairwise.nil
          · exact numbers.ascending
        · intro left early right late
          obtain ⟨f, before, rfl⟩ := List.mem_map.1 early
          obtain ⟨g, after, rfl⟩ := List.mem_map.1 late
          exact Nat.lt_of_lt_of_le (first f before).2 (within g after).1
      · intro f member
        rcases List.mem_append.1 member with early | late
        · exact ⟨(first f early).1, Nat.lt_of_lt_of_le (first f early).2 onward⟩
        · exact ⟨Nat.le_trans further (within f late).1, (within f late).2⟩

/-- The number that comes next is above all those that got out. -/
theorem ascending_history_append (e : Encoder) (turns : List Turn) :
    ((e.history turns).2.map (·.sequence) ++
      [(e.history turns).1.counters.nextSequence]).Pairwise (· < ·) := by
  obtain ⟨_, ascending, within⟩ := e.ascending_history turns
  rw [List.pairwise_append]
  refine ⟨ascending, List.pairwise_singleton _ _, ?_⟩
  intro number early above late
  obtain ⟨f, member, rfl⟩ := List.mem_map.1 early
  rw [List.mem_singleton.1 late]
  exact (within f member).2

end Encoder
end DialectGateway.Responses
