/-
# Proofs.Dialect.Acceptance — which events a dialect can express

An encoder decides event by event: by the block that is open, the slots it has seen, the
calls it holds, and whether it knows of a reason to end. What it accepts in the end can be
said of the events alone (`Acceptable`): one choice, no output after the first reason to
end, and every fragment of a call fit to come after the outputs before it. The two
encoders of single choices differ in that last condition only. `FollowsOn` asks that the
fragments of a slot stand together, `Named` that the first of them has a name; the chat
dialect asks for nothing (`accepts_iff_acceptable`).

`accepts_iff` is the argument for all runs here: a machine that remembers enough of the
past to decide one step, and goes on remembering it, accepts a run just if each step is
allowed after those before it. It is used for the outputs of an event and again for the
events, in either dialect, so that the lemmas below speak of single turns: what an encoder
remembers decides the turn, and the turn keeps it.
-/
import DialectGateway.Dialect.Encoder
import DialectGateway.Proofs.Dialect.Messages.Runs
import DialectGateway.Proofs.Dialect.Responses.Content

set_option autoImplicit false

namespace DialectGateway

/-! ## Step after step -/

section Throughout

variable {A : Type} {allowed : List A → A → Prop}

/-- Each member of the run, which comes after the past, is allowed after those before it. -/
def Throughout (allowed : List A → A → Prop) (past run : List A) : Prop :=
  ∀ before a after, run = before ++ a :: after → allowed (past ++ before) a

theorem throughout_nil (past : List A) : Throughout allowed past [] := by
  intro before a after split
  exact absurd split (by simp)

theorem throughout_cons (past : List A) (a : A) (rest : List A) :
    Throughout allowed past (a :: rest) ↔
      allowed past a ∧ Throughout allowed (past ++ [a]) rest := by
  constructor
  · intro whole
    refine ⟨by simpa using whole [] a rest rfl, ?_⟩
    intro before a' after split
    rw [List.append_assoc]
    exact whole (a :: before) a' after (by rw [split]; rfl)
  · rintro ⟨first, later⟩ before a' after split
    cases before with
    | nil =>
        obtain ⟨rfl, rfl⟩ := List.cons.inj split
        rwa [List.append_nil]
    | cons b before =>
        obtain ⟨rfl, rest⟩ := List.cons.inj split
        have there := later before a' after rest
        rwa [List.append_assoc] at there

theorem throughout_append (past run later : List A) :
    Throughout allowed past (run ++ later) ↔
      Throughout allowed past run ∧ Throughout allowed (past ++ run) later := by
  induction run generalizing past with
  | nil => simp [throughout_nil]
  | cons a rest ih =>
      rw [List.cons_append, throughout_cons, throughout_cons, ih, and_assoc, List.append_assoc]
      rfl

/-- **A machine that remembers what it needs accepts exactly the runs whose steps are all
allowed.** What it remembers of the past decides each step, and each step keeps it. -/
theorem accepts_iff {S : Type} (accepts : S → List A → Prop) {turn : S → A → S → Prop}
    (Knows : S → List A → Prop) (stop : ∀ s, accepts s [])
    (step : ∀ s a rest, accepts s (a :: rest) ↔ ∃ s', turn s a s' ∧ accepts s' rest)
    (decides : ∀ s past a, Knows s past → ((∃ s', turn s a s') ↔ allowed past a))
    (keeps : ∀ s past a s', Knows s past → turn s a s' → Knows s' (past ++ [a]))
    {s : S} {past : List A} (knows : Knows s past) (run : List A) :
    accepts s run ↔ Throughout allowed past run := by
  induction run generalizing s past with
  | nil => exact iff_of_true (stop s) (throughout_nil past)
  | cons a rest ih =>
      rw [step, throughout_cons]
      constructor
      · rintro ⟨s', taken, later⟩
        exact ⟨(decides s past a knows).1 ⟨s', taken⟩, (ih (keeps s past a s' knows taken)).1 later⟩
      · rintro ⟨first, later⟩
        obtain ⟨s', taken⟩ := (decides s past a knows).2 first
        exact ⟨s', taken, (ih (keeps s past a s' knows taken)).2 later⟩

end Throughout

/-! ## What the events say -/

/-- The events can be expressed one after another, where `fit` is what is asked of a
fragment after the outputs before it. -/
structure Acceptable (fit : List Output → ToolFragment → Prop) (events : List Event) : Prop where
  single : ∀ e ∈ events, e.isEmpty = false → ∀ c ∈ e.choices, c.index = 0
  unfinished : ∀ before e after, events = before ++ e :: after →
    (firstFinish before).isSome = true → ∀ c ∈ e.choices, c.hasOutput = false
  fits : ∀ before f after, events.flatMap Event.outputs = before ++ .tool f :: after →
    fit before f

/-- The first fragment of a slot has a name. -/
def Named (before : List Output) (f : ToolFragment) : Prop :=
  fragmentsIn f.slot before = [] → f.name.isSome = true

/-- A fragment follows one of its slot directly, or it is the first of its slot and has a
name. -/
def FollowsOn (before : List Output) (f : ToolFragment) : Prop :=
  (∃ g, before.getLast? = some (.tool g) ∧ g.slot = f.slot) ∨
    fragmentsIn f.slot before = [] ∧ f.name.isSome = true

theorem fragmentsIn_of_getLast {os : List Output} {g : ToolFragment}
    (last : os.getLast? = some (.tool g)) : fragmentsIn g.slot os ≠ [] := by
  obtain ⟨before, rfl⟩ := List.getLast?_eq_some_iff.1 last
  simp [fragmentsIn_append_tool]

/-- What the messages dialect asks of a fragment is more than the responses dialect asks. -/
theorem FollowsOn.named {before : List Output} {f : ToolFragment} (follows : FollowsOn before f) :
    Named before f := by
  intro first
  rcases follows with ⟨g, last, same⟩ | ⟨_, named⟩
  · have some_ := fragmentsIn_of_getLast last
    rw [same] at some_
    exact absurd first some_
  · exact named

theorem Acceptable.mono {fit fit' : List Output → ToolFragment → Prop} {events : List Event}
    (weaker : ∀ before f, fit before f → fit' before f) (acceptable : Acceptable fit events) :
    Acceptable fit' events where
  single := acceptable.single
  unfinished := acceptable.unfinished
  fits := fun before f after split => weaker before f (acceptable.fits before f after split)

/-- An output that is a fragment is fit to come after the outputs before it. -/
def FitOutput (fit : List Output → ToolFragment → Prop) (before : List Output) (o : Output) :
    Prop := ∀ f, o = .tool f → fit before f

/-- What is asked of one event after those before it. -/
structure AllowedAfter (fit : List Output → ToolFragment → Prop) (past : List Event)
    (event : Event) : Prop where
  single : event.isEmpty = false → ∀ c ∈ event.choices, c.index = 0
  unfinished : (firstFinish past).isSome = true → event.hasOutput = false
  fits : Throughout (FitOutput fit) (past.flatMap Event.outputs) event.outputs

/-- The outputs of events are fit just if those of each event are. -/
theorem throughout_outputs {fit : List Output → ToolFragment → Prop} (past events : List Event) :
    Throughout (FitOutput fit) (past.flatMap Event.outputs) (events.flatMap Event.outputs) ↔
      Throughout (fun before event => Throughout (FitOutput fit)
        (before.flatMap Event.outputs) event.outputs) past events := by
  induction events generalizing past with
  | nil => exact iff_of_true (throughout_nil _) (throughout_nil _)
  | cons event rest ih =>
      have later := ih (past ++ [event])
      rw [List.flatMap_append, List.flatMap_singleton] at later
      rw [List.flatMap_cons, throughout_append, throughout_cons, later]

/-- What is asked of events together is asked of each after those before it. -/
theorem acceptable_iff {fit : List Output → ToolFragment → Prop} (events : List Event) :
    Acceptable fit events ↔ Throughout (AllowedAfter fit) [] events := by
  have silent (e : Event) : e.hasOutput = false ↔ ∀ c ∈ e.choices, c.hasOutput = false := by
    simp [Event.hasOutput]
  have outputs := @throughout_outputs fit [] events
  constructor
  · intro acceptable before e after split
    refine ⟨acceptable.single e (by simp [split]), ?_, ?_⟩
    · intro ended
      exact (silent e).2 (acceptable.unfinished before e after split ended)
    · refine outputs.1 ?_ before e after split
      rintro past _ later said f rfl
      exact acceptable.fits past f later said
  · intro allowed
    refine ⟨?_, ?_, ?_⟩
    · intro e member
      obtain ⟨before, after, split⟩ := List.append_of_mem member
      exact (allowed before e after split).single
    · intro before e after split ended
      exact (silent e).1 ((allowed before e after split).unfinished ended)
    · intro before f after said
      refine outputs.2 ?_ before (.tool f) after said f rfl
      exact fun past e later split => (allowed past e later split).fits

/-! ## One event -/

/-- An event is refused for what it is just if it has another choice or comes late. -/
theorem Event.refusal?_eq_none_iff (event : Event) (finished : Bool) :
    event.refusal? false finished = none ↔
      (∀ c ∈ event.choices, c.index = 0) ∧ (finished = true → event.hasOutput = false) := by
  constructor
  · intro accepted
    constructor
    · rw [Event.refusal?, if_neg Bool.false_ne_true] at accepted
      split at accepted
      · exact absurd accepted (by simp)
      · next only =>
          intro c member
          simpa using List.find?_eq_none.1 only c member
    · intro known
      exact (event.outputs_eq_nil_iff).1 (Event.outputs_of_finished accepted known)
  · rintro ⟨single, late⟩
    exact Event.refusal?_of_single single fun known => (event.outputs_eq_nil_iff).2 (late known)

/-- An encoder that passes over empty events, and of others refuses what is not single or
comes late and then goes by their outputs, accepts just the events that are allowed. Which
outputs it accepts matters only until there is a reason to end. -/
theorem Event.allowed_iff {fit : List Output → ToolFragment → Prop} {past : List Event}
    {event : Event} {spoken : Prop}
    (decides : firstFinish past = none →
      (spoken ↔ Throughout (FitOutput fit) (past.flatMap Event.outputs) event.outputs))
    (silent : event.outputs = [] → spoken) :
    event.isEmpty = true ∨ event.refusal? false (firstFinish past).isSome = none ∧ spoken ↔
      AllowedAfter fit past event := by
  have nothing (none_ : event.outputs = []) :
      Throughout (FitOutput fit) (past.flatMap Event.outputs) event.outputs := by
    rw [none_]
    exact throughout_nil _
  rw [Event.refusal?_eq_none_iff]
  constructor
  · rintro (empty | ⟨⟨single, late⟩, said⟩)
    · have none_ := Event.outputs_of_isEmpty empty
      exact ⟨fun other => absurd (empty.symm.trans other) (by simp),
        fun _ => (event.outputs_eq_nil_iff).1 none_, nothing none_⟩
    · refine ⟨fun _ => single, late, ?_⟩
      cases known : firstFinish past with
      | none => exact (decides known).1 said
      | some _ => exact nothing ((event.outputs_eq_nil_iff).2 (late (by rw [known]; rfl)))
  · rintro ⟨single, unfinished, fits⟩
    cases empty : event.isEmpty with
    | true => exact .inl rfl
    | false =>
        refine .inr ⟨⟨single empty, unfinished⟩, ?_⟩
        cases known : firstFinish past with
        | none => exact (decides known).2 fits
        | some _ =>
            exact silent ((event.outputs_eq_nil_iff).2 (unfinished (by rw [known]; rfl)))

/-! ## The messages dialect -/

namespace Messages

namespace Encoder

theorem openBlock_opened (e : Encoder) (kind : Kind) (opening : Opening) :
    (e.openBlock kind opening).1.opened.map (·.2) = some kind ∧
      (e.openBlock kind opening).1.seen = e.seen := by
  simp [openBlock, Told.closeBlock_fst]

theorem ensureBlock_opened (e : Encoder) (kind : Kind) (opening : Opening) :
    (e.ensureBlock kind opening).1.opened.map (·.2) = some kind ∧
      (e.ensureBlock kind opening).1.seen = e.seen := by
  rw [ensureBlock.eq_def]
  split
  · next index open_ now =>
      split
      · next same => exact ⟨by rw [now, ← same]; rfl, rfl⟩
      · exact e.openBlock_opened kind opening
  · exact e.openBlock_opened kind opening

theorem openSlot?_isSome_iff (e : Encoder) (slot : UInt32) :
    (e.openSlot? slot).isSome = true ↔ e.opened.map (·.2) = some (.tool slot) := by
  rw [openSlot?]
  split
  · next index kind now =>
      rw [now]
      by_cases same : kind = .tool slot <;> simp [same]
  · next now => simp [now]

/-- A fragment is accepted for the open block or for a block of its own, and then its slot's
block is the open one. -/
theorem tool_cases {e e' : Encoder} {f : ToolFragment} {more : List Frame}
    (said : e.tool f = .ok (e', more)) :
    e' = e ∧ e.opened.map (·.2) = some (.tool f.slot) ∨
      e'.opened.map (·.2) = some (.tool f.slot) ∧ e'.seen = f.slot :: e.seen := by
  rw [tool] at said
  split at said
  · next index open_ =>
      cases said
      exact .inl ⟨rfl, (e.openSlot?_isSome_iff f.slot).1 (by rw [open_]; rfl)⟩
  · split at said
    · exact absurd said (by simp)
    · split at said
      · exact absurd said (by simp)
      · next name _ =>
          cases said
          exact .inr (openBlock_opened { e with seen := f.slot :: e.seen } (.tool f.slot)
            (.tool (f.id.getD ("toolu_" ++ e.mint (e.seen.length + 1))) name))

theorem tool_ok_iff (e : Encoder) (f : ToolFragment) :
    (∃ e' more, e.tool f = .ok (e', more)) ↔
      (e.openSlot? f.slot).isSome = true ∨ f.slot ∉ e.seen ∧ f.name.isSome = true := by
  rw [tool]
  cases e.openSlot? f.slot with
  | some index => simp
  | none =>
      by_cases seen : f.slot ∈ e.seen
      · simp [seen]
      · cases f.name <;> simp [seen]

end Encoder

/-- What an encoder remembers of outputs: the slots that had fragments, and in its open block
the kind of the last output. -/
structure Remembers (e : Encoder) (os : List Output) : Prop where
  seen : ∀ slot, slot ∈ e.seen ↔ fragmentsIn slot os ≠ []
  latest : e.opened.map (·.2) = os.getLast?.map kindOf

namespace Remembers

variable {e e' : Encoder} {os : List Output}

theorem openSlot?_iff (remembers : Remembers e os) (slot : UInt32) :
    (e.openSlot? slot).isSome = true ↔
      ∃ g, os.getLast? = some (.tool g) ∧ g.slot = slot := by
  rw [Encoder.openSlot?_isSome_iff, remembers.latest, Option.map_eq_some_iff]
  constructor
  · rintro ⟨o, last, kind⟩
    cases o with
    | reasoning s | content s => exact absurd kind (by simp [kindOf])
    | tool g => exact ⟨g, last, by simpa [kindOf] using kind⟩
  · rintro ⟨g, last, rfl⟩
    exact ⟨.tool g, last, rfl⟩

/-- **What is remembered decides an output.** -/
theorem decides (remembers : Remembers e os) (o : Output) :
    (∃ e' more, e.output o = .ok (e', more)) ↔ FitOutput FollowsOn os o := by
  cases o with
  | reasoning s | content s => exact iff_of_true ⟨_, _, rfl⟩ (fun f other => nomatch other)
  | tool f =>
      have unseen : f.slot ∉ e.seen ↔ fragmentsIn f.slot os = [] := by
        rw [remembers.seen, not_not]
      rw [Encoder.output, Encoder.tool_ok_iff, remembers.openSlot?_iff, unseen]
      constructor
      · rintro follows _ ⟨rfl⟩
        exact follows
      · intro fits
        exact fits f rfl

/-- **An accepted output is remembered.** -/
theorem output (remembers : Remembers e os) {o : Output} {more : List Frame}
    (said : e.output o = .ok (e', more)) : Remembers e' (os ++ [o]) := by
  have text {e' : Encoder} (other : o.fragment? = none) (seen : e'.seen = e.seen)
      (opened : e'.opened.map (·.2) = some (kindOf o)) : Remembers e' (os ++ [o]) := by
    refine ⟨?_, by simpa using opened⟩
    intro slot
    rw [seen, remembers.seen, fragmentsIn_append_other slot os other]
  cases o with
  | reasoning s =>
      cases said
      obtain ⟨opened, seen⟩ := e.ensureBlock_opened .thinking .thinking
      exact text rfl seen opened
  | content s =>
      cases said
      obtain ⟨opened, seen⟩ := e.ensureBlock_opened .text .text
      exact text rfl seen opened
  | tool f =>
      rcases Encoder.tool_cases said with ⟨rfl, opened⟩ | ⟨opened, seen⟩
      · refine ⟨?_, by simpa [kindOf] using opened⟩
        intro slot
        have here : f.slot ∈ e'.seen := by
          obtain ⟨g, last, same⟩ := (remembers.openSlot?_iff f.slot).1
            ((e'.openSlot?_isSome_iff f.slot).2 opened)
          exact (remembers.seen f.slot).2 (same ▸ fragmentsIn_of_getLast last)
        rw [fragmentsIn_append_tool]
        split
        · next own => simpa [← own] using here
        · rw [remembers.seen, List.append_nil]
      · refine ⟨?_, by simpa [kindOf] using opened⟩
        intro slot
        rw [seen, List.mem_cons, remembers.seen, fragmentsIn_append_tool]
        split
        · next own => simp [own]
        · next other => simp [Ne.symm other]

/-- What comes before the outputs of an event does not touch what is remembered. -/
theorem start (remembers : Remembers e os) (event : Event) (usage : Tokens) :
    Remembers { (e.start event).1 with usage } os := by
  have seen : (e.start event).1.seen = e.seen := by rw [Encoder.start_fst]
  have opened : (e.start event).1.opened = e.opened := by rw [Encoder.start_fst]
  refine ⟨?_, opened ▸ remembers.latest⟩
  intro slot
  exact seen ▸ remembers.seen slot

end Remembers

namespace Encoder

theorem outputs_cons_ok (e : Encoder) (o : Output) (rest : List Output) :
    (∃ e' frames, e.outputs (o :: rest) = (e', .ok frames)) ↔
      ∃ middle, (∃ more, e.output o = .ok (middle, more)) ∧
        ∃ e' frames, middle.outputs rest = (e', .ok frames) := by
  rw [outputs]
  cases e.output o with
  | error refusal => simp
  | ok said =>
      obtain ⟨middle, more⟩ := said
      rcases remaining : middle.outputs rest with ⟨last, _ | later⟩ <;>
        simp [remaining, Except.map]

/-- The outputs that an encoder accepts are those that are fit after what it remembers. -/
theorem outputs_ok_iff {e : Encoder} {os : List Output} (remembers : Remembers e os)
    (more : List Output) :
    (∃ e' frames, e.outputs more = (e', .ok frames)) ↔
      Throughout (FitOutput FollowsOn) os more := by
  refine accepts_iff (fun e os => ∃ e' frames, e.outputs os = (e', .ok frames)) Remembers
    (fun e => ⟨e, [], rfl⟩) outputs_cons_ok (fun _ _ o known => known.decides o) ?_ remembers more
  rintro e os o e' known ⟨more, said⟩
  exact known.output said

/-- Outputs that are accepted are remembered. -/
theorem outputs_remembered {e e' : Encoder} {os more : List Output} {frames : List Frame}
    (remembers : Remembers e os) (said : e.outputs more = (e', .ok frames)) :
    Remembers e' (os ++ more) := by
  refine outputs_invariant (fun e' more _ => Remembers e' (os ++ more)) ?_
    (by simpa using remembers) said
  intro middle past _ o e'' _ known said
  rw [← List.append_assoc]
  exact known.output said

theorem feed_ok_iff (e : Encoder) (event : Event) :
    (∃ e' frames, e.feed event = (e', .ok frames)) ↔ event.isEmpty = true ∨
      event.refusal? e.stopped e.finish.isSome = none ∧ ∃ e' frames,
        { (e.start event).1 with usage := event.usage.getD (e.start event).1.usage }.outputs
          event.outputs = (e', .ok frames) := by
  constructor
  · rintro ⟨e', frames, fed⟩
    rcases feed_cases fed with ⟨empty, _, _⟩ | ⟨middle, now, accepted, said, _, _⟩
    · exact .inl empty
    · exact .inr ⟨accepted, middle, now, said⟩
  · rw [feed]
    rintro (empty | ⟨accepted, middle, now, said⟩)
    · exact ⟨e, [], by rw [if_pos empty]⟩
    · split
      · exact ⟨e, [], rfl⟩
      · simp only [accepted, said]
        exact ⟨_, _, rfl⟩

end Encoder

/-- What an encoder knows after events that it accepted. What it remembers of their outputs
no longer matters once there is a reason to end. -/
structure Knows (e : Encoder) (events : List Event) : Prop where
  grouping : ∃ frames, Grouping e events frames
  outputs : firstFinish events = none → Remembers e (events.flatMap Event.outputs)

namespace Knows

variable {e e' : Encoder} {events : List Event}

theorem fresh (mint : Nat → String) : Knows { mint } [] where
  grouping := ⟨[], Grouping.fresh mint⟩
  outputs := fun _ => ⟨by simp [fragmentsIn], rfl⟩

/-- **What is known decides an event.** -/
theorem decides (knows : Knows e events) (event : Event) :
    (∃ e' frames, e.feed event = (e', .ok frames)) ↔ AllowedAfter FollowsOn events event := by
  obtain ⟨frames, ⟨blocks, told, _⟩, finish, _⟩ := knows.grouping
  rw [Encoder.feed_ok_iff, told.running, finish]
  apply Event.allowed_iff
  · intro unfinished
    exact Encoder.outputs_ok_iff ((knows.outputs unfinished).start event _) event.outputs
  · intro none_
    rw [none_]
    exact ⟨_, _, rfl⟩

/-- **An accepted event is known.** -/
theorem feed (knows : Knows e events) {event : Event} {more : List Frame}
    (fed : e.feed event = (e', .ok more)) : Knows e' (events ++ [event]) := by
  obtain ⟨frames, grouping⟩ := knows.grouping
  refine ⟨⟨_, grouping.feed fed⟩, ?_⟩
  intro unfinished
  rw [firstFinish_append_singleton, Option.or_eq_none_iff] at unfinished
  have remembers := knows.outputs unfinished.1
  rw [List.flatMap_append, List.flatMap_singleton]
  rcases Encoder.feed_cases fed with ⟨empty, rfl, _⟩ | ⟨middle, now, _, said, rfl, _⟩
  · rwa [Event.outputs_of_isEmpty empty, List.append_nil]
  · rw [unfinished.2, Encoder.noteFinish_none]
    exact Encoder.outputs_remembered (remembers.start event _) said

end Knows
end Messages

/-! ## The responses dialect -/

namespace Responses

namespace Encoder

theorem closeReasoning_calls (e : Encoder) : e.closeReasoning.1.calls = e.calls := by
  rw [closeReasoning]
  split <;> rfl

theorem closeMessage_calls (e : Encoder) : e.closeMessage.1.calls = e.calls := by
  rw [closeMessage]
  split <;> rfl

theorem reason_calls (e : Encoder) (s : String) : (e.reason s).1.calls = e.calls := by
  show e.openReasoning.1.calls = e.calls
  rw [openReasoning]
  split
  · rfl
  · exact e.closeMessage_calls

theorem say_calls (e : Encoder) (s : String) : (e.say s).1.calls = e.calls := by
  show e.openMessage.1.calls = e.calls
  rw [openMessage]
  split
  · rfl
  · exact e.closeReasoning_calls

/-- The call of a slot is the one it has or a new one, and no other slot's call changes. -/
theorem openCall_calls {e m : Encoder} {f : ToolFragment} {c : OpenCall} {opening : List Notice}
    (asked : e.openCall f = .ok (m, c, opening)) :
    (e.calls.lookup f.slot = some c ∨ c.done = false) ∧
      m.calls.lookup f.slot = some c ∧
      ∀ slot, slot ≠ f.slot → m.calls.lookup slot = e.calls.lookup slot := by
  rw [openCall] at asked
  split at asked
  · next present =>
      cases asked
      exact ⟨.inl present, present, fun _ _ => rfl⟩
  · split at asked
    · exact absurd asked (by simp)
    · cases asked
      refine ⟨.inr rfl, Keyed.lookup_put_self _ _ _, ?_⟩
      intro slot other
      rw [Keyed.lookup_put_ne other]
      show (e.closeReasoning.1.closeMessage.1).calls.lookup slot = _
      rw [closeMessage_calls, closeReasoning_calls]

theorem openCall_ok_iff (e : Encoder) (f : ToolFragment) :
    (∃ m c opening, e.openCall f = .ok (m, c, opening)) ↔
      (e.calls.lookup f.slot = none → f.name.isSome = true) := by
  rw [openCall]
  cases e.calls.lookup f.slot with
  | some c => simp
  | none => cases f.name <;> simp

/-- A fragment is added to an open call, which stays open. -/
theorem call_of_openCall {e m : Encoder} {f : ToolFragment} {c : OpenCall} {opening : List Notice}
    (asked : e.openCall f = .ok (m, c, opening)) (undone : c.done = false) :
    ∃ e' notices, e.call f = .ok (e', notices) ∧
      (∃ c', e'.calls.lookup f.slot = some c' ∧ c'.done = false) ∧
      ∀ slot, slot ≠ f.slot → e'.calls.lookup slot = e.calls.lookup slot := by
  obtain ⟨_, present, others⟩ := openCall_calls asked
  simp only [call, asked, bind, Except.bind, undone, Bool.false_eq_true, if_false]
  split
  · exact ⟨m, opening, rfl, ⟨c, present, undone⟩, others⟩
  · refine ⟨_, _, rfl, ⟨_, Keyed.lookup_put_self _ _ _, rfl⟩, ?_⟩
    intro slot other
    rw [Keyed.lookup_put_ne other]
    exact others slot other

end Encoder

/-- What an encoder remembers of outputs: the slots that had fragments have their calls, and
these are open. -/
structure Remembers (e : Encoder) (os : List Output) : Prop where
  calls : ∀ slot, e.calls.lookup slot = none ↔ fragmentsIn slot os = []
  undone : ∀ slot c, e.calls.lookup slot = some c → c.done = false

namespace Remembers

variable {e e' : Encoder} {os : List Output}

theorem congr (remembers : Remembers e os) (same : e'.calls = e.calls) : Remembers e' os :=
  ⟨same ▸ remembers.calls, same ▸ remembers.undone⟩

theorem openCall_undone (remembers : Remembers e os) {f : ToolFragment} {m : Encoder}
    {c : OpenCall} {opening : List Notice} (asked : e.openCall f = .ok (m, c, opening)) :
    c.done = false := by
  rcases (Encoder.openCall_calls asked).1 with present | new
  · exact remembers.undone f.slot c present
  · exact new

/-- **What is remembered decides an output.** -/
theorem decides (remembers : Remembers e os) (o : Output) :
    (∃ e' notices, e.output1 o = .ok (e', notices)) ↔ FitOutput Named os o := by
  cases o with
  | reasoning s | content s => exact iff_of_true ⟨_, _, rfl⟩ (fun f other => nomatch other)
  | tool f =>
      have opens : (∃ m c opening, e.openCall f = .ok (m, c, opening)) ↔ Named os f := by
        rw [Encoder.openCall_ok_iff, remembers.calls]
        rfl
      constructor
      · rintro ⟨e', notices, said⟩ _ ⟨rfl⟩
        obtain ⟨m, c, opening, _, opened, _⟩ := Encoder.call_cases said
        exact opens.1 ⟨m, c, opening, opened⟩
      · intro fits
        obtain ⟨m, c, opening, opened⟩ := opens.2 (fits f rfl)
        obtain ⟨e', notices, said, _⟩ :=
          Encoder.call_of_openCall opened (remembers.openCall_undone opened)
        exact ⟨e', notices, said⟩

/-- **An accepted output is remembered.** -/
theorem output1 (remembers : Remembers e os) {o : Output} {notices : List Notice}
    (said : e.output1 o = .ok (e', notices)) : Remembers e' (os ++ [o]) := by
  have text {e' : Encoder} (other : o.fragment? = none) (same : e'.calls = e.calls) :
      Remembers e' (os ++ [o]) := by
    refine ⟨?_, same ▸ remembers.undone⟩
    intro slot
    rw [same, remembers.calls, fragmentsIn_append_other slot os other]
  cases o with
  | reasoning s =>
      cases said
      exact text rfl (e.reason_calls s)
  | content s =>
      cases said
      exact text rfl (e.say_calls s)
  | tool f =>
      obtain ⟨m, c, opening, _, opened, _⟩ := Encoder.call_cases said
      obtain ⟨e'', notices', said', ⟨c', present, undone⟩, others⟩ :=
        Encoder.call_of_openCall opened (remembers.openCall_undone opened)
      obtain ⟨rfl, _⟩ : e'' = e' ∧ notices' = notices := by
        simpa using said'.symm.trans said
      constructor
      · intro slot
        rw [fragmentsIn_append_tool]
        split
        · next own => simp [← own, present]
        · next other => rw [others slot (Ne.symm other), remembers.calls, List.append_nil]
      · intro slot c'' called
        by_cases own : slot = f.slot
        · rw [own, present] at called
          rwa [← Option.some.inj called]
        · exact remembers.undone slot c'' ((others slot own).symm.trans called)

end Remembers

namespace Encoder

theorem outputs_cons_ok (e : Encoder) (o : Output) (rest : List Output) :
    (∃ e' frames, e.outputs (o :: rest) = (e', .ok frames)) ↔
      ∃ middle, (∃ m notices, e.output1 o = .ok (m, notices) ∧ middle = (m.number notices).1) ∧
        ∃ e' frames, middle.outputs rest = (e', .ok frames) := by
  rw [outputs]
  cases e.output1 o with
  | error refusal => simp
  | ok said =>
      obtain ⟨m, notices⟩ := said
      rcases remaining : (m.number notices).1.outputs rest with ⟨last, _ | later⟩ <;>
        simp [remaining, Except.map]

/-- The outputs that an encoder accepts are those that are fit after what it remembers. -/
theorem outputs_ok_iff {e : Encoder} {os : List Output} (remembers : Remembers e os)
    (more : List Output) :
    (∃ e' frames, e.outputs more = (e', .ok frames)) ↔
      Throughout (FitOutput Named) os more := by
  refine accepts_iff (fun e os => ∃ e' frames, e.outputs os = (e', .ok frames)) Remembers
    (fun e => ⟨e, [], rfl⟩) outputs_cons_ok ?_ ?_ remembers more
  · intro e os o known
    rw [← known.decides o]
    constructor
    · rintro ⟨_, m, notices, said, rfl⟩
      exact ⟨m, notices, said⟩
    · rintro ⟨m, notices, said⟩
      exact ⟨_, m, notices, said, rfl⟩
  · rintro e os o _ known ⟨m, notices, said, rfl⟩
    exact (known.output1 said).congr rfl

/-- Outputs that are accepted are remembered. -/
theorem outputs_remembered {e e' : Encoder} {os more : List Output} {frames : List Frame}
    (remembers : Remembers e os) (said : e.outputs more = (e', .ok frames)) :
    Remembers e' (os ++ more) := by
  refine outputs_invariant (fun e' more _ => Remembers e' (os ++ more)) ?_
    (by simpa using remembers) said
  intro middle past _ o e'' _ known said
  rw [← List.append_assoc]
  exact (known.output1 said).congr rfl

theorem feed_ok_iff (e : Encoder) (event : Event) :
    (∃ e' frames, e.feed event = (e', .ok frames)) ↔ event.isEmpty = true ∨
      event.refusal? e.ended e.finish.isSome = none ∧ ∃ e' frames,
        (e.announce event).1.outputs event.outputs = (e', .ok frames) := by
  constructor
  · rintro ⟨e', frames, fed⟩
    rcases feed_cases fed with ⟨empty, _, _⟩ | ⟨middle, now, accepted, said, _, _⟩
    · exact .inl empty
    · exact .inr ⟨accepted, middle, now, said⟩
  · rw [feed]
    rintro (empty | ⟨accepted, middle, now, said⟩)
    · exact ⟨e, [], by rw [if_pos empty]⟩
    · split
      · exact ⟨e, [], rfl⟩
      · simp only [accepted, said]
        exact ⟨_, _, rfl⟩

theorem announce_calls (e : Encoder) (event : Event) :
    (e.announce event).1.calls = e.calls := by
  show (e.create event).1.calls = e.calls
  rw [create]
  split <;> rfl

theorem conclude_calls (e : Encoder) {event : Event} (unfinished : event.finish = none) :
    (e.conclude event).1.calls = e.calls := by
  rw [conclude, noteFinish, unfinished]
  rfl

end Encoder

/-- What an encoder knows after events that it accepted. What it remembers of their outputs
no longer matters once there is a reason to end. -/
structure Knows (e : Encoder) (events : List Event) : Prop where
  begun : ∃ said, Begun e said
  booked : ∃ frames, Booked e events frames
  outputs : firstFinish events = none → Remembers e (events.flatMap Event.outputs)

namespace Knows

variable {e e' : Encoder} {events : List Event}

theorem fresh (spareId : String) : Knows { spareId } [] where
  begun := ⟨[], .silent rfl rfl rfl rfl rfl rfl⟩
  booked := ⟨[], Booked.fresh spareId⟩
  outputs := fun _ => ⟨by simp [fragmentsIn], by simp⟩

/-- **What is known decides an event.** -/
theorem decides (knows : Knows e events) (event : Event) :
    (∃ e' frames, e.feed event = (e', .ok frames)) ↔ AllowedAfter Named events event := by
  obtain ⟨said, begun⟩ := knows.begun
  obtain ⟨frames, booked⟩ := knows.booked
  rw [Encoder.feed_ok_iff, begun.running, booked.finish]
  apply Event.allowed_iff
  · intro unfinished
    exact Encoder.outputs_ok_iff ((knows.outputs unfinished).congr (e.announce_calls event))
      event.outputs
  · intro none_
    rw [none_]
    exact ⟨_, _, rfl⟩

/-- **An accepted event is known.** -/
theorem feed (knows : Knows e events) {event : Event} {more : List Frame}
    (fed : e.feed event = (e', .ok more)) : Knows e' (events ++ [event]) := by
  obtain ⟨said, begun⟩ := knows.begun
  obtain ⟨frames, booked⟩ := knows.booked
  obtain ⟨notices, begun', _⟩ := begun.feed event
  rw [fed] at begun'
  refine ⟨⟨_, begun'⟩, ⟨_, booked.feed fed⟩, ?_⟩
  intro unfinished
  rw [firstFinish_append_singleton, Option.or_eq_none_iff] at unfinished
  have remembers := knows.outputs unfinished.1
  rw [List.flatMap_append, List.flatMap_singleton]
  rcases Encoder.feed_cases fed with ⟨empty, rfl, _⟩ | ⟨middle, now, _, said, rfl, _⟩
  · rwa [Event.outputs_of_isEmpty empty, List.append_nil]
  · have announced := remembers.congr (e.announce_calls event)
    exact (Encoder.outputs_remembered announced said).congr (middle.conclude_calls unfinished.2)

end Knows
end Responses

/-! ## Every dialect -/

/-- A new stream accepts the events, all of them. -/
def Dialect.Accepts (d : Dialect) (mint : Nat → String) (events : List Event) : Prop :=
  ∃ e frames, feedAll Encoder.feed (Encoder.fresh mint d) events = .ok (e, frames)

theorem feedAll_cons_iff {E F : Type} {feed : E → Event → E × Except Refusal (List F)} (e : E)
    (event : Event) (rest : List Event) :
    (∃ e' frames, feedAll feed e (event :: rest) = .ok (e', frames)) ↔
      ∃ middle, (∃ now, feed e event = (middle, .ok now)) ∧
        ∃ e' later, feedAll feed middle rest = .ok (e', later) := by
  constructor
  · rintro ⟨e', frames, fed⟩
    obtain ⟨middle, now, later, first, tail, _⟩ := feedAll_cons_ok fed
    exact ⟨middle, ⟨now, first⟩, e', later, tail⟩
  · rintro ⟨middle, ⟨now, first⟩, e', later, tail⟩
    exact ⟨e', now ++ later, by simp only [feedAll, first, tail]⟩

/-- A dialect accepts what is allowed event by event if its encoder knows enough to decide an
event and goes on knowing it. -/
theorem feedAll_ok_iff {E F : Type} {feed : E → Event → E × Except Refusal (List F)}
    (wrap : E → Encoder) (toSse : F → Sse.Frame) {Knows : E → List Event → Prop}
    {fit : List Output → ToolFragment → Prop}
    (wraps : ∀ e event, (wrap e).feed event =
      (wrap (feed e event).1, (feed e event).2.map (·.map toSse)))
    (decides : ∀ e past event, Knows e past →
      ((∃ e' frames, feed e event = (e', .ok frames)) ↔ AllowedAfter fit past event))
    (keeps : ∀ e past event e' frames, Knows e past → feed e event = (e', .ok frames) →
      Knows e' (past ++ [event]))
    {e : E} (fresh : Knows e []) (events : List Event) :
    (∃ e' frames, feedAll Encoder.feed (wrap e) events = .ok (e', frames)) ↔
      Acceptable fit events := by
  rw [acceptable_iff]
  refine accepts_iff (fun e events => ∃ e' frames, feedAll Encoder.feed e events = .ok (e', frames))
    (fun e past => ∃ inner, e = wrap inner ∧ Knows inner past) (fun e => ⟨e, [], rfl⟩)
    feedAll_cons_iff ?_ ?_ ⟨e, rfl, fresh⟩ events
  · rintro _ past event ⟨inner, rfl, knows⟩
    rw [← decides inner past event knows, wraps]
    rcases feed inner event with ⟨inner', _ | frames⟩ <;> simp [Except.map]
  · rintro _ past event e' ⟨inner, rfl, knows⟩ ⟨frames, fed⟩
    rw [wraps] at fed
    rcases turn : feed inner event with ⟨inner', _ | frames'⟩ <;> rw [turn] at fed
    · exact absurd fed (by simp [Except.map])
    · cases fed
      exact ⟨inner', rfl, keeps inner past event inner' frames' knows turn⟩

/-- The responses encoder takes just such events, all of them. -/
theorem Responses.feedAll_ok_iff_acceptable (spareId : String) (events : List Event) :
    (∃ e frames, feedAll Responses.Encoder.feed { spareId } events = .ok (e, frames)) ↔
      Acceptable Named events := by
  rw [acceptable_iff]
  refine accepts_iff
    (fun e events => ∃ e' frames, feedAll Responses.Encoder.feed e events = .ok (e', frames))
    Responses.Knows (fun e => ⟨e, [], rfl⟩) feedAll_cons_iff ?_ ?_ (.fresh spareId) events
  · exact fun _ _ event knows => knows.decides event
  · rintro _ _ _ _ knows ⟨_, fed⟩
    exact knows.feed fed

theorem Dialect.accepts_messages (mint : Nat → String) (events : List Event) :
    Dialect.messages.Accepts mint events ↔ Acceptable FollowsOn events :=
  feedAll_ok_iff .messages Messages.Frame.toSse (fun _ _ => rfl)
    (fun _ _ event knows => Messages.Knows.decides knows event)
    (fun _ _ _ _ _ knows fed => knows.feed fed) (Messages.Knows.fresh mint) events

theorem Dialect.accepts_responses (mint : Nat → String) (events : List Event) :
    Dialect.responses.Accepts mint events ↔ Acceptable Named events :=
  feedAll_ok_iff .responses Responses.Frame.toSse (fun _ _ => rfl)
    (fun _ _ event knows => Responses.Knows.decides knows event)
    (fun _ _ _ _ _ knows fed => knows.feed fed) (Responses.Knows.fresh (mint 0)) events

theorem Dialect.accepts_chat (mint : Nat → String) (events : List Event) :
    Dialect.chat.Accepts mint events := by
  show ∃ e frames, feedAll Encoder.feed .chat events = .ok (e, frames)
  induction events with
  | nil => exact ⟨_, _, rfl⟩
  | cons event rest ih => exact (feedAll_cons_iff _ event rest).2 ⟨.chat, ⟨_, rfl⟩, ih⟩

/-- **A dialect accepts just the events that it can express.** For the messages dialect the
fragments of a slot follow one another, for the responses dialect the first of them has a
name, which is less; the chat dialect can express all events. -/
theorem accepts_iff_acceptable (mint : Nat → String) (events : List Event) :
    (Dialect.messages.Accepts mint events ↔ Acceptable FollowsOn events) ∧
    (Dialect.responses.Accepts mint events ↔ Acceptable Named events) ∧
    (Dialect.messages.Accepts mint events → Dialect.responses.Accepts mint events) ∧
    Dialect.chat.Accepts mint events := by
  have messages := Dialect.accepts_messages mint events
  have responses := Dialect.accepts_responses mint events
  refine ⟨messages, responses, ?_, Dialect.accepts_chat mint events⟩
  intro accepted
  exact responses.2 ((messages.1 accepted).mono fun _ _ follows => follows.named)

/-- One call is accepted in the messages dialect, hence in the responses dialect. -/
theorem accepts_iff_acceptable_call :
    let events : List Event :=
      [{ choices := [{ index := 0, tools := [⟨0, none, some "f", none⟩] }] }]
    Dialect.messages.Accepts (fun _ => "") events ∧
      Dialect.responses.Accepts (fun _ => "") events := by
  intro events
  have accepted : Dialect.messages.Accepts (fun _ => "") events := ⟨_, _, rfl⟩
  exact ⟨accepted, (accepts_iff_acceptable _ events).2.2.1 accepted⟩

/-- The responses dialect accepts more: calls whose fragments take turns. -/
example (mint : Nat → String) : ∃ events,
    Dialect.responses.Accepts mint events ∧ ¬Dialect.messages.Accepts mint events := by
  refine ⟨[{ choices := [{ index := 0, tools :=
    [⟨0, none, some "f", none⟩, ⟨1, none, some "g", none⟩, ⟨0, none, none, some "x"⟩] }] }],
    ⟨_, _, rfl⟩, ?_⟩
  rintro ⟨_, _, fed⟩
  cases fed

end DialectGateway
