/-
# Proofs.Generation.Events — what events say together

A run of events says its contents, its reasoning and the fragments of each slot, one
piece after another; it reports token counts, of which the last hold, and reasons to
end, of which the first does. The same can be said of the outputs of the events, since
only empty texts are no output (`join_contentText`, `fragmentsIn_outputs`).
-/
import DialectGateway.Generation.Event

set_option autoImplicit false

namespace DialectGateway

/-- The token counts that were reported last. -/
def lastUsage (events : List Event) : Option Tokens := (events.filterMap (·.usage)).getLast?

/-- The reason to end that was given first. -/
def firstFinish (events : List Event) : Option Finish := events.findSome? Event.finish

theorem lastUsage_append_singleton (events : List Event) (event : Event) :
    lastUsage (events ++ [event]) = event.usage.or (lastUsage events) := by
  rw [lastUsage, List.filterMap_append, List.getLast?_append]
  cases reported : event.usage <;> simp [reported, lastUsage]

theorem firstFinish_append_singleton (events : List Event) (event : Event) :
    firstFinish (events ++ [event]) = (firstFinish events).or event.finish := by
  rw [firstFinish, List.findSome?_append, List.findSome?_singleton]
  rfl

theorem Event.outputs_of_isEmpty {event : Event} (empty : event.isEmpty = true) :
    event.outputs = [] := by
  rw [Event.outputs_eq_nil_iff, Event.hasOutput, List.any_eq_false]
  simp only [Event.isEmpty, Bool.and_eq_true, List.all_eq_true] at empty
  intro choice member
  have silent := empty.2 choice member
  simp only [Choice.isEmpty, Bool.and_eq_true, Bool.not_eq_true'] at silent
  simp [silent.1]

theorem Event.usage_of_isEmpty {event : Event} (empty : event.isEmpty = true) :
    event.usage = none := by
  simp only [Event.isEmpty, Bool.and_eq_true, Option.isNone_iff_eq_none] at empty
  exact empty.1.2

theorem Event.finish_of_isEmpty {event : Event} (empty : event.isEmpty = true) :
    event.finish = none := by
  simp only [Event.isEmpty, Bool.and_eq_true, List.all_eq_true] at empty
  rw [Event.finish, List.findSome?_eq_none_iff]
  intro choice member
  have silent := empty.2 choice member
  simp only [Choice.isEmpty, Bool.and_eq_true, Option.isNone_iff_eq_none] at silent
  exact silent.2

/-- The contents of events, one after another. -/
def contentOf (events : List Event) : String :=
  String.join (events.flatMap fun e => e.choices.map fun c => c.content.getD "")

/-- The reasoning of events, one after another. -/
def reasoningOf (events : List Event) : String :=
  String.join (events.flatMap fun e => e.choices.map fun c => c.reasoning.getD "")

/-- The fragments of a slot, one after another. -/
def fragmentsOf (slot : UInt32) (events : List Event) : List ToolFragment :=
  (events.flatMap fun e => e.choices.flatMap (·.tools)).filter (·.slot = slot)

namespace Output

def contentText : Output → String
  | content s => s
  | _ => ""

def reasoningText : Output → String
  | reasoning s => s
  | _ => ""

def fragment? : Output → Option ToolFragment
  | tool f => some f
  | _ => none

end Output

/-- The fragments of a slot among outputs. -/
def fragmentsIn (slot : UInt32) (os : List Output) : List ToolFragment :=
  (os.filterMap Output.fragment?).filter (·.slot = slot)

theorem fragmentsIn_append_tool (slot : UInt32) (os : List Output) (f : ToolFragment) :
    fragmentsIn slot (os ++ [.tool f]) =
      fragmentsIn slot os ++ if f.slot = slot then [f] else [] := by
  rw [fragmentsIn, List.filterMap_append, List.filter_append]
  split <;> simp [fragmentsIn, Output.fragment?, *]

theorem fragmentsIn_append_other (slot : UInt32) (os : List Output) {o : Output}
    (other : o.fragment? = none) : fragmentsIn slot (os ++ [o]) = fragmentsIn slot os := by
  simp [fragmentsIn, other]

namespace Choice

theorem join_textOutput {form : String → Output} {text : Output → String}
    (reads : ∀ s, text (form s) = s) (s : Option String) :
    String.join ((textOutput form s).map text) = s.getD "" := by
  cases s with
  | none => rfl
  | some s =>
      rw [textOutput]
      split
      · next empty => simpa using (String.isEmpty_iff.1 empty).symm
      · simp [reads]

theorem join_silent {text : Output → String} {os : List Output} (silent : ∀ o ∈ os, text o = "") :
    String.join (os.map text) = "" := by
  induction os with
  | nil => rfl
  | cons o rest ih =>
      rw [List.map_cons, String.join_cons, silent o List.mem_cons_self,
        ih fun o' member => silent o' (List.mem_cons_of_mem _ member)]
      rfl

theorem silent_textOutput {form : String → Output} {text : Output → String}
    (silent : ∀ s, text (form s) = "") {s : Option String} {o : Output}
    (member : o ∈ textOutput form s) : text o = "" := by
  cases s with
  | none => exact absurd member List.not_mem_nil
  | some s =>
      rw [textOutput] at member
      split at member
      · exact absurd member List.not_mem_nil
      · rw [List.mem_singleton.1 member]
        exact silent s

theorem contentText_outputs (c : Choice) :
    String.join (c.outputs.map Output.contentText) = c.content.getD "" := by
  have thoughts : String.join ((textOutput .reasoning c.reasoning).map Output.contentText) = "" :=
    join_silent fun _ => silent_textOutput fun _ => rfl
  rw [outputs, List.map_append, List.map_append, String.join_append, String.join_append, thoughts,
    join_textOutput fun _ => rfl, join_silent]
  · simp
  · simp [Output.contentText]

theorem reasoningText_outputs (c : Choice) :
    String.join (c.outputs.map Output.reasoningText) = c.reasoning.getD "" := by
  have texts : String.join ((textOutput .content c.content).map Output.reasoningText) = "" :=
    join_silent fun _ => silent_textOutput fun _ => rfl
  rw [outputs, List.map_append, List.map_append, String.join_append, String.join_append, texts,
    join_textOutput fun _ => rfl, join_silent]
  · simp
  · simp [Output.reasoningText]

theorem fragments_outputs (c : Choice) : c.outputs.filterMap Output.fragment? = c.tools := by
  have none_ (form : String → Output) (silent : ∀ s, (form s).fragment? = none)
      (s : Option String) : (textOutput form s).filterMap Output.fragment? = [] := by
    cases s with
    | none => rfl
    | some s =>
        rw [textOutput]
        split <;> simp [silent]
  rw [outputs, List.filterMap_append, List.filterMap_append, none_ _ fun _ => rfl,
    none_ _ fun _ => rfl, List.filterMap_map]
  exact List.filterMap_some

end Choice

/-- What choices say one by one, events say together. -/
theorem join_outputs {text : Output → String} {ofChoice : Choice → String}
    (reads : ∀ c : Choice, String.join (c.outputs.map text) = ofChoice c) (events : List Event) :
    String.join ((events.flatMap Event.outputs).map text) =
      String.join (events.flatMap fun e => e.choices.map ofChoice) := by
  have together : ∀ choices : List Choice,
      String.join ((choices.flatMap Choice.outputs).map text) =
        String.join (choices.map ofChoice) := by
    intro choices
    induction choices with
    | nil => rfl
    | cons c rest ih =>
        rw [List.flatMap_cons, List.map_append, String.join_append, reads, ih, List.map_cons,
          String.join_cons]
  induction events with
  | nil => rfl
  | cons e rest ih =>
      rw [List.flatMap_cons, List.map_append, String.join_append, ih, Event.outputs, together,
        List.flatMap_cons, String.join_append]

theorem join_contentText (events : List Event) :
    String.join ((events.flatMap Event.outputs).map Output.contentText) = contentOf events :=
  join_outputs Choice.contentText_outputs events

theorem join_reasoningText (events : List Event) :
    String.join ((events.flatMap Event.outputs).map Output.reasoningText) = reasoningOf events :=
  join_outputs Choice.reasoningText_outputs events

theorem fragmentsIn_outputs (slot : UInt32) (events : List Event) :
    fragmentsIn slot (events.flatMap Event.outputs) = fragmentsOf slot events := by
  rw [fragmentsIn, fragmentsOf]
  congr 1
  simp only [List.filterMap_flatMap, Event.outputs, Choice.fragments_outputs]

end DialectGateway
