/-
# Proofs.Dialect.Spelling — a reply spelled out by events

A backend may give a reply at once or spell it out: its reasoning, its text and its tool
calls, in this order, each cut into pieces in any way (`Spells`). On the way there is a
partial reply at every time, and an output adds to it in one of four ways (`Adds`).

What an encoder does with a spelling is shown along the partial replies: if it accepts
what adds to the reply, and then stands for the reply with the addition, it accepts the
events of a spelling and stands for the whole reply in the end (`Spells.feedAll`).
-/
import DialectGateway.Generation.Reply
import DialectGateway.Proofs.Dialect.Feeding
import Mathlib.Data.List.Forall2

set_option autoImplicit false

namespace DialectGateway

/-! ## Spellings -/

/-- The fragments spell the call in its slot: the first has its id and its name. -/
def SpellsCall (call : ToolCall) (slot : Nat) (fragments : List ToolFragment) : Prop :=
  (∃ first rest, fragments = first :: rest ∧ first.id = some call.id ∧
    first.name = some call.name) ∧
  (∀ f ∈ fragments, f.slot.toNat = slot) ∧
  String.join (fragments.map ToolFragment.addition) = call.arguments

/-- The event is a part of the reply: it has the reply's head, and one choice. -/
def Event.IsOf (event : Event) (r : Reply) : Prop :=
  event.id = r.id ∧ event.model = r.model ∧ event.created = r.created ∧
    ∀ choice ∈ event.choices, choice.index = 0

instance (event : Event) (r : Reply) : Decidable (event.IsOf r) :=
  inferInstanceAs (Decidable (_ ∧ _))

/-- The events spell the reply. Events that say nothing may stand anywhere. -/
structure Spells (r : Reply) (events : List Event) : Prop where
  heads : ∀ event ∈ events, event.isEmpty = false → event.IsOf r
  outputs : ∃ thoughts texts calls, events.flatMap Event.outputs =
      thoughts.map .reasoning ++ texts.map .content ++ calls.flatten.map .tool ∧
    String.join thoughts = r.reasoning.getD "" ∧
    String.join texts = r.text ∧
    List.Forall₂ (fun (call, slot) fragments => SpellsCall call slot fragments)
      r.tools.zipIdx calls
  finish : firstFinish events = r.finish
  /-- A reason to end comes with or after the last output. -/
  late : events.Pairwise fun event later => event.finish.isSome = true → later.outputs = []
  usage : lastUsage events = some r.usage

/-! ## Partial replies -/

namespace Reply

/-- How many pieces a reply is made of: its reasoning, its text and its calls. -/
def pieces (r : Reply) : Nat :=
  r.reasoning.toList.length + (if r.text = "" then 0 else 1) + r.tools.length

/-- The reply before anything is generated. -/
def blank (r : Reply) : Reply := { r with text := "", reasoning := none, tools := [] }

/-- What an output adds to a partial reply: a thought while there is no text, text while
there is no call, a call in the next slot, or more arguments to the last call. -/
inductive Adds (ρ : Reply) : Output → Reply → Prop
  | thought (s : String) (some_ : s ≠ "") (untold : ρ.text = "") (idle : ρ.tools = []) :
      Adds ρ (.reasoning s) { ρ with reasoning := some (ρ.reasoning.getD "" ++ s) }
  | text (s : String) (some_ : s ≠ "") (idle : ρ.tools = []) :
      Adds ρ (.content s) { ρ with text := ρ.text ++ s }
  | call (f : ToolFragment) (id name : String) (slot : f.slot.toNat = ρ.tools.length)
      (known : f.id = some id) (named : f.name = some name) :
      Adds ρ (.tool f) { ρ with tools := ρ.tools ++ [⟨id, name, f.addition⟩] }
  | arguments (f : ToolFragment) (before : List ToolCall) (call : ToolCall)
      (last : ρ.tools = before ++ [call]) (slot : f.slot.toNat = before.length) :
      Adds ρ (.tool f)
        { ρ with tools := before ++ [{ call with arguments := call.arguments ++ f.addition }] }

/-- What is added to a partial reply takes no piece from it. -/
theorem Adds.pieces_le {ρ ρ' : Reply} {o : Output} (adds : Adds ρ o ρ') :
    ρ.pieces ≤ ρ'.pieces := by
  cases adds with
  | thought s =>
      have less : ρ.reasoning.toList.length ≤ 1 := by cases ρ.reasoning <;> simp
      simp only [pieces, Option.toList_some, List.length_singleton]
      omega
  | text s some_ =>
      have told : ρ.text ++ s ≠ "" := fun empty => some_ (String.append_eq_empty_iff.1 empty).2
      have less : (if ρ.text = "" then 0 else 1) ≤ 1 := by split <;> omega
      simp only [pieces, if_neg told]
      omega
  | call =>
      simp only [pieces, List.length_append]
      omega
  | arguments f before call last =>
      simp only [pieces, last, List.length_append, List.length_singleton]
      exact Nat.le_refl _

/-- What outputs add to a partial reply, one after another. -/
inductive Grows : Reply → List Output → Reply → Prop
  | nil (ρ : Reply) : Grows ρ [] ρ
  | cons {ρ ρ' ρ'' : Reply} {o : Output} {os : List Output} (first : Adds ρ o ρ')
      (rest : Grows ρ' os ρ'') : Grows ρ (o :: os) ρ''

namespace Grows

variable {ρ ρ' ρ'' : Reply} {os os' : List Output}

theorem append (left : Grows ρ os ρ') (right : Grows ρ' os' ρ'') : Grows ρ (os ++ os') ρ'' := by
  induction left with
  | nil => exact right
  | cons first _ ih => exact .cons first (ih right)

theorem pieces_le (grows : Grows ρ os ρ') : ρ.pieces ≤ ρ'.pieces := by
  induction grows with
  | nil => exact Nat.le_refl _
  | cons first _ ih => exact Nat.le_trans first.pieces_le ih

theorem split (grows : Grows ρ (os ++ os') ρ'') : ∃ ρ', Grows ρ os ρ' ∧ Grows ρ' os' ρ'' := by
  induction os generalizing ρ with
  | nil => exact ⟨ρ, .nil ρ, grows⟩
  | cons o rest ih =>
      cases grows with
      | cons first later =>
          obtain ⟨ρ', left, right⟩ := ih later
          exact ⟨ρ', .cons first left, right⟩

theorem thoughts {s : String} (reasoning : ρ.reasoning = some s) (untold : ρ.text = "")
    (idle : ρ.tools = []) {pieces : List String} (some_ : ∀ piece ∈ pieces, piece ≠ "") :
    Grows ρ (pieces.map .reasoning) { ρ with reasoning := some (s ++ String.join pieces) } := by
  induction pieces generalizing ρ s with
  | nil =>
      have same : { ρ with reasoning := some (s ++ String.join []) } = ρ := by
        rw [String.join_nil, String.append_empty, ← reasoning]
      rw [same]
      exact .nil ρ
  | cons piece rest ih =>
      refine .cons (.thought piece (some_ piece List.mem_cons_self) untold idle) ?_
      rw [reasoning, Option.getD_some, String.join_cons, ← String.append_assoc]
      exact ih rfl untold idle fun p member => some_ p (List.mem_cons_of_mem _ member)

theorem texts (idle : ρ.tools = []) {pieces : List String} (some_ : ∀ piece ∈ pieces, piece ≠ "") :
    Grows ρ (pieces.map .content) { ρ with text := ρ.text ++ String.join pieces } := by
  induction pieces generalizing ρ with
  | nil =>
      rw [String.join_nil, String.append_empty]
      exact .nil ρ
  | cons piece rest ih =>
      refine .cons (.text piece (some_ piece List.mem_cons_self) idle) ?_
      rw [String.join_cons, ← String.append_assoc]
      exact ih idle fun p member => some_ p (List.mem_cons_of_mem _ member)

theorem arguments {before : List ToolCall} {call : ToolCall} (last : ρ.tools = before ++ [call])
    {fragments : List ToolFragment} (slots : ∀ f ∈ fragments, f.slot.toNat = before.length) :
    Grows ρ (fragments.map .tool) { ρ with tools := before ++ [{ call with
      arguments := call.arguments ++ String.join (fragments.map ToolFragment.addition) }] } := by
  induction fragments generalizing ρ call with
  | nil =>
      rw [List.map_nil, List.map_nil, String.join_nil, String.append_empty, ← last]
      exact .nil ρ
  | cons f rest ih =>
      refine .cons (.arguments f before call last (slots f List.mem_cons_self)) ?_
      rw [List.map_cons, String.join_cons, ← String.append_assoc]
      exact ih (ρ := { ρ with tools := before ++ [_] }) rfl fun f member =>
        slots f (List.mem_cons_of_mem _ member)

theorem calls {tools : List ToolCall} {fragments : List (List ToolFragment)}
    (spelled : List.Forall₂ (fun (call, slot) fragments => SpellsCall call slot fragments)
      (tools.zipIdx ρ.tools.length) fragments) :
    Grows ρ (fragments.flatten.map .tool) { ρ with tools := ρ.tools ++ tools } := by
  induction tools generalizing ρ fragments with
  | nil =>
      cases spelled
      rw [List.append_nil]
      exact .nil ρ
  | cons call rest ih =>
      rw [List.zipIdx_cons] at spelled
      cases spelled with
      | cons first later =>
          obtain ⟨⟨f, more, rfl, known, named⟩, slots, all⟩ := first
          rw [List.flatten_cons, List.map_append, List.map_cons]
          refine .cons (.call f _ _ (slots f List.mem_cons_self) known named) ?_
          refine (arguments rfl fun f member => slots f (List.mem_cons_of_mem _ member)).append ?_
          rw [List.map_cons, String.join_cons] at all
          have more := ih (ρ := { ρ with tools := ρ.tools ++ [call] }) (by
            rw [List.length_append, List.length_singleton]
            exact later)
          rw [List.append_assoc] at more
          rw [all]
          exact more

end Grows
end Reply

/-- Texts that are output are not empty. -/
theorem Event.text_of_mem_outputs {events : List Event} {s : String}
    (member : .reasoning s ∈ events.flatMap Event.outputs ∨
      .content s ∈ events.flatMap Event.outputs) : s ≠ "" := by
  have within {form : String → Output} (apart : ∀ t, form t = .reasoning s ∨
      form t = .content s → t = s) {text : Option String} {o : Output}
      (member : o ∈ Choice.textOutput form text) (same : o = .reasoning s ∨ o = .content s) :
      s ≠ "" := by
    cases text with
    | none => exact absurd member List.not_mem_nil
    | some t =>
        rw [Choice.textOutput] at member
        split at member
        · exact absurd member List.not_mem_nil
        · next some_ =>
            rw [List.mem_singleton] at member
            rw [member] at same
            rw [← apart t same, Ne, ← String.isEmpty_iff]
            exact some_
  obtain ⟨o, generated, same⟩ : ∃ o ∈ events.flatMap Event.outputs,
      o = .reasoning s ∨ o = .content s := by
    rcases member with reasoning | content
    · exact ⟨_, reasoning, .inl rfl⟩
    · exact ⟨_, content, .inr rfl⟩
  obtain ⟨event, _, there⟩ := List.mem_flatMap.1 generated
  obtain ⟨choice, _, here⟩ := List.mem_flatMap.1 there
  rw [Choice.outputs, List.mem_append, List.mem_append] at here
  rcases here with (thought | text) | call
  · exact within (by simp) thought same
  · exact within (by simp) text same
  · obtain ⟨f, _, rfl⟩ := List.mem_map.1 call
    exact absurd same (by simp)

namespace Spells

variable {r : Reply} {events : List Event}

/-- A spelling leads from nothing to the whole reply. -/
theorem grows (spells : Spells r events) (thought : r.reasoning ≠ some "") :
    Reply.Grows r.blank (events.flatMap Event.outputs) r := by
  obtain ⟨thoughts, texts, calls, outputs, reasoning, text, spelled⟩ := spells.outputs
  have someThought : ∀ piece ∈ thoughts, piece ≠ "" := by
    intro piece member
    have generated : .reasoning piece ∈ events.flatMap Event.outputs := by simp [outputs, member]
    exact Event.text_of_mem_outputs (.inl generated)
  have someText : ∀ piece ∈ texts, piece ≠ "" := by
    intro piece member
    have generated : .content piece ∈ events.flatMap Event.outputs := by simp [outputs, member]
    exact Event.text_of_mem_outputs (.inr generated)
  have first :
      Reply.Grows r.blank (thoughts.map .reasoning) { r with text := "", tools := [] } := by
    cases thoughts with
    | nil =>
        have none_ : r.reasoning = none := by
          cases given : r.reasoning with
          | none => rfl
          | some s =>
              rw [given, Option.getD_some] at reasoning
              rw [given, ← reasoning] at thought
              exact absurd rfl thought
        have same : r.blank = { r with text := "", tools := [] } := by rw [Reply.blank, none_]
        rw [same]
        exact .nil _
    | cons piece rest =>
        have some_ : r.reasoning = some (piece ++ String.join rest) := by
          rw [String.join_cons] at reasoning
          cases given : r.reasoning with
          | some s => rw [reasoning, given, Option.getD_some]
          | none =>
              rw [given, Option.getD_none, String.append_eq_empty_iff] at reasoning
              exact absurd reasoning.1 (someThought piece List.mem_cons_self)
        refine .cons (.thought piece (someThought piece List.mem_cons_self) rfl rfl) ?_
        have more := Reply.Grows.thoughts (ρ := { r.blank with reasoning := some ("" ++ piece) })
          rfl rfl rfl fun p member => someThought p (List.mem_cons_of_mem _ member)
        rw [String.empty_append, ← some_] at more
        exact more
  have second := Reply.Grows.texts (ρ := { r with text := "", tools := [] }) rfl someText
  rw [String.empty_append, text] at second
  rw [outputs]
  exact (first.append second).append (Reply.Grows.calls (ρ := { r with tools := [] }) spelled)

/-- **Along a spelling every event is accepted**, if an encoder that stands for a partial
reply accepts a proper event that adds to it and then stands for what has become of it. No
partial reply has more pieces than the whole. -/
theorem feedAll {E F : Type} {feed : E → Event → E × Except Refusal (List F)}
    (spells : Spells r events) (thought : r.reasoning ≠ some "")
    (Stands : Reply → Bool → E → List F → Prop)
    (step : ∀ ρ ρ' finished e said event, Stands ρ finished e said →
      Reply.Grows ρ event.outputs ρ' → ρ'.pieces ≤ r.pieces →
      (event.isEmpty = false → event.IsOf r) →
      (finished = true → event.outputs = []) →
      ∃ e' frames, feed e event = (e', .ok frames) ∧
        Stands ρ' (finished || event.finish.isSome) e' (said ++ frames))
    {e : E} (start : Stands r.blank false e []) :
    ∃ e' frames, DialectGateway.feedAll feed e events = .ok (e', frames) ∧
      ∃ finished, Stands r finished e' frames := by
  suffices general : ∀ (rest : List Event) (ρ : Reply) (finished : Bool) (e : E) (said : List F),
      Stands ρ finished e said → Reply.Grows ρ (rest.flatMap Event.outputs) r →
      (∀ event ∈ rest, event.isEmpty = false → event.IsOf r) →
      (rest.Pairwise fun event later => event.finish.isSome = true → later.outputs = []) →
      (finished = true → rest.flatMap Event.outputs = []) →
      ∃ e' frames, DialectGateway.feedAll feed e rest = .ok (e', frames) ∧
        ∃ finished, Stands r finished e' (said ++ frames) from
    general events r.blank false e [] start (spells.grows thought) spells.heads spells.late
      (by simp)
  intro rest
  induction rest with
  | nil =>
      intro ρ finished e said stands grows _ _ _
      cases grows
      exact ⟨e, [], rfl, finished, by simpa using stands⟩
  | cons event rest ih =>
      intro ρ finished e said stands grows heads late idle
      rw [List.flatMap_cons] at grows
      obtain ⟨ρ', now, later⟩ := grows.split
      obtain ⟨here, further⟩ := List.pairwise_cons.1 late
      obtain ⟨middle, frames, fed, stands'⟩ := step ρ ρ' finished e said event stands now
        later.pieces_le (heads event List.mem_cons_self)
        fun known => (List.append_eq_nil_iff.1 (idle known)).1
      obtain ⟨e', more, fedAll, known, whole⟩ := ih ρ' _ middle _ stands' later
        (fun event member => heads event (List.mem_cons_of_mem _ member))
        further
        (by
          intro known
          rcases Bool.or_eq_true_iff.1 known with before | now
          · exact (List.append_eq_nil_iff.1 (idle before)).2
          · exact List.flatMap_eq_nil_iff.2 fun event' member => here event' member now)
      refine ⟨e', frames ++ more, ?_, known, by rw [← List.append_assoc]; exact whole⟩
      rw [DialectGateway.feedAll, fed]
      simp only [fedAll]

end Spells

end DialectGateway
