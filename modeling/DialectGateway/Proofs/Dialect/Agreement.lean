/-
# Proofs.Dialect.Agreement — streamed or at once, a reply is the same

Two dialects stream a reply and also give it at once, by code of their own each. For a
reply that a backend spells out both come to the same (`stream_agrees`): the response at
the end of a stream, and the message that a client puts together. Streams count the pieces of
a reply in words, and a reply given at once does not: with a text and as many calls as there
are slots they disagree (`disagree_manyCalls`).
-/
import DialectGateway.Proofs.Dialect.Acceptance
import DialectGateway.Proofs.Dialect.Messages.Spelled
import DialectGateway.Proofs.Dialect.Responses.Spelled

set_option autoImplicit false

namespace DialectGateway

/-- **A reply that is spelled out is streamed as it is given at once**, if there are words for
all its pieces. Its events are accepted; the last frame of the responses dialect has the
response, apart from the reason why it is incomplete, if there is text or a call; and in the
messages dialect a client makes the whole message of the frames. -/
theorem stream_agrees {r : Reply} {events : List Event} (spells : Spells r events)
    (named : r.id ≠ "") (thought : r.reasoning ≠ some "") (fits : r.pieces ≤ UInt32.size)
    (spareId : String) (mint : Nat → String) :
    (∃ e frames, feedAll Responses.Encoder.feed { spareId } events = .ok (e, frames) ∧
      (r.text ≠ "" ∨ r.tools ≠ [] → ∃ body last, frames ++ e.close.2 = body ++ [last] ∧
        last.notice.isTerminal = true ∧ ∀ key, key ≠ "incomplete_details" →
          (last.json.field "response").get? key = (Responses.replyJson r).get? key)) ∧
    ∃ e frames, feedAll Messages.Encoder.feed { mint } events = .ok (e, frames) ∧
      Messages.assemble ((frames ++ e.close.2).map Messages.Frame.json) =
        Messages.replyJson r :=
  ⟨Responses.feedAll_spelled spells named thought fits spareId,
    Messages.feedAll_spelled spells named thought fits mint⟩

/-- A reply with reasoning, text and two calls that falls short. -/
def shortReply : Reply where
  id := "r"
  model := "x"
  created := 5
  text := "onetwo"
  reasoning := some "first"
  tools := [⟨"a", "f", "[1]"⟩, ⟨"b", "g", ""⟩]
  finish := some .length
  usage := ⟨1, 2⟩

/-- The same reply in pieces, with nothing said in between and the token counts at the end. -/
def shortPieces : List Event :=
  let event : Event := { id := "r", model := "x", created := 5 }
  let said (choice : Choice) : Event := { event with choices := [choice] }
  [said { index := 0, role := some "assistant", content := some "" },
    said { index := 0, reasoning := some "fi" },
    said { index := 0, reasoning := some "rst", content := some "one" },
    said { index := 0, content := some "two", tools := [⟨0, some "a", some "f", some "["⟩] },
    said { index := 0, finish := some .length,
           tools := [⟨0, none, none, some "1]"⟩, ⟨1, some "b", some "g", none⟩] },
    { event with usage := some ⟨1, 2⟩ }]

theorem spells_shortPieces : Spells shortReply shortPieces where
  heads := by decide
  outputs := by
    refine ⟨["fi", "rst"], ["one", "two"], [[⟨0, some "a", some "f", some "["⟩,
      ⟨0, none, none, some "1]"⟩], [⟨1, some "b", some "g", none⟩]], rfl, rfl, rfl, ?_⟩
    refine .cons ⟨⟨_, _, rfl, rfl, rfl⟩, by decide, rfl⟩
      (.cons ⟨⟨_, _, rfl, rfl, rfl⟩, by decide, rfl⟩ .nil)
  finish := rfl
  late := by decide
  usage := rfl

theorem stream_agrees_short :
    Spells shortReply shortPieces ∧ shortReply.id ≠ "" ∧ shortReply.reasoning ≠ some "" ∧
    shortReply.pieces ≤ UInt32.size ∧ (shortReply.text ≠ "" ∨ shortReply.tools ≠ []) ∧
    (∃ e frames, feedAll Responses.Encoder.feed { spareId := "0" } shortPieces = .ok (e, frames) ∧
      ∃ body last, frames ++ e.close.2 = body ++ [last] ∧ last.notice.isTerminal = true ∧
        ∀ key, key ≠ "incomplete_details" →
          (last.json.field "response").get? key = (Responses.replyJson shortReply).get? key) ∧
    ∃ e frames, feedAll Messages.Encoder.feed { mint := fun _ => "0" } shortPieces =
        .ok (e, frames) ∧
      Messages.assemble ((frames ++ e.close.2).map Messages.Frame.json) =
        Messages.replyJson shortReply := by
  have some_ : shortReply.text ≠ "" := by decide
  obtain ⟨⟨e, frames, fed, same⟩, message⟩ := stream_agrees spells_shortPieces (by decide)
    (by decide) (by decide) "0" fun _ => "0"
  exact ⟨spells_shortPieces, by decide, by decide, by decide, .inl some_,
    ⟨e, frames, fed, same (.inl some_)⟩, message⟩

/-! ## More pieces than words -/

/-- A text and so many calls. -/
def manyCalls (n : Nat) : Reply :=
  { id := "r", model := "x", text := "a", tools := List.replicate n ⟨"c", "f", ""⟩ }

/-- The call in a slot, by one fragment. -/
def loneCall (slot : Nat) : ToolFragment := ⟨UInt32.ofNat slot, some "c", some "f", none⟩

/-- The same reply, an event for the text and one for each call. -/
def manyPieces (n : Nat) : List Event :=
  { id := "r", model := "x", choices := [Event.text 0 "a"], usage := some {} } ::
    (List.range n).map fun slot =>
      { id := "r", model := "x", choices := [{ index := 0, tools := [loneCall slot] }] }

theorem single_manyPieces {n : Nat} {event : Event} (member : event ∈ manyPieces n) :
    event.IsOf (manyCalls n) ∧ event.finish = none := by
  rcases List.mem_cons.1 member with rfl | call
  · exact ⟨⟨rfl, rfl, rfl, by simp [Event.text]⟩, rfl⟩
  · obtain ⟨slot, _, rfl⟩ := List.mem_map.1 call
    exact ⟨⟨rfl, rfl, rfl, by simp⟩, rfl⟩

theorem outputs_manyPieces (n : Nat) : (manyPieces n).flatMap Event.outputs =
    .content "a" :: ((List.range n).map loneCall).map .tool := by
  rw [manyPieces, List.flatMap_cons, List.flatMap_map, List.map_map, List.map_eq_flatMap]
  rfl

/-- The calls of `manyCalls` are spelled in their slots, as long as there are slots. -/
theorem spells_manyPieces {n : Nat} (slots : n ≤ UInt32.size) :
    Spells (manyCalls n) (manyPieces n) where
  heads _ member _ := (single_manyPieces member).1
  outputs := by
    refine ⟨[], ["a"], (List.range n).map fun slot => [loneCall slot], ?_, rfl, rfl, ?_⟩
    · have lone : ((List.range n).map fun slot => [loneCall slot]).flatten =
          (List.range n).map loneCall := by
        rw [← List.flatMap_def, List.map_eq_flatMap]
      rw [outputs_manyPieces, lone]
      rfl
    · have numbered : (manyCalls n).tools.zipIdx =
          (List.range n).map fun slot => (⟨"c", "f", ""⟩, slot) := by
        refine List.ext_getElem (by simp [manyCalls]) ?_
        intro slot _ _
        simp [manyCalls]
      rw [numbered, List.forall₂_map_left_iff, List.forall₂_map_right_iff, List.forall₂_same]
      intro slot within
      have bound := Nat.lt_of_lt_of_le (List.mem_range.1 within) slots
      refine ⟨⟨loneCall slot, [], rfl, rfl, rfl⟩, ?_, rfl⟩
      intro f member
      rw [List.mem_singleton.1 member]
      exact Word.toNat_ofNat_of_lt bound
  finish := List.findSome?_eq_none_iff.2 fun _ member => (single_manyPieces member).2
  late := by
    refine List.pairwise_of_forall_mem_list ?_
    intro event member _ _ finished
    rw [(single_manyPieces member).2] at finished
    exact absurd finished (by simp)
  usage := by
    have silent : ((List.range n).map fun slot => ({
        id := "r", model := "x", choices := [{ index := 0, tools := [loneCall slot] }] } : Event)
          ).filterMap (·.usage) = [] := by
      rw [List.filterMap_eq_nil_iff]
      intro event member
      obtain ⟨slot, _, rfl⟩ := List.mem_map.1 member
      rfl
    show (_ :: List.filterMap _ _).getLast? = _
    rw [silent]
    rfl

/-- They are accepted, as every call has a name. -/
theorem accepted_manyPieces (n : Nat) :
    ∃ e frames, feedAll Responses.Encoder.feed { spareId := "0" } (manyPieces n) =
      .ok (e, frames) := by
  refine (Responses.feedAll_ok_iff_acceptable "0" (manyPieces n)).2 ⟨?_, ?_, ?_⟩
  · exact fun event member _ => (single_manyPieces member).1.2.2.2
  · intro before event after split known
    have none_ : firstFinish before = none := List.findSome?_eq_none_iff.2 fun event member =>
      (single_manyPieces (n := n) (by rw [split]; exact List.mem_append_left _ member)).2
    rw [none_] at known
    exact absurd known (by simp)
  · intro before f after split _
    have member : Output.tool f ∈ (manyPieces n).flatMap Event.outputs := by simp [split]
    rw [outputs_manyPieces] at member
    simp only [List.mem_cons, List.mem_map] at member
    obtain ⟨_, ⟨slot, _, rfl⟩, same⟩ := member.resolve_left (by simp)
    rw [← Output.tool.inj same]
    rfl

theorem pieces_manyCalls (n : Nat) : (manyCalls n).pieces = n + 1 := by
  have told : (manyCalls n).text ≠ "" := show "a" ≠ "" by decide
  have count : (manyCalls n).tools.length = n := List.length_replicate
  rw [Reply.pieces, if_neg told, count]
  exact (Nat.zero_add 1).symm ▸ Nat.add_comm 1 n

/-- If there are not places for all of them, the response at the end of the stream lacks some. -/
theorem output_ne_manyCalls {n : Nat} (many : UInt32.size ≤ n) {e : Responses.Encoder}
    {frames body : List Responses.Frame} {last : Responses.Frame}
    (fed : feedAll Responses.Encoder.feed { spareId := "0" } (manyPieces n) = .ok (e, frames))
    (whole : frames ++ e.close.2 = body ++ [last]) :
    (last.json.field "response").get? "output" ≠
      (Responses.replyJson (manyCalls n)).get? "output" := by
  intro same
  have told : (manyCalls n).text ≠ "" := show "a" ≠ "" by decide
  obtain ⟨items, few, given⟩ := Responses.feedAll_close_few fed whole
  rw [given, Responses.get?_output_replyJson] at same
  have count := congrArg List.length (Json.list.inj (Option.some.inj same))
  rw [List.length_map, Responses.length_replyItems (.inl told), pieces_manyCalls] at count
  rw [count] at few
  exact Nat.not_succ_le_self n (Nat.le_trans few many)

/-- **A text and as many calls as there are slots are not streamed as they are given at once**:
the last call comes to the place of the text. -/
theorem disagree_manyCalls :
    Spells (manyCalls UInt32.size) (manyPieces UInt32.size) ∧
    (manyCalls UInt32.size).id ≠ "" ∧ (manyCalls UInt32.size).reasoning ≠ some "" ∧
    (manyCalls UInt32.size).text ≠ "" ∧
    ∃ e frames, feedAll Responses.Encoder.feed { spareId := "0" } (manyPieces UInt32.size) =
        .ok (e, frames) ∧
      ∀ body last, frames ++ e.close.2 = body ++ [last] →
        (last.json.field "response").get? "output" ≠
          (Responses.replyJson (manyCalls UInt32.size)).get? "output" := by
  obtain ⟨e, frames, fed⟩ := accepted_manyPieces UInt32.size
  refine ⟨spells_manyPieces (Nat.le_refl _), show "r" ≠ "" by decide, Option.some_ne_none _ |>.symm,
    show "a" ≠ "" by decide, e, frames, fed, ?_⟩
  exact fun _ _ whole => output_ne_manyCalls (Nat.le_refl _) fed whole

end DialectGateway
