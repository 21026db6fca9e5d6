/-
# Proofs.Backend.Passing — a gateway behind a gateway

What the chat dialect writes can be read as what a backend says. The one frame of an event
reads back as this event, with two exceptions (`Event.passed`): choices that say nothing are
not passed on, and a reason to end is known by its word alone, so that reasons with one word
become one. The body of a reply given at once reads back as this reply (`Reply.passed`), where a
reply without a reason to end is read as one that has stopped.

Every member of a chunk is read under the key that it is written under
(`fragmentOf_fragmentJson`, `choiceOf_choiceJson`, `eventOf_chunkJson`), and so is every member of
a body (`members_replyMessageJson`, `replyOf_replyJson`). A chunk is a value that its text gives
back (`kept_chunkJson`).
-/
import DialectGateway.Backend.Completion
import DialectGateway.Backend.EventReader
import DialectGateway.Dialect.Encoder
import DialectGateway.Proofs.Json.Kept

set_option autoImplicit false

namespace DialectGateway

open Json (Kept KeptFields optField)

/-! ## A chunk is given back by its text -/

namespace Chat

theorem kept_usageJson (t : Tokens) (n : Nat) : Kept (n + 1) (usageJson t) :=
  .of_fields (.cons (.nat_word n _) (.cons (.nat_word n _) (.cons (.nat_word n _) .nil)))
    (by decide)

theorem kept_fragmentJson (f : ToolFragment) (n : Nat) : Kept (n + 2) (fragmentJson f) := by
  have call : Kept (n + 1) (.record (optField "arguments" f.arguments .text ++
      optField "name" f.name .text)) :=
    .of_fields (.append (.optField (.text n)) (.optField (.text n))) (by decide)
  have slot : KeptFields (n + 1) ["index"] [("index", .nat f.slot.toNat)] :=
    .cons (.nat_word _ _) .nil
  refine .of_fields ?_ (by decide : ["function", "id", "index", "type"].Pairwise (· < ·))
  exact (((.cons call .nil : KeptFields _ ["function"] _).append (.optField (.text _))).append
    slot).append (.optField fun _ => .text _ _)

theorem kept_deltaJson (c : Choice) (n : Nat) : Kept (n + 4) (deltaJson c) := by
  have tools : KeptFields (n + 3) ["tool_calls"]
      (if c.tools.isEmpty then [] else [("tool_calls", .list (c.tools.map fragmentJson))]) := by
    split
    · exact .skip .nil
    · exact .cons (.list (List.forall_mem_map.2 fun f _ => kept_fragmentJson f n)) .nil
  refine .of_fields ?_ (by decide :
    ["content", "reasoning_content", "role", "tool_calls"].Pairwise (· < ·))
  exact (((KeptFields.optField (.text _)).append (.optField (.text _))).append
    (.optField (.text _))).append tools

theorem kept_choiceJson (c : Choice) (n : Nat) : Kept (n + 5) (choiceJson c) :=
  .of_fields (.cons (kept_deltaJson c n) (.cons (.optText _ _) (.cons (.nat_word _ _) .nil)))
    (by decide)

theorem kept_chunkJson (e : Event) (n : Nat) : Kept (n + 7) (chunkJson e) := by
  have created : Kept (n + 6) (.int e.created.toInt) := by
    have least := e.created.le_toInt
    have below := e.created.toInt_lt
    refine .int _ (by omega) ?_
    simp only [UInt64.size]
    omega
  have choices : Kept (n + 6) (.list ((e.choices.filter (!·.isEmpty)).map choiceJson)) :=
    .list (List.forall_mem_map.2 fun c _ => kept_choiceJson c n)
  refine .of_fields ?_ (by decide :
    ["choices", "created", "id", "model", "object", "usage"].Pairwise (· < ·))
  exact KeptFields.append (.cons choices (.cons created (.cons (.text _ _) (.cons (.text _ _)
    (.cons (.text _ _) .nil))))) (.optField fun t => kept_usageJson t _)

end Chat

/-! ## A chunk is read as it is written -/

/-- The choice as a chat stream passes it on: its reason to end is the one of its word. -/
def Choice.passed (c : Choice) : Choice :=
  { c with finish := c.finish.map fun reason => .ofBackendWord reason.word }

/-- The event as a chat stream passes it on. -/
def Event.passed (e : Event) : Event :=
  { e with choices := (e.choices.filter (!·.isEmpty)).map Choice.passed }

namespace Backend

/-- A member that is written only if there is a text is read as this text. -/
theorem asText?_given (value : Option String) :
    ((value.map Json.text).getD .null).asText? = value := by
  cases value <;> rfl

theorem createdOf_of_int {v : Json} {created : Int64}
    (told : v.field "created" = .int created.toInt) : createdOf v = created := by
  rw [createdOf, told, Json.asSigned?_toInt]
  simp

theorem fragmentOf_fragmentJson (f : ToolFragment) (place : Nat) :
    fragmentOf (Chat.fragmentJson f) place = f := by
  simp [fragmentOf, Chat.fragmentJson, wordAt, textAt, Json.field, List.lookup_append,
    Json.lookup_optField, List.lookup_cons, Json.asWord?_nat, asText?_given]

/-- The texts of a delta, each under its key. -/
theorem textAt_deltaJson (c : Choice) :
    textAt (Chat.deltaJson c) "role" = c.role ∧ textAt (Chat.deltaJson c) "content" = c.content ∧
    textAt (Chat.deltaJson c) "reasoning_content" = c.reasoning ∧
    textAt (Chat.deltaJson c) "reasoning" = none := by
  cases tools : c.tools <;>
    simp [Chat.deltaJson, textAt, Json.field, List.lookup_append, Json.lookup_optField,
      List.lookup_cons, Json.asText?_null, tools, asText?_given]

theorem itemsAt_deltaJson (c : Choice) :
    itemsAt (Chat.deltaJson c) "tool_calls" = c.tools.map Chat.fragmentJson := by
  cases tools : c.tools <;>
    simp [itemsAt, Chat.deltaJson, Json.field, List.lookup_append, Json.lookup_optField,
      Json.asList?, tools]

theorem choiceOf_choiceJson (c : Choice) : choiceOf (Chat.choiceJson c) = c.passed := by
  obtain ⟨role, content, reasoning, other⟩ := textAt_deltaJson c
  have delta : (Chat.choiceJson c).field "delta" = Chat.deltaJson c := rfl
  have index : wordAt (Chat.choiceJson c) "index" = some c.index.toNat := Json.asWord?_nat c.index
  have finish : finishOf (Chat.choiceJson c) = c.finish.map fun reason =>
      .ofBackendWord reason.word := by
    have told : (Chat.choiceJson c).field "finish_reason" =
        Json.optText (c.finish.map Finish.word) := rfl
    rw [finishOf, textAt, told]
    cases c.finish <;> rfl
  -- The place of a fragment counts only where a slot is missing, and none is.
  have tools : ((c.tools.map Chat.fragmentJson).mapIdx fun place call => fragmentOf call place) =
      c.tools := by
    refine List.ext_getElem (by simp) ?_
    intro n _ _
    simp [fragmentOf_fragmentJson]
  rw [choiceOf, delta, index, finish, role, content, reasoning, other, itemsAt_deltaJson, tools]
  simp [Choice.passed]

/-- The total is not read. -/
theorem tokensOf_of_usageJson {v : Json} {t : Tokens} (told : v.field "usage" = Chat.usageJson t) :
    tokensOf v = some t := by
  have input : wordAt (Chat.usageJson t) "prompt_tokens" = some t.input.toNat :=
    Json.asWord?_nat t.input
  have output : wordAt (Chat.usageJson t) "completion_tokens" = some t.output.toNat :=
    Json.asWord?_nat t.output
  simp only [tokensOf, told, input, output]
  simp [Chat.usageJson, Json.isRecord]

theorem tokensOf_chunkJson (e : Event) : tokensOf (Chat.chunkJson e) = e.usage := by
  cases usage : e.usage with
  | none =>
      simp [tokensOf, Chat.chunkJson, usage, Json.field, Json.optField, List.lookup_cons,
        Json.isRecord]
  | some t =>
      refine tokensOf_of_usageJson ?_
      simp [Chat.chunkJson, usage, Json.field, Json.optField, List.lookup_cons]

/-- A chunk is read as the event that it passes on. -/
theorem eventOf_chunkJson {e : Event} (sound : e.fault = none) :
    eventOf (Chat.chunkJson e) = e.passed := by
  have quiet : ((Chat.chunkJson e).field "error").isNull = true := by
    simp [Chat.chunkJson, Json.field, Json.lookup_optField, Json.isNull, List.lookup_cons]
  have id : textAt (Chat.chunkJson e) "id" = some e.id := rfl
  have model : textAt (Chat.chunkJson e) "model" = some e.model := rfl
  have created : createdOf (Chat.chunkJson e) = e.created := createdOf_of_int rfl
  have choices : (itemsAt (Chat.chunkJson e) "choices").map choiceOf =
      (e.choices.filter (!·.isEmpty)).map Choice.passed := by
    have told : itemsAt (Chat.chunkJson e) "choices" =
        (e.choices.filter (!·.isEmpty)).map Chat.choiceJson := rfl
    rw [told, List.map_map]
    exact List.map_congr_left fun c _ => choiceOf_choiceJson c
  rw [eventOf, if_pos quiet, id, model, created, choices, tokensOf_chunkJson, Event.passed, sound]
  rfl

end Backend

/-- **A gateway reads from a gateway what that one was told.** An event that says something and
is no fault is one frame of the chat dialect. The data of this frame is a chunk that reads as the
event, but for choices that say nothing and for reasons with the same word, and whoever reads
the frame as a backend's gets this event and goes on. -/
theorem chat_passes_events {e : Event} (speaks : e.isEmpty = false) (sound : e.fault = none) :
    ∃ frame chunk, Encoder.chat.feed e = (.chat, .ok [frame]) ∧
      Json.ofText? frame.data = some chunk ∧ Backend.eventOf chunk = e.passed ∧
      Backend.eventsOfFrames [frame] = ([e.passed], false) := by
  have read : Json.ofText? (Chat.chunkJson e).print = some (Chat.chunkJson e) :=
    Json.ofText?_print (Chat.kept_chunkJson e 120)
  have told : Backend.eventOf (Chat.chunkJson e) = e.passed := Backend.eventOf_chunkJson sound
  have not_done : Sse.Frame.isDone ⟨none, (Chat.chunkJson e).print⟩ = false := by
    have other : (Chat.chunkJson e).print ≠ "[DONE]" := by
      intro same
      have first : (Chat.chunkJson e).print.toList.head? = some '{' := by
        rw [Json.print, String.toList_ofList]
        rfl
      rw [same] at first
      exact absurd first (by decide)
    simpa [Sse.Frame.isDone] using other
  refine ⟨.json none (Chat.chunkJson e), Chat.chunkJson e, ?_, read, told, ?_⟩
  · simp [Encoder.feed, Chat.frames, speaks]
  · have faultless : e.passed.fault.isSome = false := by simp [Event.passed, sound]
    simp [Backend.eventsOfFrames, not_done, Sse.Frame.json, read, told, faultless]

/-- An empty text is passed on, a choice that only names a role is not, and the older word for
tool calls becomes the newer one. -/
theorem chat_passes_events_reworded :
    let calls : List ToolFragment := [{ slot := 2, name := some "f", arguments := some "" }]
    let e : Event := { id := "g", created := -1, usage := some ⟨7, 4294967288⟩, choices := [
      { index := 0, role := some "assistant" },
      { index := 3, content := some "", reasoning := some "\n", tools := calls
        finish := some (.other "function_call") }] }
    e.isEmpty = false ∧ e.fault = none ∧
    ∃ frame chunk, Encoder.chat.feed e = (.chat, .ok [frame]) ∧
      Json.ofText? frame.data = some chunk ∧
      Backend.eventOf chunk =
        { id := "g", created := -1, usage := some ⟨7, 4294967288⟩, choices := [
          { index := 3, content := some "", reasoning := some "\n", tools := calls
            finish := some .toolCalls }] } := by
  intro calls e
  have passed : e.passed =
      { id := "g", created := -1, usage := some ⟨7, 4294967288⟩, choices := [
        { index := 3, content := some "", reasoning := some "\n", tools := calls
          finish := some .toolCalls }] } := by decide
  obtain ⟨frame, chunk, fed, read, told, -⟩ := chat_passes_events (e := e) (by decide) rfl
  exact ⟨by decide, rfl, frame, chunk, fed, read, told.trans passed⟩

/-! ## A reply given at once -/

/-- The reply as a chat body passes it on: its reason to end is the one of its word, and `stop`
if it has none. -/
def Reply.passed (r : Reply) : Reply :=
  { r with finish := some (r.finish.elim .stop fun reason => .ofBackendWord reason.word) }

namespace Backend

theorem callOf_callJson (t : ToolCall) : callOf (Chat.callJson t) = t := rfl

/-- The members of a message, each under its key. -/
theorem members_replyMessageJson (r : Reply) :
    textAt (Chat.replyMessageJson r) "content" = some r.text ∧
    textAt (Chat.replyMessageJson r) "reasoning_content" = r.reasoning ∧
    itemsAt (Chat.replyMessageJson r) "tool_calls" = r.tools.map Chat.callJson := by
  cases reasoning : r.reasoning <;> cases tools : r.tools <;>
    simp [Chat.replyMessageJson, textAt, itemsAt, Json.field, Json.optField, List.lookup_cons,
      Json.asText?_null, Json.asList?, reasoning, tools]

/-- A chat body is read as the reply that it passes on. -/
theorem replyOf_replyJson (r : Reply) : replyOf (Chat.replyJson r) = r.passed := by
  obtain ⟨text, reasoning, tools⟩ := members_replyMessageJson r
  have message : (((Chat.replyJson r).field "choices").item 0).field "message" =
      Chat.replyMessageJson r := rfl
  have created : createdOf (Chat.replyJson r) = r.created := createdOf_of_int rfl
  have calls : (r.tools.map Chat.callJson).map callOf = r.tools := by
    rw [List.map_map]
    exact List.map_id'' callOf_callJson r.tools
  have finish : finishOf (((Chat.replyJson r).field "choices").item 0) = r.passed.finish := by
    have told : textAt (((Chat.replyJson r).field "choices").item 0) "finish_reason" =
        some ((r.finish.map Finish.word).getD "stop") := rfl
    rw [finishOf, told, Reply.passed]
    cases r.finish <;> rfl
  have usage : tokensOf (Chat.replyJson r) = some r.usage := tokensOf_of_usageJson rfl
  simp only [replyOf, message, text, reasoning, tools, created, calls, finish, usage]
  rfl

end Backend

/-- A body tells the reason to end by its word and nothing else. -/
theorem Chat.replyJson_finish_iff (r : Reply) (reason : Option Finish) :
    replyJson { r with finish := reason } = replyJson r ↔
      (reason.map Finish.word).getD "stop" = (r.finish.map Finish.word).getD "stop" := by
  simp [replyJson, replyMessageJson]

/-- **A gateway reads from a gateway the reply that it gave.** The body of a reply in the chat
dialect is read as this reply, but for its reason to end, which is `stop` where there was none and
else the one that its word has with a backend. Written again it is the same body, unless its
reason to end was the older word for tool calls. -/
theorem chat_passes_replies (r : Reply) :
    Backend.replyOf (Dialect.chat.replyJson r) =
      { r with finish := some (r.finish.elim .stop fun reason => .ofBackendWord reason.word) } ∧
    (Dialect.chat.replyJson (Backend.replyOf (Dialect.chat.replyJson r)) =
      Dialect.chat.replyJson r ↔ r.finish ≠ some (.other "function_call")) := by
  have read : Backend.replyOf (Dialect.chat.replyJson r) = r.passed := Backend.replyOf_replyJson r
  refine ⟨read, ?_⟩
  rw [read]
  refine (Chat.replyJson_finish_iff r _).trans ?_
  cases r.finish with
  | none => simp [Finish.word]
  | some reason =>
      simp only [Option.elim_some, Option.map_some, Option.getD_some, ne_eq, Option.some.injEq]
      rw [← Finish.word_eq_older_iff, Finish.word_ofBackendWord]
      split
      · next older => simp [older]
      · next other => simp [other]

end DialectGateway
