/-
# Proofs.Backend.TwoForms — a reply given at once and a reply given in chunks

A backend gives a reply as one body or in chunks, and each form has a reader of its own: `single`
and `replyOf` for a body, `eventOf` for a chunk. Clients ought not to notice which of them has
read what the backend says. They notice in two places.

* A complaint in a chunk is a complaint in a body, told with the same message and kind. A body
  whose member `error` is `null` is taken for a complaint too, and a chunk is not: the two judge
  alike exactly if it is not there (`judged_alike_iff`, `judged_apart`).
* Of the same message both make the same text, tool calls, reason to end and token counts. A
  chunk may tell its reasoning under either of two keys and a body under one of them only: they
  tell of the same reasoning exactly if it does not stand under the other key alone
  (`contents_agree_iff`, `contents_differ`).
-/
import DialectGateway.Backend.Exchange
import DialectGateway.Proofs.Json.Kept

set_option autoImplicit false

namespace DialectGateway.Backend

/-! ## What counts as a complaint -/

theorem field_isNull_iff (v : Json) (key : String) :
    (v.field key).isNull = true ↔ v.get? key = none ∨ v.get? key = some .null := by
  rw [Json.field]
  cases v.get? key with
  | none => simp [Json.isNull]
  | some w => cases w <;> simp [Json.isNull]

theorem fault_eventOf (chunk : Json) :
    (eventOf chunk).fault =
      if (chunk.field "error").isNull then none else some (faultOf chunk) := by
  rw [eventOf]
  split <;> rfl

theorem single_of_error {body e : Json} (told : body.get? "error" = some e) :
    single body = .error (.backend ⟨errorMessage body, errorKind body, none⟩) := by
  rw [single, told]
  rfl

theorem single_of_no_error {body : Json} (silent : body.get? "error" = none) :
    single body = .ok (replyOf body) := by
  rw [single, silent]
  rfl

section
variable {a : Address} {r : Request} {status : Nat} {arrivals : List Arrival}
  {header : Option String} {body : Json}

/-- A reply that comes with success and can be read is judged by its body alone. -/
theorem exchange_of_read (sent : a.authorization? = .ok header) (whole : r.stream = false)
    (success : 200 ≤ status ∧ status ≤ 299)
    (read : (wholeBody? arrivals).bind Json.ofBytes? = some body) :
    exchange a r (.replied status arrivals) = (single body).map .single := by
  have taken : ¬ (decide (status < 200) || decide (299 < status)) = true := by
    simp only [Bool.or_eq_true, decide_eq_true_eq]
    omega
  rw [exchange, sent]
  show answer r.stream (.replied status arrivals) = _
  rw [answer, if_neg taken, whole, read]
  rfl

/-- **When a body and a chunk are judged alike.** Asked for a whole reply and answered with
success, the exchange fails with a fault of the backend exactly if the same value is a complaint
as a chunk, unless the member `error` is there and is `null`. Whatever is a complaint as a chunk
fails the exchange, with the message and the kind that the event has. -/
theorem judged_alike_iff (sent : a.authorization? = .ok header) (whole : r.stream = false)
    (success : 200 ≤ status ∧ status ≤ 299)
    (read : (wholeBody? arrivals).bind Json.ofBytes? = some body) :
    let reply := exchange a r (.replied status arrivals)
    (((∃ f, reply = .error (.backend f)) ↔ (eventOf body).fault.isSome = true) ↔
      body.get? "error" ≠ some .null) ∧
    ∀ g, (eventOf body).fault = some g → reply = .error (.backend ⟨g.message, g.kind, none⟩) := by
  intro reply
  have judged : reply = (single body).map .single := exchange_of_read sent whole success read
  have event := fault_eventOf body
  cases told : body.get? "error" with
  | none =>
      rw [if_pos ((field_isNull_iff body "error").2 (.inl told))] at event
      rw [single_of_no_error told] at judged
      simp [judged, event, Except.map]
  | some e =>
      rw [single_of_error told] at judged
      by_cases null : e = .null
      · subst null
        rw [if_pos ((field_isNull_iff body "error").2 (.inr told))] at event
        simp [judged, event, Except.map]
      · have complains : ¬ (body.field "error").isNull = true := by
          rw [field_isNull_iff, told]
          simpa using null
        rw [if_neg complains] at event
        simp [judged, event, null, faultOf, Except.map]

end

/-- The text of the value as a body that comes in one piece. -/
def asBody (v : Json) : List Arrival := [.piece (Text.Utf8.encodeText v.print)]

theorem read_asBody {v : Json} (kept : Json.Kept Json.depthLimit v) :
    (wholeBody? (asBody v)).bind Json.ofBytes? = some v := by
  rw [asBody, wholeBody?, wholeBody?, Option.map_some, List.append_nil, Option.bind_some]
  exact Json.ofBytes?_print kept

/-- A complaint whose code is a number. -/
def overloaded : Json :=
  .record [("error", .record [
    ("code", .nat 529), ("message", .text "overloaded"), ("type", .text "server_error")])]

/-- The event alone tells the code. -/
theorem judged_alike_iff_overloaded :
    let a : Address := ⟨"http://backend", some "key"⟩
    let r : Request := {}
    a.authorization? = .ok (some "Bearer key") ∧ r.stream = false ∧
    (wholeBody? (asBody overloaded)).bind Json.ofBytes? = some overloaded ∧
    (eventOf overloaded).fault = some ⟨"overloaded", "server_error", some "529"⟩ ∧
    exchange a r (.replied 201 (asBody overloaded)) =
      .error (.backend ⟨"overloaded", "server_error", none⟩) := by
  intro a r
  have read : (wholeBody? (asBody overloaded)).bind Json.ofBytes? = some overloaded := by
    have code : Json.Kept 125 (.nat 529) := .int 125 (by decide) (by decide)
    have error : Json.Kept 126 (overloaded.field "error") :=
      .of_fields (.cons code (.cons (.text _ _) (.cons (.text _ _) .nil))) (by decide)
    exact read_asBody (.of_fields (.cons error .nil) (by decide))
  have header : a.authorization? = .ok (some "Bearer key") := by decide +kernel
  have event : (eventOf overloaded).fault = some ⟨"overloaded", "server_error", some "529"⟩ := by
    decide +kernel
  have judged := judged_alike_iff header (r := r) rfl (by decide : 200 ≤ 201 ∧ 201 ≤ 299) read
  exact ⟨header, rfl, read, event, judged.2 _ event⟩

/-- A whole reply that says of itself that nothing went wrong. -/
def faultless : Json :=
  .record [
    ("choices", .list [.record [
      ("finish_reason", .text "stop"), ("message", .record [("content", .text "Hi")])]]),
    ("error", .null)]

/-- **A reply whose member `error` is `null` is refused**, and as a chunk it is no complaint. -/
theorem judged_apart :
    let reply := exchange ⟨"http://backend", none⟩ {} (.replied 200 (asBody faultless))
    reply = .error (.backend ⟨faultless.print, "upstream_error", none⟩) ∧
    (eventOf faultless).fault = none ∧
    ¬ ((∃ f, reply = .error (.backend f)) ↔ (eventOf faultless).fault.isSome = true) := by
  intro reply
  have read : (wholeBody? (asBody faultless)).bind Json.ofBytes? = some faultless := by
    have message : Json.Kept 124 (.record [("content", .text "Hi")]) :=
      .of_fields (.cons (.text _ _) .nil) (by decide)
    have choices : Json.Kept 126 (faultless.field "choices") := by
      refine .list (List.forall_mem_singleton.2 ?_)
      exact .of_fields (.cons (.text _ _) (.cons message .nil)) (by decide)
    exact read_asBody (.of_fields (.cons choices (.cons (.null _) .nil)) (by decide))
  have told : faultless.get? "error" = some .null := rfl
  have refused : reply = .error (.backend ⟨faultless.print, "upstream_error", none⟩) := by
    rw [show reply = _ from exchange_of_read rfl rfl (by decide) read, single_of_error told]
    rfl
  refine ⟨refused, rfl, fun same => ?_⟩
  exact absurd (same.1 ⟨_, refused⟩) (by decide)

/-! ## What is told -/

/-- The first choice of a body has this message and this reason to end, and the body these
counts. A member that is missing is `null`. -/
structure TellsAtOnce (body message finish usage : Json) : Prop where
  choice : ∃ choice others, body.field "choices" = .list (choice :: others) ∧
    choice.field "message" = message ∧ choice.field "finish_reason" = finish
  counts : body.field "usage" = usage

/-- A chunk that is no complaint has one choice, with this message as its delta and this reason to
end, and these counts. -/
structure TellsInChunk (chunk message finish usage : Json) : Prop where
  choice : ∃ choice, chunk.field "choices" = .list [choice] ∧
    choice.field "delta" = message ∧ choice.field "finish_reason" = finish
  counts : chunk.field "usage" = usage
  sound : (chunk.field "error").isNull = true

/-- The call that a fragment amounts to if no other adds to it. -/
def callOfFragment (f : ToolFragment) : ToolCall :=
  ⟨f.id.getD "", f.name.getD "", f.arguments.getD ""⟩

/-- A reply and a choice of an event have the same content. A text that the choice does not have
is empty, and so are counts that the event does not have. -/
structure SameContent (r : Reply) (c : Choice) (counts : Option Tokens) : Prop where
  text : r.text = c.content.getD ""
  reasoning : r.reasoning = c.reasoning
  tools : r.tools = c.tools.map callOfFragment
  finish : r.finish = c.finish
  usage : r.usage = counts.getD {}

theorem callOfFragment_fragmentOf (call : Json) (place : Nat) :
    callOfFragment (fragmentOf call place) = callOf call := rfl

/-- The places of calls tell their slots and nothing else. -/
theorem map_callOfFragment (calls : List Json) :
    (calls.mapIdx fun place call => fragmentOf call place).map callOfFragment =
      calls.map callOf := by
  refine List.ext_getElem (by simp) ?_
  intro n _ _
  simp [callOfFragment_fragmentOf]

/-- Counts are read from the member `usage` and nothing else. -/
theorem tokensOf_eq {v usage : Json} (counts : v.field "usage" = usage) :
    tokensOf v = tokensOf (.record [("usage", usage)]) := by
  rw [tokensOf, tokensOf, counts]
  rfl

section
variable {body chunk message finish usage : Json}

theorem TellsAtOnce.replyOf_eq (once : TellsAtOnce body message finish usage) :
    replyOf body =
      { id := (textAt body "id").getD ""
        model := (textAt body "model").getD ""
        created := createdOf body
        text := (textAt message "content").getD ""
        reasoning := textAt message "reasoning_content"
        tools := (itemsAt message "tool_calls").map callOf
        finish := finish.asText?.map Finish.ofBackendWord
        usage := (tokensOf (.record [("usage", usage)])).getD {} } := by
  obtain ⟨first, others, listed, rfl, rfl⟩ := once.choice
  have chosen : (body.field "choices").item 0 = first := by
    rw [listed]
    rfl
  rw [← tokensOf_eq once.counts]
  simp only [replyOf, chosen]
  rfl

theorem TellsInChunk.eventOf_eq (part : TellsInChunk chunk message finish usage) :
    ∃ index, eventOf chunk =
      { id := (textAt chunk "id").getD ""
        model := (textAt chunk "model").getD ""
        created := createdOf chunk
        choices := [{
          index
          role := textAt message "role"
          content := textAt message "content"
          reasoning := (textAt message "reasoning_content").or (textAt message "reasoning")
          tools := (itemsAt message "tool_calls").mapIdx fun place call => fragmentOf call place
          finish := finish.asText?.map Finish.ofBackendWord }]
        usage := tokensOf (.record [("usage", usage)]) } := by
  obtain ⟨choice, listed, rfl, rfl⟩ := part.choice
  refine ⟨((wordAt choice "index").getD 0).toUInt32, ?_⟩
  rw [← tokensOf_eq part.counts, eventOf, if_pos part.sound, itemsAt, listed]
  rfl

/-- A key that is tried first decides alone exactly if it is there or the other is not. -/
theorem eq_or_iff {A : Type} (first second : Option A) :
    first = first.or second ↔ first.isSome = true ∨ second = none := by
  cases first <;> simp [eq_comm]

/-- **When a body and a chunk tell the same.** Given the same message, reason to end and counts,
the reply and the choice of the event have the same content unless the message has its reasoning
under `reasoning` and under no other key, where the reply has none. In everything else they agree
in any case. -/
theorem contents_agree_iff (once : TellsAtOnce body message finish usage)
    (part : TellsInChunk chunk message finish usage) :
    ∃ c, (eventOf chunk).choices = [c] ∧
      (SameContent (replyOf body) c (eventOf chunk).usage ↔
        (textAt message "reasoning_content").isSome = true ∨ textAt message "reasoning" = none) ∧
      SameContent { replyOf body with reasoning := c.reasoning } c (eventOf chunk).usage := by
  obtain ⟨index, event⟩ := part.eventOf_eq
  rw [event, once.replyOf_eq]
  have tools := (map_callOfFragment (itemsAt message "tool_calls")).symm
  refine ⟨_, rfl, ?_, ⟨rfl, rfl, tools, rfl, rfl⟩⟩
  rw [← eq_or_iff]
  constructor
  · intro same
    exact same.reasoning
  · intro same
    exact ⟨rfl, same, tools, rfl, rfl⟩

end

/-- A message with its reasoning under both keys and with calls in every form. -/
def reasoned : Json :=
  .record [
    ("content", .null), ("reasoning", .text "left out"), ("reasoning_content", .text "because"),
    ("tool_calls", .list [
      .record [("function", .record [("name", .text "f")]), ("id", .text "call")], .nat 7])]

/-- Of two reasonings both readers take the same one, and what is no call is an empty one. -/
theorem contents_agree_iff_reasoned :
    let usage : Json := .record [("input_tokens", .nat 4294967297)]
    let body : Json := .record [("choices", .list [
      .record [("finish_reason", .text "function_call"), ("message", reasoned)], .null]),
      ("usage", usage)]
    let chunk : Json := .record [("choices", .list [
      .record [("delta", reasoned), ("finish_reason", .text "function_call"), ("index", .nat 3)]]),
      ("usage", usage)]
    TellsAtOnce body reasoned (.text "function_call") usage ∧
    TellsInChunk chunk reasoned (.text "function_call") usage ∧
    ∃ c, (eventOf chunk).choices = [c] ∧
      SameContent (replyOf body) c (eventOf chunk).usage ∧ c.reasoning = some "because" ∧
      replyOf body =
        { reasoning := some "because", tools := [⟨"call", "f", ""⟩, ⟨"", "", ""⟩]
          finish := some .toolCalls, usage := ⟨1, 0⟩ } := by
  intro usage body chunk
  have once : TellsAtOnce body reasoned (.text "function_call") usage :=
    ⟨⟨_, _, rfl, rfl, rfl⟩, rfl⟩
  have part : TellsInChunk chunk reasoned (.text "function_call") usage :=
    ⟨⟨_, rfl, rfl, rfl⟩, rfl, rfl⟩
  obtain ⟨c, choices, agree, -⟩ := contents_agree_iff once part
  have same := agree.2 (.inl rfl)
  have reply : replyOf body =
      { reasoning := some "because", tools := [⟨"call", "f", ""⟩, ⟨"", "", ""⟩]
        finish := some .toolCalls, usage := ⟨1, 0⟩ } := by decide +kernel
  have told : c.reasoning = some "because" := by rw [← same.reasoning, reply]
  exact ⟨once, part, c, choices, same, told, reply⟩

/-- **A body's reasoning is lost under the key that only chunks may use.** -/
theorem contents_differ :
    let message : Json := .record [("content", .text "Hi"), ("reasoning", .text "because")]
    let body : Json := .record [("choices", .list [
      .record [("finish_reason", .text "stop"), ("message", message)]])]
    let chunk : Json := .record [("choices", .list [
      .record [("delta", message), ("finish_reason", .text "stop")]])]
    TellsAtOnce body message (.text "stop") .null ∧
    TellsInChunk chunk message (.text "stop") .null ∧
    (replyOf body).reasoning = none ∧
    (eventOf chunk).choices.map Choice.reasoning = [some "because"] ∧
    ¬ ∃ c, (eventOf chunk).choices = [c] ∧ SameContent (replyOf body) c (eventOf chunk).usage := by
  intro message body chunk
  refine ⟨⟨⟨_, _, rfl, rfl, rfl⟩, rfl⟩, ⟨⟨_, rfl, rfl, rfl⟩, rfl, rfl⟩, rfl, rfl, ?_⟩
  rintro ⟨c, choices, same⟩
  have told : some c.reasoning = (eventOf chunk).choices.head?.map Choice.reasoning := by
    rw [choices]
    rfl
  rw [← same.reasoning] at told
  exact absurd told (by decide +kernel)

end DialectGateway.Backend
