/-
# Proofs.Intake.Drafts — one draft, three dialects, one payload

A draft is what a client wants to ask, with nothing of any dialect about it (`Draft`). Each
dialect has its body for it: the chat and responses bodies list all items, the messages body
lists those that take part and has the texts of the others in a place of its own; each calls the
token limit and the parts of a tool by its own names.

All three bodies, however they are written, are read as the same request up to the dialect
(`requestOf_chat`, `requestOf_responses`, `requestOf_messages`), so that the backend is asked the
same (`dialects_agree`). The one thing that sets the dialects apart is how much nesting they leave
to a tool's schema: a chat body puts a schema one level deeper than the others, and too deep a
body is refused (`chat_refuses_deep`).
-/
import DialectGateway.Backend.Payload
import DialectGateway.Proofs.Intake.Reads

set_option autoImplicit false

namespace DialectGateway.Intake

open Json (Tree)

/-- A function that the model may call. -/
structure Tool where
  name : String
  description : String
  /-- The form of its arguments. -/
  schema : Json
  deriving Repr

namespace Tool

def chat (tool : Tool) : Json :=
  .record [
    ("function", .record [
      ("description", .text tool.description),
      ("name", .text tool.name),
      ("parameters", tool.schema)]),
    ("type", .text "function")]

def responses (tool : Tool) : Json :=
  .record [
    ("description", .text tool.description),
    ("name", .text tool.name),
    ("parameters", tool.schema),
    ("type", .text "function")]

def messages (tool : Tool) : Json :=
  .record [
    ("description", .text tool.description),
    ("input_schema", tool.schema),
    ("name", .text tool.name)]

theorem responsesTool_responses : responsesTool ∘ Tool.responses = Tool.chat :=
  funext fun _ => rfl

theorem messagesTool_messages : messagesTool ∘ Tool.messages = Tool.chat := funext fun _ => rfl

theorem depth_chat (tool : Tool) : tool.chat.depth = tool.schema.depth + 2 := by
  simp [chat, Json.depth, Json.depthFields]

theorem depth_responses (tool : Tool) : tool.responses.depth = tool.schema.depth + 1 := by
  simp [responses, Json.depth, Json.depthFields]

theorem depth_messages (tool : Tool) : tool.messages.depth = tool.schema.depth + 1 := by
  simp [messages, Json.depth, Json.depthFields]

end Tool

/-- The lines of a content: a text, or the texts of the parts that have one. -/
def Content.lines : Content → List String
  | .text s => [s]
  | .parts ps => ps.filterMap (·.text)

def Content.said (c : Content) : String := String.intercalate "\n" c.lines

theorem Content.flatten_eq (c : Content) : c.flatten = c.said := by
  cases c with
  | text s => rfl
  | parts ps => rfl

theorem Item.message_eq : Item.message = fun i => ⟨i.role, i.content.said⟩ := by
  funext i
  rw [Item.message, Content.flatten_eq]

/-- What a client wants to ask. -/
structure Draft where
  model : String
  named : ∃ c ∈ model.toList, Text.isBlank c = false
  items : List Item
  /-- Somebody takes part. -/
  spoken : ∃ i ∈ items, i.role ≠ "system" ∧ i.role ≠ "developer"
  stream : Bool
  limit : Option UInt32
  temperature : Option Amount
  tools : List Tool

namespace Draft

variable (d : Draft)

/-- The items that take part. -/
def others : List Item := d.items.filter fun i => i.role ≠ "system" ∧ i.role ≠ "developer"

/-- The texts that set the scene, without those that are empty. -/
def scene : List String :=
  ((d.items.filter fun i => i.role = "system" ∨ i.role = "developer").map (·.content.said)).filter
    (· ≠ "")

/-- The texts that set the scene with blank lines between them, if there are any. -/
def system? : Option String :=
  if d.scene = [] then none else some (String.intercalate "\n\n" d.scene)

/-! ## The bodies -/

/-- What every body has, given what the token limit is called and how tools are written. -/
def common (limitKey : String) (tool : Tool → Json) : List (String × Json) :=
  [("model", .text d.model), ("stream", .bool d.stream), ("tools", .list (d.tools.map tool))] ++
    Json.optField "temperature" d.temperature Amount.json ++
    Json.optField limitKey d.limit fun n => .nat n.toNat

/-- The chat dialect has two names for the token limit, an older and a newer one. -/
def chatLimitKey (newer : Bool) : String := if newer then "max_completion_tokens" else "max_tokens"

def chatBody (newer : Bool) : Json :=
  .ofFields (("messages", .list (d.items.map Item.json)) ::
    d.common (chatLimitKey newer) Tool.chat)

def responsesBody : Json :=
  .ofFields (("input", .list (d.items.map Item.json)) ::
    d.common "max_output_tokens" Tool.responses)

def messagesBody : Json :=
  .ofFields (("messages", .list (d.others.map Item.json)) ::
    (Json.optField "system" d.system? .text ++ d.common "max_tokens" Tool.messages))

/-! ## The request -/

/-- The request that the draft makes. -/
def request (dialect : Dialect) : Request where
  dialect
  model := Text.trimmed d.model
  messages := d.others.map fun i => ⟨i.role, i.content.said⟩
  system := d.system?
  stream := d.stream
  maxTokens := d.limit
  temperature := d.temperature.map Amount.single
  tools := d.tools.map Tool.chat

theorem modelOf_model : modelOf d.model = .ok (Text.trimmed d.model) := by
  obtain ⟨c, member, mark⟩ := d.named
  have kept := Text.mem_trim member mark
  have filled : (Text.trimmed d.model).isEmpty = false := by
    rw [Bool.eq_false_iff, ne_eq, String.isEmpty_iff, Text.trimmed]
    intro empty
    have none_ := congrArg String.toList empty
    rw [String.toList_ofList] at none_
    exact absurd kept (by simp [none_])
  rw [modelOf]
  simp only [filled, Bool.false_eq_true, if_false]

theorem isSystem_eq :
    Item.isSystem = fun i => decide (i.role = "system" ∨ i.role = "developer") := by
  funext i
  rw [Item.isSystem, Bool.decide_or, beq_eq_decide, beq_eq_decide]

theorem spoken_items : Intake.spoken d.items = d.others.map fun i => ⟨i.role, i.content.said⟩ := by
  have apart (i : Item) : (!i.isSystem) = decide (i.role ≠ "system" ∧ i.role ≠ "developer") := by
    simp [isSystem_eq]
  simp only [Intake.spoken, others, apart, Item.message_eq]

theorem filter_systemTexts : (systemTexts d.items).filter (!·.isEmpty) = d.scene := by
  have filled (s : String) : (!s.isEmpty) = decide (s ≠ "") := by
    rw [Bool.eq_iff_iff]
    simp
  simp only [systemTexts, isSystem_eq, Content.flatten_eq, filled]
  rfl

theorem joinSystem_items : joinSystem (systemTexts d.items) = d.system? := by
  simp only [joinSystem, filter_systemTexts, List.isEmpty_iff]
  rfl

/-! ## Bodies that are read -/

theorem keys_optField {α : Type} (key : String) (value : Option α) (form : α → Json) :
    ((Json.optField key value form).map Prod.fst).Sublist [key] := by
  cases value with
  | none => exact List.nil_sublist _
  | some a => exact List.Sublist.refl _

theorem keys_common (limitKey : String) (tool : Tool → Json) :
    ((d.common limitKey tool).map Prod.fst).Sublist
      ["model", "stream", "tools", "temperature", limitKey] := by
  rw [common, List.map_append, List.map_append]
  exact ((List.Sublist.refl _).append (keys_optField ..)).append (keys_optField ..)

theorem keys_messagesBody : ((("messages", Json.list (d.others.map Item.json)) ::
      (Json.optField "system" d.system? .text ++ d.common "max_tokens" Tool.messages)).map
        Prod.fst).Sublist
    ["messages", "system", "model", "stream", "tools", "temperature", "max_tokens"] := by
  rw [List.map_cons, List.map_append]
  exact ((keys_optField ..).append (d.keys_common ..)).cons_cons "messages"

section
variable {t : Tree} {found : String → Option Tree} {own : List (String × Json)} {limitKey : String}
  {tool : Tool → Json}

theorem lookup_common_temperature (apart : limitKey ≠ "temperature") :
    (d.common limitKey tool).lookup "temperature" = d.temperature.map Amount.json := by
  simp [common, List.lookup_append, Json.lookup_optField, List.lookup_cons, apart.symm]

theorem lookup_common_limit
    (apart : limitKey ∉ ["model", "stream", "tools", "temperature"]) :
    (d.common limitKey tool).lookup limitKey = d.limit.map fun n => .nat n.toNat := by
  simp only [List.mem_cons, List.not_mem_nil, or_false, not_or] at apart
  obtain ⟨model, stream, tools, temperature⟩ := apart
  simp [common, List.lookup_append, Json.lookup_optField, List.lookup_cons,
    beq_false_of_ne model, beq_false_of_ne stream, beq_false_of_ne tools, temperature]

variable (own) in
/-- What every body has is read in the same way from each. -/
theorem read_common (means : ∀ key, (found key).map Tree.meant? =
      ((own ++ d.common limitKey tool).lookup key).map some)
    (others : ∀ key ∈ ["model", "stream", "tools", "temperature", limitKey], own.lookup key = none)
    (apart : limitKey ∉ ["model", "stream", "tools", "temperature"]) :
    optional (found "model") "" text 126 = some d.model ∧
    optional (found "stream") false flag 126 = some d.stream ∧
    optional (found "tools") [] (listOf value) 126 =
      (if Json.depthItems (d.tools.map tool) ≤ 125 then some (d.tools.map tool) else none) ∧
    optional (found "temperature") none (nullable single) 126 =
      some (d.temperature.map Amount.single) ∧
    optional (found limitKey) none (nullable word) 126 = some d.limit := by
  have at_ {key : String} (one : key ∈ ["model", "stream", "tools", "temperature", limitKey]) :
      (found key).map Tree.meant? = ((d.common limitKey tool).lookup key).map some := by
    rw [means, List.lookup_append, others key one, Option.none_or]
  refine ⟨?_, ?_, ?_, ?_, ?_⟩
  · exact optional_of_meant (at_ (by simp)) (reads_text 126 d.model)
  · exact optional_of_meant (at_ (by simp)) (reads_flag 126 d.stream)
  · have tools_ : (found "tools").map Tree.meant? = some (some (.list (d.tools.map tool))) :=
      at_ (by simp)
    obtain ⟨tools, there, listed⟩ := Option.map_eq_some_iff.1 tools_
    rw [there, optional, listOf_value_of_meant listed]
  · have unlike : limitKey ≠ "temperature" := fun same => apart (by simp [same])
    refine optional_nullable ((at_ (by simp)).trans ?_) (reads_single 126) ?_
    · rw [d.lookup_common_temperature unlike]
    · intro x
      cases x <;> simp [Amount.json]
  · have limit : (found limitKey).map Tree.meant? =
        (d.limit.map fun n => Json.nat n.toNat).map some := by
      rw [at_ (by simp), d.lookup_common_limit apart]
    have read : _ = some (d.limit.map id) :=
      optional_nullable limit (reads_word 126) (by simp [Json.nat])
    rwa [Option.map_id] at read

/-- A chat body is read, unless a tool is nested too deep. -/
theorem read_chat {newer : Bool} (meant : t.meant? = some (d.chatBody newer)) :
    Intake.chatBody t Json.depthLimit =
      (if Json.depthItems (d.tools.map Tool.chat) ≤ 125 then some (d.tools.map Tool.chat)
        else none).map fun tools => {
          model := d.model
          messages := d.items
          stream := d.stream
          maxTokens := if newer then none else d.limit
          maxCompletionTokens := if newer then d.limit else none
          temperature := d.temperature.map Amount.single
          tools } := by
  obtain ⟨found, named, means⟩ := fields_of_meant_ofFields meant
    ((d.keys_common (chatLimitKey newer) Tool.chat).cons_cons "messages")
    (by cases newer <;> decide)
  obtain ⟨model, stream, tools, temperature, limit⟩ :=
    d.read_common [("messages", .list (d.items.map Item.json))] means
      (by cases newer <;> simp [chatLimitKey]) (by cases newer <;> simp [chatLimitKey])
  have messages : optional (found "messages") [] (listOf message) 126 = some (d.items.map id) :=
    optional_of_meant (means "messages") (reads_listOf fun i _ => reads_message i)
  have limits : optional (found "max_tokens") none (nullable word) 126 =
        some (if newer then none else d.limit) ∧
      optional (found "max_completion_tokens") none (nullable word) 126 =
        some (if newer then d.limit else none) := by
    cases newer with
    | false =>
        refine ⟨limit, optional_of_missing ((means "max_completion_tokens").trans ?_)⟩
        simp [common, chatLimitKey, List.lookup_append, Json.lookup_optField, List.lookup_cons]
    | true =>
        refine ⟨optional_of_missing ((means "max_tokens").trans ?_), limit⟩
        simp [common, chatLimitKey, List.lookup_append, Json.lookup_optField, List.lookup_cons]
  rw [Intake.chatBody, Json.depthLimit, structure?, named]
  simp only [List.map_cons, List.map_nil, Option.map_some, Option.bind_eq_bind, Option.bind_some,
    model, messages, stream, limits, temperature, tools, List.map_id]
  split <;> rfl

/-- A responses body is read, unless a tool is nested too deep. -/
theorem read_responses (meant : t.meant? = some d.responsesBody) :
    Intake.responsesBody t Json.depthLimit =
      (if Json.depthItems (d.tools.map Tool.responses) ≤ 125 then some (d.tools.map Tool.responses)
        else none).map fun tools => {
          model := d.model
          input := some (.items d.items)
          stream := d.stream
          maxOutputTokens := d.limit
          temperature := d.temperature.map Amount.single
          tools } := by
  obtain ⟨found, named, means⟩ := fields_of_meant_ofFields meant
    ((d.keys_common "max_output_tokens" Tool.responses).cons_cons "input") (by decide)
  obtain ⟨model, stream, tools, temperature, limit⟩ :=
    d.read_common [("input", .list (d.items.map Item.json))] means (by simp) (by simp)
  have input : optional (found "input") none (nullable (whole input?)) 126 =
      some (some (.items d.items)) :=
    optional_of_meant (means "input") (reads_nullable (reads_input d.items) (by simp))
  have instructions : optional (found "instructions") none (nullable text) 126 = some none := by
    refine optional_of_missing ((means "instructions").trans ?_)
    simp [common, List.lookup_append, Json.lookup_optField, List.lookup_cons]
  rw [Intake.responsesBody, Json.depthLimit, structure?, named]
  simp only [List.map_cons, List.map_nil, Option.map_some, Option.bind_eq_bind, Option.bind_some,
    model, input, instructions, stream, limit, temperature, tools]
  split <;> rfl

/-- A messages body is read, unless a tool is nested too deep. -/
theorem read_messages (meant : t.meant? = some d.messagesBody) :
    Intake.messagesBody t Json.depthLimit =
      (if Json.depthItems (d.tools.map Tool.messages) ≤ 125 then some (d.tools.map Tool.messages)
        else none).map fun tools => {
          model := d.model
          messages := d.others
          system := d.system?.map Content.text
          stream := d.stream
          maxTokens := d.limit
          temperature := d.temperature.map Amount.single
          tools } := by
  obtain ⟨found, named, means⟩ := fields_of_meant_ofFields meant d.keys_messagesBody (by decide)
  obtain ⟨model, stream, tools, temperature, limit⟩ :=
    d.read_common
      (("messages", .list (d.others.map Item.json)) :: Json.optField "system" d.system? .text) means
      (by simp [List.lookup_cons, Json.lookup_optField]) (by simp)
  have messages : optional (found "messages") [] (listOf message) 126 = some (d.others.map id) :=
    optional_of_meant (means "messages") (reads_listOf fun i _ => reads_message i)
  have system : optional (found "system") none (nullable content) 126 =
      some (d.system?.map Content.text) := by
    have given : (found "system").map Tree.meant? = (d.system?.map Json.text).map some := by
      rw [means]
      simp [common, List.lookup_append, Json.lookup_optField, List.lookup_cons]
    refine optional_nullable given ?_ (by simp)
    intro s
    exact reads_whole (Nat.zero_le _) fun t meant => content?_of_meant (.text s) meant
  rw [Intake.messagesBody, Json.depthLimit, structure?, named]
  simp only [List.map_cons, List.map_nil, Option.map_some, Option.bind_eq_bind, Option.bind_some,
    model, messages, system, stream, limit, temperature, tools, List.map_id]
  split <;> rfl

/-! ## Requests -/

theorem request_chat (newer : Bool) : ChatBody.request {
      model := d.model
      messages := d.items
      stream := d.stream
      maxTokens := if newer then none else d.limit
      maxCompletionTokens := if newer then d.limit else none
      temperature := d.temperature.map Amount.single
      tools := d.tools.map Tool.chat } = .ok (d.request .chat) := by
  have limit :
      (if newer then d.limit else none).or (if newer then none else d.limit) = d.limit := by
    cases newer <;> simp
  rw [ChatBody.request, modelOf_model]
  simp only [spoken_items, joinSystem_items, limit]
  rfl

theorem others_ne_nil : d.others ≠ [] := by
  obtain ⟨i, member, role⟩ := d.spoken
  exact List.ne_nil_of_mem (List.mem_filter.2 ⟨member, decide_eq_true role⟩)

theorem request_responses : ResponsesBody.request {
      model := d.model
      input := some (.items d.items)
      stream := d.stream
      maxOutputTokens := d.limit
      temperature := d.temperature.map Amount.single
      tools := d.tools.map Tool.responses } = .ok (d.request .responses) := by
  have some_ : (d.others.map fun i => (⟨i.role, i.content.said⟩ : Message)).isEmpty = false := by
    simp [d.others_ne_nil]
  rw [ResponsesBody.request, modelOf_model]
  simp only [Input.itemsOf, spoken_items, some_, Option.toList_none, List.nil_append,
    joinSystem_items, List.map_map, Tool.responsesTool_responses]
  rfl

theorem request_messages : MessagesBody.request {
      model := d.model
      messages := d.others
      system := d.system?.map Content.text
      stream := d.stream
      maxTokens := d.limit
      temperature := d.temperature.map Amount.single
      tools := d.tools.map Tool.messages } = .ok (d.request .messages) := by
  have some_ : d.others.isEmpty = false := by simp [d.others_ne_nil]
  have same : systemOf (d.system?.map Content.text) = d.system? := by
    cases d.system? <;> rfl
  rw [MessagesBody.request, modelOf_model]
  simp only [some_, same, List.map_map, Tool.messagesTool_messages, Item.message_eq]
  rfl

/-- Tools are no deeper than a list of tools may be if their schemas leave room for the rest. -/
theorem depthItems_tools {tool : Tool → Json} {around n : Nat}
    (deeper : ∀ one : Tool, (tool one).depth = one.schema.depth + around) :
    Json.depthItems (d.tools.map tool) ≤ n + around ↔ ∀ one ∈ d.tools, one.schema.depth ≤ n := by
  rw [Json.depthItems_le, List.forall_mem_map]
  simp only [deeper, Nat.add_le_add_iff_right]

/-- A body that stands for a value comes to what its trees come to. -/
theorem requestOf_of_tree {dialect : Dialect} {body : List UInt8} {v : Json} {shallow : Prop}
    [Decidable shallow] {made : Request} (means : Json.Means body v)
    (reads : ∀ t : Tree, t.meant? = some v →
      requestOfTree dialect t = if shallow then some (.ok made) else none) :
    requestOf dialect body =
      if shallow then .ok made else .error (.unreadable (diagnosis dialect body)) := by
  obtain ⟨t, tree, meant⟩ := Option.bind_eq_some_iff.1 means
  rw [requestOf, tree, Option.bind_some, reads t meant]
  by_cases fits : shallow
  · simp only [if_pos fits]
  · simp only [if_neg fits]

/-- What a chat body comes to. -/
theorem requestOf_chat {body : List UInt8} {newer : Bool}
    (means : Json.Means body (d.chatBody newer)) :
    requestOf .chat body =
      if ∀ tool ∈ d.tools, tool.schema.depth ≤ 123 then .ok (d.request .chat)
      else .error (.unreadable (diagnosis .chat body)) := by
  refine requestOf_of_tree means fun t meant => ?_
  have shallow := d.depthItems_tools (n := 123) Tool.depth_chat
  rw [requestOfTree, d.read_chat meant, apply_ite (Option.map _), apply_ite (Option.map _)]
  simp only [shallow, Option.map_some, Option.map_none, request_chat]

/-- What a responses body comes to: there is room for one level more. -/
theorem requestOf_responses {body : List UInt8} (means : Json.Means body d.responsesBody) :
    requestOf .responses body =
      if ∀ tool ∈ d.tools, tool.schema.depth ≤ 124 then .ok (d.request .responses)
      else .error (.unreadable (diagnosis .responses body)) := by
  refine requestOf_of_tree means fun t meant => ?_
  have shallow := d.depthItems_tools (n := 124) Tool.depth_responses
  rw [requestOfTree, d.read_responses meant, apply_ite (Option.map _), apply_ite (Option.map _)]
  simp only [shallow, Option.map_some, Option.map_none, request_responses]

/-- What a messages body comes to: likewise. -/
theorem requestOf_messages {body : List UInt8} (means : Json.Means body d.messagesBody) :
    requestOf .messages body =
      if ∀ tool ∈ d.tools, tool.schema.depth ≤ 124 then .ok (d.request .messages)
      else .error (.unreadable (diagnosis .messages body)) := by
  refine requestOf_of_tree means fun t meant => ?_
  have shallow := d.depthItems_tools (n := 124) Tool.depth_messages
  rw [requestOfTree, d.read_messages meant, apply_ite (Option.map _), apply_ite (Option.map _)]
  simp only [shallow, Option.map_some, Option.map_none, request_messages]

end

/-! ## Bodies that are printed -/

theorem kept_part (p : Part) (n : Nat) : Json.Kept (n + 1) p.json :=
  .of_fields ((Json.KeptFields.optField (.text n)).append (.cons (.text n _) .nil)) (by decide)

theorem kept_content (c : Content) (n : Nat) : Json.Kept (n + 2) c.json := by
  cases c with
  | text s => exact .text _ s
  | parts ps => exact .list (List.forall_mem_map.2 fun p _ => kept_part p n)

theorem kept_item (i : Item) (n : Nat) : Json.Kept (n + 3) i.json :=
  .of_fields (.cons (kept_content i.content n) (.cons (.text _ _) .nil)) (by decide)

/-- What a draft says of numbers and schemas is kept. -/
structure Printable (n : Nat) : Prop where
  temperature : ∀ x, d.temperature = some x → Json.Kept (n + 4) x.json
  schemas : ∀ tool ∈ d.tools, Json.Kept (n + 1) tool.schema

variable {n : Nat} {d}

theorem Printable.common (printable : d.Printable n) (limitKey : String) {tool : Tool → Json}
    (tools : ∀ one ∈ d.tools, Json.Kept (n + 3) (tool one)) :
    ∀ field ∈ d.common limitKey tool, Json.Kept (n + 4) field.2 := by
  have listed : Json.Kept (n + 4) (.list (d.tools.map tool)) := .list (List.forall_mem_map.2 tools)
  rw [Draft.common, List.forall_mem_append, List.forall_mem_append]
  refine ⟨⟨?_, ?_⟩, ?_⟩
  · simp [listed]
  · intro field member
    cases given : d.temperature with
    | none => simp [given, Json.optField] at member
    | some x =>
        rw [given, Json.optField, List.mem_singleton] at member
        exact member ▸ printable.temperature x given
  · intro field member
    cases given : d.limit with
    | none => simp [given, Json.optField] at member
    | some x =>
        rw [given, Json.optField, List.mem_singleton] at member
        exact member ▸ .nat_word _ x

theorem Printable.kept_chatBody (printable : d.Printable n) (newer : Bool) :
    Json.Kept (n + 5) (d.chatBody newer) := by
  have tools (tool : Tool) (member : tool ∈ d.tools) : Json.Kept (n + 3) tool.chat := by
    have schema := printable.schemas tool member
    have function := Json.Kept.of_fields (.cons (.text _ tool.description)
      (.cons (.text _ tool.name) (.cons schema .nil))) (by decide :
        ["description", "name", "parameters"].Pairwise (· < ·))
    exact .of_fields (.cons function (.cons (.text _ _) .nil)) (by decide)
  have distinct := ((d.keys_common (chatLimitKey newer) Tool.chat).cons_cons "messages").nodup
    (by cases newer <;> decide)
  refine .ofFields distinct (List.forall_mem_cons.2 ⟨?_, printable.common _ tools⟩)
  exact .list (List.forall_mem_map.2 fun i _ => kept_item i n)

theorem Printable.kept_responsesBody (printable : d.Printable n) :
    Json.Kept (n + 5) d.responsesBody := by
  have tools (tool : Tool) (member : tool ∈ d.tools) : Json.Kept (n + 3) tool.responses := by
    have schema := (printable.schemas tool member).mono (Nat.le_succ (n + 1))
    exact .of_fields (.cons (.text _ _) (.cons (.text _ _) (.cons schema (.cons (.text _ _) .nil))))
      (by decide)
  have distinct :=
    ((d.keys_common "max_output_tokens" Tool.responses).cons_cons "input").nodup (by decide)
  refine .ofFields distinct
    (List.forall_mem_cons.2 ⟨?_, printable.common "max_output_tokens" tools⟩)
  exact .list (List.forall_mem_map.2 fun i _ => kept_item i n)

theorem Printable.kept_messagesBody (printable : d.Printable n) :
    Json.Kept (n + 5) d.messagesBody := by
  have tools (tool : Tool) (member : tool ∈ d.tools) : Json.Kept (n + 3) tool.messages := by
    have schema := (printable.schemas tool member).mono (Nat.le_succ (n + 1))
    exact .of_fields (.cons (.text _ _) (.cons schema (.cons (.text _ _) .nil))) (by decide)
  refine .ofFields (d.keys_messagesBody.nodup (by decide)) (List.forall_mem_cons.2 ⟨?_, ?_⟩)
  · exact .list (List.forall_mem_map.2 fun i _ => kept_item i n)
  · rw [List.forall_mem_append]
    refine ⟨?_, printable.common "max_tokens" tools⟩
    cases d.system? with
    | none => simp [Json.optField]
    | some s => simp [Json.optField]

/-! ## Payloads -/

/-- The payload says nothing of the dialect. -/
theorem payload_request (d : Draft) (dialect dialect' : Dialect) :
    Backend.payload (d.request dialect) = Backend.payload (d.request dialect') := rfl

/-- The messages of the conversation: what sets the scene, if anything does, and then what is
said, in order. -/
def conversation (d : Draft) : List Json :=
  (d.system?.toList.map fun s => .record [("content", .text s), ("role", .text "system")]) ++
    d.others.map fun i => .record [("content", .text i.content.said), ("role", .text i.role)]

/-- The text that sets the scene is not empty. -/
theorem filled_of_system {d : Draft} {s : String} (system : d.system? = some s) : s ≠ "" := by
  rw [system?] at system
  split at system
  · cases system
  · cases system
    have filled : ∀ part ∈ d.scene, part ≠ "" := fun part member =>
      of_decide_eq_true (List.mem_filter.1 member).2
    cases parts : d.scene with
    | nil => contradiction
    | cons first rest =>
        rw [parts, List.forall_mem_cons] at filled
        cases rest with
        | nil => simpa using filled.1
        | cons next rest => simp [filled.1, String.append_eq_empty_iff]

theorem messages_payload (d : Draft) (dialect : Dialect) :
    (Backend.payload (d.request dialect)).get? "messages" = some (.list d.conversation) := by
  have kept : d.system?.filter (!·.isEmpty) = d.system? := by
    cases system : d.system? with
    | none => rfl
    | some s => simp [Option.filter, filled_of_system system]
  have told : (Backend.conversation (d.request dialect)).map Backend.messageJson =
      d.conversation := by
    simp only [Backend.conversation, request, kept, conversation, List.map_append, List.map_map]
    rfl
  rw [Backend.payload, told]
  simp [List.lookup_append, Json.lookup_optField]

/-- **The dialects agree.** Of one draft, whose tools have schemas nested at most 123 deep, every
chat body, every responses body and every messages body is accepted, and the backend is asked the
same: what sets the scene, and then what is said, each message in its place and each part that has
a text on a line of its own. -/
theorem dialects_agree (d : Draft) (shallow : ∀ tool ∈ d.tools, tool.schema.depth ≤ 123)
    {newer : Bool} {chat responses messages : List UInt8}
    (chatMeans : Json.Means chat (d.chatBody newer))
    (responsesMeans : Json.Means responses d.responsesBody)
    (messagesMeans : Json.Means messages d.messagesBody) :
    ∃ c r m, requestOf .chat chat = .ok c ∧ requestOf .responses responses = .ok r ∧
      requestOf .messages messages = .ok m ∧
      Backend.payload c = Backend.payload r ∧ Backend.payload r = Backend.payload m ∧
      (Backend.payload c).get? "messages" = some (.list d.conversation) := by
  have roomy : ∀ tool ∈ d.tools, tool.schema.depth ≤ 124 := fun tool member =>
    Nat.le_succ_of_le (shallow tool member)
  refine ⟨d.request .chat, d.request .responses, d.request .messages, ?_, ?_, ?_, ?_, ?_, ?_⟩
  · rw [d.requestOf_chat chatMeans, if_pos shallow]
  · rw [d.requestOf_responses responsesMeans, if_pos roomy]
  · rw [d.requestOf_messages messagesMeans, if_pos roomy]
  · exact d.payload_request _ _
  · exact d.payload_request _ _
  · exact d.messages_payload _

/-- A draft with texts to set the scene between the others, one of them empty, and a part without
a text. -/
def mixed : Draft where
  model := " m "
  named := ⟨'m', by decide, by decide⟩
  items := [
    ⟨"developer", .text "Be brief."⟩,
    ⟨"user", .parts [⟨"text", some "Hi"⟩, ⟨"image_url", none⟩, ⟨"text", some "you"⟩]⟩,
    ⟨"system", .text ""⟩,
    ⟨"assistant", .text "Hello"⟩,
    ⟨"system", .parts [⟨"text", some "No jokes."⟩]⟩]
  spoken := ⟨⟨"assistant", .text "Hello"⟩, by decide, by decide, by decide⟩
  stream := true
  limit := some 7
  temperature := some (.int 1)
  tools := [⟨"look", "Looks it up.", .record [("type", .text "object")]⟩]

theorem printable_mixed : mixed.Printable 0 where
  temperature x given := by
    cases given
    exact .int _ (by decide) (by decide)
  schemas tool member := by
    rw [List.mem_singleton.1 member]
    exact .of_fields (.cons (.text _ _) .nil) (by decide)

/-- Printed in the three dialects, the mixed draft asks the same of the backend. -/
theorem dialects_agree_mixed :
    let chat := Text.Utf8.encodeText (mixed.chatBody true).print
    let responses := Text.Utf8.encodeText mixed.responsesBody.print
    let messages := Text.Utf8.encodeText mixed.messagesBody.print
    (∀ tool ∈ mixed.tools, tool.schema.depth ≤ 123) ∧ Json.Means chat (mixed.chatBody true) ∧
    Json.Means responses mixed.responsesBody ∧ Json.Means messages mixed.messagesBody ∧
    ∃ c r m, requestOf .chat chat = .ok c ∧ requestOf .responses responses = .ok r ∧
      requestOf .messages messages = .ok m ∧
      Backend.payload c = Backend.payload r ∧ Backend.payload r = Backend.payload m ∧
      (Backend.payload c).get? "messages" = some (.list [
        .record [("content", .text "Be brief.\n\nNo jokes."), ("role", .text "system")],
        .record [("content", .text "Hi\nyou"), ("role", .text "user")],
        .record [("content", .text "Hello"), ("role", .text "assistant")]]) := by
  intro chat responses messages
  have shallow : ∀ tool ∈ mixed.tools, tool.schema.depth ≤ 123 := by decide +kernel
  have chatMeans : Json.Means chat (mixed.chatBody true) :=
    Json.means_print (printable_mixed.kept_chatBody true)
  have responsesMeans : Json.Means responses mixed.responsesBody :=
    Json.means_print printable_mixed.kept_responsesBody
  have messagesMeans : Json.Means messages mixed.messagesBody :=
    Json.means_print printable_mixed.kept_messagesBody
  exact ⟨shallow, chatMeans, responsesMeans, messagesMeans,
    dialects_agree mixed shallow chatMeans responsesMeans messagesMeans⟩

/-- Lists in lists. -/
def nested : Nat → Json
  | 0 => .null
  | n + 1 => .list [nested n]

theorem kept_nested (n : Nat) : Json.Kept n (nested n) := by
  induction n with
  | zero => exact .null 0
  | succ n ih => exact .list (List.forall_mem_singleton.2 ih)

/-- A draft with a schema of 124 levels. -/
def deep : Draft where
  model := "m"
  named := ⟨'m', by decide, by decide⟩
  items := [⟨"user", .text "Hi"⟩]
  spoken := ⟨⟨"user", .text "Hi"⟩, by decide, by decide, by decide⟩
  stream := false
  limit := none
  temperature := none
  tools := [⟨"t", "d", nested 124⟩]

theorem printable_deep : deep.Printable 123 where
  temperature _ given := absurd given (by simp [deep])
  schemas tool member := by
    rw [List.mem_singleton.1 member]
    exact kept_nested 124

/-- **A chat body has room for 123 levels of a schema only**: one with 124 is refused, and the
others of the same draft are not. -/
theorem chat_refuses_deep :
    let chat := Text.Utf8.encodeText (deep.chatBody false).print
    let responses := Text.Utf8.encodeText deep.responsesBody.print
    let messages := Text.Utf8.encodeText deep.messagesBody.print
    (Json.Means chat (deep.chatBody false) ∧ ∀ c, requestOf .chat chat ≠ .ok c) ∧
    (Json.Means responses deep.responsesBody ∧ ∃ r, requestOf .responses responses = .ok r) ∧
    Json.Means messages deep.messagesBody ∧ ∃ m, requestOf .messages messages = .ok m := by
  intro chat responses messages
  have chatMeans : Json.Means chat (deep.chatBody false) :=
    Json.means_print (printable_deep.kept_chatBody false)
  have responsesMeans : Json.Means responses deep.responsesBody :=
    Json.means_print printable_deep.kept_responsesBody
  have messagesMeans : Json.Means messages deep.messagesBody :=
    Json.means_print printable_deep.kept_messagesBody
  have tooDeep : ¬ ∀ tool ∈ deep.tools, tool.schema.depth ≤ 123 := by decide +kernel
  have roomy : ∀ tool ∈ deep.tools, tool.schema.depth ≤ 124 := by decide +kernel
  refine ⟨⟨chatMeans, ?_⟩, ⟨responsesMeans, ?_⟩, messagesMeans, ?_⟩
  · intro c accepted
    rw [deep.requestOf_chat chatMeans, if_neg tooDeep] at accepted
    cases accepted
  · exact ⟨_, (deep.requestOf_responses responsesMeans).trans (if_pos roomy)⟩
  · exact ⟨_, (deep.requestOf_messages messagesMeans).trans (if_pos roomy)⟩

end Draft
end DialectGateway.Intake
