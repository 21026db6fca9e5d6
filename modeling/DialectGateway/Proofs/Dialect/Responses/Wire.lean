/-
# Proofs.Dialect.Responses.Wire — a frame is read back from its data

A client of the responses dialect has the data of frames, JSON values. `Frame.read?` is how
it reads them: by the type of the data, each text and number under its key. What it reads is
the frame that was written, with its number, its item or response and its texts
(`Frame.read?_json`), so whatever is promised of frames is promised of their data.

Only the text of an item that is announced is not in the data, and there is none then.
-/
import DialectGateway.Proofs.Dialect.Data
import DialectGateway.Proofs.Dialect.Responses.Lives

set_option autoImplicit false

namespace DialectGateway.Responses

/-! ## Items and responses -/

/-- The item that data is of, by its type, with what text there is of it. -/
def Item.read? (data : Json) : Option Item :=
  let id := (data.field "id").textOf
  match (data.field "type").textOf with
  | "reasoning" => some (.reasoning id (((data.field "summary").item 0).field "text").textOf)
  | "message" => some (.message id (((data.field "content").item 0).field "text").textOf)
  | "function_call" =>
    some (.call id (data.field "call_id").textOf (data.field "name").textOf
      (data.field "arguments").textOf)
  | _ => none

theorem Item.read?_json (item : Item) : read? item.json = some item := by
  cases item <;> rfl

/-- What is announced of an item without text is the whole item. -/
theorem Item.read?_openingJson {item : Item} (blank : item.text = "") :
    read? item.openingJson = some item := by
  cases item <;> cases blank <;> rfl

/-- The token counts in data. -/
def tokensIn (data : Json) : Tokens where
  input := UInt32.ofNat (data.field "input_tokens").natOf
  output := UInt32.ofNat (data.field "output_tokens").natOf

theorem tokensIn_usageJson (t : Tokens) : tokensIn (usageJson t) = t := by
  show Tokens.mk (UInt32.ofNat t.input.toNat) (UInt32.ofNat t.output.toNat) = t
  rw [UInt32.ofNat_toNat, UInt32.ofNat_toNat]

/-- The response that data is of. -/
def Snapshot.read (data : Json) : Snapshot where
  id := (data.field "id").textOf
  model := (data.field "model").textOf
  created := Int64.ofInt ((data.field "created_at").asSigned?.getD 0)
  output := ((data.field "output").asList?.getD []).filterMap Item.read?
  usage := (data.get? "usage").map tokensIn

theorem filterMap_read?_json (items : List Item) :
    (items.map Item.json).filterMap Item.read? = items := by
  have each : Item.read? ∘ Item.json = some := funext Item.read?_json
  rw [List.filterMap_map, each, List.filterMap_some]

/-- A response is read back whatever its status. -/
theorem Snapshot.read_json (r : Snapshot) (status : String) (incomplete : Option String) :
    read (r.json status incomplete) = r := by
  obtain ⟨id, model, created, output, usage⟩ := r
  have time : Int64.ofInt ((Json.int created.toInt).asSigned?.getD 0) = created := by
    rw [Json.asSigned?_toInt, Option.getD_some, Int64.ofInt_toInt]
  have items := filterMap_read?_json output
  have written : read ((Snapshot.mk id model created output usage).json status incomplete) =
      ⟨id, model, Int64.ofInt ((Json.int created.toInt).asSigned?.getD 0),
        (output.map Item.json).filterMap Item.read?, (usage.map usageJson).map tokensIn⟩ := by
    cases incomplete <;> cases usage <;> rfl
  rw [written, time, items, Option.map_map]
  cases usage with
  | none => rfl
  | some t => exact congrArg (Snapshot.mk id model created output ∘ some) (tokensIn_usageJson t)

/-- The reason why the response in data fell short, by its word. -/
def Shortfall.read? (data : Json) : Option Shortfall :=
  match ((data.field "incomplete_details").field "reason").textOf with
  | "max_output_tokens" => some .length
  | "content_filter" => some .contentFilter
  | _ => none

theorem Shortfall.read?_json (r : Snapshot) (shortfall : Shortfall) :
    read? (r.json "incomplete" (some shortfall.word)) = some shortfall := by
  cases shortfall <;> rfl

/-! ## Frames -/

/-- What data says, by its type. -/
def Notice.read? (data : Json) : Option Notice :=
  let s : Subject :=
    ⟨(data.field "item_id").textOf, UInt32.ofNat (data.field "output_index").natOf⟩
  let response := data.field "response"
  match (data.field "type").textOf with
  | "response.created" => some (.created (Snapshot.read response))
  | "response.output_item.added" =>
    (Item.read? (data.field "item")).map (.itemAdded s.place)
  | "response.content_part.added" => some (.partAdded s)
  | "response.output_text.delta" => some (.textDelta s (data.field "delta").textOf)
  | "response.output_text.done" => some (.textDone s (data.field "text").textOf)
  | "response.content_part.done" => some (.partDone s ((data.field "part").field "text").textOf)
  | "response.reasoning_summary_text.delta" =>
    some (.summaryDelta s (data.field "delta").textOf)
  | "response.reasoning_summary_text.done" => some (.summaryDone s (data.field "text").textOf)
  | "response.function_call_arguments.delta" =>
    some (.argumentsDelta s (data.field "delta").textOf)
  | "response.function_call_arguments.done" =>
    some (.argumentsDone s (data.field "arguments").textOf)
  | "response.output_item.done" => (Item.read? (data.field "item")).map (.itemDone s.place)
  | "response.completed" => some (.completed (Snapshot.read response))
  | "response.incomplete" =>
    (Shortfall.read? response).map (.incomplete (Snapshot.read response))
  | _ => none

/-- The frame that data is of. -/
def Frame.read? (data : Json) : Option Frame :=
  (Notice.read? data).map (⟨(data.field "sequence_number").natOf, ·⟩)

/-- An item that a notice announces has no text yet. -/
def Notice.Blank (n : Notice) : Prop := ∀ place item, n = .itemAdded place item → item.text = ""

theorem Notice.read?_json {f : Frame} (blank : f.notice.Blank) :
    read? f.json = some f.notice := by
  obtain ⟨sequence, notice⟩ := f
  have place (p : UInt32) : UInt32.ofNat p.toNat = p := UInt32.ofNat_toNat
  cases notice with
  | created r => exact congrArg (some ∘ created) (r.read_json _ _)
  | completed r => exact congrArg (some ∘ completed) (r.read_json _ _)
  | incomplete r shortfall =>
      have response := r.read_json "incomplete" (some shortfall.word)
      show (Shortfall.read? (r.json "incomplete" (some shortfall.word))).map
        (incomplete (Snapshot.read (r.json "incomplete" (some shortfall.word)))) = _
      rw [Shortfall.read?_json, response]
      rfl
  | itemAdded p item =>
      show (Item.read? item.openingJson).map (itemAdded (UInt32.ofNat p.toNat)) = _
      rw [Item.read?_openingJson (blank p item rfl), place]
      rfl
  | itemDone p item =>
      show (Item.read? item.json).map (itemDone (UInt32.ofNat p.toNat)) = _
      rw [Item.read?_json, place]
      rfl
  | partAdded s => exact congrArg (fun p => some (partAdded ⟨s.id, p⟩)) (place s.place)
  | textDelta s t => exact congrArg (fun p => some (textDelta ⟨s.id, p⟩ t)) (place s.place)
  | textDone s t => exact congrArg (fun p => some (textDone ⟨s.id, p⟩ t)) (place s.place)
  | partDone s t => exact congrArg (fun p => some (partDone ⟨s.id, p⟩ t)) (place s.place)
  | summaryDelta s t => exact congrArg (fun p => some (summaryDelta ⟨s.id, p⟩ t)) (place s.place)
  | summaryDone s t => exact congrArg (fun p => some (summaryDone ⟨s.id, p⟩ t)) (place s.place)
  | argumentsDelta s t =>
      exact congrArg (fun p => some (argumentsDelta ⟨s.id, p⟩ t)) (place s.place)
  | argumentsDone s t =>
      exact congrArg (fun p => some (argumentsDone ⟨s.id, p⟩ t)) (place s.place)

/-- **A frame is read back from its data.** -/
theorem Frame.read?_json {f : Frame} (blank : f.notice.Blank) : read? f.json = some f := by
  have number : (f.json.field "sequence_number").natOf = f.sequence := by
    obtain ⟨sequence, notice⟩ := f
    cases notice <;> rfl
  rw [read?, Notice.read?_json blank, number]
  rfl

/-- The frames that a client has from their data. -/
def received (data : List Json) : List Frame := data.filterMap Frame.read?

theorem received_json {frames : List Frame} (blank : ∀ f ∈ frames, f.notice.Blank) :
    received (frames.map Frame.json) = frames := by
  induction frames with
  | nil => rfl
  | cons f rest ih =>
      have later := ih fun f' member => blank f' (List.mem_cons_of_mem _ member)
      rw [received] at later ⊢
      rw [List.map_cons, List.filterMap_cons_some (Frame.read?_json (blank f List.mem_cons_self)),
        later]

end DialectGateway.Responses
