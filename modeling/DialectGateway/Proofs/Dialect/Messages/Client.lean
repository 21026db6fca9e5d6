/-
# Proofs.Dialect.Messages.Client — what a client makes of a message

A client takes the data of the frames one after another and keeps a draft: the message as
it started and its blocks as they began, each with the text it has gained. In the end
each block gets its text, or its input if it is a tool call, and the message its blocks
(`assemble`).

A client never looks at a `Block`; of the frames of blocks it finds just what is to be
seen of them (`assemble_frames`). It adds a delta to the block with the number that the
delta has, so there must not be more blocks than numbers.
-/
import DialectGateway.Dialect.Messages.Body
import DialectGateway.Proofs.Dialect.Messages.Runs

set_option autoImplicit false

namespace DialectGateway.Messages

/-! ## Drafts -/

/-- A record with another value under a key that it has. -/
def replace (key : String) (v : Json) : Json → Json
  | .record fields => .record (fields.map fun (k, w) => (k, if k = key then v else w))
  | other => other

/-- A message that is not complete: as it started, and its blocks as they began, each with
the text of its deltas so far. -/
structure Draft where
  message : Json := .null
  blocks : List (Json × String) := []

namespace Draft

/-- Takes the data of one frame. -/
def take (d : Draft) (data : Json) : Draft :=
  match (data.field "type").textOf with
  | "message_start" => { message := data.field "message" }
  | "content_block_start" => { d with blocks := d.blocks ++ [(data.field "content_block", "")] }
  | "content_block_delta" =>
    let gain := gainOf (data.field "delta")
    let index := (data.field "index").natOf
    { d with blocks := d.blocks.modify index fun x => (x.1, x.2 ++ gain) }
  | "message_delta" =>
    let delta := data.field "delta"
    let reasoned := replace "stop_reason" (delta.field "stop_reason") d.message
    let stopped := replace "stop_sequence" (delta.field "stop_sequence") reasoned
    { d with message := replace "usage" (data.field "usage") stopped }
  | _ => d

/-- A block with its text; the input of a tool call is read as JSON, `{}` if it is none. -/
def block : Json × String → Json
  | (begun, s) =>
    match (begun.field "type").textOf with
    | "text" => replace "text" (.text s) begun
    | "thinking" => replace "thinking" (.text s) begun
    | "tool_use" => replace "input" (inputOf s) begun
    | _ => begun

/-- The message of a draft. -/
def finish (d : Draft) : Json := replace "content" (.list (d.blocks.map block)) d.message

end Draft

/-- The message that a client makes of the data of frames. -/
def assemble (datas : List Json) : Json := (datas.foldl Draft.take {}).finish

/-! ## What a client finds -/

/-- What a client sees of a block. -/
structure Part where
  kind : Kind
  opening : Opening
  text : String
  deriving DecidableEq, Repr

/-- The part of a message that a block is. -/
def Block.part (b : Block) : Part :=
  ⟨b.kind, b.opening, String.join (b.deltas.map Delta.payload)⟩

/-- The finished block of a part. -/
def Part.json (p : Part) : Json :=
  match p.opening with
  | .text => .record [("text", .text p.text), ("type", .text "text")]
  | .thinking => .record [("thinking", .text p.text), ("type", .text "thinking")]
  | .tool id name =>
    .record [("id", .text id), ("input", inputOf p.text), ("name", .text name),
      ("type", .text "tool_use")]

namespace Draft

/-- Takes frames one after another. -/
def takeAll (d : Draft) (frames : List Frame) : Draft := frames.foldl (fun d f => d.take f.json) d

theorem takeAll_append (d : Draft) (frames later : List Frame) :
    d.takeAll (frames ++ later) = (d.takeAll frames).takeAll later := List.foldl_append

theorem block_opening (opening : Opening) (kind : Kind) (s : String) :
    block (opening.json, s) = (Part.mk kind opening s).json := by
  cases opening <;> rfl

theorem take_blockStart (d : Draft) (index : UInt32) (opening : Opening) :
    d.take (Frame.blockStart index opening).json =
      { d with blocks := d.blocks ++ [(opening.json, "")] } := rfl

theorem take_blockDelta (d : Draft) (index : UInt32) (delta : Delta) :
    d.take (Frame.blockDelta index delta).json =
      { d with blocks := d.blocks.modify index.toNat fun x => (x.1, x.2 ++ delta.payload) } := by
  rw [← gainOf_json]
  rfl

/-- The deltas of the last block add to its text, if its number is its own. -/
theorem takeAll_deltas (message : Json) (before : List (Json × String))
    (fits : before.length < UInt32.size) (begun : Json) (deltas : List Delta) (s : String) :
    Draft.takeAll ⟨message, before ++ [(begun, s)]⟩
        (deltas.map (.blockDelta (UInt32.ofNat before.length))) =
      ⟨message, before ++ [(begun, s ++ String.join (deltas.map Delta.payload))]⟩ := by
  induction deltas generalizing s with
  | nil => simp [takeAll]
  | cons delta rest ih =>
      have one : Draft.take ⟨message, before ++ [(begun, s)]⟩
          (Frame.blockDelta (UInt32.ofNat before.length) delta).json =
            ⟨message, before ++ [(begun, s ++ delta.payload)]⟩ := by
        rw [take_blockDelta, Word.toNat_ofNat_of_lt fits]
        simp [List.modify_eq_take_drop]
      rw [List.map_cons, takeAll, List.foldl_cons, one]
      refine (ih (s ++ delta.payload)).trans ?_
      rw [List.map_cons, String.join_cons, String.append_assoc]

/-- A client finds a block's part. -/
theorem takeAll_frames (d : Draft) (fits : d.blocks.length < UInt32.size) (b : Block) :
    d.takeAll (b.frames (UInt32.ofNat d.blocks.length)) =
      { d with blocks := d.blocks ++ [(b.opening.json, b.part.text)] } := by
  have deltas := takeAll_deltas d.message d.blocks fits b.opening.json b.deltas ""
  rw [String.empty_append] at deltas
  have spoken : d.takeAll (b.spoken (UInt32.ofNat d.blocks.length)) =
      { d with blocks := d.blocks ++ [(b.opening.json, b.part.text)] } := by
    rw [Block.spoken, takeAll, List.foldl_cons, take_blockStart]
    exact deltas
  rw [Block.frames, takeAll_append, spoken]
  rfl

/-- A client finds the parts of blocks, one after another, if there are numbers for all. -/
theorem takeAll_framesOf (message : Json) {blocks : List Block}
    (fits : blocks.length ≤ UInt32.size) :
    Draft.takeAll ⟨message, []⟩ (framesOf blocks) =
      ⟨message, blocks.map fun b => (b.opening.json, b.part.text)⟩ := by
  induction blocks using List.reverseRecOn with
  | nil => rfl
  | append_singleton before b ih =>
      rw [List.length_append, List.length_singleton] at fits
      have last := takeAll_frames ⟨message, before.map fun b => (b.opening.json, b.part.text)⟩
        (by rw [List.length_map]; exact fits) b
      rw [List.length_map] at last
      rw [framesOf_append_singleton, takeAll_append, ih (Nat.le_of_succ_le fits), last,
        List.map_append]
      rfl

end Draft

/-- **A client finds the parts of a message**, the reason to stop and the token counts, if there
are numbers for all blocks. -/
theorem assemble_frames (id model reason : String) (inputTokens : UInt32) (usage : Tokens)
    {blocks : List Block} (fits : blocks.length ≤ UInt32.size) :
    assemble (([Frame.start id model inputTokens] ++ framesOf blocks ++
      [Frame.ending reason usage, Frame.stop]).map Frame.json) =
      .record [
        ("content", .list (blocks.map fun b => b.part.json)),
        ("id", .text id),
        ("model", .text model),
        ("role", .text "assistant"),
        ("stop_reason", .text reason),
        ("stop_sequence", .null),
        ("type", .text "message"),
        ("usage", usageJson usage.input usage.output)] := by
  have content : (blocks.map fun b => (b.opening.json, b.part.text)).map Draft.block =
      blocks.map fun b => b.part.json := by
    rw [List.map_map]
    exact List.map_congr_left fun b _ => Draft.block_opening b.opening b.kind b.part.text
  rw [assemble, List.foldl_map, ← content]
  show ((Draft.takeAll {} _).finish) = _
  rw [Draft.takeAll_append, Draft.takeAll_append]
  show ((Draft.takeAll (Draft.takeAll ⟨_, []⟩ (framesOf blocks)) _).finish) = _
  rw [Draft.takeAll_framesOf _ fits]
  rfl

end DialectGateway.Messages
