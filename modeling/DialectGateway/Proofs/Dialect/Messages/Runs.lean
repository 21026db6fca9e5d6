/-
# Proofs.Dialect.Messages.Runs — the blocks of a message are the runs of its outputs

What is generated falls into runs: outputs of one kind, and of one slot if they are
fragments of calls, with nothing else between them (`runsOf`). An encoder knows of this
only the block that is open. Whatever events it accepts, the content blocks that a client
gets are the runs, in order, each with the whole text of its run (`feedAll_close_runs`).

`Gains` says what one output does to the blocks. While no reason to end is known the
last block is the open one (`Latest`), so a block that begins differs in kind from the
one before it, and this is what makes the runs maximal (`Grouped.gains`).
-/
import DialectGateway.Proofs.Dialect.Messages.Blocks
import Mathlib.Data.List.SplitBy

set_option autoImplicit false

namespace DialectGateway.Messages

/-! ## Runs of outputs -/

/-- The runs of outputs that belong to one block. -/
def runsOf (os : List Output) : List (List Output) := os.splitBy fun a b => kindOf a = kindOf b

/-- The text of an output. -/
def payload : Output → String
  | .reasoning s => s
  | .content s => s
  | .tool f => f.addition

/-- The text of a delta. -/
def Delta.payload : Delta → String
  | .text s => s
  | .thinking s => s
  | .input s => s

/-- The text that a delta's data adds. -/
def gainOf (delta : Json) : String :=
  match (delta.field "type").textOf with
  | "text_delta" => (delta.field "text").textOf
  | "thinking_delta" => (delta.field "thinking").textOf
  | "input_json_delta" => (delta.field "partial_json").textOf
  | _ => ""

theorem gainOf_json (delta : Delta) : gainOf delta.json = delta.payload := by
  cases delta <;> rfl

/-- The data of a block that begins is as its first output asks for: a tool call has the name
of its first fragment, and the id as well if that gives one. -/
def Begins (begun : Json) : Output → Prop
  | .tool f => ∃ id name, begun.get? "id" = some (.text id) ∧
      begun.get? "name" = some (.text name) ∧ f.name = some name ∧
      ∀ given, f.id = some given → id = given
  | _ => True

theorem Opening.begins {opening : Opening} {o : Output} (opens : opening.opens o) :
    Begins opening.json o := by
  cases o with
  | reasoning s | content s => trivial
  | tool f =>
      cases opening with
      | text | thinking => exact absurd opens id
      | tool id name => exact ⟨id, name, rfl, rfl, opens⟩

namespace BlockData

/-- All the text that a block gains. -/
def text (d : BlockData) : String :=
  String.join (d.deltas.map fun data => gainOf (data.field "delta"))

/-- What a client gets of a block is this run: a block of the kind of the run that begins as
the first output asks for, and whose deltas add up to the text of the run. -/
structure Carries (d : BlockData) (run : List Output) : Prop where
  begins : ∃ first rest number, run = first :: rest ∧ d.Framed (kindOf first) number ∧
    Begins (d.start.field "content_block") first
  text : d.text = String.join (run.map payload)

end BlockData

theorem Block.text_data (index : UInt32) (b : Block) :
    (b.data index).text = String.join (b.deltas.map Delta.payload) := by
  rw [BlockData.text, data, List.map_map]
  congr 1
  exact List.map_congr_left fun delta _ => gainOf_json delta

theorem join_deltasOf (o : Output) : String.join ((deltasOf o).map Delta.payload) = payload o := by
  cases o with
  | reasoning s | content s => simp [deltasOf, Delta.payload, payload]
  | tool f =>
      rw [deltasOf, payload]
      split
      · next empty => simpa using (String.isEmpty_iff.1 empty).symm
      · simp [Delta.payload]

theorem join_deltas (os : List Output) :
    String.join ((os.flatMap deltasOf).map Delta.payload) = String.join (os.map payload) := by
  induction os with
  | nil => rfl
  | cons o rest ih =>
      rw [List.flatMap_cons, List.map_append, String.join_append, join_deltasOf, ih, List.map_cons,
        String.join_cons]

/-! ## Grouped blocks -/

/-- No block is empty, each begins as its first output asks for, and neighbours differ in kind. -/
structure Grouped (blocks : List Block) : Prop where
  opens : ∀ b ∈ blocks, ∃ first rest, b.outputs = first :: rest ∧ b.opening.opens first
  apart : (blocks.map Block.kind).IsChain (· ≠ ·)

/-- The last block is the one that is open. -/
def Latest (opened : Option (UInt32 × Kind)) (blocks : List Block) : Prop :=
  ∀ b ∈ blocks.getLast?, ∃ index, opened = some (index, b.kind)

namespace Grouped

variable {blocks blocks' : List Block}

theorem gains (grouped : Grouped blocks) {opened : Option (UInt32 × Kind)} {o : Output}
    (latest : Latest opened blocks) (gains : Gains opened o blocks blocks') : Grouped blocks' := by
  cases gains with
  | grows before b same =>
      refine ⟨?_, ?_⟩
      · intro b' member
        rcases List.mem_append.1 member with old | new
        · exact grouped.opens b' (List.mem_append_left _ old)
        · obtain ⟨first, rest, outputs, opens⟩ := grouped.opens b (by simp)
          rw [List.mem_singleton.1 new]
          exact ⟨first, rest ++ [o], by simp [Block.add, outputs], opens⟩
      · have apart := grouped.apart
        rw [List.map_append] at apart ⊢
        exact apart
  | begins _ opening opens apart =>
      refine ⟨?_, ?_⟩
      · intro b' member
        rcases List.mem_append.1 member with old | new
        · exact grouped.opens b' old
        · rw [List.mem_singleton.1 new]
          exact ⟨o, [], rfl, opens⟩
      · rw [List.map_append, List.isChain_append]
        refine ⟨grouped.apart, List.isChain_singleton _, ?_⟩
        intro kind last kind' new same
        rw [List.getLast?_map] at last
        obtain ⟨b, isLast, rfl⟩ := Option.map_eq_some_iff.1 last
        obtain ⟨index, now⟩ := latest b isLast
        obtain rfl : kindOf o = kind' := by simpa using new
        exact apart index (same ▸ now)

/-- A block that is not empty carries its outputs, whatever its number. -/
theorem carries (grouped : Grouped blocks) (well : ∀ b ∈ blocks, b.WellFormed) {b : Block}
    (member : b ∈ blocks) (index : UInt32) : (b.data index).Carries b.outputs where
  begins := by
    obtain ⟨first, rest, outputs, opens⟩ := grouped.opens b member
    have kind : kindOf first = b.kind := (well b member).outputs first (by simp [outputs])
    refine ⟨first, rest, index.toNat, outputs, ?_, Opening.begins opens⟩
    rw [kind]
    exact Block.framed_data (well b member) index
  text := (b.text_data index).trans (join_deltas b.outputs)

/-- **Grouped blocks are the runs of their outputs.** -/
theorem runsOf_outputsOf (grouped : Grouped blocks) (well : ∀ b ∈ blocks, b.WellFormed) :
    runsOf (outputsOf blocks) = blocks.map (·.outputs) := by
  have whole : outputsOf blocks = (blocks.map (·.outputs)).flatten := by
    rw [outputsOf, List.flatMap_def]
  rw [runsOf, List.splitBy_eq_iff]
  refine ⟨whole, ?_, ?_, ?_⟩
  · intro empty
    obtain ⟨b, member, none_⟩ := List.mem_map.1 empty
    obtain ⟨first, rest, outputs, _⟩ := grouped.opens b member
    exact absurd (outputs.symm.trans none_) (List.cons_ne_nil _ _)
  · intro run member
    obtain ⟨b, block, rfl⟩ := List.mem_map.1 member
    refine (List.pairwise_of_forall_mem_list ?_).isChain
    intro o left o' right
    rw [(well b block).outputs o left, (well b block).outputs o' right]
    exact decide_eq_true rfl
  · rw [List.isChain_map]
    refine List.IsChain.imp_of_mem_imp ?_ ((List.isChain_map _).1 grouped.apart)
    intro b b' block block' apart
    obtain ⟨first, rest, outputs, _⟩ := grouped.opens b block
    obtain ⟨first', rest', outputs', _⟩ := grouped.opens b' block'
    have some_ : b.outputs ≠ [] := by rw [outputs]; exact List.cons_ne_nil _ _
    have some' : b'.outputs ≠ [] := by rw [outputs']; exact List.cons_ne_nil _ _
    refine ⟨some_, some', ?_⟩
    rw [(well b block).outputs _ (List.getLast_mem some_),
      (well b' block').outputs _ (List.head_mem some')]
    exact decide_eq_false apart

theorem carries_runs (grouped : Grouped blocks) (well : ∀ b ∈ blocks, b.WellFormed) :
    List.Forall₂ BlockData.Carries (datasOf blocks) (runsOf (outputsOf blocks)) := by
  have outputs : blocks.map (·.outputs) = blocks.zipIdx.map (·.1.outputs) := by
    conv_lhs => rw [← List.zipIdx_map_fst 0 blocks]
    exact List.map_map
  rw [grouped.runsOf_outputsOf well, outputs, datasOf, List.forall₂_map_left_iff,
    List.forall₂_map_right_iff, List.forall₂_same]
  exact fun x member => grouped.carries well (List.fst_mem_of_mem_zipIdx member) _

end Grouped

/-- After an output its block is the last and open. -/
theorem Gains.latest {opened : Option (UInt32 × Kind)} {o : Output} {blocks blocks' : List Block}
    (gains : Gains opened o blocks blocks') (index : UInt32) :
    Latest (some (index, kindOf o)) blocks' := by
  intro b last
  cases gains with
  | grows before b' same =>
      obtain rfl : b'.add o = b := by simpa using last
      exact ⟨index, by rw [← same]; rfl⟩
  | begins _ opening opens _ =>
      obtain rfl : Block.mk (kindOf o) opening [o] = b := by simpa using last
      exact ⟨index, rfl⟩

/-! ## What an encoder remembers -/

namespace Encoder

theorem openBlock_keeps (e : Encoder) (kind : Kind) (opening : Opening) :
    (e.openBlock kind opening).1.finish = e.finish ∧
      (e.openBlock kind opening).1.usage = e.usage := by
  simp [openBlock, Told.closeBlock_fst]

theorem ensureBlock_keeps (e : Encoder) (kind : Kind) (opening : Opening) :
    (e.ensureBlock kind opening).1.finish = e.finish ∧
      (e.ensureBlock kind opening).1.usage = e.usage := by
  rw [ensureBlock.eq_def]
  split
  · split
    · exact ⟨rfl, rfl⟩
    · exact e.openBlock_keeps kind opening
  · exact e.openBlock_keeps kind opening

/-- Outputs change neither the reason to end nor the token counts. -/
theorem output_keeps {e e' : Encoder} {o : Output} {more : List Frame}
    (said : e.output o = .ok (e', more)) : e'.finish = e.finish ∧ e'.usage = e.usage := by
  cases o with
  | reasoning s =>
      cases said
      exact e.ensureBlock_keeps .thinking .thinking
  | content s =>
      cases said
      exact e.ensureBlock_keeps .text .text
  | tool f =>
      rw [output, tool] at said
      split at said
      · cases said
        exact ⟨rfl, rfl⟩
      · split at said
        · exact absurd said (by simp)
        · split at said
          · exact absurd said (by simp)
          · next name _ =>
              cases said
              exact openBlock_keeps { e with seen := f.slot :: e.seen } (.tool f.slot)
                (.tool (f.id.getD ("toolu_" ++ e.mint (e.seen.length + 1))) name)

theorem outputs_keeps {e e' : Encoder} {os : List Output} {more : List Frame}
    (said : e.outputs os = (e', .ok more)) : e'.finish = e.finish ∧ e'.usage = e.usage := by
  refine outputs_invariant (fun e' _ _ => e'.finish = e.finish ∧ e'.usage = e.usage) ?_
    ⟨rfl, rfl⟩ said
  intro middle _ _ o e' _ kept said
  obtain ⟨finish, usage⟩ := output_keeps said
  exact ⟨finish.trans kept.1, usage.trans kept.2⟩

theorem noteFinish_keeps (e : Encoder) (finish : Option Finish) :
    (e.noteFinish finish).1.finish = e.finish.or finish ∧
      (e.noteFinish finish).1.usage = e.usage := by
  rw [noteFinish]
  split
  · next first =>
      rw [Option.isNone_iff_eq_none] at first
      simp [first.2, Told.closeBlock_fst]
  · next later =>
      refine ⟨?_, rfl⟩
      cases known : e.finish with
      | some _ => rfl
      | none =>
          cases given : finish with
          | none => rfl
          | some _ => exact absurd ⟨by simp [given], by simp [known]⟩ later

theorem noteFinish_none (e : Encoder) : e.noteFinish none = (e, []) := by simp [noteFinish]

end Encoder

/-- What an encoder knows after events that it accepted: their blocks are grouped, and it
remembers their first reason to end and their last token counts. -/
structure Grouping (e : Encoder) (events : List Event) (frames : List Frame) : Prop where
  blocks : ∃ blocks, Told e blocks frames ∧ outputsOf blocks = events.flatMap Event.outputs ∧
    Grouped blocks ∧ (e.finish = none → Latest e.opened blocks)
  finish : e.finish = firstFinish events
  usage : e.usage = (lastUsage events).getD {}

namespace Told

variable {e : Encoder} {blocks : List Block} {frames : List Frame}

/-- As long as the last block is open, outputs keep the blocks grouped. -/
theorem outputs_grouped (told : Told e blocks frames) (started : e.started = true)
    (grouped : Grouped blocks) (latest : Latest e.opened blocks) {os : List Output} {e' : Encoder}
    {more : List Frame} (said : e.outputs os = (e', .ok more)) :
    ∃ blocks', Told e' blocks' (frames ++ more) ∧ outputsOf blocks' = outputsOf blocks ++ os ∧
      Grouped blocks' ∧ Latest e'.opened blocks' := by
  suffices kept : ∃ blocks', Told e' blocks' (frames ++ more) ∧
      outputsOf blocks' = outputsOf blocks ++ os ∧ Grouped blocks' ∧
        Latest e'.opened blocks' ∧ e'.started = true by
    obtain ⟨blocks', told', shared, grouped', latest', _⟩ := kept
    exact ⟨blocks', told', shared, grouped', latest'⟩
  refine Encoder.outputs_invariant (fun e' os more => ∃ blocks', Told e' blocks' (frames ++ more) ∧
    outputsOf blocks' = outputsOf blocks ++ os ∧ Grouped blocks' ∧ Latest e'.opened blocks' ∧
      e'.started = true) ?_ ⟨blocks, by simpa using told, by simp, grouped, latest, started⟩ said
  rintro e' os more o e'' now ⟨blocks', told', shared, grouped', latest', since⟩ first
  obtain ⟨blocks'', told'', gains, ⟨index, opened⟩, since'⟩ := told'.output since first
  refine ⟨blocks'', ?_, ?_, grouped'.gains latest' gains, ?_, since'⟩
  · rw [← List.append_assoc]
    exact told''
  · rw [gains.outputsOf_eq, shared, List.append_assoc]
  · rw [opened]
    exact gains.latest index

end Told

namespace Grouping

variable {e : Encoder} {events : List Event} {frames : List Frame}

theorem fresh (mint : Nat → String) : Grouping { mint } [] [] where
  blocks := ⟨[], Told.fresh mint, rfl, ⟨by simp, List.isChain_nil⟩, by simp [Latest]⟩
  finish := rfl
  usage := rfl

/-- **An accepted event keeps the blocks grouped.** -/
theorem feed (grouping : Grouping e events frames) {event : Event} {e' : Encoder}
    {more : List Frame} (fed : e.feed event = (e', .ok more)) :
    Grouping e' (events ++ [event]) (frames ++ more) := by
  obtain ⟨⟨blocks, told, shared, grouped, latest⟩, finish, usage⟩ := grouping
  rcases Encoder.feed_cases fed with ⟨empty, rfl, rfl⟩ | ⟨middle, now, accepted, said, rfl, rfl⟩
  · refine ⟨⟨blocks, by simpa using told, ?_, grouped, latest⟩, ?_, ?_⟩
    · simp [shared, Event.outputs_of_isEmpty empty]
    · simp [finish, firstFinish_append_singleton, Event.finish_of_isEmpty empty]
    · simp [usage, lastUsage_append_singleton, Event.usage_of_isEmpty empty]
  · obtain ⟨begun, started⟩ := told.start event
    have counted := begun.usage (event.usage.getD (e.start event).1.usage)
    obtain ⟨kept, reported⟩ := Encoder.outputs_keeps said
    obtain ⟨noted, still⟩ := middle.noteFinish_keeps event.finish
    have opened : (e.start event).1.opened = e.opened := by rw [Encoder.start_fst]
    have known : (e.start event).1.finish = e.finish := by rw [Encoder.start_fst]
    refine ⟨?_, ?_, ?_⟩
    · cases first : e.finish with
      | some reason =>
          -- Nothing more is generated, so which block is open does not matter any more.
          have none_ := Event.outputs_of_finished accepted (by simp [first])
          obtain ⟨rfl, rfl⟩ : _ = middle ∧ [] = now := by
            simpa [none_, Encoder.outputs] using said
          refine ⟨blocks, ?_, ?_, grouped, ?_⟩
          · have ended := counted.noteFinish event.finish
            simp only [List.append_assoc, List.nil_append] at ended ⊢
            exact ended
          · rw [shared, List.flatMap_append, List.flatMap_singleton, none_, List.append_nil]
          · intro unknown
            rw [noted, kept, known, first] at unknown
            exact absurd unknown (by simp)
      | none =>
          obtain ⟨blocks', told', shared', grouped', latest'⟩ :=
            counted.outputs_grouped started grouped (opened ▸ latest first) said
          refine ⟨blocks', ?_, ?_, grouped', ?_⟩
          · have ended := told'.noteFinish event.finish
            simp only [List.append_assoc] at ended ⊢
            exact ended
          · rw [shared', shared, List.flatMap_append, List.flatMap_singleton]
          · intro unknown
            rw [noted, kept, known, first, Option.none_or] at unknown
            rw [unknown, Encoder.noteFinish_none]
            exact latest'
    · rw [noted, kept, known, finish, firstFinish_append_singleton]
    · rw [still, reported, lastUsage_append_singleton, Encoder.start_fst]
      cases event.usage <;> simp [usage]

end Grouping

/-! ## A whole stream -/

/-- The reason to stop that a message gives for a reason to end: reasons that the dialect does
not know are given as they are. -/
inductive StopsFor : Option Finish → String → Prop
  | unknown : StopsFor none "end_turn"
  | stop : StopsFor (some .stop) "end_turn"
  | length : StopsFor (some .length) "max_tokens"
  | toolCalls : StopsFor (some .toolCalls) "tool_use"
  | contentFilter : StopsFor (some .contentFilter) "refusal"
  | other (reason : String) : StopsFor (some (.other reason)) reason

theorem stopsFor_stopReason (finish : Option Finish) : StopsFor finish (stopReason finish) := by
  rcases finish with _ | (_ | _ | _ | _ | reason)
  · exact .unknown
  · exact .stop
  · exact .length
  · exact .toolCalls
  · exact .contentFilter
  · exact .other reason

/-- The data of a closing delta: why the message stops, and its token counts. -/
structure Closes (data : Json) (finish : Option Finish) (usage : Tokens) : Prop where
  type : data.get? "type" = some (.text "message_delta")
  reason : ∃ reason, StopsFor finish reason ∧
    (data.field "delta").get? "stop_reason" = some (.text reason)
  input : (data.field "usage").get? "input_tokens" = some (.nat usage.input.toNat)
  output : (data.field "usage").get? "output_tokens" = some (.nat usage.output.toNat)

theorem closes_ending (finish : Option Finish) (usage : Tokens) :
    Closes (Frame.ending (stopReason finish) usage).json finish usage where
  type := rfl
  reason := ⟨_, stopsFor_stopReason finish, rfl⟩
  input := rfl
  output := rfl

/-- **The blocks of a message are the runs of what was generated**, in order, one block for each
run. The message stops for the first reason that was given and with the token counts that were
reported last. -/
theorem feedAll_close_runs {mint : Nat → String} {events : List Event} {e : Encoder}
    {frames : List Frame} (fed : feedAll Encoder.feed { mint } events = .ok (e, frames)) :
    ∃ (start ending stop : Json) (datas : List BlockData),
      (frames ++ e.close.2).map Frame.json =
        start :: datas.flatMap BlockData.all ++ [ending, stop] ∧
      start.get? "type" = some (.text "message_start") ∧
      List.Forall₂ BlockData.Carries datas (runsOf (events.flatMap Event.outputs)) ∧
      Closes ending (firstFinish events) ((lastUsage events).getD {}) ∧
      stop.get? "type" = some (.text "message_stop") := by
  have grouping : Grouping e events frames :=
    feedAll_invariant Grouping (fun _ _ _ _ _ _ grouping step => grouping.feed step)
      (Grouping.fresh mint) fed
  obtain ⟨blocks, told, shared, grouped, _⟩ := grouping.blocks
  obtain ⟨id, model, inputTokens, whole⟩ := told.closing
  rw [grouping.finish, grouping.usage] at whole
  refine ⟨(Frame.start id model inputTokens).json, _, Frame.stop.json, datasOf blocks, ?_, rfl, ?_,
    closes_ending _ _, rfl⟩
  · rw [whole, List.map_append, List.map_append, ← flatMap_all_datasOf]
    rfl
  · rw [← shared]
    exact grouped.carries_runs told.well

/-- The runs of `mixed` are five: thought, text, two calls and more text. It falls short. -/
theorem feedAll_close_runs_mixed :
    ∃ e frames, feedAll Encoder.feed { mint := fun _ => "0" } mixed = .ok (e, frames) ∧
      runsOf (mixed.flatMap Event.outputs) =
        [[.reasoning "first"], [.content "one"], [.tool ⟨0, some "a", some "f", some "1"⟩],
          [.tool ⟨1, none, some "g", none⟩], [.content "two"]] ∧
      firstFinish mixed = some .length ∧ lastUsage mixed = some ⟨1, 2⟩ ∧
      ∃ (start ending stop : Json) (datas : List BlockData),
        (frames ++ e.close.2).map Frame.json =
          start :: datas.flatMap BlockData.all ++ [ending, stop] ∧
        start.get? "type" = some (.text "message_start") ∧
        List.Forall₂ BlockData.Carries datas (runsOf (mixed.flatMap Event.outputs)) ∧
        Closes ending (firstFinish mixed) ((lastUsage mixed).getD {}) ∧
        stop.get? "type" = some (.text "message_stop") := by
  obtain ⟨e, frames, fed⟩ : ∃ e frames,
      feedAll Encoder.feed { mint := fun _ => "0" } mixed = .ok (e, frames) := ⟨_, _, rfl⟩
  exact ⟨e, frames, fed, rfl, rfl, rfl, feedAll_close_runs fed⟩

end DialectGateway.Messages
