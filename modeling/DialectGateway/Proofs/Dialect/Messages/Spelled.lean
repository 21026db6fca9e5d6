/-
# Proofs.Dialect.Messages.Spelled — a reply spelled out is the message given at once

A partial reply has its parts: the reasoning, the text if there is some, the calls
(`partsOf`). What adds to the reply adds to the last part or begins a new one
(`gains_partsOf`), and the blocks of an encoder do the same, so they stay the parts of the
partial reply. The blocks that a client finds in the end are thus the blocks of the
message given at once.
-/
import DialectGateway.Proofs.Dialect.Messages.Client
import DialectGateway.Proofs.Dialect.Spelling

set_option autoImplicit false

namespace DialectGateway.Messages

/-! ## The parts of a partial reply -/

def toolParts (tools : List ToolCall) : List Part :=
  tools.zipIdx.map fun (t, n) => ⟨.tool (UInt32.ofNat n), .tool t.id t.name, t.arguments⟩

/-- The parts of a reply: the reasoning, the text if there is some, the calls. -/
def partsOf (ρ : Reply) : List Part :=
  (ρ.reasoning.toList.map fun s => ⟨.thinking, .thinking, s⟩) ++
    (if ρ.text = "" then [] else [⟨.text, .text, ρ.text⟩]) ++ toolParts ρ.tools

theorem json_partsOf (r : Reply) : (partsOf r).map Part.json = contentBlocks r := by
  have tools : (toolParts r.tools).map Part.json = r.tools.map toolBlock := by
    rw [toolParts, List.map_map]
    show r.tools.zipIdx.map (toolBlock ∘ Prod.fst) = _
    rw [← List.map_map, List.zipIdx_map_fst]
  rw [partsOf, contentBlocks, List.map_append, List.map_append, tools, List.map_map]
  congr 2
  by_cases text : r.text = "" <;> simp [text, Part.json]

/-- There are as many parts as pieces. -/
theorem length_partsOf (r : Reply) : (partsOf r).length = r.pieces := by
  cases given : r.reasoning <;> by_cases text : r.text = "" <;>
    simp [partsOf, toolParts, Reply.pieces, given, text] <;> omega

theorem toolParts_append_singleton (tools : List ToolCall) (t : ToolCall) :
    toolParts (tools ++ [t]) = toolParts tools ++
      [⟨.tool (UInt32.ofNat tools.length), .tool t.id t.name, t.arguments⟩] := by
  simp [toolParts, List.zipIdx_append]

/-- A slot that comes next has no part. -/
theorem kind_ne_of_mem_partsOf {ρ : Reply} {slot : UInt32} (next : slot.toNat = ρ.tools.length)
    {p : Part} (member : p ∈ partsOf ρ) : p.kind ≠ .tool slot := by
  rw [partsOf, List.mem_append, List.mem_append] at member
  rcases member with (thought | text) | tool
  · obtain ⟨s, _, rfl⟩ := List.mem_map.1 thought
    simp
  · split at text
    · exact absurd text List.not_mem_nil
    · rw [List.mem_singleton.1 text]
      simp
  · obtain ⟨⟨t, n⟩, within, rfl⟩ := List.mem_map.1 tool
    have bound := (List.getElem?_eq_some_iff.1 (List.mem_zipIdx_iff_getElem?.1 within)).1
    have below : (UInt32.ofNat n).toNat ≤ n := Nat.mod_le _ _
    intro same
    obtain rfl := Kind.tool.inj same
    exact absurd next (Nat.ne_of_lt (Nat.lt_of_le_of_lt below bound))

/-- How parts take an output: the last one gains its text if that is of its kind, and
otherwise a part begins with it, in the only way there is. -/
inductive Part.Gains (o : Output) : List Part → List Part → Prop
  | grows (before : List Part) (p : Part) (same : p.kind = kindOf o) :
      Gains o (before ++ [p]) (before ++ [{ p with text := p.text ++ payload o }])
  | begins (parts : List Part) (opening : Opening)
      (only : ∀ opening' : Opening, opening'.opens o → opening' = opening)
      (apart : ∀ p ∈ parts.getLast?, p.kind ≠ kindOf o) :
      Gains o parts (parts ++ [⟨kindOf o, opening, payload o⟩])

/-- **What adds to a reply adds to its parts.** -/
theorem gains_partsOf {ρ ρ' : Reply} {o : Output} (adds : Reply.Adds ρ o ρ') :
    Part.Gains o (partsOf ρ) (partsOf ρ') := by
  cases adds with
  | thought s _ untold idle =>
      simp only [partsOf, untold, idle, if_true, List.append_nil]
      cases ρ.reasoning with
      | none =>
          refine .begins [] .thinking ?_ (by simp)
          intro opening opens
          cases opening <;> first | rfl | exact absurd opens id
      | some t => exact .grows [] ⟨.thinking, .thinking, t⟩ rfl
  | text s some_ idle =>
      have told : ρ.text ++ s ≠ "" := fun empty => some_ (String.append_eq_empty_iff.1 empty).2
      simp only [partsOf, idle, if_neg told]
      by_cases untold : ρ.text = ""
      · rw [if_pos untold, untold, String.empty_append]
        simp only [toolParts, List.zipIdx_nil, List.map_nil, List.append_nil]
        refine .begins _ .text ?_ ?_
        · intro opening opens
          cases opening <;> first | rfl | exact absurd opens id
        · cases ρ.reasoning <;> simp [kindOf]
      · rw [if_neg untold]
        simp only [toolParts, List.zipIdx_nil, List.map_nil, List.append_nil]
        exact .grows _ ⟨.text, .text, ρ.text⟩ rfl
  | call f id name slot known named =>
      have own : UInt32.ofNat ρ.tools.length = f.slot := by rw [← slot, UInt32.ofNat_toNat]
      have parts : partsOf { ρ with tools := ρ.tools ++ [⟨id, name, f.addition⟩] } =
          partsOf ρ ++ [⟨.tool f.slot, .tool id name, f.addition⟩] := by
        simp only [partsOf, toolParts_append_singleton, own, List.append_assoc]
      rw [parts]
      refine .begins _ (.tool id name) ?_ ?_
      · intro opening opens
        cases opening with
        | text | thinking => exact absurd opens False.elim
        | tool id' name' =>
            obtain ⟨named', given⟩ := opens
            obtain rfl := Option.some.inj (named.symm.trans named')
            rw [given id known]
      · intro p last
        exact kind_ne_of_mem_partsOf slot (List.mem_of_getLast? last)
  | arguments f before call last slot =>
      have own : UInt32.ofNat before.length = f.slot := by rw [← slot, UInt32.ofNat_toNat]
      simp only [partsOf, last, toolParts_append_singleton, own, ← List.append_assoc]
      exact .grows _ ⟨.tool f.slot, .tool call.id call.name, call.arguments⟩ rfl

/-! ## The parts of blocks -/

theorem Block.part_add (b : Block) (o : Output) :
    (b.add o).part = { b.part with text := b.part.text ++ payload o } := by
  rw [part, deltas_add, List.map_append, String.join_append, join_deltasOf]
  rfl

/-- **Blocks take an output as their parts do**, if the last of them is the open one. -/
theorem Gains.part {opened : Option (UInt32 × Kind)} {o : Output} {blocks blocks' : List Block}
    {parts parts' : List Part} (gains : Gains opened o blocks blocks')
    (latest : Latest opened blocks) (shown : blocks.map Block.part = parts)
    (grows : Part.Gains o parts parts') : blocks'.map Block.part = parts' := by
  cases gains with
  | grows before b same =>
      cases grows with
      | grows before' p _ =>
          rw [List.map_append] at shown
          obtain ⟨rfl, last⟩ := List.append_inj' shown rfl
          obtain rfl := List.singleton_inj.1 last
          rw [List.map_append, List.map_singleton, Block.part_add]
      | begins _ opening _ apart =>
          refine absurd same (apart b.part ?_)
          rw [← shown]
          simp
  | begins _ opening opens apart =>
      cases grows with
      | grows before' p same =>
          obtain ⟨b, last, rfl⟩ : ∃ b, blocks.getLast? = some b ∧ b.part = p := by
            rw [← Option.map_eq_some_iff, ← List.getLast?_map, shown]
            simp
          obtain ⟨index, now⟩ := latest b last
          exact absurd (same ▸ now) (apart index)
      | begins _ opening' only _ =>
          have text : String.join ((deltasOf o).map Delta.payload) = payload o := join_deltasOf o
          rw [List.map_append, shown, List.map_singleton, Block.part, ← text, only opening opens]
          simp [Block.deltas]

namespace Told

variable {e : Encoder} {blocks : List Block} {frames : List Frame} {ρ ρ' : Reply}

/-- What adds to a partial reply is accepted. -/
theorem accepts (told : Told e blocks frames) (shown : blocks.map Block.part = partsOf ρ)
    (latest : Latest e.opened blocks) {o : Output} (adds : Reply.Adds ρ o ρ') :
    ∃ e' more, e.output o = .ok (e', more) := by
  cases adds with
  | thought s => exact ⟨_, _, rfl⟩
  | text s => exact ⟨_, _, rfl⟩
  | call f id name slot known named =>
      have fresh : ∀ b ∈ blocks, b.kind ≠ .tool f.slot := by
        intro b member
        have within : b.part ∈ partsOf ρ := shown ▸ List.mem_map_of_mem member
        exact kind_ne_of_mem_partsOf slot within
      have closed : e.openSlot? f.slot = none := by
        obtain ⟨head, tail, _, _, spoken⟩ := told.said
        rw [Encoder.openSlot?]
        generalize e.opened = opened at spoken
        cases spoken with
        | closed => rfl
        | opened before b => exact if_neg (fresh b (by simp))
      have unseen : f.slot ∉ e.seen := by
        rw [← List.mem_reverse, ← told.owners, slotsOf, List.mem_filterMap]
        rintro ⟨b, member, owner⟩
        rw [Block.slot?] at owner
        split at owner
        · next slot' kind =>
            obtain rfl := Option.some.inj owner
            exact fresh b member kind
        · exact absurd owner (by simp)
      rw [Encoder.output, Encoder.tool, closed, if_neg unseen, named]
      exact ⟨_, _, rfl⟩
  | arguments f before call last slot =>
      have own : UInt32.ofNat before.length = f.slot := by rw [← slot, UInt32.ofNat_toNat]
      obtain ⟨b, final, kind⟩ : ∃ b, blocks.getLast? = some b ∧
          b.part = ⟨.tool f.slot, .tool call.id call.name, call.arguments⟩ := by
        rw [← Option.map_eq_some_iff, ← List.getLast?_map, shown, partsOf, last,
          toolParts_append_singleton, own]
        simp
      obtain ⟨index, now⟩ := latest b final
      have opened : e.openSlot? f.slot = some index := by
        rw [Encoder.openSlot?, now]
        exact if_pos (congrArg Part.kind kind)
      rw [Encoder.output, Encoder.tool, opened]
      exact ⟨_, _, rfl⟩

end Told

/-! ## Along a spelling -/

theorem Encoder.started_noteFinish (e : Encoder) (reason : Option Finish) :
    (e.noteFinish reason).1.started = e.started := by
  rw [noteFinish]
  split
  · simp [Told.closeBlock_fst]
  · rfl

/-- The encoder stands for the partial reply: its blocks are the parts of it, and the last is
open unless a reason to end is known; and it has said who replies, if anything. -/
structure Stands (r ρ : Reply) (finished : Bool) (e : Encoder) (frames : List Frame) : Prop where
  blocks : ∃ blocks, Told e blocks frames ∧ blocks.map Block.part = partsOf ρ ∧
    (finished = false → Latest e.opened blocks)
  finish : e.finish.isSome = finished
  silent : e.started = false → frames = []
  head : e.started = true → ∃ tokens, frames.head? = some (.start r.id r.model tokens)

namespace Stands

variable {r ρ ρ' : Reply} {finished : Bool} {e : Encoder} {frames : List Frame}

theorem fresh (r : Reply) (mint : Nat → String) : Stands r r.blank false { mint } [] where
  blocks := ⟨[], Told.fresh mint, by simp [partsOf, Reply.blank, toolParts], by simp [Latest]⟩
  finish := rfl
  silent := fun _ => rfl
  head := fun started => absurd started (by simp)

theorem head?_append (started : e.started = true) (stands : Stands r ρ finished e frames)
    (more : List Frame) : ∃ tokens, (frames ++ more).head? = some (.start r.id r.model tokens) := by
  obtain ⟨tokens, first⟩ := stands.head started
  refine ⟨tokens, ?_⟩
  rw [List.head?_append, first]
  rfl

/-- The first event that is not empty says who replies. -/
theorem start (stands : Stands r ρ finished e frames) {event : Event} (named : r.id ≠ "")
    (id : event.id = r.id) (model : event.model = r.model) :
    Stands r ρ finished (e.start event).1 (frames ++ (e.start event).2) ∧
      (e.start event).1.started = true := by
  obtain ⟨blocks, told, shown, latest⟩ := stands.blocks
  obtain ⟨told', started⟩ := told.start event
  refine ⟨⟨⟨blocks, told', shown, ?_⟩, ?_, ?_, ?_⟩, started⟩
  · rw [Encoder.start_fst]
    exact latest
  · rw [Encoder.start_fst]
    exact stands.finish
  · intro before
    exact absurd started (by simp [before])
  · intro _
    rw [Encoder.start]
    split
    · next since => exact stands.head?_append since []
    · next before =>
        rw [stands.silent (by simpa using before), Encoder.messageId, id, model,
          if_neg (by simpa using named)]
        exact ⟨_, rfl⟩

/-- Token counts do not matter here. -/
theorem usage (stands : Stands r ρ finished e frames) (usage : Tokens) :
    Stands r ρ finished { e with usage } frames := by
  obtain ⟨blocks, told, shown, latest⟩ := stands.blocks
  exact ⟨⟨blocks, told.usage usage, shown, latest⟩, stands.finish, stands.silent, stands.head⟩

/-- **What adds to a partial reply is accepted**, and leads to what has become of it. -/
theorem output (stands : Stands r ρ false e frames) (started : e.started = true) {o : Output}
    (adds : Reply.Adds ρ o ρ') : ∃ e' more, e.output o = .ok (e', more) ∧
      Stands r ρ' false e' (frames ++ more) ∧ e'.started = true := by
  obtain ⟨blocks, told, shown, latest⟩ := stands.blocks
  obtain ⟨e', more, accepted⟩ := told.accepts shown (latest rfl) adds
  obtain ⟨blocks', told', gains, ⟨index, opened⟩, started'⟩ := told.output started accepted
  refine ⟨e', more, accepted, ⟨⟨blocks', told', ?_, fun _ => ?_⟩, ?_, ?_, ?_⟩, started'⟩
  · exact gains.part (latest rfl) shown (gains_partsOf adds)
  · rw [opened]
    exact gains.latest index
  · rw [(Encoder.output_keeps accepted).1]
    exact stands.finish
  · intro before
    exact absurd started' (by simp [before])
  · exact fun _ => stands.head?_append started more

theorem outputs (stands : Stands r ρ false e frames) (started : e.started = true)
    {os : List Output} (grows : Reply.Grows ρ os ρ') :
    ∃ e' more, e.outputs os = (e', .ok more) ∧ Stands r ρ' false e' (frames ++ more) ∧
      e'.started = true := by
  induction grows generalizing e frames with
  | nil => exact ⟨e, [], rfl, by simpa using stands, started⟩
  | cons first rest ih =>
      obtain ⟨middle, now, accepted, stands', since⟩ := stands.output started first
      obtain ⟨e', later, all, stands'', started'⟩ := ih stands' since
      refine ⟨e', now ++ later, ?_, ?_, started'⟩
      · rw [Encoder.outputs, accepted]
        simp only [all, Except.map]
      · rw [← List.append_assoc]
        exact stands''

theorem noteFinish (stands : Stands r ρ finished e frames) (started : e.started = true)
    (reason : Option Finish) : Stands r ρ (finished || reason.isSome) (e.noteFinish reason).1
      (frames ++ (e.noteFinish reason).2) := by
  obtain ⟨blocks, told, shown, latest⟩ := stands.blocks
  refine ⟨⟨blocks, told.noteFinish reason, shown, ?_⟩, ?_, ?_, fun _ =>
    stands.head?_append started _⟩
  · intro unknown
    obtain ⟨before, none_⟩ := Bool.or_eq_false_iff.1 unknown
    obtain rfl : reason = none := by simpa using none_
    rw [Encoder.noteFinish_none]
    exact latest before
  · rw [(e.noteFinish_keeps reason).1, Option.isSome_or, stands.finish]
  · intro before
    rw [Encoder.started_noteFinish, started] at before
    exact absurd before (by simp)

/-- **An event of the spelling is accepted.** -/
theorem feed (stands : Stands r ρ finished e frames) {event : Event} (named : r.id ≠ "")
    (grows : Reply.Grows ρ event.outputs ρ')
    (head : event.isEmpty = false → event.IsOf r)
    (late : finished = true → event.outputs = []) :
    ∃ e' more, e.feed event = (e', .ok more) ∧
      Stands r ρ' (finished || event.finish.isSome) e' (frames ++ more) := by
  cases empty : event.isEmpty with
  | true =>
      rw [Event.outputs_of_isEmpty empty] at grows
      cases grows
      refine ⟨e, [], by rw [Encoder.feed, empty]; rfl, ?_⟩
      rw [Event.finish_of_isEmpty empty]
      simpa using stands
  | false =>
      obtain ⟨id, model, _, single⟩ := head empty
      obtain ⟨begun, started⟩ := stands.start named id model
      have counted := begun.usage (event.usage.getD (e.start event).1.usage)
      have accepted : event.refusal? e.stopped e.finish.isSome = none := by
        obtain ⟨_, told, _⟩ := stands.blocks
        rw [told.running, stands.finish]
        exact Event.refusal?_of_single single late
      suffices said : ∃ middle now,
          { (e.start event).1 with usage := event.usage.getD (e.start event).1.usage }.outputs
            event.outputs = (middle, .ok now) ∧
          Stands r ρ' finished middle (frames ++ (e.start event).2 ++ now) ∧
          middle.started = true by
        obtain ⟨middle, now, outputs, stands', since⟩ := said
        refine ⟨(middle.noteFinish event.finish).1,
          (e.start event).2 ++ now ++ (middle.noteFinish event.finish).2, ?_, ?_⟩
        · rw [Encoder.feed, empty, accepted]
          simp only [outputs, Bool.false_eq_true, if_false]
        · have noted := stands'.noteFinish since event.finish
          simp only [List.append_assoc] at noted ⊢
          exact noted
      cases finished with
      | false => exact counted.outputs started grows
      | true =>
          rw [late rfl] at grows ⊢
          cases grows
          exact ⟨_, [], rfl, by simpa using counted, started⟩

end Stands

/-- Whoever has been told token counts has said something. -/
theorem started_of_lastUsage {mint : Nat → String} {events : List Event} {e : Encoder}
    {frames : List Frame} (fed : feedAll Encoder.feed { mint } events = .ok (e, frames))
    (reported : (lastUsage events).isSome = true) : e.started = true := by
  have kept : (∃ blocks, Told e blocks frames) ∧
      (e.started = false → lastUsage events = none) := by
    refine feedAll_invariant (fun e events frames => (∃ blocks, Told e blocks frames) ∧
      (e.started = false → lastUsage events = none)) ?_ ⟨⟨[], Told.fresh mint⟩, fun _ => rfl⟩ fed
    rintro e events frames event e' more ⟨⟨blocks, told⟩, silent⟩ step
    obtain ⟨blocks', told', _⟩ := told.feed step
    refine ⟨⟨blocks', told'⟩, ?_⟩
    rcases Encoder.feed_cases step with ⟨empty, rfl, rfl⟩ | ⟨middle, now, _, said, rfl, rfl⟩
    · intro before
      rw [lastUsage_append_singleton, Event.usage_of_isEmpty empty, silent before]
      rfl
    · obtain ⟨begun, started⟩ := told.start event
      have counted := begun.usage (event.usage.getD (e.start event).1.usage)
      obtain ⟨_, _, _, since⟩ := counted.outputs started said
      intro before
      rw [Encoder.started_noteFinish, since] at before
      exact absurd before (by simp)
  cases started : e.started with
  | true => rfl
  | false =>
      rw [kept.2 started] at reported
      exact absurd reported (by simp)

/-- **A client makes of a reply spelled out the message given at once**, if there are numbers for
all its pieces. -/
theorem feedAll_spelled {r : Reply} {events : List Event} (spells : Spells r events)
    (named : r.id ≠ "") (thought : r.reasoning ≠ some "") (fits : r.pieces ≤ UInt32.size)
    (mint : Nat → String) :
    ∃ e frames, feedAll Encoder.feed { mint } events = .ok (e, frames) ∧
      assemble ((frames ++ e.close.2).map Frame.json) = replyJson r := by
  obtain ⟨e, frames, fed, finished, stands⟩ := spells.feedAll thought (Stands r)
    (fun _ _ _ _ _ _ stands grows _ head late => stands.feed named grows head late)
    (Stands.fresh r mint)
  refine ⟨e, frames, fed, ?_⟩
  have grouping : Grouping e events frames :=
    feedAll_invariant Grouping (fun _ _ _ _ _ _ grouping step => grouping.feed step)
      (Grouping.fresh mint) fed
  have started := started_of_lastUsage fed (by rw [spells.usage]; rfl)
  obtain ⟨blocks, told, shown, _⟩ := stands.blocks
  obtain ⟨id, model, tokens, whole⟩ := told.closing
  obtain ⟨tokens', first⟩ := stands.head?_append started e.close.2
  have parts : blocks.map (fun b => b.part.json) = contentBlocks r := by
    rw [← json_partsOf, ← shown, List.map_map]
    rfl
  rw [whole, List.append_assoc] at first
  obtain ⟨rfl, rfl, _⟩ := Frame.start.inj (Option.some.inj first)
  have numbers : blocks.length ≤ UInt32.size := by
    rw [← blocks.length_map (f := Block.part), shown, length_partsOf]
    exact fits
  rw [whole, assemble_frames _ _ _ _ _ numbers, parts, grouping.finish, grouping.usage,
    spells.finish, spells.usage]
  rfl

end DialectGateway.Messages
