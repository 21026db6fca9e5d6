/-
# Proofs.Dialect.Messages.Blocks — a message is its blocks, one after another

Whatever events a new encoder accepts, the frames of the whole stream are the start,
the content blocks numbered from 0 by a word of 32 bits, each with its start, its deltas
and its stop before the next one starts, and then the closing delta and the stop
(`feedAll_close_blocks`). The numbers do not go on for ever: a stream of more blocks than
there are words uses some number twice (`crowd_numbers`).

A `Block` remembers what was generated for it, so that blocks have owners: the blocks
of a stream share out its outputs in order, each block takes outputs of its own kind
only, and no tool slot has two blocks.

`Told` relates an encoder to what it has said. Every turn of the encoder that says
something has one lemma about `Told`: closing the open block, opening a block, adding
an output to the open block. The rest is case analysis over the turns.
-/
import DialectGateway.Dialect.Messages.Encoder
import DialectGateway.Proofs.Dialect.Data
import DialectGateway.Proofs.Dialect.Feeding
import DialectGateway.Proofs.Dialect.Words
import Mathlib.Data.List.Forall2

set_option autoImplicit false

namespace DialectGateway

namespace Messages

/-! ## Turns of the encoder -/

namespace Encoder

theorem start_fst (e : Encoder) (event : Event) :
    (e.start event).1 = { e with started := true } := by
  rw [start]
  split
  · next started =>
      rw [← started]
  · rfl

/-- What every accepted output keeps, a run of accepted outputs keeps. -/
theorem outputs_invariant (Inv : Encoder → List Output → List Frame → Prop)
    (step : ∀ e os frames o e' more, Inv e os frames → e.output o = .ok (e', more) →
      Inv e' (os ++ [o]) (frames ++ more))
    {e e' : Encoder} {os : List Output} {frames : List Frame} (start : Inv e [] [])
    (said : e.outputs os = (e', .ok frames)) : Inv e' os frames := by
  suffices general : ∀ (os : List Output) (e : Encoder) (past : List Output)
      (before frames : List Frame), Inv e past before → e.outputs os = (e', .ok frames) →
        Inv e' (past ++ os) (before ++ frames) by
    simpa using general os e [] [] frames start said
  intro os
  induction os with
  | nil =>
      intro e past before frames holds said
      cases said
      simpa using holds
  | cons o rest ih =>
      intro e past before frames holds said
      rw [outputs] at said
      split at said
      · exact absurd said (by simp)
      · next middle now first =>
          have kept := step e past before o middle now holds first
          generalize remaining : middle.outputs rest = result at said
          obtain ⟨last, answer⟩ := result
          cases answer with
          | error refusal => exact absurd said (by simp [Except.map])
          | ok later =>
              cases said
              simpa using ih middle (past ++ [o]) (before ++ now) later kept remaining

/-- An accepted event says nothing, or it starts the message if need be, takes the token
counts, says its outputs and takes note of its reason to end. -/
theorem feed_cases {e e' : Encoder} {event : Event} {more : List Frame}
    (fed : e.feed event = (e', .ok more)) :
    event.isEmpty = true ∧ e' = e ∧ more = [] ∨
    ∃ middle now, event.refusal? e.stopped e.finish.isSome = none ∧
      { (e.start event).1 with usage := event.usage.getD (e.start event).1.usage }.outputs
        event.outputs = (middle, .ok now) ∧
      e' = (middle.noteFinish event.finish).1 ∧
      more = (e.start event).2 ++ now ++ (middle.noteFinish event.finish).2 := by
  rw [feed] at fed
  split at fed
  · next empty =>
      cases fed
      exact .inl ⟨empty, rfl, rfl⟩
  · split at fed
    · exact absurd fed (by simp)
    · next accepted =>
        simp only at fed
        split at fed
        · exact absurd fed (by simp)
        · next middle now said =>
            cases fed
            exact .inr ⟨middle, now, accepted, said, rfl, rfl⟩

end Encoder

/-! ## Blocks -/

/-- The kind of the block that an output belongs to. -/
def kindOf : Output → Kind
  | .reasoning _ => .thinking
  | .content _ => .text
  | .tool f => .tool f.slot

/-- What an output adds to its block. A fragment without arguments adds nothing. -/
def deltasOf : Output → List Delta
  | .reasoning s => [.thinking s]
  | .content s => [.text s]
  | .tool f => if f.addition.isEmpty then [] else [.input f.addition]

/-- Whether a block of the kind begins like this. -/
def Opening.fits : Opening → Kind → Bool
  | .text, .text => true
  | .thinking, .thinking => true
  | .tool _ _, .tool _ => true
  | _, _ => false

/-- The block of an output begins like this if the output is its first. A tool call has the
name of its first fragment, and the id as well if it gives one. -/
def Opening.opens : Opening → Output → Prop
  | .text, .content _ => True
  | .thinking, .reasoning _ => True
  | .tool id name, .tool f => f.name = some name ∧ ∀ given, f.id = some given → id = given
  | _, _ => False

theorem Opening.fits_of_opens {opening : Opening} {o : Output} (opens : opening.opens o) :
    opening.fits (kindOf o) = true := by
  cases opening <;> cases o <;> first | rfl | exact absurd opens id

/-- Whether a block of the kind gains this. -/
def Delta.fits : Delta → Kind → Bool
  | .text _, .text => true
  | .thinking _, .thinking => true
  | .input _, .tool _ => true
  | _, _ => false

theorem fits_deltasOf {o : Output} {delta : Delta} (member : delta ∈ deltasOf o) :
    delta.fits (kindOf o) = true := by
  cases o with
  | reasoning s | content s =>
      rw [deltasOf, List.mem_singleton] at member
      rw [member]
      rfl
  | tool f =>
      rw [deltasOf] at member
      split at member
      · exact absurd member (by simp)
      · rw [List.mem_singleton] at member
        rw [member]
        rfl

/-- A content block: its kind, how it begins, and what was generated for it. -/
structure Block where
  kind : Kind
  opening : Opening
  outputs : List Output := []
  deriving DecidableEq, Repr

namespace Block

def deltas (b : Block) : List Delta := b.outputs.flatMap deltasOf

/-- The frames of a block before its stop. -/
def spoken (index : UInt32) (b : Block) : List Frame :=
  .blockStart index b.opening :: b.deltas.map (.blockDelta index)

/-- The frames of a block. -/
def frames (index : UInt32) (b : Block) : List Frame := b.spoken index ++ [.blockStop index]

/-- The tool slot that a block belongs to, if it belongs to one. -/
def slot? (b : Block) : Option UInt32 :=
  match b.kind with
  | .tool slot => some slot
  | _ => none

/-- A block begins as its kind does and holds outputs and deltas of its kind only. -/
structure WellFormed (b : Block) : Prop where
  opening : b.opening.fits b.kind = true
  outputs : ∀ o ∈ b.outputs, kindOf o = b.kind
  deltas : ∀ delta ∈ b.deltas, delta.fits b.kind = true

/-- Adds an output. -/
def add (b : Block) (o : Output) : Block := { b with outputs := b.outputs ++ [o] }

theorem wellFormed_new {kind : Kind} {opening : Opening} (fits : opening.fits kind = true) :
    WellFormed ⟨kind, opening, []⟩ := by
  refine ⟨fits, ?_, ?_⟩
  · intro o member
    exact absurd member List.not_mem_nil
  · intro delta member
    exact absurd member List.not_mem_nil

theorem deltas_add (b : Block) (o : Output) : (b.add o).deltas = b.deltas ++ deltasOf o := by
  simp only [deltas, add, List.flatMap_append, List.flatMap_singleton]

theorem wellFormed_add {b : Block} {o : Output} (well : b.WellFormed) (same : kindOf o = b.kind) :
    (b.add o).WellFormed := by
  refine ⟨well.opening, ?_, ?_⟩
  · intro o' member
    rcases List.mem_append.1 member with old | new
    · exact well.outputs o' old
    · rw [List.mem_singleton.1 new]
      exact same
  · intro delta member
    rw [deltas_add] at member
    rcases List.mem_append.1 member with old | new
    · exact well.deltas delta old
    · have fits := fits_deltasOf new
      rw [same] at fits
      exact fits

theorem spoken_add (index : UInt32) (b : Block) (o : Output) :
    (b.add o).spoken index = b.spoken index ++ (deltasOf o).map (.blockDelta index) := by
  simp only [spoken, deltas_add, List.map_append, List.cons_append]
  rfl

end Block

/-- The frames of blocks numbered from 0, by a counter of 32 bits. -/
def framesOf (blocks : List Block) : List Frame :=
  blocks.zipIdx.flatMap fun (b, n) => b.frames (UInt32.ofNat n)

theorem framesOf_append_singleton (before : List Block) (b : Block) :
    framesOf (before ++ [b]) = framesOf before ++ b.frames (UInt32.ofNat before.length) := by
  simp only [framesOf, List.zipIdx_append, List.flatMap_append, List.zipIdx_singleton,
    List.flatMap_singleton, Nat.zero_add]

/-! ## The data of blocks -/

/-- The word for blocks of a kind. -/
def Kind.word : Kind → String
  | .text => "text"
  | .thinking => "thinking"
  | .tool _ => "tool_use"

/-- The word for what blocks of a kind gain. -/
def Kind.gainWord : Kind → String
  | .text => "text_delta"
  | .thinking => "thinking_delta"
  | .tool _ => "input_json_delta"

/-- The data is of this type and about the block with this number. -/
structure IsAbout (data : Json) (type : String) (number : Nat) : Prop where
  type : data.get? "type" = some (.text type)
  index : data.get? "index" = some (.nat number)

/-- The data of a block as a client has it: of the start, of the deltas and of the stop. -/
structure BlockData where
  start : Json
  deltas : List Json
  stop : Json

namespace BlockData

/-- The data of a block, in order. -/
def all (d : BlockData) : List Json := d.start :: d.deltas ++ [d.stop]

/-- All data of the block has its number, its start says its kind, and its deltas are of its
kind. -/
structure Framed (d : BlockData) (kind : Kind) (number : Nat) : Prop where
  starts : IsAbout d.start "content_block_start" number
  word : (d.start.field "content_block").get? "type" = some (.text kind.word)
  gains : ∀ data ∈ d.deltas, IsAbout data "content_block_delta" number ∧
    (data.field "delta").get? "type" = some (.text kind.gainWord)
  stops : IsAbout d.stop "content_block_stop" number

end BlockData

theorem Opening.word_of_fits {opening : Opening} {kind : Kind} (fits : opening.fits kind = true) :
    opening.json.get? "type" = some (.text kind.word) := by
  cases opening <;> cases kind <;> first | rfl | exact absurd fits Bool.false_ne_true

theorem Delta.word_of_fits {delta : Delta} {kind : Kind} (fits : delta.fits kind = true) :
    delta.json.get? "type" = some (.text kind.gainWord) := by
  cases delta <;> cases kind <;> first | rfl | exact absurd fits Bool.false_ne_true

namespace Block

/-- The data of a block under a number. -/
def data (index : UInt32) (b : Block) : BlockData where
  start := (Frame.blockStart index b.opening).json
  deltas := b.deltas.map fun delta => (Frame.blockDelta index delta).json
  stop := (Frame.blockStop index).json

theorem all_data (index : UInt32) (b : Block) :
    (b.data index).all = (b.frames index).map Frame.json := by
  simp [BlockData.all, data, frames, spoken, List.map_map, Function.comp_def]

/-- What is sent of a block is framed as its kind and its number ask for. -/
theorem framed_data {b : Block} (well : b.WellFormed) (index : UInt32) :
    (b.data index).Framed b.kind index.toNat where
  starts := ⟨rfl, rfl⟩
  word := Opening.word_of_fits well.opening
  gains := by
    intro sent member
    obtain ⟨delta, gained, rfl⟩ := List.mem_map.1 member
    exact ⟨⟨rfl, rfl⟩, Delta.word_of_fits (well.deltas delta gained)⟩
  stops := ⟨rfl, rfl⟩

end Block

/-- The data of blocks, each under its number. -/
def datasOf (blocks : List Block) : List BlockData :=
  blocks.zipIdx.map fun (b, n) => b.data (UInt32.ofNat n)

theorem flatMap_all_datasOf (blocks : List Block) :
    (datasOf blocks).flatMap BlockData.all = (framesOf blocks).map Frame.json := by
  rw [datasOf, framesOf, List.flatMap_map, List.map_flatMap]
  exact List.flatMap_congr fun x _ => x.1.all_data _

/-- What is sent of blocks is framed, each under its number. -/
theorem framed_datasOf {blocks : List Block} (well : ∀ b ∈ blocks, b.WellFormed) :
    List.Forall₂ (fun d (b, n) => BlockData.Framed d b.kind (n % UInt32.size)) (datasOf blocks)
      blocks.zipIdx := by
  rw [datasOf, List.forall₂_map_left_iff, List.forall₂_same]
  intro x member
  exact Block.framed_data (well x.1 (List.fst_mem_of_mem_zipIdx member)) _

/-! ## Owners -/

/-- The outputs of blocks, in order. -/
def outputsOf (blocks : List Block) : List Output := blocks.flatMap (·.outputs)

/-- The slots that have a block, in order. -/
def slotsOf (blocks : List Block) : List UInt32 := blocks.filterMap Block.slot?

theorem outputsOf_append_singleton (before : List Block) (b : Block) :
    outputsOf (before ++ [b]) = outputsOf before ++ b.outputs := by
  simp only [outputsOf, List.flatMap_append, List.flatMap_singleton]

theorem slotsOf_append_singleton (before : List Block) (b : Block) :
    slotsOf (before ++ [b]) = slotsOf before ++ b.slot?.toList := by
  rw [slotsOf, List.filterMap_append]
  cases owner : b.slot? <;> simp [slotsOf, owner]

/-- How blocks take an output, given the block that is open: it gains the output if that is
of its kind, and otherwise a block begins with it. -/
inductive Gains (opened : Option (UInt32 × Kind)) (o : Output) : List Block → List Block → Prop
  | grows (before : List Block) (b : Block) (same : b.kind = kindOf o) :
      Gains opened o (before ++ [b]) (before ++ [b.add o])
  | begins (blocks : List Block) (opening : Opening) (opens : opening.opens o)
      (apart : ∀ index, opened ≠ some (index, kindOf o)) :
      Gains opened o blocks (blocks ++ [⟨kindOf o, opening, [o]⟩])

theorem Gains.outputsOf_eq {opened : Option (UInt32 × Kind)} {o : Output}
    {blocks blocks' : List Block} (gains : Gains opened o blocks blocks') :
    outputsOf blocks' = outputsOf blocks ++ [o] := by
  cases gains with
  | grows before b =>
      rw [outputsOf_append_singleton, outputsOf_append_singleton, List.append_assoc]
      rfl
  | begins => exact outputsOf_append_singleton _ _

/-! ## What an encoder has said -/

/-- What stands before the blocks: nothing, or the start. -/
inductive Head (started : Bool) (blocks : List Block) : List Frame → Prop
  | silent (before : started = false) (none : blocks = []) : Head started blocks []
  | started (since : started = true) (id model : String) (inputTokens : UInt32) :
      Head started blocks [.start id model inputTokens]

/-- What has been said of blocks: all frames, but the open block is without its stop. -/
inductive Spoken : Option (UInt32 × Kind) → List Block → List Frame → Prop
  | closed (blocks : List Block) : Spoken none blocks (framesOf blocks)
  | opened (before : List Block) (b : Block) :
      Spoken (some (UInt32.ofNat before.length, b.kind)) (before ++ [b])
        (framesOf before ++ b.spoken (UInt32.ofNat before.length))

/-- The encoder has said the blocks so far in these frames. -/
structure Told (e : Encoder) (blocks : List Block) (frames : List Frame) : Prop where
  running : e.stopped = false
  numbered : e.nextBlock = UInt32.ofNat blocks.length
  well : ∀ b ∈ blocks, b.WellFormed
  owners : slotsOf blocks = e.seen.reverse
  single : e.seen.Nodup
  said : ∃ head tail, frames = head ++ tail ∧ Head e.started blocks head ∧
    Spoken e.opened blocks tail

namespace Told

variable {e : Encoder} {blocks : List Block} {frames : List Frame}

theorem fresh (mint : Nat → String) : Told { mint } [] [] where
  running := rfl
  numbered := rfl
  well := fun _ member => absurd member List.not_mem_nil
  owners := rfl
  single := List.nodup_nil
  said := ⟨[], [], rfl, .silent rfl rfl, .closed []⟩

theorem closeBlock_fst (e : Encoder) : e.closeBlock.1 = { e with opened := none } := by
  obtain ⟨_, _, _, _, _, opened, _, _⟩ := e
  cases opened <;> rfl

/-- Closing speaks of the open block only. -/
theorem closeBlock_snd_congr {e e' : Encoder} (same : e'.opened = e.opened) :
    e'.closeBlock.2 = e.closeBlock.2 := by
  simp only [Encoder.closeBlock, same]
  split <;> rfl

theorem closeBlock (told : Told e blocks frames) :
    Told e.closeBlock.1 blocks (frames ++ e.closeBlock.2) ∧ e.closeBlock.1.opened = none := by
  rw [closeBlock_fst]
  refine ⟨⟨told.running, told.numbered, told.well, told.owners, told.single, ?_⟩, rfl⟩
  obtain ⟨head, tail, rfl, heads, spoken⟩ := told.said
  refine ⟨head, framesOf blocks, ?_, heads, .closed blocks⟩
  rw [List.append_assoc, Encoder.closeBlock.eq_def]
  congr 1
  generalize e.opened = opened at spoken
  cases spoken with
  | closed => exact List.append_nil _
  | opened before b =>
      rw [framesOf_append_singleton, Block.frames]
      exact List.append_assoc _ _ _

/-- A block is opened: what was open is stopped, and the new block has the next number.
The slots that have had their block may be noted anew. -/
theorem openBlock (told : Told e blocks frames) (started : e.started = true) {kind : Kind}
    {opening : Opening} (fits : opening.fits kind = true) {seen : List UInt32}
    (owners : slotsOf (blocks ++ [⟨kind, opening, []⟩]) = seen.reverse) (single : seen.Nodup) :
    let opened := { e with seen }.openBlock kind opening
    Told opened.1 (blocks ++ [⟨kind, opening, []⟩]) (frames ++ opened.2) ∧
      opened.1.opened = some (e.nextBlock, kind) ∧ opened.1.started = true := by
  intro opened
  obtain ⟨closed, shut⟩ := told.closeBlock
  obtain ⟨head, tail, said, heads, spoken⟩ := closed.said
  have turn : opened = ({ e with
      seen, opened := some (e.nextBlock, kind), nextBlock := e.nextBlock + 1 },
      e.closeBlock.2 ++ [.blockStart e.nextBlock opening]) := by
    have same : { e with seen }.closeBlock.2 = e.closeBlock.2 := closeBlock_snd_congr rfl
    show { e with seen }.openBlock kind opening = _
    simp only [Encoder.openBlock, closeBlock_fst, same]
  rw [turn]
  refine ⟨⟨told.running, ?_, ?_, owners, single, ?_⟩, rfl, started⟩
  · rw [List.length_append, List.length_singleton, Word.ofNat_succ, told.numbered]
  · intro b member
    rcases List.mem_append.1 member with old | new
    · exact told.well b old
    · rw [List.mem_singleton.1 new]
      exact Block.wellFormed_new fits
  · rw [shut] at spoken
    cases spoken
    refine ⟨head, framesOf blocks ++ [.blockStart (UInt32.ofNat blocks.length) opening],
      ?_, ?_, ?_⟩
    · rw [← List.append_assoc, said, told.numbered, List.append_assoc]
    · rw [closeBlock_fst] at heads
      cases heads with
      | silent before => exact absurd started (by rw [before]; simp)
      | started since id model tokens => exact .started since id model tokens
    · rw [told.numbered]
      exact .opened blocks ⟨kind, opening, []⟩

/-- An output of the open block's kind is added to it. -/
theorem add (told : Told e blocks frames) {index : UInt32} {o : Output}
    (opened : e.opened = some (index, kindOf o)) :
    ∃ before b, blocks = before ++ [b] ∧ b.kind = kindOf o ∧
      Told e (before ++ [b.add o]) (frames ++ (deltasOf o).map (.blockDelta index)) := by
  obtain ⟨head, tail, rfl, heads, spoken⟩ := told.said
  generalize now : e.opened = what at spoken
  rw [now] at opened
  cases spoken with
  | closed => exact absurd opened (by simp)
  | opened before b =>
      obtain ⟨rfl, kind⟩ : UInt32.ofNat before.length = index ∧ b.kind = kindOf o := by
        simpa using opened
      refine ⟨before, b, rfl, kind, told.running, ?_, ?_, ?_, told.single,
        head, framesOf before ++ (b.add o).spoken (UInt32.ofNat before.length), ?_, ?_, ?_⟩
      · rw [told.numbered]
        simp only [List.length_append, List.length_singleton]
      · intro b' member
        rcases List.mem_append.1 member with old | new
        · exact told.well b' (List.mem_append_left _ old)
        · rw [List.mem_singleton.1 new]
          exact Block.wellFormed_add (told.well b (by simp)) kind.symm
      · rw [← told.owners, slotsOf_append_singleton, slotsOf_append_singleton]
        rfl
      · rw [Block.spoken_add]
        simp only [List.append_assoc]
      · cases heads with
        | silent _ none => exact absurd none (by simp)
        | started since id model tokens => exact .started since id model tokens
      · rw [now]
        exact .opened before (b.add o)

/-- A block is opened for an output, which is added to it. -/
theorem begin (told : Told e blocks frames) (started : e.started = true) {o : Output}
    {opening : Opening} (opens : opening.opens o) {seen : List UInt32}
    (owners : slotsOf (blocks ++ [⟨kindOf o, opening, []⟩]) = seen.reverse) (single : seen.Nodup) :
    let opened := { e with seen }.openBlock (kindOf o) opening
    Told opened.1 (blocks ++ [⟨kindOf o, opening, [o]⟩])
        (frames ++ (opened.2 ++ (deltasOf o).map (.blockDelta e.nextBlock))) ∧
      opened.1.opened = some (e.nextBlock, kindOf o) ∧ opened.1.started = true := by
  intro opened
  obtain ⟨fresh, now, since⟩ := told.openBlock started (Opening.fits_of_opens opens) owners single
  obtain ⟨before, b, last, _, told'⟩ := fresh.add now
  obtain ⟨rfl, same⟩ := List.append_inj' last rfl
  obtain rfl := List.singleton_inj.1 same
  refine ⟨?_, now, since⟩
  rw [← List.append_assoc]
  exact told'

/-- The start is said before anything else, and only if nothing has been said. -/
theorem start (told : Told e blocks frames) (event : Event) :
    Told (e.start event).1 blocks (frames ++ (e.start event).2) ∧
      (e.start event).1.started = true := by
  rw [Encoder.start]
  split
  · next started =>
      rw [List.append_nil]
      exact ⟨told, started⟩
  · next fresh =>
      refine ⟨⟨told.running, told.numbered, told.well, told.owners, told.single, ?_⟩, rfl⟩
      obtain ⟨head, tail, rfl, heads, spoken⟩ := told.said
      cases heads with
      | started since => exact absurd since fresh
      | silent _ none =>
          subst none
          have nothing : tail = [] := by
            generalize e.opened = opened at spoken
            generalize hidden : ([] : List Block) = blocks at spoken
            cases spoken with
            | closed =>
                rw [← hidden]
                rfl
            | opened before b => exact absurd hidden (by simp)
          rw [nothing] at spoken ⊢
          exact ⟨_, [], rfl, .started rfl _ _ _, spoken⟩

/-- Token counts are not said before the end. -/
theorem usage (told : Told e blocks frames) (usage : Tokens) :
    Told { e with usage } blocks frames :=
  ⟨told.running, told.numbered, told.well, told.owners, told.single, told.said⟩

/-- The frames of a fragment's arguments are those of its deltas. -/
theorem argumentFrames_eq (index : UInt32) (f : ToolFragment) :
    Encoder.argumentFrames index f = (deltasOf (.tool f)).map (.blockDelta index) := by
  rw [Encoder.argumentFrames, deltasOf]
  split <;> rfl

/-- A fragment extends its slot's block while that is open; otherwise the slot must be
new, and its block is opened. -/
theorem tool (told : Told e blocks frames) (started : e.started = true) {f : ToolFragment}
    {e' : Encoder} {more : List Frame} (said : e.tool f = .ok (e', more)) :
    ∃ blocks', Told e' blocks' (frames ++ more) ∧ Gains e.opened (.tool f) blocks blocks' ∧
      (∃ index, e'.opened = some (index, kindOf (.tool f))) ∧ e'.started = true := by
  rw [Encoder.tool] at said
  split at said
  · next index slot =>
      cases said
      have opened : e.opened = some (index, kindOf (.tool f)) := by
        rw [Encoder.openSlot?] at slot
        split at slot
        · next number kind now =>
            split at slot
            · next same =>
                cases slot
                rw [now, same]
                rfl
            · exact absurd slot (by simp)
        · exact absurd slot (by simp)
      obtain ⟨before, b, rfl, same, told'⟩ := told.add opened
      rw [argumentFrames_eq]
      exact ⟨_, told', .grows before b same, ⟨index, opened⟩, started⟩
  · next closed =>
      split at said
      · exact absurd said (by simp)
      · next unseen =>
          split at said
          · exact absurd said (by simp)
          · next name named =>
              cases said
              have owners (id : String) :
                  slotsOf (blocks ++ [⟨.tool f.slot, .tool id name, []⟩]) =
                    (f.slot :: e.seen).reverse := by
                rw [slotsOf_append_singleton, told.owners, List.reverse_cons]
                rfl
              have opens : (Opening.tool (f.id.getD ("toolu_" ++ e.mint (e.seen.length + 1)))
                  name).opens (.tool f) := by
                refine ⟨named, ?_⟩
                intro given here
                rw [here]
                rfl
              obtain ⟨told', opened, since⟩ := told.begin started opens (owners _)
                (List.nodup_cons.2 ⟨unseen, told.single⟩)
              rw [argumentFrames_eq]
              refine ⟨_, told', .begins blocks _ opens ?_, ⟨_, opened⟩, since⟩
              intro index other
              simp [Encoder.openSlot?, other, kindOf] at closed

/-- An output that is all delta goes to a block of its kind, opened for it if need be. -/
theorem extend (told : Told e blocks frames) (started : e.started = true) {o : Output}
    {opening : Opening} {delta : Delta} (opens : opening.opens o)
    (plain : ∀ slot, kindOf o ≠ .tool slot) (only : deltasOf o = [delta])
    {e' : Encoder} {more : List Frame} {index : UInt32}
    (asked : e.ensureBlock (kindOf o) opening = (e', more, index)) :
    ∃ blocks', Told e' blocks' (frames ++ (more ++ [.blockDelta index delta])) ∧
      Gains e.opened o blocks blocks' ∧ (∃ index, e'.opened = some (index, kindOf o)) ∧
      e'.started = true := by
  have owners : slotsOf (blocks ++ [⟨kindOf o, opening, []⟩]) = e.seen.reverse := by
    rw [slotsOf_append_singleton, told.owners]
    cases kind : kindOf o with
    | tool slot => exact absurd kind (plain slot)
    | text | thinking => exact List.append_nil _
  obtain ⟨fresh, opened, since⟩ := told.begin started opens owners told.single
  rw [only] at fresh
  rw [Encoder.ensureBlock.eq_def] at asked
  split at asked
  · next open_ kind now =>
      split at asked
      · next equal =>
          cases asked
          rw [equal] at now
          obtain ⟨before, b, rfl, same, told'⟩ := told.add now
          rw [only] at told'
          exact ⟨_, told', .grows before b same, ⟨index, now⟩, started⟩
      · next other =>
          cases asked
          refine ⟨_, fresh, .begins blocks opening opens ?_, ⟨_, opened⟩, since⟩
          intro index same
          rw [now] at same
          exact other (Prod.mk.inj (Option.some.inj same)).2
  · next now =>
      cases asked
      refine ⟨_, fresh, .begins blocks opening opens ?_, ⟨_, opened⟩, since⟩
      intro index same
      rw [now] at same
      exact absurd same (by simp)

/-- Every output that is accepted is added to the block that is then open. -/
theorem output (told : Told e blocks frames) (started : e.started = true) {o : Output}
    {e' : Encoder} {more : List Frame} (said : e.output o = .ok (e', more)) :
    ∃ blocks', Told e' blocks' (frames ++ more) ∧ Gains e.opened o blocks blocks' ∧
      (∃ index, e'.opened = some (index, kindOf o)) ∧ e'.started = true := by
  cases o with
  | reasoning s =>
      cases said
      exact told.extend started (show Opening.opens .thinking (.reasoning s) from trivial)
        (by simp [kindOf]) rfl rfl
  | content s =>
      cases said
      exact told.extend started (show Opening.opens .text (.content s) from trivial)
        (by simp [kindOf]) rfl rfl
  | tool f => exact told.tool started said

theorem outputs (told : Told e blocks frames) (started : e.started = true) {os : List Output}
    {e' : Encoder} {more : List Frame} (said : e.outputs os = (e', .ok more)) :
    ∃ blocks', Told e' blocks' (frames ++ more) ∧
      outputsOf blocks' = outputsOf blocks ++ os ∧ e'.started = true := by
  refine Encoder.outputs_invariant (fun e' os more => ∃ blocks', Told e' blocks' (frames ++ more) ∧
    outputsOf blocks' = outputsOf blocks ++ os ∧ e'.started = true) ?_
    ⟨blocks, by simpa using told, by simp, started⟩ said
  rintro e' os more o e'' now ⟨blocks', told', grown, since⟩ first
  obtain ⟨blocks'', told'', gains, _, since'⟩ := told'.output since first
  refine ⟨blocks'', ?_, ?_, since'⟩
  · rw [← List.append_assoc]
    exact told''
  · rw [gains.outputsOf_eq, grown, List.append_assoc]

theorem noteFinish (told : Told e blocks frames) (finish : Option Finish) :
    Told (e.noteFinish finish).1 blocks (frames ++ (e.noteFinish finish).2) := by
  rw [Encoder.noteFinish]
  split
  · have closed := told.closeBlock.1
    exact ⟨closed.running, closed.numbered, closed.well, closed.owners, closed.single, closed.said⟩
  · rw [List.append_nil]
    exact told

/-- **An accepted event adds its outputs to the blocks**, in order. -/
theorem feed (told : Told e blocks frames) {event : Event} {e' : Encoder} {more : List Frame}
    (fed : e.feed event = (e', .ok more)) :
    ∃ blocks', Told e' blocks' (frames ++ more) ∧
      outputsOf blocks' = outputsOf blocks ++ event.outputs := by
  rcases Encoder.feed_cases fed with ⟨empty, rfl, rfl⟩ | ⟨middle, now, _, said, rfl, rfl⟩
  · rw [Event.outputs_of_isEmpty empty, List.append_nil, List.append_nil]
    exact ⟨blocks, told, rfl⟩
  · obtain ⟨begun, started⟩ := told.start event
    have counted := begun.usage (event.usage.getD (e.start event).1.usage)
    obtain ⟨blocks', told', grown, _⟩ := counted.outputs started said
    refine ⟨blocks', ?_, grown⟩
    have noted := told'.noteFinish event.finish
    simp only [List.append_assoc] at noted ⊢
    exact noted

/-- The closing frames stop the open block and end the message, for the reason that was
noted and with the token counts that were last taken. -/
theorem closing (told : Told e blocks frames) : ∃ id model inputTokens, frames ++ e.close.2 =
    [.start id model inputTokens] ++ framesOf blocks ++
      [.ending (stopReason e.finish) e.usage, .stop] := by
  obtain ⟨begun, started⟩ := told.start {}
  obtain ⟨closed, shut⟩ := begun.closeBlock
  obtain ⟨head, tail, said, heads, spoken⟩ := closed.said
  have since : (e.start {}).1.closeBlock.1.started = true := by
    rw [closeBlock_fst]
    exact started
  have noted : (e.start {}).1.closeBlock.1.finish = e.finish ∧
      (e.start {}).1.closeBlock.1.usage = e.usage := by
    rw [closeBlock_fst, Encoder.start_fst]
    exact ⟨rfl, rfl⟩
  rw [shut] at spoken
  cases spoken
  rw [Encoder.close, told.running]
  cases heads with
  | silent before => exact absurd since (by rw [before]; simp)
  | started _ id model tokens =>
      refine ⟨id, model, tokens, ?_⟩
      rw [← said]
      simp only [Bool.false_eq_true, ↓reduceIte, List.append_assoc, noted]

theorem close (told : Told e blocks frames) :
    ∃ id model inputTokens reason usage, frames ++ e.close.2 =
      [.start id model inputTokens] ++ framesOf blocks ++ [.ending reason usage, .stop] := by
  obtain ⟨id, model, tokens, whole⟩ := told.closing
  exact ⟨id, model, tokens, _, _, whole⟩

end Told

/-! ## A whole stream -/

/-- Every frame is named as the `type` member of its data says. -/
theorem Frame.toSse_name (f : Frame) :
    ∃ data, f.toSse = .json (some f.name) data ∧ data.get? "type" = some (.text f.name) := by
  refine ⟨f.json, rfl, ?_⟩
  cases f <;> rfl

/-- **A stream of accepted events is a message.** Its frames are the start, the blocks from
number 0 on and the end. The data of each block has its number, which is counted in words,
and says its kind. The blocks share out what was generated, in order and by kind, and no slot
owns two. After the closing frames nothing more is said or accepted. -/
theorem feedAll_close_blocks {mint : Nat → String} {events : List Event} {e : Encoder}
    {frames : List Frame} (fed : feedAll Encoder.feed { mint } events = .ok (e, frames)) :
    (∃ id model inputTokens reason usage blocks,
      frames ++ e.close.2 =
        [.start id model inputTokens] ++ framesOf blocks ++ [.ending reason usage, .stop] ∧
      (∀ b ∈ blocks, b.WellFormed) ∧
      outputsOf blocks = events.flatMap Event.outputs ∧
      (slotsOf blocks).Nodup ∧
      ∃ datas : List BlockData, (framesOf blocks).map Frame.json = datas.flatMap BlockData.all ∧
        List.Forall₂ (fun d (b, n) => d.Framed b.kind (n % UInt32.size)) datas blocks.zipIdx) ∧
    (∀ f ∈ frames ++ e.close.2,
      ∃ data, f.toSse = .json (some f.name) data ∧ data.get? "type" = some (.text f.name)) ∧
    e.close.1.close = (e.close.1, []) ∧
    ∀ event : Event, event.isEmpty = false →
      e.close.1.feed event = (e.close.1, .error .afterEnd) := by
  have told : ∃ blocks, Told e blocks frames ∧ outputsOf blocks = events.flatMap Event.outputs := by
    refine feedAll_invariant (fun e events frames =>
      ∃ blocks, Told e blocks frames ∧ outputsOf blocks = events.flatMap Event.outputs)
      ?_ ⟨[], Told.fresh mint, rfl⟩ fed
    rintro e events frames event e' more ⟨blocks, told, shared⟩ fed
    obtain ⟨blocks', told', grown⟩ := told.feed fed
    refine ⟨blocks', told', ?_⟩
    rw [grown, shared, List.flatMap_append, List.flatMap_singleton]
  obtain ⟨blocks, told, shared⟩ := told
  obtain ⟨id, model, tokens, reason, usage, whole⟩ := told.close
  have stopped : e.close.1.stopped = true := by
    rw [Encoder.close, told.running]
    rfl
  refine ⟨⟨id, model, tokens, reason, usage, blocks, whole, told.well, shared, ?_, datasOf blocks,
    (flatMap_all_datasOf blocks).symm, framed_datasOf told.well⟩, ?_, ?_, ?_⟩
  · rw [told.owners]
    exact List.nodup_reverse.2 told.single
  · intro f _
    exact f.toSse_name
  · generalize e.close.1 = ended at stopped
    rw [Encoder.close, stopped]
    rfl
  · intro event spoken
    generalize e.close.1 = ended at stopped
    rw [Encoder.feed, spoken, Event.refusal?, stopped]
    rfl

/-- Thought, text and two calls in one event, then more text, then a reason to end. -/
def mixed : List Event :=
  [{ id := "m", model := "x", choices := [{
      index := 0, content := some "one", reasoning := some "first",
      tools := [⟨0, some "a", some "f", some "1"⟩, ⟨1, none, some "g", none⟩] }] },
    { choices := [Event.text 0 "two"] },
    { choices := [Event.ending 0 .length], usage := some ⟨1, 2⟩ }]

theorem feedAll_close_blocks_mixed :
    ∃ e frames, feedAll Encoder.feed { mint := fun _ => "0" } mixed = .ok (e, frames) ∧
      (∃ id model inputTokens reason usage blocks,
        frames ++ e.close.2 =
          [.start id model inputTokens] ++ framesOf blocks ++ [.ending reason usage, .stop] ∧
        (∀ b ∈ blocks, b.WellFormed) ∧
        outputsOf blocks = mixed.flatMap Event.outputs ∧
        (slotsOf blocks).Nodup ∧
        ∃ datas : List BlockData, (framesOf blocks).map Frame.json = datas.flatMap BlockData.all ∧
          List.Forall₂ (fun d (b, n) => d.Framed b.kind (n % UInt32.size)) datas blocks.zipIdx) ∧
      (∀ f ∈ frames ++ e.close.2,
        ∃ data, f.toSse = .json (some f.name) data ∧
          data.get? "type" = some (.text f.name)) ∧
      e.close.1.close = (e.close.1, []) ∧
      ∀ event : Event, event.isEmpty = false →
        e.close.1.feed event = (e.close.1, .error .afterEnd) :=
  ⟨_, _, rfl, feedAll_close_blocks rfl⟩

/-! ## More blocks than words -/

/-- The number of the block that data starts, if it starts one. -/
def startedBy? (data : Json) : Option Nat :=
  if (data.field "type").textOf = "content_block_start" then some (data.field "index").natOf
  else none

/-- The numbers of the blocks that frames start, as a client reads them. -/
def startedBy (frames : List Frame) : List Nat := frames.filterMap fun f => startedBy? f.json

theorem lt_of_mem_startedBy {frames : List Frame} {n : Nat} (member : n ∈ startedBy frames) :
    n < UInt32.size := by
  obtain ⟨f, _, starts⟩ := List.mem_filterMap.1 member
  cases f with
  | blockStart index opening =>
      obtain rfl : index.toNat = n := Option.some.inj starts
      exact index.toNat_lt_size
  | _ => cases starts

/-- As long as no thought is open and no reason to end is known, a thought and a text are
two blocks more, and then no thought is open. -/
theorem feed_twoSided {e : Encoder} (running : e.stopped = false ∧ e.finish = none ∧
    ∀ index, e.opened ≠ some (index, .thinking)) :
    ∃ e' frames, e.feed twoSided = (e', .ok frames) ∧
      (e'.stopped = false ∧ e'.finish = none ∧ ∀ index, e'.opened ≠ some (index, .thinking)) ∧
      (startedBy frames).length = 2 := by
  obtain ⟨mint, started, finish, stopped, next, opened, seen, usage⟩ := e
  obtain ⟨rfl, rfl, apart⟩ := running
  cases started <;> rcases opened with _ | ⟨index, _ | _ | slot⟩ <;>
    first
    | exact absurd rfl (apart index)
    | exact ⟨_, _, rfl, ⟨rfl, rfl, by simp⟩, rfl⟩

/-- **The blocks of a crowd are not numbered 0, 1, 2 and so on**: the counter begins anew. -/
theorem crowd_numbers :
    ∃ e frames, feedAll Encoder.feed { mint := fun _ => "0" } crowd = .ok (e, frames) ∧
      startedBy (frames ++ e.close.2) ≠
        List.range (startedBy (frames ++ e.close.2)).length := by
  obtain ⟨e, frames, fed, many⟩ := feedAll_crowd (fun f : Frame => startedBy? f.json)
    (fun e : Encoder => e.stopped = false ∧ e.finish = none ∧
      ∀ index, e.opened ≠ some (index, .thinking)) (fun _ => feed_twoSided)
    (e := { mint := fun _ => "0" }) ⟨rfl, rfl, by simp⟩
  refine ⟨e, frames, fed, Word.ne_range_of_words (fun n => lt_of_mem_startedBy) ?_⟩
  rw [startedBy, List.filterMap_append, List.length_append]
  exact Nat.lt_of_lt_of_le many (Nat.le_add_right _ _)

end Messages
end DialectGateway
