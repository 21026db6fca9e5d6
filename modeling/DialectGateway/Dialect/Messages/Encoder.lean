/-
# Dialect.Messages.Encoder — events into the frames of one message

At most one content block is open. Output of the open block's kind extends it;
any other output closes it and opens the next block. A tool slot owns one block,
which never reopens. A finish reason closes the open block and after it only
token counts may follow; the closing frames wait for `close`, so that late counts
are in them.

A refused event keeps what it did before the refusal, but its frames are lost.
-/
import DialectGateway.Dialect.Messages.Frame
import DialectGateway.Dialect.Refusal

set_option autoImplicit false

namespace DialectGateway.Messages

/-- The kind of an open block. -/
inductive Kind where
  | text
  | thinking
  | tool (slot : UInt32)
  deriving DecidableEq, Repr

structure Encoder where
  /-- Names for what the backend leaves unnamed. -/
  mint : Nat → String
  started : Bool := false
  finish : Option Finish := none
  stopped : Bool := false
  /-- The number of the next block; after 2^32 blocks it is 0 again. -/
  nextBlock : UInt32 := 0
  /-- The open block: its number and kind. -/
  opened : Option (UInt32 × Kind) := none
  /-- The tool slots that have had their block, last first. -/
  seen : List UInt32 := []
  usage : Tokens := {}

namespace Encoder

def messageId (e : Encoder) (event : Event) : String :=
  if event.id.isEmpty then "msg_" ++ e.mint 0 else event.id

/-- The start of the message, unless it has started. -/
def start (e : Encoder) (event : Event) : Encoder × List Frame :=
  if e.started then (e, [])
  else
    ({ e with started := true },
      [.start (e.messageId event) event.model (event.usage.getD {}).input])

def closeBlock (e : Encoder) : Encoder × List Frame :=
  match e.opened with
  | some (index, _) => ({ e with opened := none }, [.blockStop index])
  | none => (e, [])

def openBlock (e : Encoder) (kind : Kind) (opening : Opening) : Encoder × List Frame :=
  let (e, closing) := e.closeBlock
  ({ e with opened := some (e.nextBlock, kind), nextBlock := e.nextBlock + 1 },
    closing ++ [.blockStart e.nextBlock opening])

/-- Makes a block of the kind the open one and gives its number. -/
def ensureBlock (e : Encoder) (kind : Kind) (opening : Opening) : Encoder × List Frame × UInt32 :=
  match e.opened with
  | some (index, open_) =>
    if open_ = kind then (e, [], index)
    else
      let (e', frames) := e.openBlock kind opening
      (e', frames, e.nextBlock)
  | none =>
    let (e', frames) := e.openBlock kind opening
    (e', frames, e.nextBlock)

def argumentFrames (index : UInt32) (f : ToolFragment) : List Frame :=
  if f.addition.isEmpty then [] else [.blockDelta index (.input f.addition)]

/-- The number of the open block if it belongs to the slot. -/
def openSlot? (e : Encoder) (slot : UInt32) : Option UInt32 :=
  match e.opened with
  | some (index, kind) => if kind = .tool slot then some index else none
  | none => none

def tool (e : Encoder) (f : ToolFragment) : Except Refusal (Encoder × List Frame) :=
  match e.openSlot? f.slot with
  | some index => .ok (e, argumentFrames index f)
  | none =>
    if f.slot ∈ e.seen then .error (.slotResumed f.slot)
    else
      match f.name with
      | none => .error (.slotUnnamed f.slot)
      | some name =>
        let id := f.id.getD ("toolu_" ++ e.mint (e.seen.length + 1))
        let (e', frames) :=
          { e with seen := f.slot :: e.seen }.openBlock (.tool f.slot) (.tool id name)
        .ok (e', frames ++ argumentFrames e.nextBlock f)

def output (e : Encoder) : Output → Except Refusal (Encoder × List Frame)
  | .reasoning s =>
    let (e, frames, index) := e.ensureBlock .thinking .thinking
    .ok (e, frames ++ [.blockDelta index (.thinking s)])
  | .content s =>
    let (e, frames, index) := e.ensureBlock .text .text
    .ok (e, frames ++ [.blockDelta index (.text s)])
  | .tool f => e.tool f

def outputs (e : Encoder) : List Output → Encoder × Except Refusal (List Frame)
  | [] => (e, .ok [])
  | o :: rest =>
    match e.output o with
    | .error refusal => (e, .error refusal)
    | .ok (e', frames) =>
      let (e'', later) := e'.outputs rest
      (e'', later.map (frames ++ ·))

/-- Takes note of the first reason to end. -/
def noteFinish (e : Encoder) (finish : Option Finish) : Encoder × List Frame :=
  if finish.isSome ∧ e.finish.isNone then
    let (e, closing) := e.closeBlock
    ({ e with finish }, closing)
  else (e, [])

/-- The frames of one event. -/
def feed (e : Encoder) (event : Event) : Encoder × Except Refusal (List Frame) :=
  if event.isEmpty then (e, .ok [])
  else
    match event.refusal? e.stopped e.finish.isSome with
    | some refusal => (e, .error refusal)
    | none =>
      let (e, opening) := e.start event
      let e := { e with usage := event.usage.getD e.usage }
      match e.outputs event.outputs with
      | (e, .error refusal) => (e, .error refusal)
      | (e, .ok frames) =>
        let (e, closing) := e.noteFinish event.finish
        (e, .ok (opening ++ frames ++ closing))

/-- The closing frames, owed once. -/
def close (e : Encoder) : Encoder × List Frame :=
  if e.stopped then (e, [])
  else
    let (e, opening) := e.start {}
    let (e, closing) := e.closeBlock
    ({ e with finish := none, stopped := true },
      opening ++ closing ++ [.ending (stopReason e.finish) e.usage, .stop])

end Encoder
end DialectGateway.Messages
