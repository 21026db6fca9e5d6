/-
# Dialect.Responses.Encoder — events into the frames of one response

Reasoning and message items exclude each other: opening one closes the other,
and a new tool call closes both. Tool calls stay open beside whatever follows.
A finish reason closes every item, in the order reasoning, message, tool calls by
slot; the terminal frame waits for `close`, so that late token counts are in it.

Places in the output are 32-bit words: after 2^32 items they begin at 0 again. Sequence
numbers only grow and are never given twice. A refused event keeps what it did before
the refusal, numbers included, but its frames are lost.
-/
import DialectGateway.Dialect.Responses.Frame
import DialectGateway.Dialect.Refusal
import DialectGateway.Keyed

set_option autoImplicit false

namespace DialectGateway.Responses

/-- The two counters of a stream. -/
structure Counters where
  nextPlace : UInt32 := 0
  nextSequence : Nat := 0
  deriving DecidableEq, Repr

namespace Counters

def takePlace (c : Counters) : UInt32 × Counters :=
  (c.nextPlace, { c with nextPlace := c.nextPlace + 1 })

def takeSequence (c : Counters) : Nat × Counters :=
  (c.nextSequence, { c with nextSequence := c.nextSequence + 1 })

end Counters

/-- An open reasoning or message item with its text so far. -/
structure OpenText where
  subject : Subject
  text : String
  deriving DecidableEq, Repr

/-- A tool call with its arguments so far. -/
structure OpenCall where
  subject : Subject
  callId : String
  name : String
  arguments : String
  done : Bool
  deriving DecidableEq, Repr

def OpenCall.item (c : OpenCall) : Item := .call c.subject.id c.callId c.name c.arguments

/-- What the first event fixes. -/
structure Identity where
  id : String
  model : String
  created : Int64
  deriving DecidableEq, Repr

structure Encoder where
  /-- The name of a response that the backend leaves unnamed. -/
  spareId : String
  counters : Counters := {}
  identity : Option Identity := none
  finish : Option Finish := none
  ended : Bool := false
  message : Option OpenText := none
  reasoning : Option OpenText := none
  /-- The tool calls by slot. -/
  calls : List (UInt32 × OpenCall) := []
  /-- The finished items by place. -/
  output : List (UInt32 × Item) := []
  usage : Option Tokens := none
  deriving Repr

namespace Encoder

def responseId (e : Encoder) : String := (e.identity.map (·.id)).getD ""

def snapshot (e : Encoder) : Snapshot where
  id := e.responseId
  model := (e.identity.map (·.model)).getD ""
  created := (e.identity.map (·.created)).getD 0
  output := e.output.map (·.2)
  usage := e.usage

/-- Gives notices their sequence numbers. -/
def number (e : Encoder) (notices : List Notice) : Encoder × List Frame :=
  let first := e.counters.nextSequence
  ({ e with counters := { e.counters with nextSequence := first + notices.length } },
    notices.zipIdx.map fun (notice, n) => ⟨first + n, notice⟩)

/-- Announces the response, unless that has been done. -/
def create (e : Encoder) (event : Event) : Encoder × List Notice :=
  match e.identity with
  | some _ => (e, [])
  | none =>
    let id := if event.id.isEmpty then "resp_" ++ e.spareId else event.id
    let e := { e with identity := some ⟨id, event.model, event.created⟩ }
    (e, [.created e.snapshot])

def finishItem (e : Encoder) (place : UInt32) (item : Item) : Encoder :=
  { e with output := Keyed.put place item e.output }

def closeReasoning (e : Encoder) : Encoder × List Notice :=
  match e.reasoning with
  | none => (e, [])
  | some r =>
    let item := Item.reasoning r.subject.id r.text
    ({ e with reasoning := none }.finishItem r.subject.place item,
      [.summaryDone r.subject r.text, .itemDone r.subject.place item])

def closeMessage (e : Encoder) : Encoder × List Notice :=
  match e.message with
  | none => (e, [])
  | some m =>
    let item := Item.message m.subject.id m.text
    ({ e with message := none }.finishItem m.subject.place item,
      [.textDone m.subject m.text, .partDone m.subject m.text, .itemDone m.subject.place item])

def takePlace (e : Encoder) : UInt32 × Encoder :=
  let (place, counters) := e.counters.takePlace
  (place, { e with counters })

def openReasoning (e : Encoder) : Encoder × OpenText × List Notice :=
  match e.reasoning with
  | some r => (e, r, [])
  | none =>
    let (e, closing) := e.closeMessage
    let (place, e) := e.takePlace
    let subject : Subject := ⟨reasoningId e.responseId place.toNat, place⟩
    let r : OpenText := ⟨subject, ""⟩
    ({ e with reasoning := some r }, r,
      closing ++ [.itemAdded place (.reasoning subject.id "")])

def openMessage (e : Encoder) : Encoder × OpenText × List Notice :=
  match e.message with
  | some m => (e, m, [])
  | none =>
    let (e, closing) := e.closeReasoning
    let (place, e) := e.takePlace
    let subject : Subject := ⟨messageId e.responseId place.toNat, place⟩
    let m : OpenText := ⟨subject, ""⟩
    ({ e with message := some m }, m,
      closing ++ [.itemAdded place (.message subject.id ""), .partAdded subject])

def reason (e : Encoder) (s : String) : Encoder × List Notice :=
  let (e, r, opening) := e.openReasoning
  ({ e with reasoning := some { r with text := r.text ++ s } },
    opening ++ [.summaryDelta r.subject s])

def say (e : Encoder) (s : String) : Encoder × List Notice :=
  let (e, m, opening) := e.openMessage
  ({ e with message := some { m with text := m.text ++ s } },
    opening ++ [.textDelta m.subject s])

/-- The call of a slot, opened if the slot has none yet. -/
def openCall (e : Encoder) (f : ToolFragment) :
    Except Refusal (Encoder × OpenCall × List Notice) :=
  match e.calls.lookup f.slot with
  | some call => .ok (e, call, [])
  | none =>
    match f.name with
    | none => .error (.slotUnnamed f.slot)
    | some name =>
      let (e, reasoningEnd) := e.closeReasoning
      let (e, messageEnd) := e.closeMessage
      let (place, e) := e.takePlace
      let call : OpenCall := {
        subject := ⟨callItemId e.responseId place.toNat, place⟩
        callId := f.id.getD ("call_" ++ Decimal.text place.toNat)
        name
        arguments := ""
        done := false }
      .ok ({ e with calls := Keyed.put f.slot call e.calls }, call,
        reasoningEnd ++ messageEnd ++ [.itemAdded place call.item])

def call (e : Encoder) (f : ToolFragment) : Except Refusal (Encoder × List Notice) := do
  let (e, call, opening) ← e.openCall f
  if f.addition.isEmpty then pure (e, opening)
  else if call.done then throw (.slotClosed f.slot)
  else
    let call := { call with arguments := call.arguments ++ f.addition }
    pure ({ e with calls := Keyed.put f.slot call e.calls },
      opening ++ [.argumentsDelta call.subject f.addition])

def output1 (e : Encoder) : Output → Except Refusal (Encoder × List Notice)
  | .reasoning s => .ok (e.reason s)
  | .content s => .ok (e.say s)
  | .tool f => e.call f

def outputs (e : Encoder) : List Output → Encoder × Except Refusal (List Frame)
  | [] => (e, .ok [])
  | o :: rest =>
    match e.output1 o with
    | .error refusal => (e, .error refusal)
    | .ok (e', notices) =>
      let (e', frames) := e'.number notices
      let (e'', later) := e'.outputs rest
      (e'', later.map (frames ++ ·))

def callEnd (c : OpenCall) : List Notice :=
  if c.done then []
  else [.argumentsDone c.subject c.arguments, .itemDone c.subject.place c.item]

/-- Closes the open tool calls, by slot. -/
def closeCalls (e : Encoder) : Encoder × List Notice :=
  let open_ := e.calls.filter (!·.2.done)
  ({ e with
      calls := e.calls.map fun (slot, c) => (slot, { c with done := true })
      output := open_.foldl (fun out (_, c) => Keyed.put c.subject.place c.item out) e.output },
    open_.flatMap fun (_, c) => callEnd c)

def closeItems (e : Encoder) : Encoder × List Notice :=
  let (e, reasoningEnd) := e.closeReasoning
  let (e, messageEnd) := e.closeMessage
  let (e, callsEnd) := e.closeCalls
  (e, reasoningEnd ++ messageEnd ++ callsEnd)

/-- Takes note of the first reason to end. -/
def noteFinish (e : Encoder) (finish : Option Finish) : Encoder × List Notice :=
  if finish.isSome ∧ e.finish.isNone then
    let (e, closing) := e.closeItems
    ({ e with finish }, closing)
  else (e, [])

/-- What comes before an event's output: the response is announced if it has not been,
and the token counts are taken. -/
def announce (e : Encoder) (event : Event) : Encoder × List Frame :=
  let (e, created) := e.create event
  let (e, opening) := e.number created
  ({ e with usage := event.usage.or e.usage }, opening)

/-- What comes after it. -/
def conclude (e : Encoder) (event : Event) : Encoder × List Frame :=
  let (e, closing) := e.noteFinish event.finish
  e.number closing

/-- The frames of one event. -/
def feed (e : Encoder) (event : Event) : Encoder × Except Refusal (List Frame) :=
  if event.isEmpty then (e, .ok [])
  else
    match event.refusal? e.ended e.finish.isSome with
    | some refusal => (e, .error refusal)
    | none =>
      let (e, opening) := e.announce event
      match e.outputs event.outputs with
      | (e, .error refusal) => (e, .error refusal)
      | (e, .ok frames) =>
        let (e, closing) := e.conclude event
        (e, .ok (opening ++ frames ++ closing))

def terminal (e : Encoder) : Notice :=
  match Shortfall.of? e.finish with
  | some shortfall => .incomplete e.snapshot shortfall
  | none => .completed e.snapshot

/-- The closing frames, owed once. -/
def close (e : Encoder) : Encoder × List Frame :=
  if e.ended then (e, [])
  else
    let (e, created) := e.create {}
    let (e, closing) := e.closeItems
    let (e, frames) := e.number (created ++ closing ++ [e.terminal])
    ({ e with finish := none, ended := true }, frames)

end Encoder
end DialectGateway.Responses
