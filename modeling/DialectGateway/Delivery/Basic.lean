/-
# Delivery.Basic — one stream on its way to one client

A delivery takes events from a backend, encodes each, and hands the frames to a
sink one by one, each write followed by a flush. It is described by its turns:
what it does when the cancellation is noticed, when an event comes, when there
are no more events, and when a write or a flush succeeds or fails. Who takes
which turn when is for the surroundings to say, so the same turns serve a
recording sink, a bounded pipe, and any interleaving with the other parties.

A frame counts as written once its flush has succeeded. The frame that tells of a
panic is not counted.
-/
import DialectGateway.Delivery.Cancellation
import DialectGateway.Delivery.Outcome
import DialectGateway.Dialect.Encoder

set_option autoImplicit false

namespace DialectGateway

namespace Delivery

/-- What the frames being written are for. -/
inductive Purpose where
  | event
  | closing
  /-- The frame of a fault that the backend reported. -/
  | fault (message : String)
  /-- The frame about an event that could not be encoded. -/
  | refusal (message : String)
  /-- The frame about a panic. -/
  | panic (message : String)
  deriving DecidableEq, Repr

inductive Stage where
  /-- Waiting for the next event or the cancellation. -/
  | awaiting
  /-- The first frame is to be written. -/
  | writing (frames : List Sse.Frame) (purpose : Purpose)
  /-- The first frame has been written and is to be flushed. -/
  | flushing (frames : List Sse.Frame) (purpose : Purpose)
  | over (outcome : Outcome)
  deriving DecidableEq, Repr

end Delivery

structure Delivery where
  encoder : Encoder
  stage : Delivery.Stage := .awaiting
  cancellation : Delivery.Cancellation := {}
  /-- How many frames have been written and flushed. -/
  written : Nat := 0

namespace Delivery

/-- A new delivery in a dialect. -/
def fresh (mint : Nat → String) (dialect : Dialect) : Delivery :=
  { encoder := Encoder.fresh mint dialect }

def cancel (d : Delivery) : Delivery := { d with cancellation := d.cancellation.cancel }

def ended (d : Delivery) (outcome : Outcome) : Delivery := { d with stage := .over outcome }

/-- Goes on when nothing is left to write. -/
def settle (d : Delivery) : Purpose → Delivery
  | .event => { d with stage := .awaiting }
  | .closing => { d with cancellation := d.cancellation.complete }.ended .completed
  | .fault message => d.ended (.backendError message)
  | .refusal message => d.ended (.refused message)
  | .panic message => d.ended (.panicked message)

/-- Turns to writing frames. -/
def send (d : Delivery) (frames : List Sse.Frame) (purpose : Purpose) : Delivery :=
  if frames.isEmpty then d.settle purpose else { d with stage := .writing frames purpose }

/-- Ends when a frame could not be delivered. That the client is gone changes
nothing about a refusal or a panic. -/
def giveUp (d : Delivery) : Purpose → Delivery
  | .refusal message => d.ended (.refused message)
  | .panic message => d.ended (.panicked message)
  | _ => d.cancel.ended .disconnected

/-- The text a client is shown when an event could not be encoded. -/
def refusalFault (message : String) : Fault :=
  { message := "Failed to transcode backend output: " ++ message }

def panicFault : Fault := { message := "Internal server error" }

/-- The cancellation is noticed; `closed` tells whether the reading side is gone. -/
def noticeCancel (d : Delivery) (closed : Bool) : Delivery :=
  d.ended (if closed then .disconnected else .cancelled)

/-- An event has come. -/
def takeEvent (d : Delivery) (event : Event) : Delivery :=
  match event.fault with
  | some fault => d.send [d.encoder.faultFrame fault] (.fault fault.message)
  | none =>
    match d.encoder.feed event with
    | (encoder, .ok frames) => { d with encoder }.send frames .event
    | (encoder, .error refusal) =>
      let message := refusal.message encoder.dialect
      { d with encoder }.cancel.send [encoder.faultFrame (refusalFault message)] (.refusal message)

/-- There are no more events. -/
def takeEnd (d : Delivery) : Delivery :=
  let (encoder, frames) := d.encoder.close
  { d with encoder }.send (frames ++ encoder.sentinel) .closing

/-- Something broke while an event was awaited. -/
def takePanic (d : Delivery) (message : String) : Delivery :=
  d.cancel.send [d.encoder.faultFrame panicFault] (.panic message)

/-- The first frame has been accepted. -/
def wrote (d : Delivery) : Delivery :=
  match d.stage with
  | .writing frames purpose => { d with stage := .flushing frames purpose }
  | _ => d

def counted : Purpose → Bool
  | .panic _ => false
  | _ => true

/-- The first frame has been flushed. -/
def flushed (d : Delivery) : Delivery :=
  match d.stage with
  | .flushing frames purpose =>
    { d with written := if counted purpose then d.written + 1 else d.written }.send
      frames.tail purpose
  | _ => d

/-- A write or a flush has failed. -/
def failed (d : Delivery) : Delivery :=
  match d.stage with
  | .writing _ purpose | .flushing _ purpose => d.giveUp purpose
  | _ => d

def isOver (d : Delivery) : Bool :=
  match d.stage with
  | .over _ => true
  | _ => false

def outcome? (d : Delivery) : Option Outcome :=
  match d.stage with
  | .over outcome => some outcome
  | _ => none

/-- The frames still to be written or flushed. -/
def pending (d : Delivery) : List Sse.Frame :=
  match d.stage with
  | .writing frames _ | .flushing frames _ => frames
  | _ => []

end Delivery
end DialectGateway
