/-
# Delivery.Recorder — a whole delivery into a sink

`deliver` runs a whole delivery: events from a script, each possibly with the
cancellation signalled while it is handed out, and what happens after the last
one. It runs into any sink. A recorder is a sink that keeps what it is given: it
accepts frames up to a limit, then refuses every write and counts as closed;
independently, its flushes may fail after so many successes.
-/
import DialectGateway.Delivery.Basic
import DialectGateway.Delivery.Sink

set_option autoImplicit false

namespace DialectGateway.Delivery

structure Recorder where
  writeLimit : Option Nat := none
  flushLimit : Option Nat := none
  /-- The frames accepted, in order. -/
  frames : List Sse.Frame := []
  flushes : Nat := 0
  deriving Repr

namespace Recorder

def isClosed (r : Recorder) : Bool := r.writeLimit.any (· ≤ r.frames.length)

def write (r : Recorder) (f : Sse.Frame) : Bool × Recorder :=
  if r.isClosed then (false, r) else (true, { r with frames := r.frames ++ [f] })

def flush (r : Recorder) : Bool × Recorder :=
  if r.flushLimit.any (· ≤ r.flushes) then (false, r)
  else (true, { r with flushes := r.flushes + 1 })

instance : Sink Recorder := ⟨write, flush, isClosed⟩

end Recorder

/-- What comes after the last event of a script. -/
inductive Tail where
  | ends
  /-- The cancellation is signalled, and nothing else ever comes. -/
  | cancels
  | panics (message : String)
  /-- Nothing ever comes. -/
  | hangs
  deriving DecidableEq, Repr

/-- An event, and whether the cancellation is signalled while it is handed out. -/
structure Handout where
  event : Event
  cancels : Bool := false
  deriving DecidableEq, Repr

structure Script where
  /-- The cancellation is signalled before anything is taken. -/
  cancelledFirst : Bool := false
  handouts : List Handout
  tail : Tail := .ends
  deriving Repr

namespace Script

/-- Marks the event of a number. -/
def mark : Nat → List Event → List Handout
  | _, [] => []
  | 0, e :: rest => ⟨e, true⟩ :: rest.map fun e => ⟨e, false⟩
  | n + 1, e :: rest => ⟨e, false⟩ :: mark n rest

/-- A script in which the cancellation is signalled while the event of a number is
handed out, or before the first if the number is negative. -/
def ofEvents (events : List Event) (tail : Tail) (cancelAt : Option Int) : Script :=
  match cancelAt with
  | none => ⟨false, events.map fun e => ⟨e, false⟩, tail⟩
  | some k =>
    if k < 0 then ⟨true, events.map fun e => ⟨e, false⟩, tail⟩
    else ⟨false, mark k.toNat events, tail⟩

end Script

variable {S : Type} [Sink S]

/-- Writes and flushes frames until they are through or the sink fails. -/
def pump (d : Delivery) (s : S) : List Sse.Frame → Delivery × S
  | [] => (d, s)
  | f :: rest =>
    match Sink.write s f with
    | (false, s) => (d.failed, s)
    | (true, s) =>
      match Sink.flush s with
      | (false, s) => (d.wrote.failed, s)
      | (true, s) => pump d.wrote.flushed s rest

def pumpAll (d : Delivery) (s : S) : Delivery × S := pump d s d.pending

/-- What the delivery does after the last event. -/
def deliverTail (d : Delivery) (s : S) (tail : Tail) : Delivery × S :=
  if d.cancellation.signalled then (d.noticeCancel (Sink.isClosed s), s)
  else
    match tail with
    | .ends => d.takeEnd.pumpAll s
    | .cancels => (d.cancel.noticeCancel (Sink.isClosed s), s)
    | .panics message => (d.takePanic message).pumpAll s
    | .hangs => (d, s)

def deliverEvents (d : Delivery) (s : S) (tail : Tail) :
    List Handout → Delivery × S
  | [] => d.deliverTail s tail
  | h :: rest =>
    if d.cancellation.signalled then (d.noticeCancel (Sink.isClosed s), s)
    else
      let d := if h.cancels then d.cancel else d
      let (d, s) := (d.takeEvent h.event).pumpAll s
      if d.isOver then (d, s) else deliverEvents d s tail rest

/-- A whole delivery. -/
def deliver (d : Delivery) (s : S) (script : Script) : Delivery × S :=
  let d := if script.cancelledFirst then d.cancel else d
  d.deliverEvents s script.tail script.handouts

end DialectGateway.Delivery
