/-
# Backend.EventReader — the events of a body that comes in pieces

Pieces are cut anywhere, also within a character or a line break. The reader
leaves out every carriage return and keeps bytes until a blank line ends their
block; each block is then read by itself. It looks for the end of a block only
from `scanned` on: before that place no blank line begins.

The stream ends at the sentinel, after a fault, and when the body ends; a body
that breaks off ends it with a fault. Frames that are not JSON are passed over.
-/
import DialectGateway.Backend.Chunk
import DialectGateway.Sse.Reader
import DialectGateway.Text.Utf8

set_option autoImplicit false

namespace DialectGateway.Backend

open Sse (Frame)

/-- The events of frames, and whether the stream ends with them. -/
def eventsOfFrames : List Frame → List Event × Bool
  | [] => ([], false)
  | f :: rest =>
    if f.isDone then ([], true)
    else
      match Json.ofText? f.data with
      | none => eventsOfFrames rest
      | some chunk =>
        let e := eventOf chunk
        if e.fault.isSome then ([e], true)
        else
          let (es, ended) := eventsOfFrames rest
          (e :: es, ended)

/-- The place of the first pair of line feeds. -/
def pairPlace? : List UInt8 → Option Nat
  | a :: b :: rest => if a == 10 && b == 10 then some 0 else (pairPlace? (b :: rest)).map (· + 1)
  | _ => none

structure EventReader where
  buffer : List UInt8 := []
  scanned : Nat := 0
  ended : Bool := false
  deriving DecidableEq, Repr

namespace EventReader

/-- The place in the buffer at which the next block's blank line begins. -/
def blockEnd? (r : EventReader) : Option Nat :=
  (pairPlace? (r.buffer.drop r.scanned)).map (· + r.scanned)

theorem buffer_ne_nil_of_blockEnd? {r : EventReader} {n : Nat} (h : r.blockEnd? = some n) :
    r.buffer ≠ [] := by
  intro empty
  simp [blockEnd?, empty, pairPlace?] at h

/-- Reads every block that is complete. -/
def drain (r : EventReader) : List Event × EventReader :=
  match h : r.blockEnd? with
  | none => ([], { r with scanned := r.buffer.length - 1 })
  | some n =>
    let block := r.buffer.take (n + 2)
    let r' : EventReader := ⟨r.buffer.drop (n + 2), 0, false⟩
    match eventsOfFrames (Sse.framesOf (Text.Utf8.decodeLossy block)) with
    | (events, true) => (events, { r' with ended := true })
    | (events, false) =>
      have : (r.buffer.drop (n + 2)).length < r.buffer.length := by
        have := List.length_pos_iff.2 (buffer_ne_nil_of_blockEnd? h)
        simp only [List.length_drop]
        omega
      let (more, r') := drain r'
      (events ++ more, r')
  termination_by r.buffer.length

/-- A piece of the body has come. -/
def take (r : EventReader) (piece : List UInt8) : List Event × EventReader :=
  if r.ended then ([], r) else { r with buffer := r.buffer ++ piece.filter (· != 13) }.drain

/-- The body has broken off, for this reason. -/
def breakOff (r : EventReader) (reason : String) : List Event × EventReader :=
  if r.ended then ([], r)
  else
    ([.ofFault ⟨"Upstream stream error: " ++ reason, "upstream_error", none⟩],
      { r with ended := true })

end EventReader

/-- What comes of a body: its pieces, or that it broke off and what the transport says of it. -/
inductive Arrival where
  | piece (bytes : List UInt8)
  | broken (reason : String)
  deriving DecidableEq, Repr

def EventReader.arrive (r : EventReader) : Arrival → List Event × EventReader
  | .piece bytes => r.take bytes
  | .broken reason => r.breakOff reason

/-- All events of a body. -/
def eventsOf (arrivals : List Arrival) (r : EventReader) : List Event :=
  match arrivals with
  | [] => []
  | a :: rest =>
    let (events, r) := r.arrive a
    events ++ eventsOf rest r

/-! ## One event at a time

An event stream is asked for its next event. It hands out what it has read
before it looks at the cancellation, and looks at the cancellation before it
waits for more of the body. -/

structure EventStream where
  reader : EventReader := {}
  /-- Events read and not yet handed out. -/
  ready : List Event := []
  arrivals : List Arrival
  deriving DecidableEq, Repr

namespace EventStream

inductive Turn where
  | event (e : Event) (s : EventStream)
  | read (s : EventStream)
  | ended
  deriving Repr

def turn (s : EventStream) (cancelled : Bool) : Turn :=
  match s.ready with
  | e :: ready => .event e { s with ready }
  | [] =>
    if s.reader.ended || cancelled then .ended
    else
      match s.arrivals with
      | [] => .ended
      | a :: arrivals =>
        let (ready, reader) := s.reader.arrive a
        .read ⟨reader, ready, arrivals⟩

end EventStream
end DialectGateway.Backend
