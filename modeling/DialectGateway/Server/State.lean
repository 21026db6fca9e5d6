/-
# Server.State — the gateway between two requests

What the gateway keeps: the traffic, the measures, the ledger, and the streams it
has opened, in the order in which it opened them. A request is begun once and
closed once. Closing it is to record it, whatever became of it, and then to release
its place among the requests in flight.

A stream goes on by itself between requests. It is closed when `settle` finds that
its delivery is over, and then never again.
-/
import DialectGateway.Access.Gate
import DialectGateway.Delivery.Account
import DialectGateway.Delivery.Live
import DialectGateway.Ledger.Store
import DialectGateway.Ledger.Traffic

set_option autoImplicit false

namespace DialectGateway.Server

open Delivery (Ending Live Origin Timing)

/-- What does not change while the gateway runs. -/
structure Setup (D : Type) where
  digest : String → D
  gate : Access.Gate D
  figures : Settings.Figures
  /-- How many frames wait between a delivery and its client. -/
  buffer : Nat
  /-- The name under which the backend is recorded. -/
  platform : String

def Setup.ofSettings {D : Type} (digest : String → D) (platform : String) (s : Settings) :
    Setup D where
  digest
  gate := .ofSettings digest s.access
  figures := s.figures
  buffer := s.stream.buffer
  platform

/-- A stream that was opened for a client. -/
structure Stream where
  live : Live
  origin : Origin
  closed : Bool := false

/-- How a stream ended, if it has ended and is still to be closed. -/
def Stream.ending? (s : Stream) : Option Ending :=
  if s.closed then none else s.live.delivery.ending? s.origin

structure State where
  traffic : Ledger.Traffic
  counts : Metrics.Counts := {}
  ledger : Ledger.Pipeline
  streams : List Stream := []

namespace State

/-- Seconds in nanoseconds. -/
def nanos (seconds : Nat) : Nat := seconds * 1000000000

def fresh (s : Settings) : State where
  traffic := { horizon := nanos s.figures.rateWindowSecs }
  ledger := .ofSizes s.ledger.capacity s.ledger.queueCapacity s.ledger.batchSize

/-- A request is begun at a time of the clock that never goes back. -/
def begin (s : State) (uptime : Nat) : State := { s with traffic := s.traffic.start uptime }

/-- The end of a request is counted. -/
def count (s : State) (e : Ending) (t : Timing) : State :=
  { s with counts := e.count t s.counts }

/-- The entry of a request is sent to the ledger. -/
def log (s : State) (e : Ending) (t : Timing) : State :=
  { s with ledger := s.ledger.log (e.entry t) }

/-- The end of a request is recorded: one count, and one entry on its way to the ledger. -/
def record (s : State) (e : Ending) (t : Timing) : State := (s.count e t).log e t

/-- There is one request less in flight. -/
def release (s : State) : State := { s with traffic := s.traffic.finish }

/-- A request has ended. -/
def close (s : State) (e : Ending) (t : Timing) : State := (s.record e t).release

/-- A stream is opened; its place is told. -/
def launch (s : State) (stream : Stream) : Nat × State :=
  (s.streams.length, { s with streams := s.streams ++ [stream] })

/-- Acts on the live stream at a place. -/
def modifyLive (s : State) (place : Nat) (f : Live → Live) : State :=
  { s with streams := s.streams.modify place fun stream => { stream with live := f stream.live } }

/-- How the stream at a place ended, if it has ended and is still to be closed. -/
def ending? (s : State) (place : Nat) : Option Ending := s.streams[place]?.bind Stream.ending?

/-- The stream at a place is closed. -/
def shut (s : State) (place : Nat) : State :=
  { s with streams := s.streams.modify place fun stream => { stream with closed := true } }

/-- Lets the stream at a place go on, and closes it if that ends it. -/
def settleAt (t : Timing) (s : State) (place : Nat) : State :=
  let s := s.modifyLive place Live.settle
  match s.ending? place with
  | none => s
  | some ending => (s.shut place).close ending t

/-- Lets every stream go on, and the ledger take what it was sent. -/
def settle (s : State) (t : Timing) : State :=
  let s := (List.range s.streams.length).foldl (settleAt t) s
  { s with ledger := s.ledger.flush }

end State
end DialectGateway.Server
