/-
# Delivery.Account — what is recorded of a request that has ended

An ended request counts once under the label of its ending and leaves one entry
in the ledger. Its time to the first byte is noted if it ever sent one; a stream
also adds the frames it wrote.
-/
import DialectGateway.Delivery.Basic
import DialectGateway.Ledger.Entry
import DialectGateway.Metrics.Counts

set_option autoImplicit false

namespace DialectGateway.Delivery

open Time (Instant)
open Ledger (Entry)

/-- What is known of a request from its start. -/
structure Origin where
  requestId : String
  dialect : Dialect
  model : String
  platform : String
  deriving DecidableEq, Repr

/-- What the clock said over a request. -/
structure Timing where
  /-- When the entry is made. -/
  now : Instant
  firstByteMs : Nat
  durationMs : Nat
  deriving Repr

structure Ending where
  origin : Origin
  isStream : Bool
  success : Bool
  label : String
  message : Option String
  /-- Whether anything was sent of what was asked for. -/
  began : Bool
  /-- The frames written, if a stream was opened. -/
  frames : Option Nat
  deriving Repr

namespace Ending

/-- A reply given all at once. -/
def completed (origin : Origin) (isStream : Bool) : Ending where
  origin
  isStream
  success := true
  label := Outcome.completed.label
  message := none
  began := true
  frames := none

/-- A request that failed before anything was sent. -/
def failed (origin : Origin) (isStream : Bool) (label message : String) : Ending where
  origin
  isStream
  success := false
  label
  message := some message
  began := false
  frames := none

/-- A stream. -/
def delivered (origin : Origin) (outcome : Outcome) (written : Nat) : Ending where
  origin
  isStream := true
  success := outcome.isSuccess
  label := outcome.label
  message := outcome.message?
  began := 0 < written
  frames := some written

def firstByteMs (e : Ending) (t : Timing) : Option Nat :=
  if e.began then some t.firstByteMs else none

def entry (e : Ending) (t : Timing) : Entry where
  timestamp := t.now
  requestId := e.origin.requestId
  model := e.origin.model
  platform := e.origin.platform
  dialect := e.origin.dialect
  isStream := e.isStream
  success := e.success
  firstByteMs := e.firstByteMs t
  durationMs := t.durationMs
  errorMessage := e.message

/-- Milliseconds in seconds. -/
def seconds (ms : Nat) : Decimal.Double := (Decimal.Double.ofNat ms).div (Decimal.Double.ofNat 1000)

def count (e : Ending) (t : Timing) (c : Metrics.Counts) : Metrics.Counts :=
  let dialect := e.origin.dialect.name
  let c := c.endRequest dialect e.isStream e.label
  let c :=
    match e.frames with
    | some n => c.addFrames dialect n
    | none => c
  match e.firstByteMs t with
  | some ms => c.observeFirstByte dialect (seconds ms)
  | none => c

end Ending

/-- How a delivery ended, once it has. -/
def ending? (d : Delivery) (origin : Origin) : Option Ending :=
  d.outcome?.map fun outcome => .delivered origin outcome d.written

end DialectGateway.Delivery
