/-
# Metrics.Counts — what the gateway measures

Requests ended, by outcome, dialect and whether they streamed; the requests in
flight; the time to the first byte, in buckets; and the frames written. A series
exists from its first mention, be it by an addition of nothing.
-/
import DialectGateway.Metrics.Exposition
import DialectGateway.Keyed

set_option autoImplicit false

namespace DialectGateway.Metrics

open Decimal (Double)

/-- The upper bounds of the buckets, in seconds. -/
def bounds : List Double :=
  [(5, 2), (1, 1), (2, 1), (5, 1), (1, 0), (2, 0), (5, 0), (10, 0), (30, 0)].map
    fun (m, e) => Double.ofFloat (Float.ofScientific m true e)

structure Histogram where
  /-- The samples within each bound. -/
  buckets : List Nat := bounds.map fun _ => 0
  count : Nat := 0
  sum : Double := Double.ofNat 0
  deriving Repr

def Histogram.observe (h : Histogram) (x : Double) : Histogram where
  buckets := (bounds.zip h.buckets).map fun (bound, n) =>
    if x.toFloat ≤ bound.toFloat then n + 1 else n
  count := h.count + 1
  sum := h.sum.add x

structure Counts where
  /-- By outcome, dialect and stream flag. -/
  requests : List (List String × Nat) := []
  active : Int := 0
  firstByte : List (String × Histogram) := []
  frames : List (String × Nat) := []
  deriving Repr

namespace Counts

def flag (stream : Bool) : String := if stream then "true" else "false"

def requestKey (dialect : String) (stream : Bool) (outcome : String) : List String :=
  [outcome, dialect, flag stream]

def endRequest (c : Counts) (dialect : String) (stream : Bool) (outcome : String) : Counts :=
  { c with requests := Keyed.adjust (requestKey dialect stream outcome) 0 (· + 1) c.requests }

def observeFirstByte (c : Counts) (dialect : String) (seconds : Double) : Counts :=
  { c with firstByte := Keyed.adjust dialect {} (·.observe seconds) c.firstByte }

def addFrames (c : Counts) (dialect : String) (n : Nat) : Counts :=
  { c with frames := Keyed.adjust dialect 0 (· + n) c.frames }

def setActive (c : Counts) (n : Int) : Counts := { c with active := n }

def ofInt (n : Int) : Double :=
  Double.ofFloat (if n < 0 then -(Float.ofNat n.natAbs) else Float.ofNat n.natAbs)

def activeFamily (c : Counts) : Family where
  name := "llm_relay_active_connections"
  help := "Number of in-flight client connections"
  kind := .gauge
  samples := [⟨"llm_relay_active_connections", [], ofInt c.active⟩]

def bucketSamples (dialect : String) (h : Histogram) : List Sample :=
  let name := "llm_relay_first_byte_seconds_bucket"
  let label (le : String) : List (String × String) := [("request_type", dialect), ("le", le)]
  ((bounds.zip h.buckets).map fun (bound, n) =>
      ⟨name, label (String.ofList (valueText bound)), Double.ofNat n⟩) ++
    [⟨name, label "+Inf", Double.ofNat h.count⟩]

def histogramSamples (dialect : String) (h : Histogram) : List Sample :=
  bucketSamples dialect h ++ [
    ⟨"llm_relay_first_byte_seconds_sum", [("request_type", dialect)], h.sum⟩,
    ⟨"llm_relay_first_byte_seconds_count", [("request_type", dialect)], Double.ofNat h.count⟩]

def firstByteFamily (c : Counts) : Family where
  name := "llm_relay_first_byte_seconds"
  help := "Time to first byte delivered to the client in seconds"
  kind := .histogram
  samples := c.firstByte.flatMap fun (dialect, h) => histogramSamples dialect h

def requestsFamily (c : Counts) : Family where
  name := "llm_relay_requests_total"
  help := "Total number of finished requests"
  kind := .counter
  samples := c.requests.map fun (key, n) =>
    ⟨"llm_relay_requests_total", ["outcome", "request_type", "stream"].zip key, Double.ofNat n⟩

def framesFamily (c : Counts) : Family where
  name := "llm_relay_stream_frames_total"
  help := "SSE frames written to clients"
  kind := .counter
  samples := c.frames.map fun (dialect, n) =>
    ⟨"llm_relay_stream_frames_total", [("request_type", dialect)], Double.ofNat n⟩

/-- The exposition text. -/
def text (c : Counts) : String :=
  expose [c.activeFamily, c.firstByteFamily, c.requestsFamily, c.framesFamily]

end Counts
end DialectGateway.Metrics
