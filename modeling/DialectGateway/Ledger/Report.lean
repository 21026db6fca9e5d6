/-
# Ledger.Report — questions to the ledger

The overview and the ranking look at the entries of a span up to now; the log
shows all entries that pass its filters, newest first, one page at a time. Live
figures come from the traffic counts.
-/
import DialectGateway.Ledger.Rank
import DialectGateway.Ledger.Store
import DialectGateway.Ledger.Traffic
import DialectGateway.Ledger.Trimmed
import DialectGateway.Time.Span
import DialectGateway.Failure

set_option autoImplicit false

namespace DialectGateway.Ledger

open Decimal (Double)
open Time (Instant)

/-- The entries of the span that a text gives, up to `now`. -/
def recentEntries (s : Store) (now : Instant) (span : String) : Except Failure (List Entry) :=
  match Time.span? span with
  | .error e => .error (.badRequest e.message)
  | .ok seconds =>
    match now.before? seconds with
    | none => .error (.badRequest ("Duration out of range: '" ++ span ++ "'"))
    | some since => .ok (s.between (some since) none)

structure Overview where
  /-- The span as it was asked for. -/
  duration : String
  total : Nat
  success : Nat
  failure : Nat
  successRate : Double
  avgFirstByteMs : Double
  latencySamples : Nat
  deriving DecidableEq, Repr

def Overview.json (o : Overview) : Json :=
  .record [
    ("duration", .text o.duration),
    ("total", .nat o.total),
    ("success", .nat o.success),
    ("failure", .nat o.failure),
    ("success_rate", .real o.successRate),
    ("avg_first_byte_ms", .real o.avgFirstByteMs),
    ("latency_samples", .nat o.latencySamples)]

def overviewOf (entries : List Entry) (duration : String) (trimLow trimHigh : Double) :
    Overview :=
  let success := (entries.filter (·.success)).length
  let samples := entries.filterMap (·.firstByteMs)
  { duration
    total := entries.length
    success
    failure := entries.length - success
    successRate := ratio success entries.length
    avgFirstByteMs := trimmedMean (samples.map Double.ofNat) trimLow trimHigh
    latencySamples := samples.length }

def overview (s : Store) (now : Instant) (duration : Option String) (trimLow trimHigh : Double) :
    Except Failure Overview :=
  let duration := duration.getD Time.defaultSpan
  (recentEntries s now duration).map (overviewOf · duration trimLow trimHigh)

def ranking (s : Store) (now : Instant) (duration : Option String) (dimension : Dimension) :
    Except Failure (List RankItem) :=
  (recentEntries s now (duration.getD Time.defaultSpan)).map (rank · dimension)

structure Realtime where
  active : Nat
  lastMinute : Nat
  total : Nat
  deriving DecidableEq, Repr

def Realtime.json (r : Realtime) : Json :=
  .record [
    ("active_connections", .nat r.active),
    ("requests_last_minute", .nat r.lastMinute),
    ("total_requests", .nat r.total)]

def realtime (t : Traffic) (now : Nat) : Realtime × Traffic :=
  let (recent, t) := t.recent now
  (⟨t.active, recent, t.total⟩, t)

/-! ## The log -/

/-- A question to the log, as it is asked. -/
structure Query where
  page : Option Nat := none
  pageSize : Option Nat := none
  start : Option String := none
  last : Option String := none
  success : Option Bool := none
  dialect : Option String := none
  model : Option String := none
  deriving Repr

structure Filter where
  start : Option Instant := none
  last : Option Instant := none
  success : Option Bool := none
  dialect : Option Dialect := none
  model : Option String := none
  deriving Repr

def Filter.passes (f : Filter) (e : Entry) : Bool :=
  f.start.all (·.le e.timestamp) && f.last.all (e.timestamp.le ·) &&
    f.success.all (· == e.success) && f.dialect.all (· == e.dialect) && f.model.all (· == e.model)

def momentOf (s : String) : Except Failure Instant :=
  match Time.moment? s.toList with
  | some t => .ok t
  | none => .error (.badRequest ("Invalid timestamp '" ++ Text.trimmed s ++ "'"))

/-- A value read from an optional text. -/
def readOpt {A : Type} (read : String → Except Failure A) :
    Option String → Except Failure (Option A)
  | none => .ok none
  | some s => (read s).map some

def dialectOf (s : String) : Except Failure Dialect :=
  match Dialect.ofWord? s with
  | some d => .ok d
  | none => .error (.badRequest (Dialect.unknownMessage s))

def Query.filter (q : Query) : Except Failure Filter := do
  let start ← readOpt momentOf q.start
  let last ← readOpt momentOf q.last
  match start, last with
  | some a, some b => if b.lt a then throw (.badRequest "start must not be after end")
  | _, _ => pure ()
  let dialect ← readOpt dialectOf q.dialect
  pure { start, last, success := q.success, dialect, model := q.model }

/-- The newer entry first; of one time the later one. -/
def newer (a b : Entry) : Bool :=
  b.timestamp.lt a.timestamp || (a.timestamp == b.timestamp && b.id ≤ a.id)

structure Page where
  /-- The entries on all pages. -/
  total : Nat
  page : Nat
  pageSize : Nat
  items : List Entry
  deriving Repr

def Page.json (p : Page) : Json :=
  .record [
    ("total", .nat p.total),
    ("page", .nat p.page),
    ("page_size", .nat p.pageSize),
    ("items", .list (p.items.map Entry.json))]

def largestPage : Nat := 100

/-- How many entries come before a page. The product stops at the largest number of 64 bits. -/
def offset (page pageSize : Nat) : Nat := min ((page - 1) * pageSize) (UInt64.size - 1)

/-- One page of the entries that pass; pages count from 1. -/
def pageOf (entries : List Entry) (f : Filter) (page pageSize : Option Nat) : Page :=
  let found := (entries.filter f.passes).mergeSort newer
  let page := max (page.getD 1) 1
  let size := min (max (pageSize.getD 20) 1) largestPage
  ⟨found.length, page, size, (found.drop (offset page size)).take size⟩

def log (s : Store) (q : Query) : Except Failure Page := do
  let f ← q.filter
  pure (pageOf s.entries f q.page q.pageSize)

end DialectGateway.Ledger
