/-
# Settings.Basic — how the gateway is set up

Every setting has a default. `Settings.check` names the first setting that the
gateway cannot work with.
-/
import DialectGateway.Decimal.Read
import DialectGateway.Metrics.Exposition

set_option autoImplicit false

namespace DialectGateway

open Decimal (Double)

namespace Settings

structure Server where
  host : String := "0.0.0.0"
  /-- The number of the socket that is listened on. -/
  socket : Nat := 18000
  deriving DecidableEq, Repr

structure Backend where
  base : String := "http://127.0.0.1:8000/v1"
  key : Option String := none
  /-- The name under which requests are recorded. -/
  platform : String := "default"
  timeoutSecs : Nat := 300
  deriving DecidableEq, Repr

structure Access where
  /-- The keys of clients; if there are none, everybody may ask. -/
  keys : List String := []
  /-- The key of the operator; if there is none, nobody may look. -/
  adminKey : Option String := none
  deriving DecidableEq, Repr

def tenth : Double := Double.ofFloat 0.1

structure Figures where
  /-- The fraction of the lowest latencies that is left out of the mean. -/
  trimLow : Double := tenth
  /-- The fraction of the highest. -/
  trimHigh : Double := tenth
  rateWindowSecs : Nat := 60
  deriving DecidableEq, Repr

structure Ledger where
  capacity : Nat := 100000
  queueCapacity : Nat := 10000
  batchSize : Nat := 100
  flushMs : Nat := 200
  deriving DecidableEq, Repr

structure Stream where
  /-- How many frames wait between a delivery and its client. -/
  buffer : Nat := 64
  deriving DecidableEq, Repr

end Settings

structure Settings where
  server : Settings.Server := {}
  backend : Settings.Backend := {}
  access : Settings.Access := {}
  figures : Settings.Figures := {}
  ledger : Settings.Ledger := {}
  stream : Settings.Stream := {}
  deriving DecidableEq, Repr

namespace Settings

/-- What is wrong with the settings, or with where they come from. -/
inductive Fault where
  | unreadableFile
  | malformedFile
  | badNumber (name raw : String) (error : Decimal.ReadError)
  | trim (name : String) (value : Double)
  | noRateWindow
  | noCapacity
  | noBatch
  | noBuffer
  | address (base : String)
  deriving DecidableEq, Repr

def Fault.message : Fault → String
  | unreadableFile => "Failed to read config file"
  | malformedFile => "Failed to parse config file"
  | badNumber name raw error =>
    "Invalid value for " ++ name ++ ": '" ++ raw ++ "' (" ++ error.message ++ ")"
  | trim name value =>
    name ++ " must be in [0, 0.5), got " ++ String.ofList (Metrics.valueText value)
  | noRateWindow => "stats.rate_window_secs must be positive"
  | noCapacity => "request_log capacities must be positive"
  | noBatch => "request_log.batch_size must be positive"
  | noBuffer => "stream.buffer must be positive"
  | address base => "upstream.base_url must be an http(s) URL, got '" ++ base ++ "'"

/-- A fraction that may be left out: at least 0 and less than a half. -/
def isTrim (x : Double) : Bool := 0.0 ≤ x.toFloat && x.toFloat < 0.5

/-- An address begins with one of the two schemes. -/
def isAddress (base : String) : Bool :=
  "http://".toList.isPrefixOf base.toList || "https://".toList.isPrefixOf base.toList

/-- The first thing that is wrong with the settings, if any. -/
def fault? (s : Settings) : Option Fault :=
  if !isTrim s.figures.trimLow then some (.trim "stats.trim_low" s.figures.trimLow)
  else if !isTrim s.figures.trimHigh then some (.trim "stats.trim_high" s.figures.trimHigh)
  else if s.figures.rateWindowSecs = 0 then some .noRateWindow
  else if s.ledger.capacity = 0 ∨ s.ledger.queueCapacity = 0 then some .noCapacity
  else if s.ledger.batchSize = 0 then some .noBatch
  else if s.stream.buffer = 0 then some .noBuffer
  else if !isAddress s.backend.base then some (.address s.backend.base)
  else none

def check (s : Settings) : Except Fault Settings :=
  match s.fault? with
  | some fault => .error fault
  | none => .ok s

end Settings
end DialectGateway
