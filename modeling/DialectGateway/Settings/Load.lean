/-
# Settings.Load — settings from a file and from variables

The placeholders of a file are expanded before it is read, and a file of blanks
has the defaults. Variables override what the file says. A number is read from
its variable unless that is blank, and an empty key is no key.
-/
import DialectGateway.Settings.File
import DialectGateway.Settings.Placeholder
import DialectGateway.Text.Blank
import DialectGateway.Text.Split

set_option autoImplicit false

namespace DialectGateway.Settings

open Decimal (Double ReadError)

/-- The number in a variable, or what was there before. -/
def numberOr {A : Type} (vars : Variables) (name : String) (before : A)
    (read : List Char → Except ReadError A) : Except Fault A :=
  match vars.lookup name with
  | none => .ok before
  | some raw =>
    if Text.isBlankText raw then .ok before
    else (read (Text.trim raw.toList)).mapError (.badNumber name raw)

def textOr (vars : Variables) (name : String) (before : String) : String :=
  (vars.lookup name).getD before

/-- A key in a variable; an empty one takes the key away. -/
def keyOr (vars : Variables) (name : String) (before : Option String) : Option String :=
  match vars.lookup name with
  | some key => if key.isEmpty then none else some key
  | none => before

/-- The parts of a comma list, without blanks at their ends and none of them empty. -/
def listed (raw : String) : List String :=
  ((Text.splitAt ',' raw.toList).map Text.trim).filter (!·.isEmpty) |>.map String.ofList

def readWord : List Char → Except ReadError Nat := Decimal.readWhole UInt64.size

/-- The settings with the variables' values in place of their own. -/
def override (vars : Variables) (s : Settings) : Except Fault Settings := do
  let socket ← numberOr vars "PORT" s.server.socket (Decimal.readWhole UInt16.size)
  let timeoutSecs ← numberOr vars "REQUEST_TIMEOUT_SECS" s.backend.timeoutSecs readWord
  let rateWindowSecs ← numberOr vars "RATE_WINDOW_SECS" s.figures.rateWindowSecs readWord
  let trimLow ← numberOr vars "STATS_TRIM_LOW" s.figures.trimLow Decimal.readReal
  let trimHigh ← numberOr vars "STATS_TRIM_HIGH" s.figures.trimHigh Decimal.readReal
  let capacity ← numberOr vars "REQUEST_LOG_CAPACITY" s.ledger.capacity readWord
  let buffer ← numberOr vars "STREAM_BUFFER" s.stream.buffer readWord
  return {
    server := ⟨textOr vars "HOST" s.server.host, socket⟩
    backend := ⟨textOr vars "UPSTREAM_BASE_URL" s.backend.base,
      keyOr vars "UPSTREAM_API_KEY" s.backend.key,
      textOr vars "PLATFORM_NAME" s.backend.platform, timeoutSecs⟩
    access := ⟨((vars.lookup "API_KEYS").map listed).getD s.access.keys,
      keyOr vars "ADMIN_KEY" s.access.adminKey⟩
    figures := ⟨trimLow, trimHigh, rateWindowSecs⟩
    ledger := { s.ledger with capacity }
    stream := ⟨buffer⟩ }

def finished (vars : Variables) (s : Settings) : Except Fault Settings :=
  (override vars s).bind check

/-- The settings of a file that holds this text. -/
def ofFile (vars : Variables) (content : String) : Except Fault Settings :=
  let text := expandText vars content
  if Text.isBlankText text then finished vars {}
  else
    match ofText? text with
    | some s => finished vars s
    | none => .error .malformedFile

/-- The settings of the file at a path; `read` tells what a file holds. -/
def load (vars : Variables) (read : String → Option String) (path : String) :
    Except Fault Settings :=
  match read path with
  | some content => ofFile vars content
  | none => .error .unreadableFile

/-- The settings of the variables alone, or of the file that they name. -/
def ofVariables (vars : Variables) (read : String → Option String) : Except Fault Settings :=
  match vars.lookup "CONFIG_PATH" with
  | some path => if Text.isBlankText path then finished vars {} else load vars read path
  | none => finished vars {}

end DialectGateway.Settings
