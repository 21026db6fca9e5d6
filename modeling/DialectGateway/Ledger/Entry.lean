/-
# Ledger.Entry — the record of one finished request
-/
import DialectGateway.Generation.Dialect
import DialectGateway.Json.Basic
import DialectGateway.Time.Instant

set_option autoImplicit false

namespace DialectGateway.Ledger

open Time (Instant)

structure Entry where
  /-- The place among all entries ever stored; 0 before that. -/
  id : Nat := 0
  timestamp : Instant
  requestId : String := ""
  model : String := ""
  platform : String := ""
  dialect : Dialect := .chat
  isStream : Bool := false
  success : Bool := false
  /-- Time to the first byte sent; absent when nothing was sent. -/
  firstByteMs : Option Nat := none
  durationMs : Nat := 0
  errorMessage : Option String := none
  deriving DecidableEq, Repr

def Entry.json (e : Entry) : Json :=
  .record [
    ("id", .nat e.id),
    ("timestamp", .text e.timestamp.rfc3339),
    ("request_id", .text e.requestId),
    ("model", .text e.model),
    ("platform", .text e.platform),
    ("request_type", .text e.dialect.name),
    ("is_stream", .bool e.isStream),
    ("success", .bool e.success),
    ("first_byte_ms", e.firstByteMs.elim .null .nat),
    ("duration_ms", .nat e.durationMs),
    ("error_message", Json.optText e.errorMessage)]

end DialectGateway.Ledger
