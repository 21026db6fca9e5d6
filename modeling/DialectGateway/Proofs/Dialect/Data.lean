/-
# Proofs.Dialect.Data — what a client reads in the data of a frame

A client has the data of frames, which are JSON values, and not the frames of an encoder.
What it is promised is said of members of the data: a text or a number under a key.
-/
import DialectGateway.Json.Basic

set_option autoImplicit false

namespace DialectGateway.Json

/-- The text of a value, empty if it is no text. -/
def textOf (v : Json) : String := v.asText?.getD ""

/-- The number of a value, 0 if it is no whole number. -/
def natOf : Json → Nat
  | .int n => n.toNat
  | _ => 0

end DialectGateway.Json
