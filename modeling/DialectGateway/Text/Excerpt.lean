/-
# Text.Excerpt — long texts cut short

A text that takes more bytes than a limit is cut at the last boundary within the limit,
and a note says that something is missing.
-/
import DialectGateway.Text.Boundary
import DialectGateway.Decimal.Digits

set_option autoImplicit false

namespace DialectGateway.Text

def abridge (limit : Nat) (note : List Char) (cs : List Char) : List Char :=
  if Utf8.size cs ≤ limit then cs
  else
    let bytes := Utf8.encode cs
    (Utf8.before? bytes (Utf8.boundaryUpTo bytes limit)).get (Utf8.isSome_before? cs limit) ++ note

/-- The part of a backend's error text that is passed on. -/
def errorExcerpt (cs : List Char) : List Char := abridge 500 ['.', '.', '.'] cs

/-- The part of a request body that is kept for the record. -/
def bodyExcerpt (bytes : List UInt8) : List Char :=
  abridge 2048
    ("... [truncated, ".toList ++ Decimal.digits bytes.length ++ " bytes total]".toList)
    (Utf8.decodeLossy bytes)

theorem abridge_of_size_le {limit : Nat} {cs : List Char} (fits : Utf8.size cs ≤ limit)
    (note : List Char) : abridge limit note cs = cs := by
  simp [abridge, fits]

theorem abridge_of_lt_size {limit : Nat} {cs : List Char} (beyond : limit < Utf8.size cs)
    (note : List Char) : abridge limit note cs = Utf8.takeWithin limit cs ++ note := by
  rw [abridge, if_neg (Nat.not_le.2 beyond)]
  simp only [Utf8.before?_boundaryUpTo, Option.get_some]

end DialectGateway.Text
