/-
# Access.Token — who a request says it comes from

A request presents a token in one of two headers: a key header, or else bearer
credentials. Of several headers of one name the first counts, and a value with
anything but visible characters, spaces and tabs is as good as none.
-/
import DialectGateway.Text.Blank
import DialectGateway.Text.Lowercase
import DialectGateway.Text.Split

set_option autoImplicit false

namespace DialectGateway.Access

structure Header where
  /-- The name in lower case. -/
  name : String
  value : String
  deriving DecidableEq, Repr

abbrev Headers := List Header

/-- A character that a readable header value may hold. -/
def isReadable (c : Char) : Bool := c == '\t' || (' ' ≤ c && c < '\x7f')

/-- The first value of a name, if it is readable. -/
def readable? (headers : Headers) (name : String) : Option String :=
  ((headers.find? (·.name == name)).map (·.value)).filter (·.toList.all isReadable)

/-- A text without the blanks at its ends, unless nothing is left. -/
def substance? (s : String) : Option String :=
  let s := Text.trimmed s
  if s.isEmpty then none else some s

def bearerLead : List Char := "Bearer ".toList

/-- What bearer credentials hold. -/
def bearer? (value : String) : Option String :=
  (Text.after? bearerLead value.toList).map String.ofList

/-- The token that a request presents. -/
def presented? (headers : Headers) : Option String :=
  ((readable? headers "x-api-key").bind substance?).or
    (((readable? headers "authorization").bind bearer?).bind substance?)

end DialectGateway.Access
