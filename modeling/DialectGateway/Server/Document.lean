/-
# Server.Document — what the operator is told about the pages

Every page has its parameters, all of them in the query and none of them needed,
and its statuses. Every kind of content has its fields; a field is either always
there or may be absent. All pages need bearer credentials.
-/
import DialectGateway.Server.Route

set_option autoImplicit false

namespace DialectGateway.Server

structure Parameter where
  name : String
  place : String := "query"
  needed : Bool := false
  deriving DecidableEq, Repr

structure PageNote where
  path : String
  parameters : List Parameter
  statuses : List Nat
  deriving DecidableEq, Repr

structure Field where
  name : String
  always : Bool := true
  deriving DecidableEq, Repr

/-- A kind of content: its fields in their order, or one of some words. -/
inductive Shape where
  | fields (list : List Field)
  | word
  deriving DecidableEq, Repr

structure Document where
  title : String
  scheme : String
  pages : List PageNote
  shapes : List (String × Shape)
  deriving Repr

/-- The parameters of a page. -/
def Figure.parameters : Figure → List String
  | .overview => ["duration"]
  | .realtime => []
  | .rank => ["dimension", "duration"]
  | .log => ["page", "page_size", "start", "end", "success", "request_type", "model"]

/-- A page can fail to be made only if it has parameters. -/
def Figure.statuses (page : Figure) : List Nat :=
  if page.parameters.isEmpty then [200, 401] else [200, 400, 401]

def Figure.note (page : Figure) : PageNote :=
  ⟨page.path, page.parameters.map fun name => { name }, page.statuses⟩

namespace Shape

/-- Fields that are all always there. -/
def always (names : List String) : Shape := .fields (names.map fun name => { name })

/-- The shape of a ledger entry. -/
def entry : Shape :=
  .fields (["id", "timestamp", "request_id", "model", "platform", "request_type", "is_stream",
    "success", "first_byte_ms", "duration_ms", "error_message"].map fun name =>
      { name, always := name != "first_byte_ms" && name != "error_message" })

/-- The kinds of content by their names. -/
def named : List (String × Shape) :=
  [("OverviewStats", always ["duration", "total", "success", "failure", "success_rate",
      "avg_first_byte_ms", "latency_samples"]),
    ("RealtimeStats", always ["active_connections", "requests_last_minute", "total_requests"]),
    ("RankItem", always ["name", "count", "success_rate", "share"]),
    ("RankDimension", .word),
    ("RankResponse", always ["dimension", "items"]),
    ("LogPage", always ["total", "page", "page_size", "items"]),
    ("RequestLogEntry", entry),
    ("StatsErrorResponse", always ["error"])]

/-- The names of the fields, in the order of their characters. -/
def properties : Shape → List String
  | .fields fs => (fs.map (·.name)).mergeSort fun a b => !(b < a : Bool)
  | .word => []

/-- The fields that are always there, in their order; a word has no fields. -/
def required? : Shape → Option (List String)
  | .fields fs => some ((fs.filter (·.always)).map (·.name))
  | .word => none

end Shape

/-- The document about the operator's pages. -/
def Document.ofPages : Document where
  title := "LLM Relay Operator API"
  scheme := "bearer_auth"
  pages := Figure.all.map Figure.note
  shapes := Shape.named

end DialectGateway.Server
