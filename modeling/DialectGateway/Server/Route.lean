/-
# Server.Route — what can be asked for, and where

Every route has one path, spelled out in full, and one method. `Route.at?_path`
says that no two routes share a path.
-/
import DialectGateway.Server.Endpoint

set_option autoImplicit false

namespace DialectGateway.Server

/-- A page of the operator's figures. -/
inductive Figure where
  | overview
  | realtime
  | rank
  | log
  deriving DecidableEq, Repr

def Figure.all : List Figure := [.overview, .realtime, .rank, .log]

def Figure.path : Figure → String
  | .overview => "/admin/stats/overview"
  | .realtime => "/admin/stats/realtime"
  | .rank => "/admin/stats/rank"
  | .log => "/admin/logs"

inductive Route where
  | health
  | metrics
  /-- Generation, asked for in a dialect. -/
  | generation (dialect : Dialect)
  | figure (page : Figure)
  deriving DecidableEq, Repr

namespace Route

def all : List Route :=
  [.health, .metrics] ++ Dialect.all.map .generation ++ Figure.all.map .figure

def path : Route → String
  | .health => "/health"
  | .metrics => "/metrics"
  | .generation dialect => pathOf dialect
  | .figure page => page.path

def method : Route → String
  | .generation _ => "POST"
  | _ => "GET"

/-- Whether a route answers to a method. What may be fetched may be fetched without
its body. -/
def allows (r : Route) (method : String) : Bool :=
  method == r.method || (method == "HEAD" && r.method == "GET")

def at? (path : String) : Option Route := all.find? (·.path == path)

theorem at?_path (r : Route) : at? r.path = some r := by
  cases r with
  | health => decide +kernel
  | metrics => decide +kernel
  | generation d => cases d <;> decide +kernel
  | figure page => cases page <;> decide +kernel

end Route
end DialectGateway.Server
