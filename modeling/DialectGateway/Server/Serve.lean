/-
# Server.Serve — one request, from its arrival to its answer

The order of what may end a request early is part of what clients see. A request
for permission to ask is granted at once, without an id. Every other request has
an id, its own if that is presentable. Then a body beyond all limits is refused
whatever the path. Then the path must be known, the client be let in, the method
be the route's, and, where a body is read, the body be within the route's limit.
-/
import DialectGateway.Server.Figures

set_option autoImplicit false

namespace DialectGateway.Server

/-- A request as it arrives. -/
structure Arrived where
  method : String
  path : String
  query : String := ""
  headers : Access.Headers := []
  body : List UInt8 := []
  deriving Repr

/-- The path of a target ends where its query or its fragment begins, and the query
where its fragment begins. -/
def Arrived.ofTarget (method target : String) (headers : Access.Headers) (body : List UInt8) :
    Arrived :=
  let target := target.toList.takeWhile (· != '#')
  { method
    path := String.ofList (target.takeWhile (· != '?'))
    query := String.ofList ((target.dropWhile (· != '?')).drop 1)
    headers
    body }

/-- The largest body that is received at all. -/
def bodyLimit : Nat := 8 * 1024 * 1024

/-- The largest body of a request for generation. -/
def generationLimit : Nat := 2 * 1024 * 1024

/-- The longest id that a request may bring, in bytes. -/
def idLimit : Nat := 128

/-- The id that a request brings. -/
def Arrived.requestId? (a : Arrived) : Option String :=
  (Access.readable? a.headers "x-request-id").filter fun id =>
    !id.isEmpty && Text.Utf8.size id.toList ≤ idLimit

variable {D : Type} [DecidableEq D]

/-- Whether a request may use a route. -/
def Setup.admits (setup : Setup D) (r : Route) (a : Arrived) : Bool :=
  let token := (Access.presented? a.headers).map setup.digest
  match r with
  | .health | .metrics => true
  | .generation _ => setup.gate.admitsClient token
  | .figure _ => setup.gate.admitsOperator token

/-- The exposition, with the requests in flight as they are. -/
def exposition (s : State) : Served :=
  let counts := s.counts.setActive s.traffic.active
  ⟨.exposition counts.text, { s with counts }, none⟩

def healthPage (s : State) : Json :=
  .record [("active_connections", .nat s.traffic.active), ("status", .text "ok")]

/-- A request that was let in, with the route's method. -/
def Route.serve (r : Route) (setup : Setup D) (around : Surroundings) (s : State) (id : String)
    (a : Arrived) : Served :=
  match r with
  | .health => ⟨.json (healthPage s) 200, s, none⟩
  | .metrics => exposition s
  | .figure page => page.serve setup around s (Text.Form.pairs a.query.toList)
  | .generation dialect =>
    if generationLimit < a.body.length then ⟨.rejection .tooLarge, s, none⟩
    else generate setup around s dialect id a.body

/-- A request whose body was received. -/
def respond (setup : Setup D) (around : Surroundings) (s : State) (id : String) (a : Arrived) :
    Served :=
  match Route.at? a.path with
  | none => ⟨.bare 404, s, none⟩
  | some r =>
    if !setup.admits r a then ⟨.failure .unauthorized (dialectAt a.path), s, none⟩
    else if !r.allows a.method then ⟨.bare 405, s, none⟩
    else r.serve setup around s id a

/-- Whether the client wants no body. Only where a body may be fetched can it be
left out. -/
def Arrived.declinesBody (a : Arrived) : Bool :=
  a.method == "HEAD" && (Route.at? a.path).any (·.allows a.method)

def unreceived : Failure := .badRequest "Request body too large or unreadable"

def serve (setup : Setup D) (around : Surroundings) (s : State) (a : Arrived) : Served :=
  if a.method == "OPTIONS" then ⟨.bare 200, s, none⟩
  else
    let id := a.requestId?.getD around.requestId
    let served :=
      if bodyLimit < a.body.length then ⟨.failure unreceived (dialectAt a.path), s, none⟩
      else respond setup around s id a
    let answer := if a.declinesBody then served.answer.withoutBody else served.answer
    { served with answer := { answer with requestId := some id } }

end DialectGateway.Server
