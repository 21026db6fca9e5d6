/-
# Server.Figures — the pages of the operator

A page is computed from the ledger's store or the traffic as they are. A query of
the wrong types is rejected; one of the right types may still ask for what cannot
be, which is a failure told in the chat dialect.
-/
import DialectGateway.Server.Generation
import DialectGateway.Server.Query
import DialectGateway.Server.Route

set_option autoImplicit false

namespace DialectGateway.Server

open Time (Instant)

/-- The answer with a page, or with the failure to make it. -/
def pageAnswer (page : Except Failure Json) : Answer :=
  match page with
  | .ok content => .json content 200
  | .error f => .failure f .chat

/-- The answer with a page that a query asks for. -/
def askedPage {A : Type} (query : Except Rejection A) (page : A → Except Failure Json) : Answer :=
  match query with
  | .ok q => pageAnswer (page q)
  | .error reason => .rejection reason

def overviewPage (figures : Settings.Figures) (store : Ledger.Store) (now : Instant)
    (q : Query.Overview) : Except Failure Json :=
  (Ledger.overview store now q.duration figures.trimLow figures.trimHigh).map (·.json)

def dimensionOf : Option String → Except Failure Ledger.Dimension
  | none => .ok .model
  | some word => (Ledger.Dimension.ofWord word).mapError .badRequest

def rankPage (store : Ledger.Store) (now : Instant) (q : Query.Rank) : Except Failure Json := do
  let dimension ← dimensionOf q.dimension
  let items ← Ledger.ranking store now q.duration dimension
  pure (.record [("dimension", .text dimension.name), ("items", .list (items.map (·.json)))])

variable {D : Type}

def Figure.serve (page : Figure) (setup : Setup D) (around : Surroundings) (s : State)
    (q : Query.Pairs) : Served :=
  match page with
  | .overview =>
    let page := overviewPage setup.figures s.ledger.store around.timing.now
    ⟨askedPage (Query.overview q) page, s, none⟩
  | .rank => ⟨askedPage (Query.rank q) (rankPage s.ledger.store around.timing.now), s, none⟩
  | .log => ⟨askedPage (Query.log q) fun q => (Ledger.log s.ledger.store q).map (·.json), s, none⟩
  | .realtime =>
    let (figures, traffic) := Ledger.realtime s.traffic around.uptime
    ⟨.json figures.json 200, { s with traffic }, none⟩

end DialectGateway.Server
