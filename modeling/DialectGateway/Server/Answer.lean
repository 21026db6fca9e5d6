/-
# Server.Answer — what a request is answered with

An answer has a status, a kind of content, and a body. The body of a stream is
named by its place among all streams that were ever opened, because what can be
read of it depends on what else happens.
-/
import DialectGateway.Failure

set_option autoImplicit false

namespace DialectGateway.Server

/-- Why a request is turned away before anybody looks at what it asks for. -/
inductive Rejection where
  /-- The query does not have the types that the page needs. -/
  | query
  /-- The body is larger than the route takes. -/
  | tooLarge
  deriving DecidableEq, Repr

def Rejection.status : Rejection → Nat
  | query => 400
  | tooLarge => 413

inductive Body where
  | none
  | json (content : Json)
  | text (content : String)
  | rejection (reason : Rejection)
  | stream (place : Nat)
  deriving Repr

/-- The headers of a stream that keep it from being stored or held back. -/
def streamHeaders : List (String × String) :=
  [("cache-control", "no-cache"), ("connection", "keep-alive"), ("x-accel-buffering", "no")]

structure Answer where
  status : Nat := 200
  /-- The kind of content, if the answer names one. -/
  kind : Option String := none
  body : Body := .none
  /-- The id of the request, if it was given one. -/
  requestId : Option String := none
  deriving Repr

namespace Answer

/-- An answer that is its status. -/
def bare (status : Nat) : Answer := { status }

def json (content : Json) (status : Nat) : Answer :=
  { status, kind := some "application/json", body := .json content }

def exposition (content : String) : Answer :=
  { kind := some "text/plain; version=0.0.4", body := .text content }

def rejection (reason : Rejection) : Answer :=
  { status := reason.status, kind := some "text/plain; charset=utf-8", body := .rejection reason }

def stream (place : Nat) : Answer := { kind := some "text/event-stream", body := .stream place }

def failure (f : Failure) (dialect : Dialect) : Answer := json (f.json dialect) f.status

def headers (a : Answer) : List (String × String) :=
  match a.body with
  | .stream _ => streamHeaders
  | _ => []

def withoutBody (a : Answer) : Answer := { a with body := .none }

end Answer
end DialectGateway.Server
