/-
# Server.Endpoint — what paths stand for

Each dialect has a path. Failures on any other path are told in the chat dialect.
-/
import DialectGateway.Failure

set_option autoImplicit false

namespace DialectGateway.Server

/-- The path at which a dialect is spoken. -/
def pathOf : Dialect → String
  | .chat => "/v1/chat/completions"
  | .responses => "/v1/responses"
  | .messages => "/v1/messages"

/-- A path without the slashes at its end. -/
def withoutSlashes (path : String) : String :=
  String.ofList (path.toList.reverse.dropWhile (· == '/')).reverse

/-- The dialect spoken at a path, slashes at its end aside. -/
def dialectAt? (path : String) : Option Dialect :=
  Dialect.all.find? fun d => pathOf d == withoutSlashes path

def dialectAt (path : String) : Dialect := (dialectAt? path).getD .chat

end DialectGateway.Server
