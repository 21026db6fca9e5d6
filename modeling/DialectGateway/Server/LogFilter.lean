/-
# Server.LogFilter — which log lines are shown

The operator's directives, or the default ones if they are blank, and after them
the caps on what the HTTP machinery may say.
-/
import DialectGateway.Text.Blank

set_option autoImplicit false

namespace DialectGateway.Server

def caps : String := "hyper=warn,hyper::proto=warn,h2=warn,reqwest=warn"

def logDirectives (asked : Option String) : String :=
  let base := (asked.filter fun s => !Text.isBlankText s).getD "info,llm_relay=debug"
  base ++ "," ++ caps

end DialectGateway.Server
