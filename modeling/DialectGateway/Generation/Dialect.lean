/-
# Generation.Dialect — the dialects that clients speak

A client speaks one of three dialects. All but `messages` end a stream with the
sentinel frame.
-/
import DialectGateway.Text.Lowercase

set_option autoImplicit false

namespace DialectGateway

inductive Dialect where
  | chat
  | responses
  | messages
  deriving DecidableEq, Repr

namespace Dialect

instance : Inhabited Dialect := ⟨.chat⟩

def all : List Dialect := [.chat, .responses, .messages]

def name : Dialect → String
  | .chat => "chat_completions"
  | .responses => "responses"
  | .messages => "messages"

def hasSentinel : Dialect → Bool
  | .messages => false
  | _ => true

/-- The dialect of an exact name. -/
def named? (s : String) : Option Dialect := all.find? (·.name == s)

/-- The other words a dialect is known by. -/
def aliases : Dialect → List String
  | .chat => ["chat", "openai"]
  | .responses => ["response_api"]
  | .messages => ["anthropic", "claude"]

/-- The dialect of a name or alias, letter case aside. -/
def ofWord? (s : String) : Option Dialect :=
  let word := Text.lowercase s
  all.find? fun d => d.name == word || d.aliases.contains word

/-- The complaint about a word that names no dialect. -/
def unknownMessage (s : String) : String := "Unknown request type: " ++ s

theorem named?_name (d : Dialect) : named? d.name = some d := by cases d <;> decide +kernel

theorem name_inj {d d' : Dialect} : d.name = d'.name ↔ d = d' := by
  refine ⟨?_, congrArg name⟩
  intro same
  have spoken := congrArg named? same
  rw [named?_name, named?_name] at spoken
  exact Option.some.inj spoken

end Dialect
end DialectGateway
