/-
# Intake.Content — what messages hold

Content is a text, or a list of parts of which those with a text count. A message
names who speaks; an input item is a message that is the user's unless it says
otherwise.
-/
import DialectGateway.Intake.Field
import DialectGateway.Generation.Request

set_option autoImplicit false

namespace DialectGateway.Intake

open Json (Tree)

structure Part where
  kind : String
  text : Option String
  deriving DecidableEq, Repr

inductive Content where
  | text (s : String)
  | parts (ps : List Part)
  deriving DecidableEq, Repr

/-- The text of the content: its parts' texts, a line each. -/
def Content.flatten : Content → String
  | .text s => s
  | .parts ps => String.intercalate "\n" (ps.filterMap (·.text))

structure Item where
  role : String
  content : Content
  deriving DecidableEq, Repr

def Item.message (i : Item) : Message := ⟨i.role, i.content.flatten⟩

/-- The item sets the scene instead of taking part. -/
def Item.isSystem (i : Item) : Bool := i.role == "system" || i.role == "developer"

def part? (t : Tree) : Option Part := do
  match ← fieldsOf ["type", "text"] t with
  | [kind, text_] => do
    let kind ← required kind text 0
    let text_ ← optional text_ none (nullable text) 0
    pure ⟨kind, text_⟩
  | _ => none

def content? : Tree → Option Content
  | .list items => (items.mapM part?).map .parts
  | t => (text t 0).map .text

def content : Reader Content := whole content?

/-- A message, whose role may be left out only if there is one to assume. -/
def itemWith (assumed : Option String) (read : Reader Content) : Reader Item := fun t room => do
  match ← structure? ["role", "content"] t room with
  | ([role, content_], room) => do
    let role ←
      match role, assumed with
      | none, some role => some role
      | role, _ => required role text room
    let content_ ← optional content_ (.text "") read room
    pure ⟨role, content_⟩
  | _ => none

def message : Reader Item := itemWith none content

/-- An input item; its content has been looked through with the whole input. -/
def inputItem? (t : Tree) : Option Item := itemWith (some "user") (fun t _ => content? t) t 1

end DialectGateway.Intake
