/-
# Intake.Request — bodies into requests

The three dialects differ in where they put the system text, in what they call
the token limit, and in how they write tools. A request has the system texts
that are not empty joined by blank lines, the other messages in their order, and
the tools in the chat dialect's form. A model must be named, blanks aside.
-/
import DialectGateway.Intake.Diagnosis
import DialectGateway.Failure
import DialectGateway.Text.Blank

set_option autoImplicit false

namespace DialectGateway.Intake

/-- Why a body is not accepted. -/
inductive Objection where
  /-- It is no body of its dialect, for this reason. -/
  | unreadable (why : String)
  | noModel
  | noInput
  | noMessages
  deriving DecidableEq, Repr

def Objection.message : Objection → String
  | unreadable why => "Invalid request body: " ++ why
  | noModel => "model is required"
  | noInput => "input must not be empty"
  | noMessages => "messages must not be empty"

def Objection.failure (o : Objection) : Failure := .badRequest o.message

def modelOf (model : String) : Except Objection String :=
  let model := Text.trimmed model
  if model.isEmpty then .error .noModel else .ok model

/-- The system texts as one, those that are empty left out. -/
def joinSystem (texts : List String) : Option String :=
  let texts := texts.filter (!·.isEmpty)
  if texts.isEmpty then none else some (String.intercalate "\n\n" texts)

def systemTexts (items : List Item) : List String :=
  (items.filter Item.isSystem).map (·.content.flatten)

def spoken (items : List Item) : List Message :=
  (items.filter (!·.isSystem)).map Item.message

/-- A tool in the chat dialect's form; `schema` is where its parameters stand. -/
def functionTool (tool : Json) (schema : String) : Json :=
  .record [
    ("function", .record [
      ("description", tool.field "description"),
      ("name", tool.field "name"),
      ("parameters", (tool.get? schema).getD (.record [("type", .text "object")]))]),
    ("type", .text "function")]

def responsesTool (tool : Json) : Json :=
  if (tool.get? "function").isSome || (tool.get? "name").isNone then tool
  else functionTool tool "parameters"

def messagesTool (tool : Json) : Json :=
  if (tool.get? "name").isNone then tool else functionTool tool "input_schema"

def ChatBody.request (b : ChatBody) : Except Objection Request := do
  let model ← modelOf b.model
  pure {
    dialect := .chat
    model
    messages := spoken b.messages
    system := joinSystem (systemTexts b.messages)
    stream := b.stream
    maxTokens := b.maxCompletionTokens.or b.maxTokens
    temperature := b.temperature
    tools := b.tools }

/-- The items of an input. -/
def Input.itemsOf : Option Input → List Item
  | none => []
  | some (.text s) => [⟨"user", .text s⟩]
  | some (.items is) => is

def ResponsesBody.request (b : ResponsesBody) : Except Objection Request := do
  let model ← modelOf b.model
  let items := Input.itemsOf b.input
  let messages := spoken items
  if messages.isEmpty then throw .noInput
  pure {
    dialect := .responses
    model
    messages
    system := joinSystem (b.instructions.toList ++ systemTexts items)
    stream := b.stream
    maxTokens := b.maxOutputTokens
    temperature := b.temperature
    tools := b.tools.map responsesTool }

/-- The system text of the messages dialect; one given as a text is kept as it is. -/
def systemOf : Option Content → Option String
  | none => none
  | some (.text s) => some s
  | some (.parts ps) => joinSystem (ps.filterMap (·.text))

def MessagesBody.request (b : MessagesBody) : Except Objection Request := do
  let model ← modelOf b.model
  if b.messages.isEmpty then throw .noMessages
  pure {
    dialect := .messages
    model
    messages := b.messages.map Item.message
    system := systemOf b.system
    stream := b.stream
    maxTokens := b.maxTokens
    temperature := b.temperature
    tools := b.tools.map messagesTool }

/-- The request that a tree makes in a dialect, unless it is no body of that dialect. -/
def requestOfTree (dialect : Dialect) (t : Json.Tree) : Option (Except Objection Request) :=
  match dialect with
  | .chat => (chatBody t Json.depthLimit).map ChatBody.request
  | .responses => (responsesBody t Json.depthLimit).map ResponsesBody.request
  | .messages => (messagesBody t Json.depthLimit).map MessagesBody.request

/-- The request that the bytes of a body make in a dialect. -/
def requestOf (dialect : Dialect) (body : List UInt8) : Except Objection Request :=
  match (Json.Tree.ofSymbols? (Text.Utf8.read body)).bind (requestOfTree dialect) with
  | some made => made
  | none => .error (.unreadable (diagnosis dialect body))

end DialectGateway.Intake
