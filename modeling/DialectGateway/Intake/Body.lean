/-
# Intake.Body — request bodies of the three dialects
-/
import DialectGateway.Intake.Content

set_option autoImplicit false

namespace DialectGateway.Intake

open Json (Tree)
open Decimal (Single)

structure ChatBody where
  model : String := ""
  messages : List Item := []
  stream : Bool := false
  maxTokens : Option UInt32 := none
  maxCompletionTokens : Option UInt32 := none
  temperature : Option Single := none
  tools : List Json := []
  deriving Repr

/-- The input of a response: a prompt of the user's, or items. -/
inductive Input where
  | text (s : String)
  | items (is : List Item)
  deriving DecidableEq, Repr

structure ResponsesBody where
  model : String := ""
  input : Option Input := none
  instructions : Option String := none
  stream : Bool := false
  maxOutputTokens : Option UInt32 := none
  temperature : Option Single := none
  tools : List Json := []
  deriving Repr

structure MessagesBody where
  model : String := ""
  messages : List Item := []
  system : Option Content := none
  stream : Bool := false
  maxTokens : Option UInt32 := none
  temperature : Option Single := none
  tools : List Json := []
  deriving Repr

def chatBody : Reader ChatBody := fun t room => do
  let names := ["model", "messages", "stream", "max_tokens", "max_completion_tokens",
    "temperature", "tools"]
  match ← structure? names t room with
  | ([model, messages, stream, maxTokens, maxCompletion, temperature, tools], room) => do
    pure {
      model := ← optional model "" text room
      messages := ← optional messages [] (listOf message) room
      stream := ← optional stream false flag room
      maxTokens := ← optional maxTokens none (nullable word) room
      maxCompletionTokens := ← optional maxCompletion none (nullable word) room
      temperature := ← optional temperature none (nullable single) room
      tools := ← optional tools [] (listOf value) room }
  | _ => none

def input? : Tree → Option Input
  | .list items => (items.mapM inputItem?).map .items
  | t => (text t 0).map .text

def responsesBody : Reader ResponsesBody := fun t room => do
  let names := ["model", "input", "instructions", "stream", "max_output_tokens", "temperature",
    "tools"]
  match ← structure? names t room with
  | ([model, input, instructions, stream, maxOutput, temperature, tools], room) => do
    pure {
      model := ← optional model "" text room
      input := ← optional input none (nullable (whole input?)) room
      instructions := ← optional instructions none (nullable text) room
      stream := ← optional stream false flag room
      maxOutputTokens := ← optional maxOutput none (nullable word) room
      temperature := ← optional temperature none (nullable single) room
      tools := ← optional tools [] (listOf value) room }
  | _ => none

def messagesBody : Reader MessagesBody := fun t room => do
  let names := ["model", "messages", "system", "stream", "max_tokens", "temperature", "tools"]
  match ← structure? names t room with
  | ([model, messages, system, stream, maxTokens, temperature, tools], room) => do
    pure {
      model := ← optional model "" text room
      messages := ← optional messages [] (listOf message) room
      system := ← optional system none (nullable content) room
      stream := ← optional stream false flag room
      maxTokens := ← optional maxTokens none (nullable word) room
      temperature := ← optional temperature none (nullable single) room
      tools := ← optional tools [] (listOf value) room }
  | _ => none

end DialectGateway.Intake
