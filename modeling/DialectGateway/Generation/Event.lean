/-
# Generation.Event — what a backend says while it generates

An event is one increment: deltas for some choices, possibly token counts, or a
fault instead. `Event.outputs` lists what an event adds to the reply, choice by
choice: reasoning, then content, then tool fragments. Empty texts are no output.
-/

set_option autoImplicit false

namespace DialectGateway

/-- Why generation ended. -/
inductive Finish where
  | stop
  | length
  | toolCalls
  | contentFilter
  | other (reason : String)
  deriving DecidableEq, Repr

namespace Finish

def word : Finish → String
  | .stop => "stop"
  | .length => "length"
  | .toolCalls => "tool_calls"
  | .contentFilter => "content_filter"
  | .other reason => reason

/-- The reason with exactly this word. -/
def ofWord (s : String) : Finish :=
  if s = "stop" then .stop
  else if s = "length" then .length
  else if s = "tool_calls" then .toolCalls
  else if s = "content_filter" then .contentFilter
  else .other s

/-- The reason a backend gives; the older word for tool calls counts as well. -/
def ofBackendWord (s : String) : Finish :=
  if s = "function_call" then .toolCalls else ofWord s

theorem word_ofWord (s : String) : (ofWord s).word = s := by
  grind [ofWord, word]

theorem word_ofBackendWord (s : String) :
    (ofBackendWord s).word = if s = "function_call" then "tool_calls" else s := by
  unfold ofBackendWord
  split
  · rfl
  · exact word_ofWord s

/-- No reason of its own has the older word for tool calls. -/
theorem word_eq_older_iff (f : Finish) : f.word = "function_call" ↔ f = .other "function_call" := by
  cases f <;> simp [word]

end Finish

/-- Token counts. -/
structure Tokens where
  input : UInt32 := 0
  output : UInt32 := 0
  deriving DecidableEq, Repr

instance : Inhabited Tokens := ⟨{}⟩

def Tokens.total (t : Tokens) : UInt32 := t.input + t.output

/-- What went wrong at the backend. -/
structure Fault where
  message : String
  kind : String := "api_error"
  code : Option String := none
  deriving DecidableEq, Repr

/-- A part of one tool call; `slot` tells the calls of a choice apart. -/
structure ToolFragment where
  slot : UInt32
  id : Option String := none
  name : Option String := none
  arguments : Option String := none
  deriving DecidableEq, Repr

/-- The arguments a fragment adds, if any. -/
def ToolFragment.addition (f : ToolFragment) : String := f.arguments.getD ""

/-- What one choice gains. -/
structure Choice where
  index : UInt32
  role : Option String := none
  content : Option String := none
  reasoning : Option String := none
  tools : List ToolFragment := []
  finish : Option Finish := none
  deriving DecidableEq, Repr

/-- One piece of generated output. -/
inductive Output where
  | reasoning (text : String)
  | content (text : String)
  | tool (fragment : ToolFragment)
  deriving DecidableEq, Repr

namespace Choice

/-- A text as output, unless it is absent or empty. -/
def textOutput (form : String → Output) : Option String → List Output
  | some text => if text.isEmpty then [] else [form text]
  | none => []

def outputs (c : Choice) : List Output :=
  textOutput .reasoning c.reasoning ++ textOutput .content c.content ++ c.tools.map .tool

def hasOutput (c : Choice) : Bool :=
  c.content.any (!·.isEmpty) || c.reasoning.any (!·.isEmpty) || !c.tools.isEmpty

def isEmpty (c : Choice) : Bool := !c.hasOutput && c.finish.isNone

theorem textOutput_eq_nil_iff (form : String → Output) (text : Option String) :
    textOutput form text = [] ↔ text.any (!·.isEmpty) = false := by
  cases text with
  | none => simp [textOutput]
  | some text => by_cases h : text.isEmpty <;> simp [textOutput, h]

theorem outputs_eq_nil_iff (c : Choice) : c.outputs = [] ↔ c.hasOutput = false := by
  simp only [outputs, hasOutput, List.append_eq_nil_iff, textOutput_eq_nil_iff,
    List.map_eq_nil_iff, Bool.or_eq_false_iff, Bool.not_eq_false', List.isEmpty_iff]
  constructor
  · rintro ⟨⟨r, c⟩, t⟩
    exact ⟨⟨c, r⟩, t⟩
  · rintro ⟨⟨c, r⟩, t⟩
    exact ⟨⟨r, c⟩, t⟩

end Choice

structure Event where
  id : String := ""
  model : String := ""
  created : Int64 := 0
  choices : List Choice := []
  usage : Option Tokens := none
  fault : Option Fault := none
  deriving DecidableEq, Repr

instance : Inhabited Event := ⟨{}⟩

namespace Event

def ofFault (fault : Fault) : Event := { fault := some fault }

/-- An event that says nothing at all. -/
def isEmpty (e : Event) : Bool :=
  e.fault.isNone && e.usage.isNone && e.choices.all Choice.isEmpty

/-- The first reason to end among the choices. -/
def finish (e : Event) : Option Finish := e.choices.findSome? Choice.finish

def outputs (e : Event) : List Output := e.choices.flatMap Choice.outputs

def hasOutput (e : Event) : Bool := e.choices.any Choice.hasOutput

def withChoice (e : Event) (c : Choice) : Event := { e with choices := e.choices ++ [c] }

def text (index : UInt32) (text : String) : Choice := { index, content := some text }

def ending (index : UInt32) (reason : Finish) : Choice := { index, finish := some reason }

theorem outputs_eq_nil_iff (e : Event) : e.outputs = [] ↔ e.hasOutput = false := by
  simp [outputs, hasOutput, List.flatMap_eq_nil_iff, Choice.outputs_eq_nil_iff]

end Event
end DialectGateway
