/-
# Sse.Reader — frames from a text

A text is cut at its blank lines, and a block that has a data line is a frame.
The last event line names the event, the data lines are joined by line feeds,
and every other line is a comment. Lines may end in a carriage return and a line
feed.
-/
import DialectGateway.Sse.Frame
import DialectGateway.Text.Blank
import DialectGateway.Text.Split

set_option autoImplicit false

namespace DialectGateway.Sse

open Text

/-- What the lines of a block have said so far, the data lines last first. -/
structure Block where
  event : Option (List Char) := none
  data : List (List Char) := []
  deriving Repr

namespace Block

/-- The data of a line without the one space that may follow the colon. -/
def dataOf : List Char → List Char
  | ' ' :: rest => rest
  | rest => rest

def line (b : Block) (line : List Char) : Block :=
  match after? Frame.eventLead line with
  | some rest => { b with event := some (trim rest) }
  | none =>
    match after? Frame.dataLead line with
    | some rest => { b with data := dataOf rest :: b.data }
    | none => b

/-- The frame of a block; a block without data has none. -/
def frame? (b : Block) : Option Frame :=
  if b.data.isEmpty then none
  else some ⟨b.event.map String.ofList, String.ofList (joinWith ['\n'] b.data.reverse)⟩

def ofChars (cs : List Char) : Block := (lines cs).foldl line {}

end Block

/-- The frames of a text. -/
def framesOf (cs : List Char) : List Frame :=
  (blocks (unifyBreaks cs)).filterMap fun cs => (Block.ofChars cs).frame?

def framesOfText (s : String) : List Frame := framesOf s.toList

/-! ## Reading in parts -/

/-- The frames of the blocks of a text. -/
def framesOfBlocks (parts : List (List Char)) : List Frame :=
  parts.filterMap fun cs => (Block.ofChars cs).frame?

theorem framesOfBlocks_append (left right : List (List Char)) :
    framesOfBlocks (left ++ right) = framesOfBlocks left ++ framesOfBlocks right :=
  List.filterMap_append

/-- Blank line at the start of a block says nothing. -/
theorem ofChars_lineFeed (cs : List Char) : Block.ofChars ('\n' :: cs) = Block.ofChars cs := by
  rw [Block.ofChars, lines_lineFeed]
  rfl

theorem framesOfBlocks_lineFeed (cs : List Char) :
    framesOfBlocks (blocks ('\n' :: cs)) = framesOfBlocks (blocks cs) := by
  induction cs with
  | nil => rfl
  | cons c cs ih =>
    by_cases feed : c = '\n'
    · subst feed
      rw [ih, blocks]
      rfl
    · have apart : blocks ('\n' :: c :: cs) = consFirst '\n' (blocks (c :: cs)) := by
        rw [blocks]
        intro _ _ same
        exact feed (List.cons.inj same).1
      rw [apart]
      cases parts : blocks (c :: cs) with
      | nil => exact absurd parts (blocks_ne_nil _)
      | cons part parts =>
        simp only [consFirst, framesOfBlocks, List.filterMap_cons, ofChars_lineFeed]


/-- **Frames may be read in parts wherever a blank line stands.** -/
theorem framesOf_append (before after : List Char) :
    framesOf (before ++ '\n' :: '\n' :: after) =
      framesOf (before ++ ['\n', '\n']) ++ framesOf after := by
  obtain ⟨unified, kept⟩ := unifyBreaks_append before
  obtain ⟨parts, tail, _, short, cut⟩ := blocks_append unified
  have whole (after : List Char) : framesOf (before ++ '\n' :: '\n' :: after) =
      framesOfBlocks parts ++ framesOf after := by
    have second : unifyBreaks ('\n' :: after) = '\n' :: unifyBreaks after := by
      rw [unifyBreaks]
      simp
    show framesOfBlocks (blocks (unifyBreaks _)) = _ ++ framesOfBlocks (blocks (unifyBreaks after))
    rw [kept, second, cut, framesOfBlocks_append]
    rcases short with rfl | rfl
    · rfl
    · exact congrArg _ (framesOfBlocks_lineFeed _)
  have nothing : framesOf [] = [] := rfl
  rw [whole, whole [], nothing, List.append_nil]

end DialectGateway.Sse
