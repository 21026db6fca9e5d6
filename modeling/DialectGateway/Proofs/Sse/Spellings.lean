/-
# Proofs.Sse.Spellings — one list of frames, many spellings

A stream of frames may be spelled with a line feed at the end of each line, or with a carriage
return and a line feed, and comments may stand before any line that says something. All of these
are read as the frames that were written (`framesOfText_respelled`).

None of this depends on how the text came about. Returns before the line feeds of any text are
left out again when its breaks are unified (`unifyBreaks_returned`). A comment that is put into any
text at the start of a line that says something changes no block but the one of this line, and of
that block nothing that it says (`framesOf_comment`): cutting a text into blocks and into lines
goes on afresh at the start of a line (`blocks_lineStart`, `lines_lineStart`).
-/
import DialectGateway.Proofs.Sse.RoundTrip
import Mathlib.Logic.Relation

set_option autoImplicit false

namespace DialectGateway

namespace Text

/-! ## At the start of a line -/

/-- What follows the text starts a line. -/
def LineStart (before : List Char) : Prop := before = [] ∨ before.getLast? = some '\n'

namespace LineStart

variable {before : List Char}

theorem of_cons {c : Char} (start : LineStart (c :: before)) (some_ : before ≠ []) :
    LineStart before := by
  refine .inr ?_
  cases before with
  | nil => exact absurd rfl some_
  | cons d before =>
      have last := start.resolve_left (List.cons_ne_nil _ _)
      rwa [List.getLast?_cons_cons] at last

theorem eq_append (start : LineStart before) (some_ : before ≠ []) :
    ∃ line, before = line ++ ['\n'] :=
  List.getLast?_eq_some_iff.1 (start.resolve_left some_)

end LineStart

/-- Breaks are unified afresh at the start of a line. -/
theorem unifyBreaks_lineStart {before : List Char} (start : LineStart before) :
    ∃ before', LineStart before' ∧ ∀ rest,
      unifyBreaks (before ++ rest) = before' ++ unifyBreaks rest := by
  by_cases none_ : before = []
  · exact ⟨[], .inl rfl, fun rest => by rw [none_]; rfl⟩
  · obtain ⟨line, rfl⟩ := start.eq_append none_
    obtain ⟨line', unified⟩ := unifyBreaks_append line
    refine ⟨line' ++ ['\n'], .inr (by simp), fun rest => ?_⟩
    rw [List.append_assoc, List.append_assoc]
    exact unified rest

theorem splitAt_append (sep : Char) (before rest : List Char) :
    splitAt sep (before ++ sep :: rest) = splitAt sep before ++ splitAt sep rest := by
  induction before with
  | nil => simp [splitAt]
  | cons c before ih =>
      rw [List.cons_append, splitAt, splitAt, ih]
      split
      · rfl
      · exact consFirst_append c (splitAt_ne_nil sep before) _

/-- A line feed ends all lines before it. -/
theorem lines_append_feed (before rest : List Char) :
    lines (before ++ '\n' :: rest) = (splitAt '\n' before).map chomp ++ lines rest := by
  have some_ := splitAt_ne_nil '\n' rest
  simp only [lines, splitAt_append, List.dropLast_append_of_ne_nil some_, List.map_append,
    List.append_assoc]
  rw [List.getLast?_append, List.getLast?_eq_some_getLast some_, Option.some_or]

/-- Lines are cut afresh at the start of a line. -/
theorem lines_lineStart {before : List Char} (start : LineStart before) :
    ∃ ls, ∀ rest, lines (before ++ rest) = ls ++ lines rest := by
  by_cases none_ : before = []
  · exact ⟨[], fun rest => by rw [none_]; rfl⟩
  · obtain ⟨line, rfl⟩ := start.eq_append none_
    refine ⟨(splitAt '\n' line).map chomp, fun rest => ?_⟩
    rw [List.append_assoc, List.singleton_append, lines_append_feed]

/-- Blocks are cut afresh at the start of a line that is not blank: what was cut so far stays, and
an unfinished block goes on. -/
theorem blocks_lineStart {before : List Char} (start : LineStart before) :
    ∃ parts part, (LineStart part ∧ (part = [] → parts = [] → before = [])) ∧
      ∀ rest first others, rest.head? ≠ some '\n' → blocks rest = first :: others →
        blocks (before ++ rest) = parts ++ (part ++ first) :: others := by
  fun_induction blocks before with
  | case1 cs ih =>
      have later : LineStart cs := by
        by_cases none_ : cs = []
        · exact .inl none_
        · exact (start.of_cons (List.cons_ne_nil _ _)).of_cons none_
      obtain ⟨parts, part, ⟨kept, -⟩, cut⟩ := ih later
      refine ⟨[] :: parts, part, ⟨kept, by simp⟩, fun rest first others visible here => ?_⟩
      rw [List.cons_append, List.cons_append, blocks, cut rest first others visible here]
      rfl
  | case2 c cs apart ih =>
      by_cases none_ : cs = []
      · subst none_
        have feed : c = '\n' := by simpa [LineStart] using start
        subst feed
        refine ⟨[], ['\n'], ⟨.inr rfl, by simp⟩, fun rest first others visible here => ?_⟩
        exact Sse.blocks_lineFeed visible here
      · obtain ⟨parts, part, ⟨kept, nonempty⟩, cut⟩ := ih (start.of_cons none_)
        have next (rest : List Char) :
            blocks (c :: cs ++ rest) = consFirst c (blocks (cs ++ rest)) := by
          rw [List.cons_append, blocks]
          intro more feed pair
          cases cs with
          | nil => exact none_ rfl
          | cons d cs =>
              obtain ⟨rfl, -⟩ := List.cons.inj pair
              exact apart cs feed rfl
        cases parts with
        | nil =>
            have last := kept.resolve_left fun empty => none_ (nonempty empty rfl)
            refine ⟨[], c :: part, ⟨.inr ?_, by simp⟩, fun rest first others visible here => ?_⟩
            · rw [List.getLast?_cons, last]
              rfl
            · rw [next, cut rest first others visible here]
              rfl
        | cons p parts =>
            refine ⟨(c :: p) :: parts, part, ⟨kept, by simp⟩,
              fun rest first others visible here => ?_⟩
            rw [next, cut rest first others visible here]
            rfl
  | case3 =>
      exact ⟨[], [], ⟨.inl rfl, fun _ _ => rfl⟩, fun rest first others visible here => here⟩

/-! ## Returns before line feeds -/

/-- The text with a carriage return before each line feed. -/
def returned (cs : List Char) : List Char :=
  cs.flatMap fun c => if c = '\n' then ['\r', '\n'] else [c]

theorem returned_cons_feed (cs : List Char) : returned ('\n' :: cs) = '\r' :: '\n' :: returned cs :=
  rfl

theorem returned_cons {c : Char} (visible : c ≠ '\n') (cs : List Char) :
    returned (c :: cs) = c :: returned cs := by
  simp [returned, visible]

theorem head?_returned (cs : List Char) : (returned cs).head? ≠ some '\n' := by
  cases cs with
  | nil => simp [returned]
  | cons c cs =>
      by_cases feed : c = '\n'
      · rw [feed, returned_cons_feed]
        simp
      · rw [returned_cons feed]
        simpa using feed

/-- **Unifying the breaks undoes the returns**, whatever returns the text had itself. -/
theorem unifyBreaks_returned (cs : List Char) : unifyBreaks (returned cs) = cs := by
  induction cs with
  | nil => rfl
  | cons c cs ih =>
      by_cases feed : c = '\n'
      · rw [feed, returned_cons_feed, unifyBreaks, ih]
      · rw [returned_cons feed, unifyBreaks, ih]
        rintro rest - pair
        exact head?_returned cs (by rw [pair]; rfl)

theorem unifyBreaks_return {line : List Char} (noFeed : '\n' ∉ line) (rest : List Char) :
    unifyBreaks (line ++ '\r' :: '\n' :: rest) = line ++ '\n' :: unifyBreaks rest := by
  induction line with
  | nil => rw [List.nil_append, unifyBreaks, List.nil_append]
  | cons c line ih =>
      rw [List.cons_append, unifyBreaks, ih fun member => noFeed (by simp [member])]
      · rfl
      · intro more _ pair
        cases line with
        | nil => exact absurd (List.cons.inj pair).1 (by decide)
        | cons d line =>
            obtain ⟨rfl, -⟩ := List.cons.inj pair
            exact noFeed (by simp)

/-- Of a line only a return at its end is left out. -/
theorem unifyBreaks_chomp {line : List Char} (noFeed : '\n' ∉ line) (rest : List Char) :
    unifyBreaks (line ++ '\n' :: rest) = chomp line ++ '\n' :: unifyBreaks rest := by
  by_cases ret : line.getLast? = some '\r'
  · obtain ⟨line, rfl⟩ := List.getLast?_eq_some_iff.1 ret
    rw [chomp, if_pos ret, List.dropLast_concat, List.append_assoc, List.singleton_append]
    exact unifyBreaks_return (fun member => noFeed (by simp [member])) rest
  · rw [chomp, if_neg ret]
    exact Sse.unifyBreaks_line noFeed ret rest

end Text

namespace Sse

open Text

/-! ## Comments -/

/-- A line that says nothing. -/
structure IsComment (line : List Char) : Prop where
  colon : line.head? = some ':'
  noFeed : '\n' ∉ line

/-- The text goes on with a line that names an event or holds data. -/
def Says (rest : List Char) : Prop := Frame.eventLead <+: rest ∨ Frame.dataLead <+: rest

theorem IsComment.chomp {line : List Char} (comment : IsComment line) : IsComment (chomp line) := by
  obtain ⟨colon, noFeed⟩ := comment
  rw [Text.chomp]
  split
  · next ret =>
    obtain ⟨line, rfl⟩ := List.getLast?_eq_some_iff.1 ret
    rw [List.dropLast_concat]
    refine ⟨?_, fun member => noFeed (by simp [member])⟩
    cases line with
    | nil => exact absurd colon (by decide)
    | cons c line => exact colon
  · exact ⟨colon, noFeed⟩

/-- A comment adds nothing to its block. -/
theorem line_comment {line : List Char} (comment : IsComment line) (b : Block) :
    b.line line = b := by
  obtain ⟨colon, -⟩ := comment
  cases line with
  | nil => exact absurd colon (by decide)
  | cons c line =>
      obtain rfl : c = ':' := by simpa using colon
      rfl

theorem lines_cons {line : List Char} (noFeed : '\n' ∉ line) (rest : List Char) :
    lines (line ++ '\n' :: rest) = chomp line :: lines rest := by
  have nothing : splitAt '\n' [] = [[]] := rfl
  have alone : splitAt '\n' line = [line] := by simpa using splitAt_line noFeed nothing
  rw [lines_append_feed, alone]
  rfl

/-- A block says the same without a comment. -/
theorem ofChars_comment {before line : List Char} (start : LineStart before)
    (comment : IsComment line) (rest : List Char) :
    Block.ofChars (before ++ (line ++ '\n' :: rest)) = Block.ofChars (before ++ rest) := by
  obtain ⟨ls, cut⟩ := lines_lineStart start
  rw [Block.ofChars, Block.ofChars, cut, cut, lines_cons comment.noFeed, List.foldl_append,
    List.foldl_append, List.foldl_cons, line_comment comment.chomp]

/-- **A comment before a line that is not blank changes no frame**, once breaks are unified. -/
theorem framesOfBlocks_comment {before line rest : List Char} (start : LineStart before)
    (comment : IsComment line) (visible : rest.head? ≠ some '\n') :
    framesOfBlocks (blocks (before ++ (line ++ '\n' :: rest))) =
      framesOfBlocks (blocks (before ++ rest)) := by
  obtain ⟨parts, part, ⟨kept, -⟩, cut⟩ := blocks_lineStart start
  cases here : blocks rest with
  | nil => exact absurd here (blocks_ne_nil rest)
  | cons first others =>
      have remarked : blocks (line ++ '\n' :: rest) = (line ++ '\n' :: first) :: others :=
        blocks_line comment.noFeed (blocks_lineFeed visible here)
      have visible' : (line ++ '\n' :: rest).head? ≠ some '\n' := by
        rw [List.head?_append, comment.colon]
        simp
      rw [cut _ _ _ visible' remarked, cut _ _ _ visible here]
      simp only [framesOfBlocks, List.filterMap_append, List.filterMap_cons,
        ofChars_comment kept comment]

theorem Says.visible {rest : List Char} (telling : Says rest) : rest.head? ≠ some '\n' := by
  rcases telling with ⟨more, rfl⟩ | ⟨more, rfl⟩ <;> simp [Frame.eventLead, Frame.dataLead]

/-- Unifying the breaks leaves what a line begins with. -/
theorem Says.visible_unified {rest : List Char} (telling : Says rest) :
    (unifyBreaks rest).head? ≠ some '\n' := by
  rcases telling with ⟨more, rfl⟩ | ⟨more, rfl⟩ <;>
    simp [Frame.eventLead, Frame.dataLead, unifyBreaks]

/-- **A comment before a line that says something changes no frame**, whatever the text. -/
theorem framesOf_comment {before line rest : List Char} (start : LineStart before)
    (comment : IsComment line) (telling : Says rest) :
    framesOf (before ++ (line ++ '\n' :: rest)) = framesOf (before ++ rest) := by
  obtain ⟨before', start', unified⟩ := unifyBreaks_lineStart start
  show framesOfBlocks (blocks (unifyBreaks _)) = framesOfBlocks (blocks (unifyBreaks _))
  rw [unified, unified, unifyBreaks_chomp comment.noFeed]
  exact framesOfBlocks_comment start' comment.chomp telling.visible_unified

/-! ## Respelled streams -/

open Relation (ReflTransGen)

/-- A comment has been put before a line that says something. -/
inductive Remarked : List Char → List Char → Prop
  | comment {before line rest : List Char} (start : LineStart before) (comment : IsComment line)
      (telling : Says rest) : Remarked (before ++ rest) (before ++ (line ++ '\n' :: rest))

/-- What no comment changes, any number of comments leaves as it is. -/
theorem Remarked.constant {A : Type} {r : List Char → A}
    (each : ∀ {text text'}, Remarked text text' → r text' = r text) {text text' : List Char}
    (run : ReflTransGen Remarked text text') : r text' = r text := by
  induction run with
  | refl => rfl
  | tail _ step ih => exact (each step).trans ih

theorem framesOf_remarked {text text' : List Char} (run : ReflTransGen Remarked text text') :
    framesOf text' = framesOf text := by
  refine Remarked.constant (fun step => ?_) run
  cases step with
  | comment start comment telling => exact framesOf_comment start comment telling

theorem framesOfBlocks_remarked {text text' : List Char} (run : ReflTransGen Remarked text text') :
    framesOfBlocks (blocks text') = framesOfBlocks (blocks text) := by
  refine Remarked.constant (r := fun text => framesOfBlocks (blocks text)) (fun step => ?_) run
  cases step with
  | comment start comment telling => exact framesOfBlocks_comment start comment telling.visible

/-- A text with a return before each line feed is read as the text whose breaks need no unifying. -/
theorem framesOf_returned (text : List Char) :
    framesOf (returned text) = framesOfBlocks (blocks text) := by
  show framesOfBlocks (blocks (unifyBreaks (returned text))) = _
  rw [unifyBreaks_returned]

theorem unifyBreaks_wires {frames : List Frame} (fit : ∀ f ∈ frames, f.FitsLines) :
    unifyBreaks (String.join (frames.map Frame.wire)).toList =
      (String.join (frames.map Frame.wire)).toList := by
  induction frames with
  | nil => rfl
  | cons f rest ih =>
      rw [List.map_cons, String.join_cons, String.toList_append, Frame.wire, String.toList_ofList,
        f.wireChars_eq, unifyBreaks_spelled (isLine_wireLines (fit f (by simp))),
        ih fun f' member => fit f' (by simp [member])]

/-- **Frames are read back from every spelling.** If the data of frames are lines that do not end
in a return, and event names are lines without blanks at their ends, the frames written one after
another are read back as they are; also with a return before each line feed, with any comments
before lines that name an event or hold data, and with both, whichever came first. -/
theorem framesOfText_respelled {frames : List Frame}
    (data : ∀ f ∈ frames, '\n' ∉ f.data.toList ∧ f.data.toList.getLast? ≠ some '\r')
    (event : ∀ f ∈ frames, ∀ name, f.event = some name → '\n' ∉ name.toList ∧
      ∀ c, name.toList.head? = some c ∨ name.toList.getLast? = some c → isBlank c = false) :
    let text := String.join (frames.map Frame.wire)
    framesOfText text = frames ∧
    framesOfText (String.ofList (returned text.toList)) = frames ∧
    (∀ text', ReflTransGen Remarked text.toList text' →
      framesOfText (String.ofList text') = frames ∧
      framesOfText (String.ofList (returned text')) = frames) ∧
    ∀ text', ReflTransGen Remarked (returned text.toList) text' →
      framesOfText (String.ofList text') = frames := by
  intro text
  have fit : ∀ f ∈ frames, f.FitsLines := fun f member =>
    ⟨(data f member).1, (data f member).2, fun name named =>
      ⟨(event f member name named).1, trim_eq_self (event f member name named).2⟩⟩
  have plain : framesOf text.toList = frames := framesOfText_wires fit
  have unified : framesOfBlocks (blocks text.toList) = frames := by
    have same : framesOf text.toList = framesOfBlocks (blocks (unifyBreaks text.toList)) := rfl
    rwa [unifyBreaks_wires fit, plain, eq_comm] at same
  have framesOfText_ofList (cs : List Char) : framesOfText (String.ofList cs) = framesOf cs := by
    rw [framesOfText, String.toList_ofList]
  simp only [framesOfText_ofList, framesOf_returned]
  refine ⟨plain, unified, fun text' run => ⟨?_, ?_⟩, fun text' run => ?_⟩
  · exact (framesOf_remarked run).trans plain
  · exact (framesOfBlocks_remarked run).trans unified
  · exact (framesOf_remarked run).trans ((framesOf_returned _).trans unified)

/-- An empty event name, data that look like a data line, and no data at all. -/
def tricky : List Frame := [⟨some "", "data: 1"⟩, ⟨none, ""⟩]

/-- They are read back with a comment between event name and data, and with returns. -/
theorem framesOfText_respelled_tricky :
    (∀ f ∈ tricky, '\n' ∉ f.data.toList ∧ f.data.toList.getLast? ≠ some '\r') ∧
    (∀ f ∈ tricky, ∀ name, f.event = some name → '\n' ∉ name.toList ∧
      ∀ c, name.toList.head? = some c ∨ name.toList.getLast? = some c → isBlank c = false) ∧
    framesOfText "event: \r\n: hi\r\ndata: data: 1\r\n\r\ndata: \r\n\r\n" = tricky := by
  have data : ∀ f ∈ tricky, '\n' ∉ f.data.toList ∧ f.data.toList.getLast? ≠ some '\r' := by decide
  have event : ∀ f ∈ tricky, ∀ name, f.event = some name → '\n' ∉ name.toList ∧
      ∀ c, name.toList.head? = some c ∨ name.toList.getLast? = some c → isBlank c = false := by
    simp [tricky]
  obtain ⟨-, -, remarked, -⟩ := framesOfText_respelled data event
  have comment : Remarked (String.join (tricky.map Frame.wire)).toList
      "event: \n: hi\ndata: data: 1\n\ndata: \n\n".toList :=
    @Remarked.comment "event: \n".toList ": hi".toList "data: data: 1\n\ndata: \n\n".toList
      (.inr rfl) ⟨rfl, by decide⟩ (.inr (by decide))
  exact ⟨data, event, (remarked _ (.single comment)).2⟩

end Sse
end DialectGateway
