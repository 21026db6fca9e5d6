/-
# Proofs.Sse.RoundTrip — frames written one after another are read as they are

On the wire a frame is a few lines and a blank one. A text that is a line, that is one that
is not empty, has no line feed and does not end in a carriage return (`IsLine`), is cut out
of such a block as it was put in, so a block reads as what its lines say
(`framesOf_spelled`). A frame whose event name and data fit on lines is therefore read back
from its wire form, and since a blank line ends it for good, so are frames one after another
(`framesOfText_wires`).
-/
import DialectGateway.Sse.Reader

set_option autoImplicit false

namespace DialectGateway.Sse

open Text

/-! ## Lines and blocks -/

/-- A text that keeps its shape on a line of its own. -/
structure IsLine (cs : List Char) : Prop where
  some_ : cs ≠ []
  noFeed : '\n' ∉ cs
  noReturn : cs.getLast? ≠ some '\r'

/-- A block: each line with its line feed, and a blank line. -/
def spelled (ls : List (List Char)) : List Char := ls.flatMap (· ++ ['\n']) ++ ['\n']

theorem spelled_cons (l : List Char) (ls : List (List Char)) :
    spelled (l :: ls) = l ++ '\n' :: spelled ls := by
  simp [spelled]

theorem unifyBreaks_lineFeed (cs : List Char) :
    unifyBreaks ('\n' :: cs) = '\n' :: unifyBreaks cs := by
  rw [unifyBreaks]
  simp

/-- The break behind a line that does not end in a carriage return stays as it is. -/
theorem unifyBreaks_line {line : List Char} (noFeed : '\n' ∉ line)
    (noReturn : line.getLast? ≠ some '\r') (rest : List Char) :
    unifyBreaks (line ++ '\n' :: rest) = line ++ '\n' :: unifyBreaks rest := by
  induction line with
  | nil => exact unifyBreaks_lineFeed rest
  | cons c line ih =>
      have apart : ∀ cs, c = '\r' → line ++ '\n' :: rest = '\n' :: cs → False := by
        intro cs ret split
        cases line with
        | nil => exact noReturn (by rw [ret]; rfl)
        | cons d line =>
            obtain ⟨rfl, _⟩ := List.cons.inj split
            exact noFeed (by simp)
      have later : line.getLast? ≠ some '\r' := by
        cases line with
        | nil => simp
        | cons d line => rwa [List.getLast?_cons_cons] at noReturn
      rw [List.cons_append, unifyBreaks, ih (fun member => noFeed (by simp [member])) later]
      · rfl
      · exact apart

theorem unifyBreaks_spelled {ls : List (List Char)} (each : ∀ l ∈ ls, IsLine l)
    (rest : List Char) : unifyBreaks (spelled ls ++ rest) = spelled ls ++ unifyBreaks rest := by
  induction ls with
  | nil => exact unifyBreaks_lineFeed rest
  | cons l ls ih =>
      have line := each l (by simp)
      rw [spelled_cons, List.append_assoc, List.cons_append,
        unifyBreaks_line line.noFeed line.noReturn, ih fun l' member => each l' (by simp [member]),
        List.append_assoc, List.cons_append]

/-- A line without line feeds stands before the first block of what follows. -/
theorem blocks_line {line : List Char} (noFeed : '\n' ∉ line) {rest : List Char}
    {first : List Char} {others : List (List Char)} (cut : blocks rest = first :: others) :
    blocks (line ++ rest) = (line ++ first) :: others := by
  induction line with
  | nil => exact cut
  | cons c line ih =>
      have visible : c ≠ '\n' := fun feed => noFeed (by simp [feed])
      rw [List.cons_append, blocks, ih fun member => noFeed (by simp [member])]
      · rfl
      · exact fun _ feed _ => visible feed

/-- A line feed before more text does not cut it. -/
theorem blocks_lineFeed {cs : List Char} (visible : cs.head? ≠ some '\n') {first : List Char}
    {others : List (List Char)} (cut : blocks cs = first :: others) :
    blocks ('\n' :: cs) = ('\n' :: first) :: others := by
  rw [blocks, cut]
  · rfl
  · rintro rest _ rfl
    exact visible rfl

/-- The lines of a block are its only part but an empty one. -/
theorem blocks_spelled {ls : List (List Char)} (some_ : ls ≠ []) (each : ∀ l ∈ ls, IsLine l) :
    blocks (spelled ls) = [joinWith ['\n'] ls, []] := by
  induction ls with
  | nil => exact absurd rfl some_
  | cons l ls ih =>
      have line := each l (by simp)
      rw [spelled_cons]
      cases ls with
      | nil =>
          have blank : blocks ('\n' :: spelled []) = [[], []] := rfl
          rw [blocks_line line.noFeed blank, List.append_nil]
          rfl
      | cons next ls =>
          have later := ih (by simp) fun l' member => each l' (by simp [member])
          have visible : (spelled (next :: ls)).head? ≠ some '\n' := by
            have more := each next (by simp)
            cases next with
            | nil => exact absurd rfl more.some_
            | cons c next =>
                rw [spelled_cons]
                rintro ⟨rfl⟩
                exact more.noFeed List.mem_cons_self
          rw [blocks_line line.noFeed (blocks_lineFeed visible later)]
          simp [joinWith]

theorem splitAt_line {line : List Char} (noFeed : '\n' ∉ line) {rest : List Char}
    {first : List Char} {others : List (List Char)} (cut : splitAt '\n' rest = first :: others) :
    splitAt '\n' (line ++ rest) = (line ++ first) :: others := by
  induction line with
  | nil => exact cut
  | cons c line ih =>
      have visible : c ≠ '\n' := fun feed => noFeed (by simp [feed])
      rw [List.cons_append, splitAt, if_neg visible, ih fun member => noFeed (by simp [member])]
      rfl

theorem splitAt_joinWith {ls : List (List Char)} (some_ : ls ≠ [])
    (each : ∀ l ∈ ls, '\n' ∉ l) : splitAt '\n' (joinWith ['\n'] ls) = ls := by
  induction ls with
  | nil => exact absurd rfl some_
  | cons l ls ih =>
      have line := each l (by simp)
      cases ls with
      | nil =>
          have alone : splitAt '\n' [] = [[]] := rfl
          simpa [joinWith] using splitAt_line line alone
      | cons next ls =>
          have later := ih (by simp) fun l' member => each l' (by simp [member])
          have cut : splitAt '\n' ('\n' :: joinWith ['\n'] (next :: ls)) = [] :: next :: ls := by
            rw [splitAt, if_pos rfl, later]
          have whole := splitAt_line line cut
          rw [List.append_nil] at whole
          simpa [joinWith] using whole

/-- Lines that were joined are cut as they were. -/
theorem lines_joinWith {ls : List (List Char)} (some_ : ls ≠ []) (each : ∀ l ∈ ls, IsLine l) :
    lines (joinWith ['\n'] ls) = ls := by
  have kept : ls.dropLast.map chomp = ls.dropLast := by
    refine (List.map_congr_left ?_).trans (List.map_id _)
    intro l member
    rw [chomp, if_neg (each l (List.dropLast_subset ls member)).noReturn]
    rfl
  have last := (each _ (List.getLast_mem some_)).some_
  simp only [lines, splitAt_joinWith some_ fun l member => (each l member).noFeed, kept,
    List.getLast?_eq_some_getLast some_]
  simp [last, List.dropLast_concat_getLast some_]

/-- **A block reads as what its lines say.** -/
theorem framesOf_spelled {ls : List (List Char)} (some_ : ls ≠ [])
    (each : ∀ l ∈ ls, IsLine l) :
    framesOf (spelled ls) = (ls.foldl Block.line {}).frame?.toList := by
  have nothing : (Block.ofChars []).frame? = none := rfl
  have unified : unifyBreaks (spelled ls) = spelled ls := by
    simpa [unifyBreaks] using unifyBreaks_spelled each []
  rw [framesOf, unified, blocks_spelled some_ each, List.filterMap_cons,
    Block.ofChars, lines_joinWith some_ each]
  cases (ls.foldl Block.line {}).frame? <;> simp [nothing]

/-! ## Frames -/

/-- The event name and the data of a frame fit on a line each, and the name has no blanks
around it. -/
structure Frame.FitsLines (f : Frame) : Prop where
  noFeed : '\n' ∉ f.data.toList
  noReturn : f.data.toList.getLast? ≠ some '\r'
  event : ∀ name, f.event = some name → '\n' ∉ name.toList ∧ trim name.toList = name.toList

/-- The lines of a frame. -/
def Frame.wireLines (f : Frame) : List (List Char) :=
  (f.event.toList.map fun name => Frame.eventLead ++ ' ' :: name.toList) ++
    [Frame.dataLead ++ ' ' :: f.data.toList]

theorem Frame.wireChars_eq (f : Frame) : f.wireChars = spelled f.wireLines := by
  cases named : f.event <;> simp [wireChars, wireLines, spelled, named]

theorem isLine_wireLines {f : Frame} (fits : f.FitsLines) : ∀ l ∈ f.wireLines, IsLine l := by
  have led {lead cs : List Char} (some_ : lead ≠ []) (plain : '\n' ∉ lead) (noFeed : '\n' ∉ cs)
      (noReturn : cs.getLast? ≠ some '\r') : IsLine (lead ++ ' ' :: cs) := by
    refine ⟨by simp, by simp [plain, noFeed], ?_⟩
    rw [List.getLast?_append, List.getLast?_cons]
    cases last : cs.getLast? with
    | none => simp
    | some c => simpa [last] using noReturn
  intro l member
  rcases List.mem_append.1 member with event | data
  · obtain ⟨name, named, rfl⟩ := List.mem_map.1 event
    obtain ⟨noFeed, trimmed⟩ := fits.event name (by simpa using named)
    refine led (by decide) (by decide) noFeed ?_
    intro ret
    rw [← trimmed] at ret
    exact absurd (isBlank_of_getLast?_trim ret) (by decide)
  · rw [List.mem_singleton.1 data]
    exact led (by decide) (by decide) fits.noFeed fits.noReturn

theorem line_event (b : Block) (name : List Char) :
    b.line (Frame.eventLead ++ ' ' :: name) = { b with event := some (trim name) } := by
  rw [Block.line, after?_append]
  rfl

theorem line_data (b : Block) (data : List Char) :
    b.line (Frame.dataLead ++ ' ' :: data) = { b with data := data :: b.data } := by
  have other : after? Frame.eventLead (Frame.dataLead ++ ' ' :: data) = none := rfl
  rw [Block.line, other, after?_append]
  rfl

/-- The lines of a frame say what the frame says. -/
theorem foldl_wireLines {f : Frame} (fits : f.FitsLines) :
    (f.wireLines.foldl Block.line {}).frame? = some f := by
  obtain ⟨event, data⟩ := f
  cases event with
  | none =>
      simp [Frame.wireLines, line_data, Block.frame?, joinWith]
  | some name =>
      have trimmed := (fits.event name rfl).2
      simp [Frame.wireLines, line_event, line_data, Block.frame?, joinWith, trimmed]

theorem framesOf_wireChars {f : Frame} (fits : f.FitsLines) : framesOf f.wireChars = [f] := by
  have some_ : f.wireLines ≠ [] := by simp [Frame.wireLines]
  rw [f.wireChars_eq, framesOf_spelled some_ (isLine_wireLines fits), foldl_wireLines fits]
  rfl

/-- What follows a frame is read on its own. -/
theorem framesOf_wireChars_append (f : Frame) (cs : List Char) :
    framesOf (f.wireChars ++ cs) = framesOf f.wireChars ++ framesOf cs := by
  have blank : ∃ before, f.wireChars = before ++ ['\n', '\n'] := ⟨_, rfl⟩
  obtain ⟨before, ends⟩ := blank
  have parts := framesOf_append before cs
  rwa [ends, List.append_assoc]

/-- **Frames that fit on lines are read back as they were written.** -/
theorem framesOfText_wires {frames : List Frame} (fit : ∀ f ∈ frames, f.FitsLines) :
    framesOfText (String.join (frames.map Frame.wire)) = frames := by
  induction frames with
  | nil => rfl
  | cons f rest ih =>
      have later := ih fun f' member => fit f' (by simp [member])
      rw [framesOfText] at later ⊢
      rw [List.map_cons, String.join_cons, String.toList_append, Frame.wire, String.toList_ofList,
        framesOf_wireChars_append, framesOf_wireChars (fit f (by simp)), later]
      rfl

end DialectGateway.Sse
