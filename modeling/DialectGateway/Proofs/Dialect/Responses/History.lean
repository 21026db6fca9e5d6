/-
# Proofs.Dialect.Responses.History — what holds whatever calls are refused

A call that is refused loses its frames and keeps what it did until then: items were opened or
closed, places were given out, arguments were taken. So an encoder's history is more than what
its client has seen, and `Recorded` is about all of it: what was told of, and what outputs were
accepted, whether their frames got out or not. The step that carries it is that a run of outputs
that is refused is an accepted run that stops short (`Encoder.outputs_split`), so that a refused
event keeps what an accepted one keeps (`Recorded.feed`).

While a stream runs without a reason to end, no call is done. So arguments never come for a
call that is done (`Remembers.not_slotClosed`). Which places calls take is seen on the counter
(`Encoder.given`), and what was told of adds an item at each of them (`Encoder.placesIn_output1`).
A stream ends once, and the response at its end lists an item for every place that was given
out (`Recorded.close`). So a history is always that of a stream that runs or of one that is over
(`Standing.history`, `history_ends_complete`).
-/
import DialectGateway.Proofs.Dialect.Acceptance

set_option autoImplicit false

namespace DialectGateway.Responses

/-! ## The places that calls take -/

/-- The places of the items that notices add. -/
def placesIn (said : List Notice) : List UInt32 := (said.filterMap Notice.added?).map Prod.fst

theorem placesIn_append (said more : List Notice) :
    placesIn (said ++ more) = placesIn said ++ placesIn more := by
  rw [placesIn, List.filterMap_append, List.map_append]
  rfl

theorem placesIn_of_additions {said : List Notice} (none_ : additions said = 0) :
    placesIn said = [] := by
  rw [placesIn, List.length_eq_zero_iff.1 none_]
  rfl

namespace Encoder

/-- The place that an encoder has taken if it comes to stand so: the one that its counter has
moved past. -/
def takenUntil (e e' : Encoder) : List UInt32 :=
  if e'.counters.nextPlace = e.counters.nextPlace then [] else [e.counters.nextPlace]

/-- The places that outputs take, up to an output that is refused. -/
def taken (e : Encoder) : List Output → List UInt32
  | [] => []
  | o :: rest =>
    match e.output1 o with
    | .error _ => []
    | .ok (e', notices) => e.takenUntil e' ++ (e'.number notices).1.taken rest

/-- The places that a call takes, whether its frames get out or not. -/
def takenBy (e : Encoder) : Turn → List UInt32
  | .feed event =>
    if event.isEmpty ∨ (event.refusal? e.ended e.finish.isSome).isSome then []
    else (e.announce event).1.taken event.outputs
  | .close => []

/-- The places that are given out over a history. -/
def given (e : Encoder) : List Turn → List UInt32
  | [] => []
  | t :: rest => e.takenBy t ++ (e.turn t).1.given rest

/-- An item that is added alone has the place that was taken. -/
theorem placesIn_announcement {e shut e' : Encoder} {closing more : List Notice}
    (settles : e.Settles shut closing) (closed : additions closing = 0)
    (alone : placesIn more = [shut.counters.nextPlace])
    (past : e'.counters.nextPlace = shut.counters.nextPlace + 1) :
    placesIn (closing ++ more) = e.takenUntil e' := by
  have still : shut.counters.nextPlace = e.counters.nextPlace := by
    rw [settles.next, closed]
    exact UInt32.add_zero _
  have moved : e'.counters.nextPlace ≠ e.counters.nextPlace := by
    rw [past, still]
    simp
  rw [placesIn_append, placesIn_of_additions closed, alone, still, takenUntil, if_neg moved]
  rfl

theorem takenUntil_self (e : Encoder) : e.takenUntil e = [] := if_pos rfl

theorem placesIn_openReasoning (e : Encoder) :
    placesIn e.openReasoning.2.2 = e.takenUntil e.openReasoning.1 := by
  rw [openReasoning.eq_def]
  split
  · exact e.takenUntil_self.symm
  · exact placesIn_announcement (Settles.closeMessage e) e.additions_closeMessage rfl rfl

theorem placesIn_openMessage (e : Encoder) :
    placesIn e.openMessage.2.2 = e.takenUntil e.openMessage.1 := by
  rw [openMessage.eq_def]
  split
  · exact e.takenUntil_self.symm
  · exact placesIn_announcement (Settles.closeReasoning e) e.additions_closeReasoning rfl rfl

/-- **An output that takes a place adds an item there**, and no other output adds one. -/
theorem placesIn_output1 {e e' : Encoder} {o : Output} {notices : List Notice}
    (said : e.output1 o = .ok (e', notices)) : placesIn notices = e.takenUntil e' := by
  cases o with
  | reasoning s =>
      cases said
      show placesIn (e.openReasoning.2.2 ++ [.summaryDelta e.openReasoning.2.1.subject s]) = _
      rw [placesIn_append, e.placesIn_openReasoning]
      exact List.append_nil _
  | content s =>
      cases said
      show placesIn (e.openMessage.2.2 ++ [.textDelta e.openMessage.2.1.subject s]) = _
      rw [placesIn_append, e.placesIn_openMessage]
      exact List.append_nil _
  | tool f =>
      obtain ⟨m, c, opening, calls, opened, rfl, _, rfl⟩ := call_cases said
      rw [placesIn_append, placesIn_of_additions (additions_argumentNotices _ f), List.append_nil]
      obtain ⟨_, ⟨rfl, rfl⟩ | ⟨_, _, _, shut, closing, _, _, _, settles, closed, _, rfl, rfl⟩⟩ :=
        openCall_cases opened
      · exact m.takenUntil_self.symm
      · exact placesIn_announcement settles closed rfl rfl

end Encoder

/-! ## Outputs up to a refusal -/

namespace Encoder

/-- A run of outputs is accepted, or accepted up to an output that is refused. The places that
it takes are those of the items that are added until then. -/
theorem outputs_split (e : Encoder) (os : List Output) : ∃ accepted rest middle frames,
    os = accepted ++ rest ∧ e.outputs accepted = (middle, .ok frames) ∧
    e.taken os = placesIn (frames.map (·.notice)) ∧
    (rest = [] ∧ e.outputs os = (middle, .ok frames) ∨
      ∃ o later refusal, rest = o :: later ∧ middle.output1 o = .error refusal ∧
        e.outputs os = (middle, .error refusal)) := by
  induction os generalizing e with
  | nil => exact ⟨[], [], e, [], rfl, rfl, rfl, .inl ⟨rfl, rfl⟩⟩
  | cons o os ih =>
      cases said : e.output1 o with
      | error refusal =>
          exact ⟨[], o :: os, e, [], rfl, rfl, by simp only [taken, said]; rfl,
            .inr ⟨o, os, refusal, rfl, said, by simp only [outputs, said]⟩⟩
      | ok result =>
          obtain ⟨m, notices⟩ := result
          obtain ⟨accepted, rest, middle, frames, rfl, run, places, ended⟩ :=
            ih (m.number notices).1
          refine ⟨o :: accepted, rest, middle, (m.number notices).2 ++ frames, rfl, ?_, ?_, ?_⟩
          · simp only [outputs, said, run]
            rfl
          · rw [List.map_append, notice_number, placesIn_append, placesIn_output1 said, ← places]
            simp only [taken, said]
          · rcases ended with ⟨none_, whole⟩ | ⟨o', later, refusal, some_, refused, whole⟩
            · refine .inl ⟨none_, ?_⟩
              simp only [outputs, said, whole]
              rfl
            · refine .inr ⟨o', later, refusal, some_, refused, ?_⟩
              simp only [outputs, said, whole]
              rfl

theorem placesIn_announce (e : Encoder) (event : Event) :
    placesIn ((e.announce event).2.map (·.notice)) = [] := by
  show placesIn (((e.create event).1.number (e.create event).2).2.map (·.notice)) = []
  rw [notice_number, placesIn_of_additions (e.additions_create event)]

theorem placesIn_conclude (e : Encoder) (event : Event) :
    placesIn ((e.conclude event).2.map (·.notice)) = [] := by
  show placesIn (((e.noteFinish event.finish).1.number
    (e.noteFinish event.finish).2).2.map (·.notice)) = []
  rw [notice_number, noteFinish]
  split
  · exact placesIn_of_additions e.additions_closeItems
  · rfl

theorem openCall_error {e : Encoder} {f : ToolFragment} {refusal : Refusal}
    (refused : e.openCall f = .error refusal) : refusal = .slotUnnamed f.slot := by
  rw [openCall] at refused
  split at refused
  · exact absurd refused (by simp)
  · split at refused
    · exact (Except.error.inj refused).symm
    · exact absurd refused (by simp)

end Encoder

/-- **Arguments never come for a call that is done**, as none is while calls are remembered. -/
theorem Remembers.not_slotClosed {e : Encoder} {os : List Output} (remembers : Remembers e os)
    {o : Output} {refusal : Refusal} (refused : e.output1 o = .error refusal) (slot : UInt32) :
    refusal ≠ .slotClosed slot := by
  cases o with
  | reasoning s | content s => exact absurd refused (by simp [Encoder.output1])
  | tool f =>
      rw [Encoder.output1] at refused
      cases opened : e.openCall f with
      | error refusal' =>
          have same : refusal' = refusal := by
            rw [Encoder.call, opened] at refused
            exact Except.error.inj refused
          rw [← same, Encoder.openCall_error opened]
          exact Refusal.noConfusion
      | ok result =>
          obtain ⟨m, c, opening⟩ := result
          obtain ⟨e', notices, accepted, _⟩ :=
            Encoder.call_of_openCall opened (remembers.openCall_undone opened)
          rw [accepted] at refused
          exact absurd refused (by simp)

/-- Nor is an event refused for that before its outputs are looked at. -/
theorem Event.refusal?_ne_slotClosed {event : Event} {ended finished : Bool} {refusal : Refusal}
    (refused : event.refusal? ended finished = some refusal) (slot : UInt32) :
    refusal ≠ .slotClosed slot := by
  rintro rfl
  rw [Event.refusal?] at refused
  split at refused
  · exact absurd refused (by simp)
  · split at refused
    · exact absurd refused (by simp)
    · split at refused <;> exact absurd refused (by simp)

/-! ## A stream that runs -/

theorem Begun.not_terminal {e : Encoder} {said : List Notice} (begun : Begun e said) :
    ∀ n ∈ said, n.isTerminal = false := by
  cases begun with
  | silent => simp
  | told told => exact told.said.not_terminal

/-- The places of what was told of are 0, 1, 2 and so on, in words. -/
theorem Begun.counted {e : Encoder} {said : List Notice} (begun : Begun e said) :
    placesIn said = (List.range (placesIn said).length).map UInt32.ofNat := by
  cases begun with
  | silent => rfl
  | told told => rw [placesIn, told.said.map_added, List.length_map, List.length_range]

/-- What an encoder that has not been closed told of, and the outputs that it accepted. -/
structure Recorded (e : Encoder) (os : List Output) (said : List Notice) : Prop where
  begun : Begun e said
  ledger : Ledger e os said
  remembers : e.finish = none → Remembers e os

namespace Recorded

variable {e : Encoder} {os : List Output} {said : List Notice}

theorem fresh (spareId : String) : Recorded { spareId } [] [] where
  begun := .silent rfl rfl rfl rfl rfl rfl
  ledger := (Booked.fresh spareId).ledger
  remembers _ := (Knows.fresh spareId).outputs rfl

/-- An event is announced, and its outputs are recorded as far as they are accepted. -/
theorem outputs (recorded : Recorded e os said) (event : Event) {accepted : List Output}
    {middle : Encoder} {frames : List Frame}
    (run : (e.announce event).1.outputs accepted = (middle, .ok frames)) :
    middle.finish = e.finish ∧
      (∃ lives, Told middle lives (said ++ ((e.announce event).2 ++ frames).map (·.notice))) ∧
      Recorded middle (os ++ accepted)
        (said ++ ((e.announce event).2 ++ frames).map (·.notice)) := by
  obtain ⟨lives, announced⟩ := recorded.begun.announce event
  obtain ⟨lives', more, told, all⟩ := announced.outputs accepted
  obtain ⟨ledger, finish, _⟩ := recorded.ledger.announce event
  obtain ⟨ledger', finish', _⟩ := ledger.outputs run
  rw [run] at told all
  obtain rfl := all frames rfl
  rw [List.map_append, ← List.append_assoc]
  refine ⟨finish'.trans finish, ⟨lives', told⟩, .told told, ledger', ?_⟩
  intro unfinished
  rw [finish', finish] at unfinished
  exact Encoder.outputs_remembered
    ((recorded.remembers unfinished).congr (e.announce_calls event)) run

theorem conclude (recorded : Recorded e os said) {lives : List Life} (told : Told e lives said)
    (event : Event) : Recorded (e.conclude event).1 os
      (said ++ (e.conclude event).2.map (·.notice)) := by
  obtain ⟨lives', concluded⟩ := told.conclude event
  obtain ⟨ledger, finish, _⟩ := recorded.ledger.conclude event
  refine ⟨.told concluded, ledger, ?_⟩
  intro unfinished
  rw [finish, Option.or_eq_none_iff] at unfinished
  exact (recorded.remembers unfinished.1).congr (e.conclude_calls unfinished.2)

/-- **An event is recorded, accepted or not.** What was told of adds items at the places that
it takes. It is never refused because a call is done, and if it is accepted its frames are what
was told of. -/
theorem feed (recorded : Recorded e os said) (event : Event) :
    (∃ os' more, Recorded (e.feed event).1 os' (said ++ more) ∧
      placesIn more = e.takenBy (.feed event) ∧
      ∀ frames, (e.feed event).2 = .ok frames → frames.map (·.notice) = more) ∧
    ∀ slot, (e.feed event).2 ≠ .error (.slotClosed slot) := by
  have unchanged : Recorded e os (said ++ []) := by rwa [List.append_nil]
  rw [Encoder.feed, Encoder.takenBy]
  split
  · next empty =>
      rw [if_pos (.inl empty)]
      refine ⟨⟨os, [], unchanged, rfl, ?_⟩, by simp⟩
      rintro frames ⟨⟩
      rfl
  · next some_ =>
    split
    · next refusal refused =>
        rw [if_pos (.inr (by simp [refused]))]
        refine ⟨⟨os, [], unchanged, rfl, by simp⟩, ?_⟩
        rintro slot ⟨⟩
        exact Event.refusal?_ne_slotClosed refused slot rfl
    · next admitted =>
        obtain ⟨accepted, rest, middle, frames, split, run, places, ended⟩ :=
          (e.announce event).1.outputs_split event.outputs
        rw [if_neg (by simp [some_, admitted]), places]
        obtain ⟨finish, ⟨lives, told⟩, recorded'⟩ := recorded.outputs event run
        rcases ended with ⟨_, whole⟩ | ⟨o, later, refusal, rfl, refused, whole⟩
        · simp only [whole]
          have concluded := recorded'.conclude told event
          rw [List.append_assoc, ← List.map_append] at concluded
          refine ⟨⟨_, _, concluded, ?_, ?_⟩, by simp⟩
          · rw [List.map_append, List.map_append, placesIn_append, placesIn_append,
              e.placesIn_announce, middle.placesIn_conclude, List.append_nil, List.nil_append]
          · rintro said' ⟨⟩
            rfl
        · simp only [whole]
          refine ⟨⟨_, _, recorded', ?_, by simp⟩, ?_⟩
          · rw [List.map_append, placesIn_append, e.placesIn_announce, List.nil_append]
          -- An output was looked at, so there was no reason to end and calls are remembered.
          have unfinished : middle.finish = none := by
            rw [finish, ← Option.not_isSome_iff_eq_none]
            intro finished
            have none_ := Event.outputs_of_finished admitted finished
            rw [split] at none_
            exact absurd none_ (by simp)
          rintro slot ⟨⟩
          exact (recorded'.remembers unfinished).not_slotClosed refused slot rfl

end Recorded

/-! ## The end of a stream -/

/-- The response lists an item for each of the places that were given out. A place that comes
again after the last word has one item all the same. -/
structure Snapshot.Complete (r : Snapshot) (given : List UInt32) : Prop where
  /-- The items stand by place, each once and under the name of its place. -/
  entries : ∃ entries : List (UInt32 × Item), r.output = entries.map (·.2) ∧
    Keyed.Ascending entries ∧ (∀ place, place ∈ entries.map (·.1) ↔ place ∈ given) ∧
    ∀ x ∈ entries, x.2.id = x.2.nameAt r.id x.1
  /-- As long as no place comes again, there are as many items as places that were given out. -/
  single : given.length ≤ UInt32.size → r.output.length = given.length ∧
    ∀ (place : UInt32) (item : Item), r.output[place.toNat]? = some item →
      item.id = item.nameAt r.id place

/-- **What is finished when nothing is open is complete.** -/
theorem Told.complete {e : Encoder} {lives : List Life} {said : List Notice} {os : List Output}
    (told : Told e lives said) (ledger : Ledger e os said) (idle : openLives lives = []) :
    e.snapshot.Complete (placesIn said) := by
  refine ⟨⟨e.output, rfl, ?_, ?_, ?_⟩, ?_⟩
  · rw [ledger.output]
    exact ascending_finished said
  · rw [ledger.output]
    exact told.said.mem_places_finished idle
  · rintro ⟨place, item⟩ member
    rw [ledger.output] at member
    exact told.said.named_finished (mem_finished member)
  · intro few
    rw [placesIn, List.length_map] at few ⊢
    have fits : lives.length ≤ UInt32.size := by
      rw [← told.said.length_added]
      exact few
    have places := told.said.places_finished fits idle
    rw [← ledger.output] at places
    constructor
    · have length := congrArg List.length places
      rw [List.length_map, List.length_range] at length
      exact (List.length_map _).trans length
    · intro place item at_
      have member := (Keyed.getElem?_map_snd_iff places place item).1 at_
      rw [ledger.output] at member
      exact told.said.named_finished (mem_finished member)

/-- **A stream is closed with one last frame**, and its response is complete. -/
theorem Recorded.close {e : Encoder} {os : List Output} {said : List Notice}
    (recorded : Recorded e os said) : ∃ body last r, e.close.2 = body ++ [last] ∧
      (∀ f ∈ body, f.notice.isTerminal = false) ∧ last.notice.isTerminal = true ∧
      last.notice.response? = some r ∧ r.Complete (placesIn said) ∧
      e.close.1.counters.nextPlace = e.counters.nextPlace ∧ e.close.1.ended = true := by
  have spelled := recorded.begun.notice_close
  obtain ⟨lives, created⟩ := recorded.begun.create {}
  obtain ⟨lives', told, idle⟩ := created.closeItems
  have ledger := (recorded.ledger.settle (.create e {})).settle (.closeItems _)
  have running := recorded.begun.running
  obtain ⟨body, final, whole, before, after⟩ := List.map_eq_append_iff.1 spelled
  obtain ⟨last, rfl, same⟩ := List.map_eq_singleton_iff.1 after
  have past : e.close.1.ended = true ∧
      e.close.1.counters.nextPlace = (e.create {}).1.closeItems.1.counters.nextPlace := by
    rw [Encoder.close, running]
    exact ⟨rfl, rfl⟩
  refine ⟨body, last, (e.create {}).1.closeItems.1.snapshot, whole, ?_, ?_, ?_, ?_, ?_, past.1⟩
  · intro f member
    have within : f.notice ∈ body.map (·.notice) := List.mem_map_of_mem member
    rw [before] at within
    refine told.said.not_terminal f.notice ?_
    rw [List.append_assoc]
    exact List.mem_append_right said within
  · rw [same]
    exact Encoder.isTerminal_terminal _
  · rw [same]
    exact (Encoder.response_terminal _).1
  · have complete := told.complete ledger idle
    rw [placesIn_append, placesIn_append, placesIn_of_additions (e.additions_create {}),
      placesIn_of_additions (Encoder.additions_closeItems _), List.append_nil,
      List.append_nil] at complete
    exact complete
  · rw [past.2, Encoder.counters_closeItems, Encoder.counters_create]

/-- The stream has ended, with one last frame and a response that is complete. -/
structure Over (e : Encoder) (given : List UInt32) (frames : List Frame) : Prop where
  ended : e.ended = true
  counted : given = (List.range given.length).map UInt32.ofNat
  next : e.counters.nextPlace = UInt32.ofNat given.length
  last : ∃ before last r, frames = before ++ [last] ∧
    (∀ f ∈ before, f.notice.isTerminal = false) ∧ last.notice.isTerminal = true ∧
    last.notice.response? = some r ∧ r.Complete given

/-- A history, with the places that were given out, is that of a stream that runs or of one that
has ended. -/
inductive Standing (e : Encoder) : List UInt32 → List Frame → Prop
  | running {os : List Output} {said : List Notice} {frames : List Frame}
      (recorded : Recorded e os said) (silent : ∀ f ∈ frames, f.notice.isTerminal = false) :
      Standing e (placesIn said) frames
  | past {given : List UInt32} {frames : List Frame} (past : Over e given frames) :
      Standing e given frames

namespace Encoder

/-- An encoder that has ended says nothing more and does not change. -/
theorem feed_of_ended {e : Encoder} (ended : e.ended = true) (event : Event) :
    e.feed event = (e, .ok []) ∨ e.feed event = (e, .error .afterEnd) := by
  rw [feed]
  split
  · exact .inl rfl
  · right
    simp only [Event.refusal?, ended, if_true]

theorem turn_of_ended {e : Encoder} (ended : e.ended = true) (t : Turn) : e.turn t = (e, []) := by
  cases t with
  | feed event =>
      rw [turn]
      rcases feed_of_ended ended event with same | same <;> rw [same]
  | close =>
      rw [turn, close, ended]
      rfl

end Encoder

namespace Over

variable {e : Encoder} {given : List UInt32} {frames : List Frame}

theorem filter_terminal (past : Over e given frames) : ∃ last r,
    frames.filter (·.notice.isTerminal) = [last] ∧ last.notice.response? = some r ∧
      r.Complete given := by
  obtain ⟨before, last, r, rfl, silent, terminal, response, complete⟩ := past.last
  have none_ : before.filter (·.notice.isTerminal) = [] := by
    rw [List.filter_eq_nil_iff]
    intro f member
    simp [silent f member]
  refine ⟨last, r, ?_, response, complete⟩
  rw [List.filter_append, none_, List.nil_append]
  simp [terminal]

/-- Once a stream has ended no call takes a place. -/
theorem turn (past : Over e given frames) (t : Encoder.Turn) :
    Over (e.turn t).1 (given ++ e.takenBy t) (frames ++ (e.turn t).2) := by
  have none_ : e.takenBy t = [] := by
    cases t with
    | close => rfl
    | feed event =>
        rw [Encoder.takenBy, if_pos]
        simp [Event.refusal?, past.ended]
  rw [Encoder.turn_of_ended past.ended t, none_, List.append_nil, List.append_nil]
  exact past

end Over

namespace Standing

variable {e : Encoder} {given : List UInt32} {frames : List Frame}

theorem close (standing : Standing e given frames) :
    Over e.close.1 given (frames ++ e.close.2) := by
  cases standing with
  | running recorded silent =>
      obtain ⟨body, last, r, whole, before, terminal, response, complete, next, ended⟩ :=
        recorded.close
      refine ⟨ended, recorded.begun.counted, ?_, frames ++ body, last, r, ?_, ?_, terminal,
        response, complete⟩
      · rw [next, recorded.ledger.next, placesIn, List.length_map]
        rfl
      · rw [whole, List.append_assoc]
      · intro f member
        exact (List.mem_append.1 member).elim (silent f) (before f)
  | past past =>
      have closed := past.turn .close
      rw [Encoder.takenBy, List.append_nil] at closed
      exact closed

/-- **A call is taken**, whether it is refused or not. -/
theorem turn (standing : Standing e given frames) (t : Encoder.Turn) :
    Standing (e.turn t).1 (given ++ e.takenBy t) (frames ++ (e.turn t).2) := by
  cases t with
  | close =>
      rw [Encoder.takenBy, List.append_nil]
      exact .past standing.close
  | feed event =>
      cases standing with
      | past past => exact .past (past.turn _)
      | running recorded silent =>
          obtain ⟨⟨os, more, recorded', places, all⟩, _⟩ := recorded.feed event
          rw [← places, ← placesIn_append, Encoder.turn]
          generalize e.feed event = fed at recorded' all
          obtain ⟨after, result⟩ := fed
          cases result with
          | error refusal =>
              simp only [List.append_nil]
              exact .running recorded' silent
          | ok now =>
              obtain rfl := all now rfl
              refine .running recorded' ?_
              intro f member
              rcases List.mem_append.1 member with early | late
              · exact silent f early
              · exact recorded'.begun.not_terminal f.notice
                  (List.mem_append_right _ (List.mem_map_of_mem late))

theorem history (standing : Standing e given frames) (turns : List Encoder.Turn) :
    Standing (e.history turns).1 (given ++ e.given turns) (frames ++ (e.history turns).2) := by
  induction turns generalizing e given frames with
  | nil =>
      rw [Encoder.history, Encoder.given, List.append_nil, List.append_nil]
      exact standing
  | cons t rest ih =>
      have later := ih (standing.turn t)
      rw [List.append_assoc, List.append_assoc] at later
      exact later

theorem terminals_le (standing : Standing e given frames) :
    frames.countP (·.notice.isTerminal) ≤ 1 := by
  cases standing with
  | running _ silent =>
      rw [List.countP_eq_zero.2 (by simpa using silent)]
      exact Nat.zero_le _
  | past past =>
      obtain ⟨last, r, only, _⟩ := past.filter_terminal
      rw [List.countP_eq_length_filter, only]
      exact Nat.le_refl _

theorem not_slotClosed (standing : Standing e given frames) (event : Event) (slot : UInt32) :
    (e.feed event).2 ≠ .error (.slotClosed slot) := by
  cases standing with
  | running recorded _ => exact (recorded.feed event).2 slot
  | past past => rcases Encoder.feed_of_ended past.ended event with same | same <;> simp [same]

end Standing

theorem standing_history (spareId : String) (turns : List Encoder.Turn) :
    Standing (Encoder.history { spareId } turns).1 (Encoder.given { spareId } turns)
      (Encoder.history { spareId } turns).2 := by
  have start : Standing { spareId } [] [] := .running (Recorded.fresh spareId) (by simp)
  have standing := start.history turns
  rwa [List.nil_append, List.nil_append] at standing

/-- **Whatever calls come in whatever order, and whichever are refused**, an event is never refused
because of arguments for a call that is done, no call and no history has more than one last
frame, and once the stream is closed its last frame's response lists an item for each place that
was given out, under the name of that place. Places are given out as 0, 1, 2 and so on, in
words, and the counter has moved past all of them. -/
theorem history_ends_complete (spareId : String) (turns : List Encoder.Turn) :
    (∀ event slot, ((Encoder.history { spareId } turns).1.feed event).2 ≠
      .error (.slotClosed slot)) ∧
    (∀ t, ((Encoder.history { spareId } turns).1.turn t).2.countP (·.notice.isTerminal) ≤ 1) ∧
    (Encoder.history { spareId } turns).2.countP (·.notice.isTerminal) ≤ 1 ∧
    ∃ last r,
      ((Encoder.history { spareId } turns).2 ++
        (Encoder.history { spareId } turns).1.close.2).filter (·.notice.isTerminal) = [last] ∧
      last.notice.response? = some r ∧
      (last.json.field "response").get? "output" = some (.list (r.output.map Item.json)) ∧
      r.Complete (Encoder.given { spareId } turns) ∧
      Encoder.given { spareId } turns =
        (List.range (Encoder.given { spareId } turns).length).map UInt32.ofNat ∧
      (Encoder.history { spareId } turns).1.close.1.counters.nextPlace =
        UInt32.ofNat (Encoder.given { spareId } turns).length := by
  have standing := standing_history spareId turns
  refine ⟨standing.not_slotClosed, ?_, standing.terminals_le, ?_⟩
  · intro t
    have both := (standing.turn t).terminals_le
    rw [List.countP_append] at both
    omega
  · have past := standing.close
    obtain ⟨last, r, only, response, complete⟩ := past.filter_terminal
    exact ⟨last, r, only, response, Frame.get?_output response, complete, past.counted, past.next⟩

/-- An event with a text and a call that has no name. -/
def halfSaid : Event where
  id := "r"
  choices := [{ index := 0, content := some "lost", tools := [⟨0, none, none, some "1"⟩] }]

/-- The event is refused for its call, its frames are lost, and its text is in the output. -/
example : (Encoder.history { spareId := "0" } [.feed halfSaid]).2 = [] ∧
    Encoder.given { spareId := "0" } [.feed halfSaid] = [0] ∧
    (Encoder.history { spareId := "0" } [.feed halfSaid, .close]).1.output =
      [(0, .message "msg_r_0" "lost")] := by decide +kernel

end DialectGateway.Responses
