/-
# Proofs.Backend.Reading — how a body is cut does not matter

The reader keeps a buffer, reads one block at a time and looks for the end of the next
block from a remembered place on. What it makes of a body is defined without any of
this: `eventsIn` takes all bytes at once, leaves out the carriage returns and what
stands behind the last blank line, reads the frames of the whole text, and stops at the
sentinel or after a fault.

`EventReader.drain_read` is the step: what is drained from a buffer, together with what
is left of it, is what the whole buffer says, whatever comes behind it. It needs two
facts about cutting at a blank line, that decoding and framing may be done in parts
there, and one about the remembered place: no blank line begins before it (`Rests`).
From it `eventsOf_pieces` follows by induction on the pieces.
-/
import DialectGateway.Backend.EventReader

set_option autoImplicit false

namespace DialectGateway.Backend

open Sse (Frame)

/-! ## What a body says -/

/-- Everything up to the last pair of line feeds, and nothing if there is none. -/
def untilBlank : List UInt8 → List UInt8
  | [] => []
  | b :: rest =>
    match untilBlank rest with
    | [] => if b = 10 ∧ rest.head? = some 10 then [10, 10] else []
    | c :: kept => b :: c :: kept

/-- Events up to the first fault, which is the last of them. -/
def untilFault : List Event → List Event
  | [] => []
  | e :: rest => if e.fault.isSome then [e] else e :: untilFault rest

/-- The frames of the complete blocks among bytes without carriage returns. -/
def framesWithin (bytes : List UInt8) : List Frame :=
  Sse.framesOf (Text.Utf8.decodeLossy (untilBlank bytes))

/-- The frames of a body. -/
def framesIn (body : List UInt8) : List Frame := framesWithin (body.filter (· != 13))

/-- The events of a body: of the frames before the sentinel those that are JSON, up to the
first fault. -/
def eventsIn (body : List UInt8) : List Event :=
  untilFault (((framesIn body).takeWhile (!·.isDone)).filterMap fun f =>
    (Json.ofText? f.data).map eventOf)

/-- The body itself ends the stream, by the sentinel or by a fault. -/
def endsIn (body : List UInt8) : Bool :=
  (framesIn body).any Frame.isDone || (eventsIn body).any (·.fault.isSome)

/-- The fault of a body that breaks off for this reason. -/
def brokenOff (reason : String) : Event :=
  .ofFault ⟨"Upstream stream error: " ++ reason, "upstream_error", none⟩

/-! ## Events of frames -/

/-- What is read first, and then the rest unless the first has ended the stream. -/
def andThen (first rest : List Event × Bool) : List Event × Bool :=
  if first.2 then first else (first.1 ++ rest.1, rest.2)

theorem andThen_assoc (a b c : List Event × Bool) :
    andThen (andThen a b) c = andThen a (andThen b c) := by
  obtain ⟨as, aEnded⟩ := a
  obtain ⟨bs, bEnded⟩ := b
  cases aEnded <;> cases bEnded <;> simp [andThen]

theorem eventsOfFrames_cons (f : Frame) (rest : List Frame) :
    eventsOfFrames (f :: rest) = andThen (eventsOfFrames [f]) (eventsOfFrames rest) := by
  simp only [eventsOfFrames]
  split
  · rfl
  · split
    · simp [andThen]
    · split <;> simp [andThen]

theorem eventsOfFrames_append (left right : List Frame) :
    eventsOfFrames (left ++ right) = andThen (eventsOfFrames left) (eventsOfFrames right) := by
  induction left with
  | nil => simp [eventsOfFrames, andThen]
  | cons f left ih =>
      rw [List.cons_append, eventsOfFrames_cons, ih, ← andThen_assoc, ← eventsOfFrames_cons]

theorem eventsOfFrames_eq (frames : List Frame) :
    let events := untilFault ((frames.takeWhile (!·.isDone)).filterMap fun f =>
      (Json.ofText? f.data).map eventOf)
    eventsOfFrames frames =
      (events, frames.any Frame.isDone || events.any (·.fault.isSome)) := by
  induction frames with
  | nil => rfl
  | cons f rest ih =>
      rw [eventsOfFrames]
      cases done : f.isDone with
      | true => simp [done, untilFault]
      | false =>
          cases value : Json.ofText? f.data with
          | none => simpa [done, value] using ih
          | some chunk =>
              cases fault : (eventOf chunk).fault with
              | some _ => simp [done, value, untilFault, fault]
              | none =>
                  simp only at ih
                  simp [done, value, untilFault, fault, ih]

theorem eventsOfFrames_framesIn (body : List UInt8) :
    eventsOfFrames (framesIn body) = (eventsIn body, endsIn body) :=
  eventsOfFrames_eq (framesIn body)

/-! ## Pairs of line feeds -/

theorem pairPlace?_eq_some {bytes : List UInt8} {n : Nat} (found : pairPlace? bytes = some n) :
    ∃ before after, bytes = before ++ 10 :: 10 :: after ∧ before.length = n := by
  fun_induction pairPlace? bytes generalizing n with
  | case1 a b rest pair =>
      obtain ⟨rfl, rfl⟩ : a = 10 ∧ b = 10 := by simpa using pair
      cases found
      exact ⟨[], rest, rfl, rfl⟩
  | case2 a b rest _ ih =>
      obtain ⟨m, later, rfl⟩ := Option.map_eq_some_iff.1 found
      obtain ⟨before, after, same, length⟩ := ih later
      exact ⟨a :: before, after, by rw [same]; rfl, by rw [List.length_cons, length]⟩
  | case3 => exact absurd found (by simp)

theorem untilBlank_of_pairPlace?_none {bytes : List UInt8} (none_ : pairPlace? bytes = none) :
    untilBlank bytes = [] := by
  fun_induction pairPlace? bytes with
  | case1 => exact absurd none_ (by simp)
  | case2 a b rest apart ih =>
      have nothing := ih (by simpa using none_)
      have other : ¬ (a = 10 ∧ b = 10) := by simpa using apart
      rw [untilBlank, nothing]
      simpa using other
  | case3 bytes short =>
      match bytes with
      | [] => rfl
      | [b] => simp [untilBlank]
      | a :: b :: rest => exact absurd rfl (short a b rest)

/-- Behind a pair a line feed may be kept that forms a second pair with it. -/
theorem untilBlank_pair (after : List UInt8) : ∃ kept,
    untilBlank (10 :: 10 :: after) = 10 :: 10 :: kept ∧
      (kept = untilBlank after ∨ untilBlank after = [] ∧ kept = [10]) := by
  rw [untilBlank, untilBlank]
  cases rest : untilBlank after with
  | cons c kept => exact ⟨c :: kept, rfl, .inl rfl⟩
  | nil =>
      by_cases next : after.head? = some 10
      · exact ⟨[10], by simp [next], .inr ⟨rfl, rfl⟩⟩
      · exact ⟨[], by simp [next], .inl rfl⟩

/-- Of what stands before a pair everything is kept. -/
theorem untilBlank_append (before after : List UInt8) :
    untilBlank (before ++ 10 :: 10 :: after) = before ++ untilBlank (10 :: 10 :: after) := by
  obtain ⟨kept, pair, _⟩ := untilBlank_pair after
  induction before with
  | nil => rfl
  | cons b before ih =>
      rw [List.cons_append, untilBlank, ih, pair]
      cases before <;> rfl

/-- **What bytes say may be read in parts wherever a blank line stands.** -/
theorem framesWithin_append (before after : List UInt8) :
    framesWithin (before ++ 10 :: 10 :: after) =
      Sse.framesOf (Text.Utf8.decodeLossy (before ++ [10, 10])) ++ framesWithin after := by
  have cut (rest : List UInt8) :
      Sse.framesOf (Text.Utf8.decodeLossy (before ++ 10 :: 10 :: rest)) =
        Sse.framesOf (Text.Utf8.decodeLossy (before ++ [10, 10])) ++
          Sse.framesOf (Text.Utf8.decodeLossy rest) := by
    have pair (rest : List UInt8) : Text.Utf8.decodeLossy (before ++ 10 :: 10 :: rest) =
        Text.Utf8.decodeLossy before ++ '\n' :: '\n' :: Text.Utf8.decodeLossy rest := by
      rw [Text.Utf8.decodeLossy_append_lineFeed]
      exact congrArg (Text.Utf8.decodeLossy before ++ '\n' :: ·)
        (Text.Utf8.decodeLossy_append_lineFeed [] rest)
    rw [pair, pair [], Sse.framesOf_append]
    rfl
  obtain ⟨kept, whole, rest⟩ := untilBlank_pair after
  rw [framesWithin, untilBlank_append, whole, cut]
  congr 1
  rcases rest with rfl | ⟨nothing, rfl⟩
  · rfl
  · rw [framesWithin, nothing]
    rfl

theorem framesWithin_of_pairPlace?_none {bytes : List UInt8} (none_ : pairPlace? bytes = none) :
    framesWithin bytes = [] := by
  rw [framesWithin, untilBlank_of_pairPlace?_none none_]
  rfl

/-- Looking for a pair may begin at a place before which none begins. -/
theorem pairPlace?_drop {bytes : List UInt8} {n : Nat}
    (none_ : pairPlace? (bytes.take (n + 1)) = none) :
    (pairPlace? (bytes.drop n)).map (· + n) = pairPlace? bytes := by
  induction n generalizing bytes with
  | zero => simp
  | succ n ih =>
      match bytes with
      | [] => rfl
      | [b] => simp [pairPlace?]
      | a :: b :: rest =>
          have apart : ¬ (a == 10 && b == 10) = true := by
            intro pair
            simp [pairPlace?, pair] at none_
          have later : pairPlace? ((b :: rest).take (n + 1)) = none := by
            simpa [pairPlace?, apart] using none_
          rw [List.drop_succ_cons, pairPlace?, if_neg apart, ← ih later, Option.map_map]
          rfl

/-! ## The reader -/

namespace EventReader

/-- Between pieces no block is complete, and the next pair begins at the last byte or later. -/
structure Rests (r : EventReader) : Prop where
  running : r.ended = false
  unpaired : pairPlace? r.buffer = none
  scanned : r.scanned = r.buffer.length - 1

theorem rests_new : Rests {} := ⟨rfl, rfl, rfl⟩

/-- The remembered place hides no block from the reader. -/
theorem blockEnd?_append {r : EventReader} (rests : r.Rests) (more : List UInt8) :
    blockEnd? { r with buffer := r.buffer ++ more } = pairPlace? (r.buffer ++ more) := by
  refine pairPlace?_drop ?_
  show pairPlace? ((r.buffer ++ more).take (r.scanned + 1)) = none
  rw [rests.scanned]
  cases shape : r.buffer with
  | nil =>
      cases more <;> rfl
  | cons b buffer =>
      have length : (b :: buffer).length - 1 + 1 = (b :: buffer).length := rfl
      rw [length, List.take_left, ← shape]
      exact rests.unpaired

/-- The first complete block of a buffer is read by itself. -/
theorem framesWithin_block {buffer : List UInt8} {n : Nat} (found : pairPlace? buffer = some n)
    (later : List UInt8) :
    framesWithin (buffer ++ later) =
      Sse.framesOf (Text.Utf8.decodeLossy (buffer.take (n + 2))) ++
        framesWithin (buffer.drop (n + 2) ++ later) := by
  obtain ⟨before, after, rfl, length⟩ := pairPlace?_eq_some found
  have cut : before ++ 10 :: 10 :: after = (before ++ [10, 10]) ++ after := by simp
  have place : n + 2 = (before ++ [10, 10]).length := by simp [length]
  rw [cut, place, List.take_left, List.drop_left, ← cut, List.append_assoc]
  exact framesWithin_append before (after ++ later)

/-- **What is drained and what is left say what the whole buffer says**, whatever comes
behind it, and a reader that goes on rests. -/
theorem drain_read (r : EventReader) (running : r.ended = false)
    (found : r.blockEnd? = pairPlace? r.buffer) :
    (r.drain.2.ended = false → r.drain.2.Rests) ∧ ∀ later,
      eventsOfFrames (framesWithin (r.buffer ++ later)) =
        andThen (r.drain.1, r.drain.2.ended)
          (eventsOfFrames (framesWithin (r.drain.2.buffer ++ later))) := by
  fun_induction drain r with
  | case1 r nothing =>
      refine ⟨fun _ => ⟨running, by rw [← found, nothing], rfl⟩, ?_⟩
      intro later
      simp [andThen, running]
  | case2 r n some_ block left events ends =>
      refine ⟨fun goesOn => absurd goesOn (by simp), ?_⟩
      intro later
      rw [framesWithin_block (found ▸ some_), eventsOfFrames_append, ends]
  | case3 r n some_ block left events goesOn _ more last rest ih =>
      have anew : left.blockEnd? = pairPlace? left.buffer := by simp [blockEnd?, left]
      obtain ⟨rests, same⟩ := ih rfl anew
      rw [rest] at rests same
      refine ⟨rests, ?_⟩
      intro later
      rw [framesWithin_block (found ▸ some_), eventsOfFrames_append, goesOn, same later,
        ← andThen_assoc]
      rfl

/-- A piece is read for good, or what is left of it is kept for the next. -/
theorem take_read {r : EventReader} (rests : r.Rests) (piece : List UInt8) :
    ((r.take piece).2.ended = false → (r.take piece).2.Rests) ∧ ∀ later,
      eventsOfFrames (framesWithin (r.buffer ++ piece.filter (· != 13) ++ later)) =
        andThen ((r.take piece).1, (r.take piece).2.ended)
          (eventsOfFrames (framesWithin ((r.take piece).2.buffer ++ later))) := by
  rw [take, rests.running]
  exact drain_read _ rfl (blockEnd?_append rests _)

end EventReader

theorem eventsOf_of_ended {r : EventReader} (ended : r.ended = true) (arrivals : List Arrival) :
    eventsOf arrivals r = [] := by
  induction arrivals with
  | nil => rfl
  | cons a rest ih =>
      have silent : r.arrive a = ([], r) := by
        cases a <;> simp [EventReader.arrive, EventReader.take, EventReader.breakOff, ended]
      rw [eventsOf, silent]
      exact ih

/-- The pieces of a body are read as the whole body would be; then the reader has ended or
rests, and reads what else arrives. -/
theorem eventsOf_pieces {r : EventReader} (rests : r.Rests) (pieces : List (List UInt8))
    (others : List Arrival) : ∃ events r',
      eventsOf (pieces.map .piece ++ others) r = events ++ eventsOf others r' ∧
      eventsOfFrames (framesWithin (r.buffer ++ pieces.flatten.filter (· != 13))) =
        (events, r'.ended) ∧
      (r'.ended = false → r'.Rests) := by
  induction pieces generalizing r with
  | nil =>
      refine ⟨[], r, rfl, ?_, fun _ => rests⟩
      rw [List.flatten_nil, List.filter_nil, List.append_nil,
        framesWithin_of_pairPlace?_none rests.unpaired, rests.running]
      rfl
  | cons piece pieces ih =>
      obtain ⟨goesOn, same⟩ := EventReader.take_read rests piece
      have whole := same (pieces.flatten.filter (· != 13))
      rw [List.append_assoc, ← List.filter_append, ← List.flatten_cons] at whole
      have first : eventsOf ((piece :: pieces).map .piece ++ others) r =
          (r.take piece).1 ++ eventsOf (pieces.map .piece ++ others) (r.take piece).2 := rfl
      rw [first, whole]
      generalize r.take piece = result at goesOn
      obtain ⟨now, r'⟩ := result
      cases ended : r'.ended with
      | true =>
          refine ⟨now, r', ?_, ?_, fun goesOn => absurd goesOn (by simp [ended])⟩
          · rw [eventsOf_of_ended ended, eventsOf_of_ended ended]
          · rw [ended]
            rfl
      | false =>
          obtain ⟨events, last, read, said, still⟩ := ih (goesOn ended)
          refine ⟨now ++ events, last, ?_, ?_, still⟩
          · rw [read, List.append_assoc]
          · rw [said]
            rfl

/-! ## One event at a time -/

namespace EventStream

/-- The stream, asked for one event after another without being cancelled, hands out these
events and ends. -/
inductive Yields : EventStream → List Event → Prop
  | ended {s : EventStream} (turn : s.turn false = .ended) : Yields s []
  | event {s s' : EventStream} {e : Event} {events : List Event}
      (turn : s.turn false = .event e s') (rest : Yields s' events) : Yields s (e :: events)
  | read {s s' : EventStream} {events : List Event} (turn : s.turn false = .read s')
      (rest : Yields s' events) : Yields s events

/-- Handing out what is ready comes first. -/
theorem Yields.of_ready {reader : EventReader} {arrivals : List Arrival} {events : List Event}
    (rest : Yields ⟨reader, [], arrivals⟩ events) (ready : List Event) :
    Yields ⟨reader, ready, arrivals⟩ (ready ++ events) := by
  induction ready with
  | nil => exact rest
  | cons e ready ih => exact .event rfl ih

/-- A stream hands out the events of its body. -/
theorem yields_eventsOf (arrivals : List Arrival) (reader : EventReader) :
    Yields ⟨reader, [], arrivals⟩ (eventsOf arrivals reader) := by
  induction arrivals generalizing reader with
  | nil => exact .ended (by simp [turn])
  | cons a rest ih =>
      cases ended : reader.ended with
      | true =>
          rw [eventsOf_of_ended ended]
          exact .ended (by simp [turn, ended])
      | false =>
          have whole : eventsOf (a :: rest) reader =
              (reader.arrive a).1 ++ eventsOf rest (reader.arrive a).2 := rfl
          rw [whole]
          exact .read (by simp [turn, ended]) (.of_ready (ih _) _)

theorem Yields.unique {s : EventStream} {events events' : List Event} (one : Yields s events)
    (other : Yields s events') : events = events' := by
  induction one generalizing events' with
  | ended turn =>
      cases other with
      | ended => rfl
      | event turn' | read turn' => simp [turn] at turn'
  | event turn _ ih =>
      cases other with
      | ended turn' | read turn' => simp [turn] at turn'
      | event turn' rest =>
          obtain ⟨rfl, rfl⟩ : _ ∧ _ := by simpa [turn] using turn'
          rw [ih rest]
  | read turn _ ih =>
      cases other with
      | ended turn' | event turn' => simp [turn] at turn'
      | read turn' rest =>
          obtain rfl : _ = _ := by simpa [turn] using turn'
          exact ih rest

theorem yields_iff {arrivals : List Arrival} {events : List Event} :
    Yields { arrivals } events ↔ events = eventsOf arrivals {} := by
  refine ⟨fun yields => yields.unique (yields_eventsOf arrivals {}), ?_⟩
  rintro rfl
  exact yields_eventsOf arrivals {}

/-- **However a body is cut, its stream yields the events of the body**, and a body that then
breaks off one fault more that tells of the reason, unless it has ended the stream before. -/
theorem yields_pieces (pieces : List (List UInt8)) (events : List Event) :
    (Yields { arrivals := pieces.map .piece } events ↔ events = eventsIn pieces.flatten) ∧
    ∀ reason others, Yields { arrivals := pieces.map .piece ++ .broken reason :: others } events ↔
      events = eventsIn pieces.flatten ++
        if endsIn pieces.flatten then [] else [brokenOff reason] := by
  have read (others : List Arrival) : ∃ r : EventReader, r.ended = endsIn pieces.flatten ∧
      eventsOf (pieces.map .piece ++ others) {} =
        eventsIn pieces.flatten ++ eventsOf others r := by
    obtain ⟨events, r, whole, said, _⟩ := eventsOf_pieces EventReader.rests_new pieces others
    have body : (events, r.ended) = (eventsIn pieces.flatten, endsIn pieces.flatten) :=
      said.symm.trans (eventsOfFrames_framesIn pieces.flatten)
    obtain ⟨rfl, ends⟩ := Prod.mk.inj body
    exact ⟨r, ends, whole⟩
  refine ⟨?_, ?_⟩
  · obtain ⟨r, _, whole⟩ := read []
    rw [List.append_nil, eventsOf, List.append_nil] at whole
    rw [yields_iff, whole]
  · intro reason others
    obtain ⟨r, ends, whole⟩ := read (.broken reason :: others)
    have last : eventsOf (.broken reason :: others) r =
        if endsIn pieces.flatten then [] else [brokenOff reason] := by
      rw [← ends, eventsOf]
      cases ended : r.ended with
      | true => simp [EventReader.arrive, EventReader.breakOff, ended, eventsOf_of_ended ended]
      | false =>
          simp [EventReader.arrive, EventReader.breakOff, ended, eventsOf_of_ended, brokenOff]
    rw [yields_iff, whole, last]

end EventStream
end DialectGateway.Backend
