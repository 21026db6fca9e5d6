/-
# Proofs.Delivery.Framing — nothing that is said breaks the framing

The frames that a sink accepts are written as one text. Reading this text gives these frames
and no others, whatever the events were: ids, names, texts and complaints may have line
breaks, blank lines and sentinels in them, but every frame carries one line of JSON, and the
only frame that does not is the sentinel itself (`Framed`, `run_framed`).

Nothing of what a backend says decides which frame is the sentinel. A stream is told in
frames of one kind (`Regular`) and ends in at most one frame of another: the sentinel, or a
frame that tells of a fault (`Shape`). Every turn of a delivery keeps this of the frames
accepted and those still to be written, taken together (`Tidy`), and what the sink accepted
is a prefix of these.
-/
import DialectGateway.Proofs.Delivery.Course
import DialectGateway.Proofs.Json.ReadBack
import DialectGateway.Proofs.Sse.RoundTrip

set_option autoImplicit false

namespace DialectGateway

open Json (Plain)

/-! ## Frames of each kind -/

/-- A frame that a dialect says what is generated in. -/
inductive Regular : Dialect → Sse.Frame → Prop
  | chat (event : Event) : Regular .chat (.json none (Chat.chunkJson event))
  | responses (f : Responses.Frame) : Regular .responses f.toSse
  | messages (f : Messages.Frame) : Regular .messages f.toSse

/-- A frame that tells of a fault. -/
def Telling (d : Dialect) (f : Sse.Frame) : Prop :=
  ∃ (e : Encoder) (fault : Fault), e.dialect = d ∧ f = e.faultFrame fault

/-- The data of the frame is a plain record, and its event name, if it has one, is a line. -/
inductive Sound : Sse.Frame → Prop
  | json {name : Option String} {v : Json} (record : v.isRecord = true) (plain : Plain v)
      (event : ∀ given, name = some given →
        '\n' ∉ given.toList ∧ Text.trim given.toList = given.toList) : Sound (.json name v)

namespace Sound

variable {f : Sse.Frame}

theorem unbroken (sound : Sound f) : Json.Unbroken f.data.toList := by
  cases sound with
  | json record plain event => exact Json.unbroken_print plain

theorem tree (sound : Sound f) :
    ∃ members, Json.Tree.ofSymbols? (f.data.toList.map some) = some (.record members) := by
  cases sound with
  | @json name v record plain event =>
      cases v with
      | record fields => exact ⟨_, Json.Tree.ofSymbols?_print plain⟩
      | null | bool | int | real | text | list => exact absurd record (by simp [Json.isRecord])

theorem not_done (sound : Sound f) : f.isDone = false := by
  obtain ⟨members, read⟩ := sound.tree
  have other : Json.Tree.ofSymbols? ("[DONE]".toList.map some) = none := by rfl
  cases data : f.data == "[DONE]" with
  | false => simp [Sse.Frame.isDone, data]
  | true =>
      rw [beq_iff_eq] at data
      rw [data, other] at read
      exact absurd read (by simp)

theorem fitsLines (sound : Sound f) : f.FitsLines := by
  have unbroken := sound.unbroken
  refine ⟨?_, ?_, ?_⟩
  · intro feed
    exact absurd (unbroken _ feed) (by decide)
  · intro ret
    exact absurd (unbroken _ (List.mem_of_getLast? ret)) (by decide)
  · cases sound with
    | json record plain event => exact event

end Sound

theorem Sse.Frame.fitsLines_done : Sse.Frame.done.FitsLines := by
  refine ⟨by decide, by decide, ?_⟩
  intro name named
  exact absurd named (by simp [Sse.Frame.done])

/-! ### What the dialects print -/

/-- A record is plain if all the fields it is put together from are. -/
theorem plain_record_append {left right : List (String × Json)} (l : Plain (.record left))
    (r : Plain (.record right)) : Plain (.record (left ++ right)) := by
  rw [Json.plain_record_iff] at l r ⊢
  exact List.forall_mem_append.2 ⟨l, r⟩

theorem plain_optField {α : Type} (key : String) (value : Option α) {form : α → Json}
    (each : ∀ a, Plain (form a)) : Plain (.record (Json.optField key value form)) := by
  cases value <;> simp [Json.optField, each]

namespace Chat

theorem plain_usageJson (t : Tokens) : Plain (usageJson t) := by simp [usageJson]

theorem plain_fragmentJson (f : ToolFragment) : Plain (fragmentJson f) := by
  have call : Plain (.record (Json.optField "arguments" f.arguments .text ++
      Json.optField "name" f.name .text)) :=
    plain_record_append (plain_optField _ _ .text) (plain_optField _ _ .text)
  refine plain_record_append (plain_record_append (plain_record_append ?_ ?_) ?_) ?_
  · simpa using call
  · exact plain_optField _ _ .text
  · simp
  · exact plain_optField _ _ fun _ => .text _

theorem plain_deltaJson (c : Choice) : Plain (deltaJson c) := by
  refine plain_record_append (plain_record_append (plain_record_append ?_ ?_) ?_) ?_
  · exact plain_optField _ _ .text
  · exact plain_optField _ _ .text
  · exact plain_optField _ _ .text
  · split
    · simp
    · simp [plain_fragmentJson]

theorem plain_choiceJson (c : Choice) : Plain (choiceJson c) := by
  simp [choiceJson, plain_deltaJson]

theorem plain_chunkJson (e : Event) : Plain (chunkJson e) := by
  refine plain_record_append ?_ (plain_optField _ _ plain_usageJson)
  refine .record (List.forall_mem_cons.2 ⟨?_, by simp⟩)
  exact .list (List.forall_mem_map.2 fun c _ => plain_choiceJson c)

theorem plain_faultJson (f : Fault) : Plain (faultJson f) := by simp [faultJson]

end Chat

namespace Responses

theorem plain_itemJson (item : Item) : Plain item.json ∧ Plain item.openingJson := by
  cases item <;>
    simp [Item.json, Item.openingJson, reasoningJson, messageJson, callJson, partJson]

theorem plain_snapshotJson (s : Snapshot) (status : String) (incomplete : Option String) :
    Plain (s.json status incomplete) := by
  refine plain_record_append (plain_record_append (plain_record_append ?_ ?_) ?_) ?_
  · simp
  · exact plain_optField _ _ (by simp)
  · simp [plain_itemJson]
  · exact plain_optField _ _ (by simp [usageJson])

theorem plain_json (f : Frame) : Plain f.json := by
  obtain ⟨sequence, notice⟩ := f
  cases notice <;> simp [Frame.json, plain_itemJson, plain_snapshotJson, partJson]

theorem plain_faultJson (f : Fault) (sequence : Option Nat) : Plain (faultJson f sequence) := by
  refine plain_record_append (plain_record_append ?_ (plain_optField _ _ Json.plain_nat)) ?_
  · simp
  · simp

end Responses

namespace Messages

theorem plain_json (f : Frame) : Plain f.json := by
  cases f with
  | blockStart index opening => cases opening <;> simp [Frame.json, Opening.json]
  | blockDelta index delta => cases delta <;> simp [Frame.json, Delta.json]
  | start | blockStop | ending | stop => simp [Frame.json, usageJson]

theorem plain_faultJson (f : Fault) : Plain (faultJson f) := by simp [faultJson]

/-- The names of frames are lines without blanks around them. -/
theorem Frame.name_fits (f : Frame) :
    '\n' ∉ f.name.toList ∧ Text.trim f.name.toList = f.name.toList := by
  have each : ∀ name ∈ ["message_start", "content_block_start", "content_block_delta",
      "content_block_stop", "message_delta", "message_stop"],
      '\n' ∉ name.toList ∧ Text.trim name.toList = name.toList := by decide
  exact each f.name (by cases f <;> simp [Frame.name])

end Messages

theorem Regular.sound {d : Dialect} {f : Sse.Frame} (regular : Regular d f) : Sound f := by
  cases regular with
  | chat event => exact .json rfl (Chat.plain_chunkJson event) (by simp)
  | responses f =>
      refine .json ?_ (Responses.plain_json f) (by simp)
      obtain ⟨sequence, notice⟩ := f
      cases notice <;> rfl
  | messages f =>
      refine .json ?_ (Messages.plain_json f) ?_
      · cases f <;> rfl
      · rintro name ⟨rfl⟩
        exact f.name_fits

theorem Telling.sound {d : Dialect} {f : Sse.Frame} (telling : Telling d f) : Sound f := by
  obtain ⟨e, fault, _, rfl⟩ := telling
  cases e with
  | chat => exact .json rfl (Chat.plain_faultJson fault) (by simp)
  | responses e => exact .json rfl (Responses.plain_faultJson fault _) (by simp)
  | messages e =>
      refine .json rfl (Messages.plain_faultJson fault) ?_
      rintro name ⟨rfl⟩
      exact ⟨by decide, by decide⟩

/-- What is generated never looks like the frame of a fault. The first members of their records
have different names. -/
theorem Regular.not_telling {d : Dialect} {f : Sse.Frame} (regular : Regular d f) :
    ¬Telling d f := by
  have apart {name : Option String} {v w : Json} (plain : Plain v) (plain' : Plain w)
      (other : Json.treeOf v ≠ Json.treeOf w) : Sse.Frame.json name v ≠ .json name w := by
    intro same
    have data : v.print = w.print := congrArg Sse.Frame.data same
    have read := Json.Tree.ofSymbols?_print plain
    rw [data, Json.Tree.ofSymbols?_print plain'] at read
    exact other (Option.some.inj read).symm
  rintro ⟨e, fault, dialect, same⟩
  cases regular with
  | chat event =>
      cases e with
      | chat =>
          refine apart (Chat.plain_chunkJson event) (Chat.plain_faultJson fault) ?_ same
          simp [Chat.chunkJson, Chat.faultJson, Json.treeOf, Json.membersOf, Json.piecesOf,
            Json.pieceOf]
      | responses | messages => exact absurd dialect (by simp [Encoder.dialect])
  | responses f =>
      cases e with
      | responses e =>
          refine apart (Responses.plain_json f) (Responses.plain_faultJson fault _) ?_ same
          obtain ⟨sequence, notice⟩ := f
          cases notice <;>
            simp [Responses.Frame.json, Responses.faultJson, Json.treeOf, Json.membersOf,
              Json.piecesOf, Json.pieceOf]
      | chat | messages => exact absurd dialect (by simp [Encoder.dialect])
  | messages f =>
      cases e with
      | messages e =>
          have named : some f.name = some "error" := congrArg Sse.Frame.event same
          cases f <;> simp [Messages.Frame.name] at named
      | chat | responses => exact absurd dialect (by simp [Encoder.dialect])

/-! ## The frames of a stream -/

/-- At most one frame ends a stream: the sentinel, or a frame that tells of a fault. -/
inductive Ends (d : Dialect) : List Sse.Frame → Prop
  | missing : Ends d []
  | done (has : d.hasSentinel = true) : Ends d [.done]
  | told {f : Sse.Frame} (telling : Telling d f) : Ends d [f]

theorem Ends.of_append {d : Dialect} {before after : List Sse.Frame}
    (ends : Ends d (before ++ after)) : Ends d before := by
  generalize whole : before ++ after = ending at ends
  cases ends with
  | missing =>
      obtain ⟨rfl, -⟩ := List.append_eq_nil_iff.1 whole
      exact .missing
  | done has =>
      rcases List.append_eq_singleton_iff.1 whole with ⟨rfl, -⟩ | ⟨rfl, -⟩
      · exact .missing
      · exact .done has
  | told telling =>
      rcases List.append_eq_singleton_iff.1 whole with ⟨rfl, -⟩ | ⟨rfl, -⟩
      · exact .missing
      · exact .told telling

/-- Frames that are regular up to an ending. -/
def Shape (d : Dialect) (frames : List Sse.Frame) : Prop :=
  ∃ regular ending, (∀ f ∈ regular, Regular d f) ∧ Ends d ending ∧ frames = regular ++ ending

namespace Shape

variable {d : Dialect} {frames before after : List Sse.Frame}

theorem of_regular (regular : ∀ f ∈ frames, Regular d f) : Shape d frames :=
  ⟨frames, [], regular, .missing, (List.append_nil frames).symm⟩

/-- What has been written of a stream has the shape of a stream. -/
theorem of_append (shape : Shape d (before ++ after)) : Shape d before := by
  obtain ⟨regular, ending, each, ends, whole⟩ := shape
  rcases List.append_eq_append_iff.1 whole with ⟨more, rfl, -⟩ | ⟨part, rfl, rfl⟩
  · exact of_regular fun f member => each f (List.mem_append_left more member)
  · exact ⟨regular, part, each, ends.of_append, rfl⟩

theorem sound_or_done (shape : Shape d frames) : ∀ f ∈ frames, Sound f ∨ f = .done := by
  obtain ⟨regular, ending, each, ends, rfl⟩ := shape
  intro f member
  rcases List.mem_append.1 member with inside | last
  · exact .inl (each f inside).sound
  · cases ends with
    | missing => exact absurd last List.not_mem_nil
    | done => exact .inr (List.mem_singleton.1 last)
    | told telling => exact .inl (List.mem_singleton.1 last ▸ telling.sound)

end Shape

/-! ## Every turn keeps the shape -/

namespace Encoder

theorem dialect_fresh (mint : Nat → String) (dialect : Dialect) :
    (fresh mint dialect).dialect = dialect := by
  cases dialect <;> rfl

theorem dialect_feed (e : Encoder) (event : Event) : (e.feed event).1.dialect = e.dialect := by
  cases e <;> rfl

theorem dialect_close (e : Encoder) : e.close.1.dialect = e.dialect := by
  cases e <;> rfl

/-- Where every item is formed alike, each item of a result has this form. -/
theorem formed_of_map_ok {A B E : Type} {form : A → B} {result : Except E (List A)}
    {items : List B} (ok : result.map (·.map form) = .ok items) : ∀ b ∈ items, ∃ a, form a = b := by
  intro b member
  cases result with
  | error e => exact absurd ok (by simp [Except.map])
  | ok parts =>
      obtain rfl : parts.map form = items := Except.ok.inj ok
      obtain ⟨a, -, formed⟩ := List.mem_map.1 member
      exact ⟨a, formed⟩

theorem regular_feed {e : Encoder} {event : Event} {frames : List Sse.Frame}
    (ok : (e.feed event).2 = .ok frames) : ∀ f ∈ frames, Regular e.dialect f := by
  intro f member
  cases e with
  | chat =>
      obtain rfl : Chat.frames event = frames := Except.ok.inj ok
      rw [Chat.frames] at member
      split at member
      · exact absurd member List.not_mem_nil
      · exact List.mem_singleton.1 member ▸ .chat event
  | responses e =>
      obtain ⟨g, rfl⟩ := formed_of_map_ok ok f member
      exact .responses g
  | messages e =>
      obtain ⟨g, rfl⟩ := formed_of_map_ok ok f member
      exact .messages g

theorem regular_close (e : Encoder) : ∀ f ∈ e.close.2, Regular e.dialect f := by
  intro f member
  cases e with
  | chat => exact absurd member List.not_mem_nil
  | responses e =>
      obtain ⟨g, -, rfl⟩ := List.mem_map.1 member
      exact .responses g
  | messages e =>
      obtain ⟨g, -, rfl⟩ := List.mem_map.1 member
      exact .messages g

theorem ends_sentinel (e : Encoder) : Ends e.dialect e.sentinel := by
  rw [sentinel]
  split
  · next has => exact .done has
  · exact .missing

end Encoder

namespace Delivery

/-- What has been accepted and what is still to be written are a stream together, and a
delivery that goes on has not ended it. -/
structure Tidy (dialect : Dialect) (d : Delivery) (accepted : List Sse.Frame) : Prop where
  speaks : d.encoder.dialect = dialect
  shape : Shape dialect (accepted ++ d.unwritten)
  regular : d.goesOn = true → ∀ f ∈ accepted ++ d.unwritten, Regular dialect f

namespace Tidy

variable {dialect : Dialect} {d : Delivery} {accepted : List Sse.Frame}

/-- While events are awaited, what has been accepted is regular. -/
theorem awaiting (tidy : Tidy dialect d accepted) (waits : d.stage = .awaiting) :
    ∀ f ∈ accepted, Regular dialect f := by
  have regular := tidy.regular (by rw [goesOn, waits])
  rwa [unwritten, waits, List.append_nil] at regular

/-- A delivery that is over writes nothing more. -/
theorem stopped (speaks : d.encoder.dialect = dialect) (shape : Shape dialect accepted)
    (outcome : Outcome) : Tidy dialect (d.ended outcome) accepted :=
  ⟨speaks, (List.append_nil accepted).symm ▸ shape, fun still => absurd still (by simp)⟩

theorem cancel (tidy : Tidy dialect d accepted) : Tidy dialect d.cancel accepted :=
  ⟨tidy.speaks, tidy.shape, tidy.regular⟩

/-- Regular frames are sent behind regular ones. -/
theorem send {frames : List Sse.Frame} (speaks : d.encoder.dialect = dialect)
    (whole : ∀ f ∈ accepted ++ frames, Regular dialect f) :
    Tidy dialect (d.send frames .event) accepted := by
  rw [← unwritten_send d frames .event] at whole
  exact ⟨(encoder_send ..).symm ▸ speaks, .of_regular whole, fun _ => whole⟩

/-- Frames are sent after which no more are. -/
theorem sendLast {frames : List Sse.Frame} {purpose : Purpose}
    (speaks : d.encoder.dialect = dialect) (shape : Shape dialect (accepted ++ frames))
    (last : purpose ≠ .event) : Tidy dialect (d.send frames purpose) accepted :=
  ⟨(encoder_send ..).symm ▸ speaks, (unwritten_send ..).symm ▸ shape,
    fun still => absurd still (by simp [last])⟩

/-- A frame is sent that tells of a fault. -/
theorem sendFault {e : Encoder} {fault : Fault} {purpose : Purpose}
    (speaks : d.encoder.dialect = dialect) (before : ∀ f ∈ accepted, Regular dialect f)
    (told : e.dialect = dialect) (last : purpose ≠ .event) :
    Tidy dialect (d.send [e.faultFrame fault] purpose) accepted :=
  sendLast speaks ⟨accepted, [e.faultFrame fault], before, .told ⟨e, fault, told, rfl⟩, rfl⟩ last

theorem takeEvent (tidy : Tidy dialect d accepted) (waits : d.stage = .awaiting) (event : Event) :
    Tidy dialect (d.takeEvent event) accepted := by
  have before := tidy.awaiting waits
  have speaks := tidy.speaks
  rw [Delivery.takeEvent]
  split
  · exact sendFault speaks before speaks (by simp)
  · have kept := (d.encoder.dialect_feed event).trans speaks
    split
    · next e frames fed =>
      rw [fed] at kept
      have each : ∀ f ∈ frames, Regular dialect f :=
        speaks ▸ Encoder.regular_feed (congrArg Prod.snd fed)
      exact send kept (List.forall_mem_append.2 ⟨before, each⟩)
    · next e refusal fed =>
      rw [fed] at kept
      exact sendFault kept before kept (by simp)

theorem takeEnd (tidy : Tidy dialect d accepted) (waits : d.stage = .awaiting) :
    Tidy dialect d.takeEnd accepted := by
  have kept := d.encoder.dialect_close.trans tidy.speaks
  have each := d.encoder.regular_close
  rw [tidy.speaks] at each
  refine sendLast kept ⟨accepted ++ d.encoder.close.2, d.encoder.close.1.sentinel, ?_, ?_, ?_⟩
    (by simp)
  · exact List.forall_mem_append.2 ⟨tidy.awaiting waits, each⟩
  · exact kept ▸ Encoder.ends_sentinel _
  · exact (List.append_assoc ..).symm

theorem takePanic (tidy : Tidy dialect d accepted) (waits : d.stage = .awaiting)
    (message : String) : Tidy dialect (d.takePanic message) accepted :=
  sendFault tidy.speaks (tidy.awaiting waits) tidy.speaks (by simp)

/-- What is written moves from what is left to what has been accepted. -/
theorem resumes {d' : Delivery} {accepted' : List Sse.Frame} (tidy : Tidy dialect d accepted)
    (resumes : d'.Resumes d) (whole : accepted' ++ d'.unwritten = accepted ++ d.unwritten) :
    Tidy dialect d' accepted' :=
  ⟨resumes.encoder ▸ tidy.speaks, whole ▸ tidy.shape,
    fun still => whole ▸ tidy.regular (resumes.goesOn ▸ still)⟩

theorem failed (tidy : Tidy dialect d accepted) : Tidy dialect d.failed accepted := by
  rcases d.failed_eq with same | ⟨d', outcome, same, encoder, -⟩ <;> rw [same]
  · exact tidy
  · exact stopped (encoder.symm ▸ tidy.speaks) tidy.shape.of_append outcome

end Tidy

/-- **A delivery stays tidy**, whatever it lives through. -/
theorem Course.tidy {mint : Nat → String} {dialect : Dialect} {d : Delivery}
    {accepted : List Sse.Frame} (course : Course mint dialect d accepted) :
    Tidy dialect d accepted := by
  induction course with
  | fresh =>
      have nothing : ∀ f ∈ [] ++ (Delivery.fresh mint dialect).unwritten, Regular dialect f :=
        fun _ member => absurd member List.not_mem_nil
      exact ⟨Encoder.dialect_fresh mint dialect, .of_regular nothing, fun _ => nothing⟩
  | cancel _ ih => exact ih.cancel
  | noticeCancel _ _ closed ih => exact .stopped ih.speaks ih.shape.of_append _
  | takeEvent _ waits event ih => exact ih.takeEvent waits event
  | takeEnd _ waits ih => exact ih.takeEnd waits
  | takePanic _ waits message ih => exact ih.takePanic waits message
  | @wrote d _ _ f rest purpose writes ih =>
      refine ih.resumes d.resumes_wrote ?_
      rw [unwritten_wrote writes, List.append_assoc, List.singleton_append]
  | @flushed d _ _ ih => exact ih.resumes d.resumes_flushed (d.unwritten_flushed ▸ rfl)
  | failed _ ih => exact ih.failed

end Delivery

/-! ## What a reader makes of it -/

/-- Frames that are read back as they were written. -/
structure Framed (d : Dialect) (frames : List Sse.Frame) : Prop where
  readsBack : Sse.framesOfText (String.join (frames.map Sse.Frame.wire)) = frames
  /-- The data of every frame is on one line. -/
  oneLine : ∀ f ∈ frames, '\n' ∉ f.data.toList ∧ '\r' ∉ f.data.toList
  /-- The data of every frame but the sentinel is a JSON record. -/
  records : ∀ f ∈ frames, f.isDone = true ∨
    ∃ members, Json.Tree.ofSymbols? (f.data.toList.map some) = some (.record members)
  /-- The sentinel comes last, behind frames that are neither sentinels nor tell of a fault, and
  only in the dialects that have one. -/
  done : ∀ before f after, frames = before ++ f :: after → f.isDone = true →
    after = [] ∧ (∀ g ∈ before, g.isDone = false ∧ ¬Telling d g) ∧ d ≠ .messages

namespace Shape

variable {d : Dialect} {frames before after : List Sse.Frame} {f : Sse.Frame}

/-- Only regular frames come before the sentinel, and nothing comes behind it. -/
theorem of_done (shape : Shape d frames) (parted : frames = before ++ f :: after)
    (isDone : f.isDone = true) :
    after = [] ∧ (∀ g ∈ before, Regular d g) ∧ d.hasSentinel = true := by
  obtain ⟨regular, ending, each, ends, rfl⟩ := shape
  have outside : f ∉ regular := by
    intro member
    rw [(each f member).sound.not_done] at isDone
    exact absurd isDone Bool.false_ne_true
  have last : f ∈ ending := by
    have member : f ∈ regular ++ ending := by simp [parted]
    exact (List.mem_append.1 member).resolve_left outside
  cases ends with
  | missing => exact absurd last List.not_mem_nil
  | told telling =>
      rw [List.mem_singleton.1 last, telling.sound.not_done] at isDone
      exact absurd isDone Bool.false_ne_true
  | done has =>
      rcases List.eq_nil_or_concat after with rfl | ⟨init, g, rfl⟩
      · obtain ⟨rfl, -⟩ := List.append_inj' parted rfl
        exact ⟨rfl, each, has⟩
      · rw [List.concat_eq_append, ← List.cons_append, ← List.append_assoc] at parted
        obtain ⟨rfl, -⟩ := List.append_inj' parted rfl
        exact absurd (by simp) outside

theorem framed (shape : Shape d frames) : Framed d frames where
  readsBack := by
    refine Sse.framesOfText_wires ?_
    intro f member
    rcases shape.sound_or_done f member with sound | rfl
    · exact sound.fitsLines
    · exact Sse.Frame.fitsLines_done
  oneLine := by
    intro f member
    rcases shape.sound_or_done f member with sound | rfl
    · constructor
      · intro feed
        exact absurd (sound.unbroken _ feed) (by decide)
      · intro ret
        exact absurd (sound.unbroken _ ret) (by decide)
    · decide
  records := by
    intro f member
    rcases shape.sound_or_done f member with sound | rfl
    · exact .inr sound.tree
    · exact .inl rfl
  done := by
    intro before f after parted isDone
    obtain ⟨nothing, each, has⟩ := shape.of_done parted isDone
    refine ⟨nothing, ?_, ?_⟩
    · intro g member
      exact ⟨(each g member).sound.not_done, (each g member).not_telling⟩
    · rintro rfl
      exact absurd has Bool.false_ne_true

end Shape

namespace Delivery

/-- **Nothing that is said breaks the framing.** Whatever a delivery lives through, the frames
that the sink has accepted are read back from what was written; each is one line of JSON, except
for the sentinel, which comes last if it comes at all. This is so for every script and sink, and
for the frames that the client of a live delivery has read. -/
theorem run_framed (mint : Nat → String) (dialect : Dialect) :
    (∀ d frames, Course mint dialect d frames → Framed dialect frames) ∧
    (∀ l frames, Live.Met mint dialect l frames → Framed dialect frames) ∧
    ∀ {S : Type} [Sink S] (sink : S) (script : Script),
      Framed dialect (acceptedBy
        ((Delivery.fresh mint dialect).deliver (Journal.mk sink []) script).2.calls) := by
  have shape {d : Delivery} {frames : List Sse.Frame} (course : Course mint dialect d frames) :
      Shape dialect frames := course.tidy.shape.of_append
  refine ⟨?_, ?_, ?_⟩
  · intro d frames course
    exact (shape course).framed
  · intro l frames met
    obtain ⟨unread, course⟩ := met.course
    exact (shape course).of_append.framed
  · intro S _ sink script
    exact (shape (deliver_course mint dialect sink script)).framed

/-- An event with a sentinel in its text. -/
def forgery : Event := { choices := [Event.text 0 "\n\ndata: [DONE]\n\n"] }

/-- The sentinel in a text stays in the text, and the one that follows ends the stream. -/
theorem run_framed_forgery :
    let frame : Sse.Frame := .json none (Chat.chunkJson forgery)
    Framed .chat [frame, .done] ∧
      ∃ l, Live.Met (fun _ => "") .chat l [frame] ∧ Framed .chat [frame] := by
  intro frame
  let script : Script := .plain [forgery]
  have course : Course (fun _ => "") .chat
      ((Delivery.fresh (fun _ => "") .chat).deliver (Journal.mk ({} : Recorder) []) script).1
      [frame, .done] := deliver_course (fun _ => "") .chat ({} : Recorder) script
  have opened : Live.Met (fun _ => "") .chat (.ofScript (fun _ => "") .chat 1 script) [] :=
    .start 1 script
  have read : Live.Met (fun _ => "") .chat _ [frame] := ((opened.advance rfl).advance rfl).read rfl
  exact ⟨(run_framed _ .chat).1 _ _ course, _, read, (run_framed _ .chat).2.1 _ _ read⟩

end Delivery
end DialectGateway
