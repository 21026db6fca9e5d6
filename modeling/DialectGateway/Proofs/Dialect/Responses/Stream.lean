/-
# Proofs.Dialect.Responses.Stream — a stream of accepted events is a response

`Told` relates an encoder to the lives it has told of: what it holds open is what is
open among them. Every turn of the encoder is one way for a stream to go on: items are
finished, an item is added, an item gains a piece. An event tells of its turns whether
it is accepted or refused (`Begun.feed`); if it is accepted its frames say exactly that.

With the numbers of `Proofs.Dialect.Responses.Numbering` this gives what a client is
promised (`Protocol`) of every run of accepted events and its closing frames
(`feedAll_close_protocol`). What tells items from each other (`Apart`) is promised as long
as there are places for all of them; then places come again (`crowd_places`).
-/
import DialectGateway.Dialect.Encoder
import DialectGateway.Proofs.Dialect.Feeding
import DialectGateway.Proofs.Dialect.Responses.Lives
import DialectGateway.Proofs.Dialect.Responses.Numbering
import Mathlib.Data.List.Basic

set_option autoImplicit false

namespace DialectGateway.Responses

/-! ## What an encoder holds open -/

namespace OpenText

def asReasoning (r : OpenText) : UInt32 × Item := (r.subject.place, .reasoning r.subject.id r.text)

def asMessage (m : OpenText) : UInt32 × Item := (m.subject.place, .message m.subject.id m.text)

end OpenText

def openCalls (calls : List (UInt32 × OpenCall)) : List (UInt32 × Item) :=
  (calls.filter (!·.2.done)).map fun (_, c) => (c.subject.place, c.item)

theorem openCalls_append (left right : List (UInt32 × OpenCall)) :
    openCalls (left ++ right) = openCalls left ++ openCalls right := by
  simp only [openCalls, List.filter_append, List.map_append]

theorem openCalls_cons_of_undone {c : OpenCall} (undone : c.done = false) (slot : UInt32)
    (rest : List (UInt32 × OpenCall)) :
    openCalls ((slot, c) :: rest) = (c.subject.place, c.item) :: openCalls rest := by
  simp [openCalls, undone]

theorem isText_of_mem_openCalls {calls : List (UInt32 × OpenCall)} {x : UInt32 × Item}
    (member : x ∈ openCalls calls) : x.2.isText = false := by
  obtain ⟨call, _, rfl⟩ := List.mem_map.1 member
  rfl

/-- A new call is open beside the others. -/
theorem openCalls_put_of_new {calls : List (UInt32 × OpenCall)} {slot : UInt32} {c : OpenCall}
    {x : UInt32 × Item} (absent : calls.lookup slot = none) (undone : c.done = false)
    (same : x = (c.subject.place, c.item)) :
    (openCalls calls ++ [x]).Perm (openCalls (Keyed.put slot c calls)) := by
  subst same
  obtain ⟨left, right, here, there⟩ := Keyed.put_of_lookup_none absent c
  rw [there, here, openCalls_append, openCalls_append, openCalls_cons_of_undone undone]
  exact (List.perm_append_singleton _ _).trans List.perm_middle.symm

/-- A call that grows stays where it is among the others. -/
theorem openCalls_put_of_open {calls : List (UInt32 × OpenCall)} {slot : UInt32} {c : OpenCall}
    (ascending : Keyed.Ascending calls) (present : calls.lookup slot = some c)
    (undone : c.done = false) : ∃ others,
      (openCalls calls).Perm ((c.subject.place, c.item) :: others) ∧
        ∀ c', c'.done = false →
          (openCalls (Keyed.put slot c' calls)).Perm ((c'.subject.place, c'.item) :: others) := by
  obtain ⟨left, right, here, there⟩ := Keyed.put_of_lookup ascending present
  refine ⟨openCalls left ++ openCalls right, ?_, ?_⟩
  · rw [here, openCalls_append, openCalls_cons_of_undone undone]
    exact List.perm_middle
  · intro c' undone'
    rw [there c', openCalls_append, openCalls_cons_of_undone undone']
    exact List.perm_middle

/-- The open items with their places: reasoning, message, then calls by slot. -/
def openItems (reasoning message : Option OpenText) (calls : List (UInt32 × OpenCall)) :
    List (UInt32 × Item) :=
  reasoning.toList.map OpenText.asReasoning ++ message.toList.map OpenText.asMessage ++
    openCalls calls

theorem openItems_none (calls : List (UInt32 × OpenCall)) :
    openItems none none calls = openCalls calls := rfl

/-- The notices that finish items, one item after another. -/
def endings (items : List (UInt32 × Item)) : List Notice :=
  items.flatMap fun (place, item) => item.ending place

theorem Encoder.closeCalls_snd (e : Encoder) : e.closeCalls.2 = endings (openCalls e.calls) := by
  rw [endings, openCalls, List.flatMap_map]
  show (e.calls.filter (!·.2.done)).flatMap (fun (_, c) => Encoder.callEnd c) = _
  apply List.flatMap_congr
  intro x member
  have undone : x.2.done = false := by simpa using (List.mem_filter.1 member).2
  simp only [Encoder.callEnd, undone, Bool.false_eq_true, if_false]
  rfl

theorem Encoder.isTerminal_terminal (e : Encoder) : e.terminal.isTerminal = true := by
  rw [terminal]
  split <;> rfl

/-- The encoder has told of the lives in these notices. -/
structure Told (e : Encoder) (lives : List Life) (said : List Notice) : Prop where
  running : e.ended = false
  identified : e.identity.isSome = true
  said : Said e.responseId lives said
  numbered : e.counters.nextPlace = UInt32.ofNat lives.length
  held : (openLives lives).Perm (openItems e.reasoning e.message e.calls)
  single : e.reasoning = none ∨ e.message = none
  ascending : Keyed.Ascending e.calls

namespace Told

variable {e : Encoder} {lives : List Life} {said : List Notice}

/-! ## Closing -/

theorem closeReasoning (told : Told e lives said) :
    ∃ lives', Told e.closeReasoning.1 lives' (said ++ e.closeReasoning.2) ∧
      e.closeReasoning.1.reasoning = none ∧ e.closeReasoning.1.message = e.message ∧
      e.closeReasoning.1.calls = e.calls := by
  rw [Encoder.closeReasoning.eq_def]
  split
  · next none_ =>
      rw [List.append_nil]
      exact ⟨lives, told, none_, rfl, rfl⟩
  · next r some_ =>
      have held := told.held
      rw [some_] at held
      have open_ : (openLives lives).Perm
          ([r.asReasoning] ++ openItems none e.message e.calls) := held
      obtain ⟨lives', said', rest, length⟩ := told.said.finishItems open_
      refine ⟨lives', ⟨told.running, told.identified, said', ?_, rest, .inl rfl, told.ascending⟩,
        rfl, rfl, rfl⟩
      rw [length]
      exact told.numbered

theorem closeMessage (told : Told e lives said) :
    ∃ lives', Told e.closeMessage.1 lives' (said ++ e.closeMessage.2) ∧
      e.closeMessage.1.message = none ∧ e.closeMessage.1.reasoning = e.reasoning ∧
      e.closeMessage.1.calls = e.calls := by
  rw [Encoder.closeMessage.eq_def]
  split
  · next none_ =>
      rw [List.append_nil]
      exact ⟨lives, told, none_, rfl, rfl⟩
  · next m some_ =>
      have held := told.held
      rw [some_, openItems, List.append_assoc] at held
      have open_ : (openLives lives).Perm
          ([m.asMessage] ++ openItems e.reasoning none e.calls) := by
        rw [openItems, Option.toList_none, List.map_nil, List.append_nil]
        exact held.trans List.perm_middle
      obtain ⟨lives', said', rest, length⟩ := told.said.finishItems open_
      refine ⟨lives', ⟨told.running, told.identified, said', ?_, rest, .inr rfl, told.ascending⟩,
        rfl, rfl, rfl⟩
      rw [length]
      exact told.numbered

theorem closeCalls (told : Told e lives said) :
    ∃ lives', Told e.closeCalls.1 lives' (said ++ e.closeCalls.2) ∧
      openCalls e.closeCalls.1.calls = [] := by
  have idle : openCalls e.closeCalls.1.calls = [] := by
    simp [Encoder.closeCalls, openCalls, List.filter_map, Function.comp_def]
  have notices := e.closeCalls_snd
  have held := told.held.trans List.perm_append_comm
  obtain ⟨lives', said', rest, length⟩ := told.said.finishItems held
  refine ⟨lives', ⟨told.running, told.identified, ?_, ?_, ?_, told.single, ?_⟩, idle⟩
  · rw [notices]
    exact said'
  · rw [length]
    exact told.numbered
  · rw [openItems, idle, List.append_nil]
    exact rest
  · exact List.pairwise_map.2 told.ascending

/-- Closing leaves nothing open. -/
theorem closeItems (told : Told e lives said) :
    ∃ lives', Told e.closeItems.1 lives' (said ++ e.closeItems.2) ∧ openLives lives' = [] := by
  obtain ⟨first, told', noReasoning, _, _⟩ := told.closeReasoning
  obtain ⟨second, told'', noMessage, still, _⟩ := told'.closeMessage
  obtain ⟨third, told''', noCalls⟩ := told''.closeCalls
  have all : said ++ e.closeItems.2 = said ++ e.closeReasoning.2 ++
      e.closeReasoning.1.closeMessage.2 ++ e.closeReasoning.1.closeMessage.1.closeCalls.2 := by
    simp only [Encoder.closeItems, List.append_assoc]
  refine ⟨third, ?_, ?_⟩
  · rw [all]
    exact told'''
  · have held := told'''.held
    have reasoning : e.closeReasoning.1.closeMessage.1.closeCalls.1.reasoning = none :=
      still.trans noReasoning
    have message : e.closeReasoning.1.closeMessage.1.closeCalls.1.message = none := noMessage
    rw [openItems, reasoning, message, noCalls] at held
    exact held.eq_nil

/-! ## Adding and extending -/

/-- A text is added when neither reasoning nor a message is open. -/
theorem noText (told : Told e lives said) (noReasoning : e.reasoning = none)
    (noMessage : e.message = none) : ∀ x ∈ openLives lives, x.2.isText = false := by
  intro x member
  have open_ := told.held.mem_iff.1 member
  rw [noReasoning, noMessage] at open_
  exact isText_of_mem_openCalls open_

/-- An item of its place's name is added at the next place. -/
theorem add (told : Told e lives said) (item : Item) {e' : Encoder} (empty : item.text = "")
    (named : item.id = item.nameAt e.responseId e.counters.nextPlace)
    (alone : item.isText = true → e.reasoning = none ∧ e.message = none)
    (running : e'.ended = e.ended) (identity : e'.identity = e.identity)
    (next : e'.counters.nextPlace = e.counters.nextPlace + 1)
    (held : (openItems e.reasoning e.message e.calls ++ [(e.counters.nextPlace, item)]).Perm
      (openItems e'.reasoning e'.message e'.calls))
    (single : e'.reasoning = none ∨ e'.message = none) (ascending : Keyed.Ascending e'.calls) :
    ∃ lives', Told e' lives' (said ++ item.opening e.counters.nextPlace) := by
  have place := told.numbered
  rw [place] at named held next ⊢
  obtain ⟨lives', said', open_, length⟩ := told.said.addItem empty named fun text =>
    told.noText (alone text).1 (alone text).2
  have response : e'.responseId = e.responseId := by
    rw [Encoder.responseId, identity]
    rfl
  refine ⟨lives', ⟨running.trans told.running, identity ▸ told.identified, ?_, ?_, ?_, single,
    ascending⟩⟩
  · rw [response]
    exact said'
  · rw [next, length, Word.ofNat_succ]
  · rw [open_]
    exact (told.held.append_right _).trans held

theorem openReasoning (told : Told e lives said) {e' : Encoder} {r : OpenText}
    {notices : List Notice} (asked : e.openReasoning = (e', r, notices)) :
    e'.reasoning = some r ∧ ∃ lives', Told e' lives' (said ++ notices) := by
  rw [Encoder.openReasoning] at asked
  split at asked
  · next some_ =>
      cases asked
      rw [List.append_nil]
      exact ⟨some_, lives, told⟩
  · next none_ =>
      obtain ⟨closed, told', noMessage, still, _⟩ := told.closeMessage
      rw [none_] at still
      generalize e.closeMessage = result at asked told' noMessage still
      obtain ⟨c, closing⟩ := result
      cases asked
      refine ⟨rfl, ?_⟩
      rw [← List.append_assoc]
      refine told'.add (.reasoning _ "") rfl rfl (fun _ => ⟨still, noMessage⟩) rfl rfl rfl ?_
        (.inr noMessage) told'.ascending
      have silent : c.message = none := noMessage
      have idle : c.reasoning = none := still
      rw [idle, silent]
      exact List.perm_append_comm

theorem openMessage (told : Told e lives said) {e' : Encoder} {m : OpenText}
    {notices : List Notice} (asked : e.openMessage = (e', m, notices)) :
    e'.message = some m ∧ ∃ lives', Told e' lives' (said ++ notices) := by
  rw [Encoder.openMessage] at asked
  split at asked
  · next some_ =>
      cases asked
      rw [List.append_nil]
      exact ⟨some_, lives, told⟩
  · next none_ =>
      obtain ⟨closed, told', noReasoning, still, _⟩ := told.closeReasoning
      rw [none_] at still
      generalize e.closeReasoning = result at asked told' noReasoning still
      obtain ⟨c, closing⟩ := result
      cases asked
      refine ⟨rfl, ?_⟩
      rw [← List.append_assoc]
      refine told'.add (.message _ "") rfl rfl (fun _ => ⟨noReasoning, still⟩) rfl rfl rfl ?_
        (.inl noReasoning) told'.ascending
      have silent : c.reasoning = none := noReasoning
      have idle : c.message = none := still
      rw [idle, silent]
      exact List.perm_append_comm

/-- An open item gains a piece. -/
theorem extend (told : Told e lives said) (place : UInt32) (item : Item) {piece : String}
    {rest : List (UInt32 × Item)} {e' : Encoder}
    (open_ : (openItems e.reasoning e.message e.calls).Perm ((place, item) :: rest))
    (running : e'.ended = e.ended) (identity : e'.identity = e.identity)
    (next : e'.counters = e.counters)
    (held : ((place, item.withText (item.text ++ piece)) :: rest).Perm
      (openItems e'.reasoning e'.message e'.calls))
    (single : e'.reasoning = none ∨ e'.message = none) (ascending : Keyed.Ascending e'.calls) :
    ∃ lives', Told e' lives' (said ++ [item.delta place piece]) := by
  obtain ⟨lives', said', open', length⟩ := told.said.extendItem (told.held.trans open_) piece
  have response : e'.responseId = e.responseId := by
    rw [Encoder.responseId, identity]
    rfl
  refine ⟨lives', ⟨running.trans told.running, identity ▸ told.identified, ?_, ?_,
    open'.trans held, single, ascending⟩⟩
  · rw [response]
    exact said'
  · rw [next, length]
    exact told.numbered

theorem reason (told : Told e lives said) (s : String) :
    ∃ lives', Told (e.reason s).1 lives' (said ++ (e.reason s).2) := by
  rw [Encoder.reason]
  generalize asked : e.openReasoning = result
  obtain ⟨e', r, opening⟩ := result
  obtain ⟨some_, middle, told'⟩ := told.openReasoning asked
  have none_ : e'.message = none := told'.single.resolve_left (by simp [some_])
  simp only
  rw [← List.append_assoc]
  have before : openItems e'.reasoning e'.message e'.calls =
      r.asReasoning :: openCalls e'.calls := by
    rw [some_, none_]
    rfl
  refine told'.extend r.subject.place (.reasoning r.subject.id r.text) (.of_eq before) rfl rfl rfl
    ?_ (.inr none_) told'.ascending
  rw [none_]
  exact List.Perm.refl _

theorem say (told : Told e lives said) (s : String) :
    ∃ lives', Told (e.say s).1 lives' (said ++ (e.say s).2) := by
  rw [Encoder.say]
  generalize asked : e.openMessage = result
  obtain ⟨e', m, opening⟩ := result
  obtain ⟨some_, middle, told'⟩ := told.openMessage asked
  have none_ : e'.reasoning = none := told'.single.resolve_right (by simp [some_])
  simp only
  rw [← List.append_assoc]
  have before : openItems e'.reasoning e'.message e'.calls = m.asMessage :: openCalls e'.calls := by
    rw [some_, none_]
    rfl
  refine told'.extend m.subject.place (.message m.subject.id m.text) (.of_eq before) rfl rfl rfl
    ?_ (.inl none_) told'.ascending
  rw [none_]
  exact List.Perm.refl _

/-- A slot's call is open beside whatever else is open. -/
theorem openCall (told : Told e lives said) {f : ToolFragment} {e' : Encoder} {call : OpenCall}
    {notices : List Notice} (asked : e.openCall f = .ok (e', call, notices)) :
    e'.calls.lookup f.slot = some call ∧ ∃ lives', Told e' lives' (said ++ notices) := by
  rw [Encoder.openCall] at asked
  split at asked
  · next present =>
      cases asked
      rw [List.append_nil]
      exact ⟨present, lives, told⟩
  · next absent =>
      split at asked
      · exact absurd asked (by simp)
      · next name named =>
          obtain ⟨first, told', noReasoning, _, sameCalls⟩ := told.closeReasoning
          generalize e.closeReasoning = result at asked told' noReasoning sameCalls
          obtain ⟨c, closing⟩ := result
          dsimp only at asked told' noReasoning sameCalls
          obtain ⟨second, told'', noMessage, still, sameCalls'⟩ := told'.closeMessage
          generalize c.closeMessage = result' at asked told'' noMessage still sameCalls'
          obtain ⟨d, closing'⟩ := result'
          dsimp only at asked told'' noMessage still sameCalls'
          cases asked
          refine ⟨Keyed.lookup_put_self _ _ _, ?_⟩
          have quiet : d.reasoning = none := still.trans noReasoning
          have absent' : d.calls.lookup f.slot = none := by
            have same : d.calls = e.calls := sameCalls'.trans sameCalls
            rw [same]
            exact absent
          simp only [← List.append_assoc]
          refine told''.add (.call _ _ name "") rfl rfl (fun _ => ⟨quiet, noMessage⟩) rfl rfl rfl
            ?_ (.inl quiet) (Keyed.ascending_put told''.ascending _ _)
          show (openItems d.reasoning d.message d.calls ++ _).Perm
            (openItems d.reasoning d.message (Keyed.put f.slot _ d.calls))
          rw [quiet, noMessage, openItems_none, openItems_none]
          exact openCalls_put_of_new absent' rfl rfl

theorem call (told : Told e lives said) {f : ToolFragment} {e' : Encoder}
    {notices : List Notice} (asked : e.call f = .ok (e', notices)) :
    ∃ lives', Told e' lives' (said ++ notices) := by
  rw [Encoder.call] at asked
  cases result : e.openCall f with
  | error refusal =>
      rw [result] at asked
      exact absurd asked (by simp [bind, Except.bind])
  | ok opened =>
      obtain ⟨c, call, opening⟩ := opened
      obtain ⟨present, middle, told'⟩ := told.openCall result
      simp only [result, bind, Except.bind, pure, Except.pure, throw, throwThe,
        MonadExceptOf.throw] at asked
      split at asked
      · cases asked
        exact ⟨middle, told'⟩
      · split at asked
        · exact absurd asked (by simp)
        · next running =>
            cases asked
            have undone : call.done = false := by simpa using running
            obtain ⟨others, before, after⟩ :=
              openCalls_put_of_open told'.ascending present undone
            rw [← List.append_assoc]
            refine told'.extend call.subject.place call.item
              ((before.append_left _).trans List.perm_middle) rfl rfl rfl ?_ told'.single
              (Keyed.ascending_put told'.ascending _ _)
            exact List.perm_middle.symm.trans
              ((after { call with arguments := call.arguments ++ f.addition } undone).append_left
                _).symm

/-- **An accepted output is told of.** -/
theorem output (told : Told e lives said) {o : Output} {e' : Encoder} {notices : List Notice}
    (asked : e.output1 o = .ok (e', notices)) :
    ∃ lives', Told e' lives' (said ++ notices) := by
  cases o with
  | reasoning s =>
      cases asked
      exact told.reason s
  | content s =>
      cases asked
      exact told.say s
  | tool f => exact told.call asked

theorem number (told : Told e lives said) (notices : List Notice) :
    Told (e.number notices).1 lives said :=
  ⟨told.running, told.identified, told.said, told.numbered, told.held, told.single,
    told.ascending⟩

/-- What a run of outputs says is told of, and if all are accepted it is what the frames
say. -/
theorem outputs (told : Told e lives said) (os : List Output) :
    ∃ lives' more, Told (e.outputs os).1 lives' (said ++ more) ∧
      ∀ frames, (e.outputs os).2 = .ok frames → frames.map (·.notice) = more := by
  induction os generalizing e lives said with
  | nil =>
      refine ⟨lives, [], ?_, ?_⟩
      · rw [List.append_nil]
        exact told
      · intro frames got
        cases got
        rfl
  | cons o rest ih =>
      rw [Encoder.outputs]
      split
      · refine ⟨lives, [], ?_, fun _ got => absurd got (by simp)⟩
        rw [List.append_nil]
        exact told
      · next middle notices first =>
          obtain ⟨lives', told'⟩ := told.output first
          obtain ⟨lives'', more, told'', all⟩ := ih (told'.number notices)
          refine ⟨lives'', notices ++ more, ?_, ?_⟩
          · rw [← List.append_assoc]
            exact told''
          · intro frames got
            cases result : ((middle.number notices).1.outputs rest).2 with
            | error refusal => simp [result, Except.map] at got
            | ok later =>
                have spelled : frames = (middle.number notices).2 ++ later := by
                  simpa [result, Except.map] using got.symm
                rw [spelled, List.map_append, Encoder.notice_number, all later result]

theorem noteFinish (told : Told e lives said) (finish : Option Finish) :
    ∃ lives', Told (e.noteFinish finish).1 lives' (said ++ (e.noteFinish finish).2) := by
  rw [Encoder.noteFinish]
  split
  · obtain ⟨lives', closed, _⟩ := told.closeItems
    exact ⟨lives', closed.running, closed.identified, closed.said, closed.numbered, closed.held,
      closed.single, closed.ascending⟩
  · rw [List.append_nil]
    exact ⟨lives, told⟩

theorem conclude (told : Told e lives said) (event : Event) :
    ∃ lives', Told (e.conclude event).1 lives'
      (said ++ (e.conclude event).2.map (·.notice)) := by
  obtain ⟨lives', noted⟩ := told.noteFinish event.finish
  refine ⟨lives', ?_⟩
  show Told ((e.noteFinish event.finish).1.number _).1 lives'
    (said ++ ((e.noteFinish event.finish).1.number (e.noteFinish event.finish).2).2.map (·.notice))
  rw [Encoder.notice_number]
  exact noted.number _

end Told

/-! ## Events -/

/-- The encoder has said nothing yet, or has told of lives. -/
inductive Begun (e : Encoder) : List Notice → Prop
  | silent (running : e.ended = false) (unnamed : e.identity = none)
      (numbered : e.counters.nextPlace = 0) (noReasoning : e.reasoning = none)
      (noMessage : e.message = none) (noCalls : e.calls = []) : Begun e []
  | told {lives : List Life} {said : List Notice} (told : Told e lives said) : Begun e said

namespace Begun

variable {e : Encoder} {said : List Notice}

theorem running (begun : Begun e said) : e.ended = false := by
  cases begun with
  | silent running => exact running
  | told told => exact told.running

theorem create (begun : Begun e said) (event : Event) :
    ∃ lives, Told (e.create event).1 lives (said ++ (e.create event).2) := by
  rw [Encoder.create]
  cases begun with
  | silent running unnamed numbered noReasoning noMessage noCalls =>
      rw [unnamed]
      refine ⟨[], running, rfl, .created _ rfl, numbered, ?_, .inl noReasoning, ?_⟩
      · simp only [noReasoning, noMessage, noCalls]
        exact List.Perm.refl _
      · simp only [noCalls]
        exact List.Pairwise.nil
  | told told =>
      cases named : e.identity with
      | none =>
          have identified := told.identified
          rw [named] at identified
          exact absurd identified (by simp)
      | some identity =>
          simp only [List.append_nil]
          exact ⟨_, told⟩

theorem announce (begun : Begun e said) (event : Event) :
    ∃ lives, Told (e.announce event).1 lives
      (said ++ (e.announce event).2.map (·.notice)) := by
  obtain ⟨lives, created⟩ := begun.create event
  have numbered := created.number (e.create event).2
  refine ⟨lives, numbered.running, numbered.identified, ?_, numbered.numbered, numbered.held,
    numbered.single, numbered.ascending⟩
  show Said _ lives (said ++ ((e.create event).1.number (e.create event).2).2.map (·.notice))
  rw [Encoder.notice_number]
  exact numbered.said

/-- **An event is told of**, as far as it goes if it is refused, and if it is accepted
its frames say just that. -/
theorem feed (begun : Begun e said) (event : Event) :
    ∃ more, Begun (e.feed event).1 (said ++ more) ∧
      ∀ frames, (e.feed event).2 = .ok frames → frames.map (·.notice) = more := by
  rw [Encoder.feed]
  split
  · refine ⟨[], ?_, ?_⟩
    · rw [List.append_nil]
      exact begun
    · intro frames got
      cases got
      rfl
  · split
    · refine ⟨[], ?_, fun _ got => absurd got (by simp)⟩
      rw [List.append_nil]
      exact begun
    · obtain ⟨lives, announced⟩ := begun.announce event
      obtain ⟨lives', more, told, all⟩ := announced.outputs event.outputs
      simp only
      split
      · next last refusal result =>
          rw [result] at told
          refine ⟨(e.announce event).2.map (·.notice) ++ more, ?_,
            fun _ got => absurd got (by simp)⟩
          rw [← List.append_assoc]
          exact .told told
      · next last frames result =>
          rw [result] at told all
          obtain ⟨lives'', concluded⟩ := told.conclude event
          refine ⟨(e.announce event).2.map (·.notice) ++ more ++
            (last.conclude event).2.map (·.notice), ?_, ?_⟩
          · rw [← List.append_assoc, ← List.append_assoc]
            exact .told concluded
          · intro said got
            cases got
            rw [List.map_append, List.map_append, all frames rfl]

/-- A stream that is not closed yet is created if need be, its items are closed, and it ends. -/
theorem notice_close (begun : Begun e said) : e.close.2.map (·.notice) =
    (e.create {}).2 ++ (e.create {}).1.closeItems.2 ++
      [(e.create {}).1.closeItems.1.terminal] := by
  rw [Encoder.close, begun.running]
  exact Encoder.notice_number _ _

/-- The closing frames end every life and then the stream. -/
theorem close (begun : Begun e said) : ∃ response lives body last,
    said ++ e.close.2.map (·.notice) = body ++ [last] ∧ Said response lives body ∧
      openLives lives = [] ∧ last.isTerminal = true := by
  obtain ⟨lives, created⟩ := begun.create {}
  obtain ⟨lives', closed, idle⟩ := created.closeItems
  refine ⟨_, lives', _, (e.create {}).1.closeItems.1.terminal, ?_, closed.said, idle, ?_⟩
  · rw [begun.notice_close]
    simp only [List.append_assoc]
  · exact (e.create {}).1.closeItems.1.isTerminal_terminal

end Begun

/-! ## The protocol -/

/-- The items that frames add, with their places. -/
def addedBy (frames : List Frame) : List (UInt32 × Item) :=
  (frames.map (·.notice)).filterMap Notice.added?

/-- What a client is promised of items that each have a place to themselves. -/
structure Apart (frames : List Frame) : Prop where
  places : (addedBy frames).map (·.1.toNat) = List.range (addedBy frames).length
  names : ((addedBy frames).map (·.2.id)).Nodup
  /-- Whatever speaks of an item without adding it speaks of one open at that time. -/
  subjects : ∀ before n after s, frames.map (·.notice) = before ++ n :: after →
    n.subject? = some s → n.added? = none → ∃ item, (s.place, item) ∈ openIn before ∧ item.id = s.id
  /-- Each item has one whole life: its opening, its deltas and the endings of its kind. -/
  lives : ∀ place item, (place, item) ∈ addedBy frames → ∃ pieces,
    (frames.map (·.notice)).filter (Notice.isAbout place) =
      (Life.mk item pieces true).notices place

/-- What a client is promised of the frames of a whole stream. -/
structure Protocol (frames : List Frame) : Prop where
  /-- The response is created first, and once. -/
  created : ∃ r rest, frames.map (·.notice) = .created r :: rest ∧ ∀ n ∈ rest, ∀ r', n ≠ .created r'
  dense : frames.map (·.sequence) = List.range frames.length
  /-- Items are added at the places 0, 1, 2 and so on, and from 0 on again after the last word. -/
  places : (addedBy frames).map (·.1.toNat) =
    (List.range (addedBy frames).length).map (· % UInt32.size)
  calm : Calm (frames.map (·.notice))
  /-- The terminal notice is the last, and then nothing is open. -/
  terminal : ∃ body last, frames.map (·.notice) = body ++ [last] ∧ last.isTerminal = true ∧
    (∀ n ∈ body, n.isTerminal = false) ∧ openIn body = []
  /-- The data of a frame says its number, its kind and the item that it is about. -/
  wire : ∀ f ∈ frames, f.json.get? "sequence_number" = some (.nat f.sequence) ∧
    f.json.get? "type" = some (.text f.notice.name) ∧
    ∀ s, f.notice.subject? = some s → f.json.get? "output_index" = some (.nat s.place.toNat) ∧
      ((f.json.get? "item_id").or ((f.json.field "item").get? "id")) = some (.text s.id)
  /-- As long as there are places for all items. -/
  apart : (addedBy frames).length ≤ UInt32.size → Apart frames

theorem Notice.subject?_of_isTerminal {n : Notice} (terminal : n.isTerminal = true) :
    n.subject? = none ∧ n.added? = none := by
  cases n <;> first | exact ⟨rfl, rfl⟩ | exact absurd terminal Bool.false_ne_true

theorem Notice.not_created_of_subject {n : Notice} (about : n.subject?.isSome = true)
    (r : Snapshot) : n ≠ .created r := by
  rintro rfl
  exact absurd about Bool.false_ne_true

theorem Frame.wire (f : Frame) :
    f.json.get? "sequence_number" = some (.nat f.sequence) ∧
    f.json.get? "type" = some (.text f.notice.name) ∧
    ∀ s, f.notice.subject? = some s → f.json.get? "output_index" = some (.nat s.place.toNat) ∧
      ((f.json.get? "item_id").or ((f.json.field "item").get? "id")) = some (.text s.id) := by
  obtain ⟨sequence, notice⟩ := f
  cases notice with
  | created | completed | incomplete =>
      exact ⟨rfl, rfl, fun s about => absurd about (by simp [Notice.subject?])⟩
  | itemAdded place item | itemDone place item =>
      refine ⟨rfl, rfl, ?_⟩
      rintro s about
      cases about
      cases item <;> exact ⟨rfl, rfl⟩
  | partAdded | textDelta | textDone | partDone | summaryDelta | summaryDone | argumentsDelta
  | argumentsDone =>
      refine ⟨rfl, rfl, ?_⟩
      rintro s about
      cases about
      exact ⟨rfl, rfl⟩

/-- What is about items ends nothing. -/
theorem Said.not_terminal {response : String} {lives : List Life} {said : List Notice}
    (told : Said response lives said) : ∀ n ∈ said, n.isTerminal = false := by
  obtain ⟨r, rest, rfl, _, subjects⟩ := told.created_first
  intro n member
  rcases List.mem_cons.1 member with rfl | later
  · rfl
  · cases final : n.isTerminal with
    | false => rfl
    | true =>
        have none_ := (Notice.subject?_of_isTerminal final).1
        have some_ := subjects n later
        rw [none_] at some_
        exact absurd some_ (by simp)

/-- Items are added at the words for 0, 1, 2 and so on. -/
theorem Said.places {response : String} {lives : List Life} {said : List Notice}
    (told : Said response lives said) : (said.filterMap Notice.added?).map (·.1.toNat) =
      (List.range (said.filterMap Notice.added?).length).map (· % UInt32.size) := by
  have words := congrArg (List.map UInt32.toNat) told.map_added
  rw [List.map_map, List.map_map] at words
  rw [told.length_added]
  exact words

/-- Up to the last word that is 0, 1, 2 and so on. -/
theorem Said.range_places {response : String} {lives : List Life} {said : List Notice}
    (told : Said response lives said) (fits : lives.length ≤ UInt32.size) :
    (said.filterMap Notice.added?).map (·.1.toNat) =
      List.range (said.filterMap Notice.added?).length := by
  have words := congrArg (List.map UInt32.toNat) told.map_added
  rw [Word.map_toNat_ofNat_range fits, List.map_map] at words
  rw [told.length_added]
  exact words

/-- What is promised of items that are apart holds of a stream that has been said to its end,
if there are places for all of them. -/
theorem apart_of_said {frames : List Frame} {response : String} {lives : List Life}
    {body : List Notice} {last : Notice} (spelled : frames.map (·.notice) = body ++ [last])
    (said : Said response lives body) (idle : openLives lives = [])
    (terminal : last.isTerminal = true) (added : addedBy frames = body.filterMap Notice.added?)
    (few : (addedBy frames).length ≤ UInt32.size) : Apart frames := by
  obtain ⟨noSubject, noItem⟩ := Notice.subject?_of_isTerminal terminal
  have fits : lives.length ≤ UInt32.size := by
    rw [← said.length_added, ← added]
    exact few
  refine { places := ?_, names := ?_, subjects := ?_, lives := ?_ }
  · rw [added]
    exact said.range_places fits
  · rw [added]
    exact said.nodup_names fits
  · intro before n after s at_ subject later
    rw [spelled] at at_
    rcases List.eq_nil_or_concat after with rfl | ⟨tail, final, rfl⟩
    · obtain ⟨_, same⟩ := List.append_inj' at_ rfl
      rw [List.singleton_inj.1 same, subject] at noSubject
      exact absurd noSubject (by simp)
    · rw [List.concat_eq_append, ← List.cons_append, ← List.append_assoc] at at_
      obtain ⟨within, _⟩ := List.append_inj' at_ rfl
      exact said.subject_open fits within subject later
  · intro place item member
    rw [added] at member
    obtain ⟨pieces, whole⟩ := said.complete fits idle member
    refine ⟨pieces, ?_⟩
    have silent : last.isAbout place = false := by simp [Notice.isAbout, noSubject]
    rw [spelled, List.filter_append, whole, List.filter_cons_of_neg (by simp [silent])]
    exact List.append_nil _

/-- Frames that are numbered from 0 on and say a stream to its end keep the protocol. -/
theorem protocol_of_said {frames : List Frame} {response : String} {lives : List Life}
    {body : List Notice} {last : Notice}
    (dense : frames.map (·.sequence) = List.range frames.length)
    (spelled : frames.map (·.notice) = body ++ [last]) (said : Said response lives body)
    (idle : openLives lives = []) (terminal : last.isTerminal = true) : Protocol frames := by
  obtain ⟨noSubject, noItem⟩ := Notice.subject?_of_isTerminal terminal
  obtain ⟨r, rest, first, _, subjects⟩ := said.created_first
  have added : addedBy frames = body.filterMap Notice.added? := by
    rw [addedBy, spelled, List.filterMap_append, List.filterMap_cons_none noItem]
    exact List.append_nil _
  refine {
    created := ⟨r, rest ++ [last], ?_, ?_⟩
    dense
    places := ?_
    calm := ?_
    terminal := ⟨body, last, spelled, terminal, said.not_terminal, said.openIn_eq_nil idle⟩
    wire := fun f _ => f.wire
    apart := apart_of_said spelled said idle terminal added }
  · rw [spelled, first]
    rfl
  · intro n member r' same
    rcases List.mem_append.1 member with early | late
    · exact Notice.not_created_of_subject (subjects n early) r' same
    · rw [← List.mem_singleton.1 late, same] at terminal
      exact absurd terminal (by simp [Notice.isTerminal])
  · rw [added]
    exact said.places
  · rw [spelled]
    refine said.calm.append_quiet ?_
    intro n member
    rw [List.mem_singleton.1 member]
    exact noItem

/-- What accepted events said is the begin of a stream, numbered from 0 on. -/
theorem feedAll_begun {spareId : String} {events : List Event} {e : Encoder}
    {frames : List Frame} (fed : feedAll Encoder.feed { spareId } events = .ok (e, frames)) :
    Begun e (frames.map (·.notice)) ∧ Encoder.Numbers { spareId } e frames := by
  refine feedAll_invariant (fun e _ frames =>
    Begun e (frames.map (·.notice)) ∧ Encoder.Numbers { spareId } e frames)
    ?_ ⟨.silent rfl rfl rfl rfl rfl rfl, .of_same rfl⟩ fed
  rintro e _ frames event e' more ⟨begun, numbers⟩ step
  obtain ⟨said, begun', all⟩ := begun.feed event
  obtain ⟨numbered, further, same⟩ := e.advances_feed event
  rw [step] at begun' all further same
  obtain rfl := same more rfl
  rw [List.map_append, all more rfl]
  exact ⟨begun', numbers.trans further⟩

/-- A fault is told of under the next number. -/
theorem Encoder.faultFrame_number (e : Encoder) (fault : Fault) :
    ∃ body, (DialectGateway.Encoder.responses e).faultFrame fault = .json none body ∧
      body.get? "sequence_number" = some (.nat e.counters.nextSequence) :=
  ⟨_, rfl, rfl⟩

/-- **A stream of accepted events is a response.** Its frames and the closing frames keep
the protocol, and after them nothing more is said. Items are told apart by their places as
long as the words for these do not return. A fault that is told of in between or
at the end has the next number. Even if calls are refused in between, the numbers that
get out ascend and a fault's number is above them. -/
theorem feedAll_close_protocol {spareId : String} {events : List Event} {e : Encoder}
    {frames : List Frame} (fed : feedAll Encoder.feed { spareId } events = .ok (e, frames)) :
    Protocol (frames ++ e.close.2) ∧
    e.close.1.close = (e.close.1, []) ∧
    (∀ fault, ∃ body, (DialectGateway.Encoder.responses e).faultFrame fault = .json none body ∧
      body.get? "sequence_number" = some (.nat frames.length)) ∧
    (∀ fault, ∃ body, (DialectGateway.Encoder.responses e.close.1).faultFrame fault =
        .json none body ∧
      body.get? "sequence_number" = some (.nat (frames ++ e.close.2).length)) ∧
    ∀ turns fault, ∃ number body,
      (((Encoder.history { spareId } turns).2.map (·.sequence)) ++ [number]).Pairwise (· < ·) ∧
      (DialectGateway.Encoder.responses (Encoder.history { spareId } turns).1).faultFrame fault =
        .json none body ∧
      body.get? "sequence_number" = some (.nat number) := by
  obtain ⟨begun, numbers⟩ := feedAll_begun fed
  have whole := numbers.trans e.numbers_close
  obtain ⟨response, lives, body, last, spelled, said, idle, terminal⟩ := begun.close
  have next : e.counters.nextSequence = frames.length := by
    rw [numbers.next]
    exact Nat.zero_add _
  have final : e.close.1.counters.nextSequence = (frames ++ e.close.2).length := by
    rw [whole.next]
    exact Nat.zero_add _
  refine ⟨?_, ?_, ?_, ?_, ?_⟩
  · refine protocol_of_said ?_ ?_ said idle terminal
    · rw [whole.dense, List.range_eq_range']
    · rw [List.map_append, spelled]
  · have ended : e.close.1.ended = true := by
      rw [Encoder.close, begun.running]
      rfl
    generalize e.close.1 = after at ended
    rw [Encoder.close, ended]
    rfl
  · intro fault
    rw [← next]
    exact e.faultFrame_number fault
  · intro fault
    rw [← final]
    exact e.close.1.faultFrame_number fault
  · intro turns fault
    obtain ⟨body, told, numbered⟩ :=
      (Encoder.history { spareId } turns).1.faultFrame_number fault
    exact ⟨_, body, Encoder.ascending_history_append _ turns, told, numbered⟩

/-- Thought, text and two calls in one event, then more text, then a reason to end. -/
def mixed : List Event :=
  [{ id := "r", model := "x", choices := [{
      index := 0, content := some "one", reasoning := some "first",
      tools := [⟨1, some "a", some "f", some "1"⟩, ⟨0, none, some "g", none⟩] }] },
    { choices := [Event.text 0 "two"] },
    { choices := [Event.ending 0 .length], usage := some ⟨1, 2⟩ }]

theorem feedAll_close_protocol_mixed :
    ∃ e frames, feedAll Encoder.feed { spareId := "0" } mixed = .ok (e, frames) ∧
      Protocol (frames ++ e.close.2) ∧ Apart (frames ++ e.close.2) ∧
      e.close.1.close = (e.close.1, []) := by
  obtain ⟨e, frames, fed, few⟩ : ∃ e frames,
      feedAll Encoder.feed { spareId := "0" } mixed = .ok (e, frames) ∧
        (addedBy (frames ++ e.close.2)).length ≤ UInt32.size := ⟨_, _, rfl, by decide +kernel⟩
  have promised := feedAll_close_protocol fed
  exact ⟨e, frames, fed, promised.1, promised.1.apart few, promised.2.1⟩

/-! ## More items than places -/

/-- As long as no thought is open and no reason to end is known, a thought and a text are two
items more, and then no thought is open. -/
theorem feed_twoSided {e : Encoder}
    (running : e.ended = false ∧ e.finish = none ∧ e.reasoning = none) :
    ∃ e' frames, e.feed twoSided = (e', .ok frames) ∧
      (e'.ended = false ∧ e'.finish = none ∧ e'.reasoning = none) ∧
      (frames.filterMap fun f => f.notice.added?).length = 2 := by
  obtain ⟨spareId, counters, identity, finish, ended, message, reasoning, calls, output, usage⟩ := e
  obtain ⟨rfl, rfl, rfl⟩ := running
  cases identity <;> cases message <;> exact ⟨_, _, rfl, ⟨rfl, rfl, rfl⟩, rfl⟩

/-- A crowd is accepted, and more items are added than there are places. -/
theorem crowd_added :
    ∃ e frames, feedAll Encoder.feed { spareId := "0" } crowd = .ok (e, frames) ∧
      UInt32.size < (addedBy (frames ++ e.close.2)).length := by
  obtain ⟨e, frames, fed, many⟩ := feedAll_crowd (fun f : Frame => f.notice.added?)
    (fun e : Encoder => e.ended = false ∧ e.finish = none ∧ e.reasoning = none)
    (fun _ => feed_twoSided) (e := { spareId := "0" }) ⟨rfl, rfl, rfl⟩
  refine ⟨e, frames, fed, Nat.lt_of_lt_of_le many ?_⟩
  rw [addedBy, List.filterMap_map, List.filterMap_append, List.length_append]
  exact Nat.le_add_right _ _

/-- **The items of a crowd are not added at the places 0, 1, 2 and so on**: the counter begins
anew. -/
theorem crowd_places :
    ∃ e frames, feedAll Encoder.feed { spareId := "0" } crowd = .ok (e, frames) ∧
      (addedBy (frames ++ e.close.2)).map (·.1.toNat) ≠
        List.range (addedBy (frames ++ e.close.2)).length := by
  obtain ⟨e, frames, fed, many⟩ := crowd_added
  refine ⟨e, frames, fed, ?_⟩
  rw [← List.length_map (·.1.toNat)] at many ⊢
  refine Word.ne_range_of_words ?_ many
  intro n member
  obtain ⟨x, _, rfl⟩ := List.mem_map.1 member
  exact x.1.toNat_lt_size

end DialectGateway.Responses
