/-
# Proofs.Dialect.Responses.Spelled — a reply spelled out is the reply given at once

While a reply is spelled out, the items of its partial reply have their places already:
the reasoning, the message if there is text, the calls. `Holds` says which of them an
encoder has finished and which it holds open, and that their places go on from each
other; `Follows` says which they are of a partial reply. Whatever adds to the reply is
accepted and leads to the partial reply with the addition (`Follows.output1`), so that in
the end the finished items are those of the reply given at once. This is so for replies whose
pieces all have places of their own.
-/
import DialectGateway.Dialect.Responses.Body
import DialectGateway.Proofs.Dialect.Responses.Content
import DialectGateway.Proofs.Dialect.Spelling

set_option autoImplicit false

namespace DialectGateway.Responses

/-! ## The items of a partial reply -/

/-- The reasoning of a reply, at the first place. -/
def thoughtItems (response : String) (ρ : Reply) : List Item :=
  ρ.reasoning.toList.map fun s => .reasoning (reasoningId response 0) s

/-- The message of a reply that has text, after the reasoning. -/
def textItems (response : String) (ρ : Reply) : List Item :=
  if ρ.text = "" then []
  else [.message (messageId response (thoughtItems response ρ).length) ρ.text]

/-- Calls from a place on. -/
def callItems (response : String) (base : Nat) (tools : List ToolCall) : List Item :=
  tools.zipIdx.map fun (t, n) => .call (callItemId response (base + n)) t.id t.name t.arguments

/-- The items of a reply, each at its place. -/
def heldItems (response : String) (ρ : Reply) : List Item :=
  let texts := thoughtItems response ρ ++ textItems response ρ
  texts ++ callItems response texts.length ρ.tools

/-- A reply that has text or calls is made of these items if it is given at once. -/
theorem replyItems_eq (r : Reply) (some_ : r.text ≠ "" ∨ r.tools ≠ []) :
    replyItems r = heldItems r.id r := by
  have message : (if !r.text.isEmpty || r.tools.isEmpty then
      [fun place => Item.message (messageId r.id place) r.text] else []) =
        if r.text = "" then [] else [fun place => .message (messageId r.id place) r.text] := by
    by_cases text : r.text = ""
    · have tools : r.tools ≠ [] := some_.resolve_left (not_not_intro text)
      simp [text, tools]
    · simp [text]
  have calls (base : Nat) : (List.zipIdx (r.tools.map fun t place =>
      Item.call (callItemId r.id place) t.id t.name t.arguments) base).map
        (fun x => x.1 x.2) = callItems r.id base r.tools := by
    rw [List.zipIdx_eq_map_add, callItems, List.zipIdx_map, List.map_map, List.map_map]
    apply List.map_congr_left
    intro x _
    simp
  show (itemsOf r).zipIdx.map (fun x => x.1 x.2) = _
  rw [itemsOf, message, List.zipIdx_append, List.map_append, calls,
    List.zipIdx_append, List.map_append, heldItems, textItems]
  cases given : r.reasoning <;> by_cases text : r.text = "" <;> simp [given, text, thoughtItems]

/-! ## What an encoder holds of a reply -/

/-- The calls by slot, all open, at places from the base on. -/
def callsFrom (response : String) (base : Nat) (tools : List ToolCall) :
    List (UInt32 × OpenCall) :=
  tools.zipIdx.map fun (t, n) => (UInt32.ofNat n,
    ⟨⟨callItemId response (base + n), UInt32.ofNat (base + n)⟩, t.id, t.name, t.arguments, false⟩)

/-- The text that is open, as an item. -/
def textOpen (response : String) (place : Nat) (thought text : Option String) : List Item :=
  thought.toList.map (fun s => .reasoning (reasoningId response place) s) ++
    text.toList.map fun s => .message (messageId response place) s

/-- Items with their places, from the first on. -/
def placed (items : List Item) : List (UInt32 × Item) :=
  items.zipIdx.map fun (item, n) => (UInt32.ofNat n, item)

/-- The encoder has finished the settled items; at the next place is a text that is open, if
there is one, or else the first of the calls, which all are open. There are places for all. -/
structure Holds (e : Encoder) (who : Identity) (settled : List Item)
    (thought text : Option String) (tools : List ToolCall) : Prop where
  running : e.ended = false
  unfinished : e.finish = none
  identity : e.identity = some who
  output : e.output = placed settled
  reasoning : e.reasoning = thought.map fun s =>
    ⟨⟨reasoningId who.id settled.length, UInt32.ofNat settled.length⟩, s⟩
  message : e.message = text.map fun s =>
    ⟨⟨messageId who.id settled.length, UInt32.ofNat settled.length⟩, s⟩
  calls : e.calls = callsFrom who.id settled.length tools
  next : e.counters.nextPlace = UInt32.ofNat
    (settled.length + (textOpen who.id settled.length thought text).length + tools.length)
  fits : settled.length + (textOpen who.id settled.length thought text).length + tools.length ≤
    UInt32.size

/-- Nothing is open, and the finished items are these. -/
structure Rests (e : Encoder) (who : Identity) (items : List Item) : Prop where
  running : e.ended = false
  identity : e.identity = some who
  output : e.output = placed items
  noReasoning : e.reasoning = none
  noMessage : e.message = none
  noCall : ∀ x ∈ e.calls, x.2.done = true

theorem put_placed {items : List Item} (room : items.length < UInt32.size) (item : Item) :
    Keyed.put (UInt32.ofNat items.length) item (placed items) = placed (items ++ [item]) := by
  have below : ∀ x ∈ placed items, x.1 < UInt32.ofNat items.length := by
    intro x member
    obtain ⟨⟨item', n⟩, within, rfl⟩ := List.mem_map.1 member
    have bound := (List.getElem?_eq_some_iff.1 (List.mem_zipIdx_iff_getElem?.1 within)).1
    rw [UInt32.lt_iff_toNat_lt, Word.toNat_ofNat_of_lt room,
      Word.toNat_ofNat_of_lt (Nat.lt_trans bound room)]
    exact bound
  have put := Keyed.put_append below item []
  rw [List.append_nil] at put
  rw [put, placed, placed, List.zipIdx_append, List.map_append, Nat.zero_add]
  rfl

theorem putAll_placed {items more : List Item} (fits : (items ++ more).length ≤ UInt32.size) :
    Keyed.putAll ((more.zipIdx items.length).map fun (item, n) => (UInt32.ofNat n, item))
      (placed items) = placed (items ++ more) := by
  induction more generalizing items with
  | nil =>
      rw [List.append_nil]
      rfl
  | cons item rest ih =>
      rw [List.append_cons] at fits ⊢
      have room : items.length < UInt32.size := by
        rw [List.length_append, List.length_append, List.length_singleton] at fits
        omega
      have later := ih fits
      rw [List.length_append, List.length_singleton] at later
      rw [List.zipIdx_cons, List.map_cons, Keyed.putAll, List.foldl_cons]
      show Keyed.putAll _ (Keyed.put (UInt32.ofNat items.length) item (placed items)) = _
      rw [put_placed room]
      exact later

theorem callsFrom_below {response : String} {base : Nat} {tools : List ToolCall} {slot : UInt32}
    (next : tools.length ≤ slot.toNat) : ∀ x ∈ callsFrom response base tools, x.1 < slot := by
  intro x member
  obtain ⟨⟨t, n⟩, within, rfl⟩ := List.mem_map.1 member
  have bound := (List.getElem?_eq_some_iff.1 (List.mem_zipIdx_iff_getElem?.1 within)).1
  rw [UInt32.lt_iff_toNat_lt]
  calc (UInt32.ofNat n).toNat ≤ n := Nat.mod_le _ _
    _ < tools.length := bound
    _ ≤ slot.toNat := next

theorem callsFrom_append_singleton (response : String) (base : Nat) (tools : List ToolCall)
    (t : ToolCall) : callsFrom response base (tools ++ [t]) = callsFrom response base tools ++
      [(UInt32.ofNat tools.length, ⟨⟨callItemId response (base + tools.length),
        UInt32.ofNat (base + tools.length)⟩, t.id, t.name, t.arguments, false⟩)] := by
  simp [callsFrom, List.zipIdx_append]

namespace Holds

variable {e : Encoder} {who : Identity} {settled : List Item} {thought text : Option String}
  {tools : List ToolCall}

theorem responseId (holds : Holds e who settled thought text tools) :
    e.responseId = who.id := by
  rw [Encoder.responseId, holds.identity]
  rfl

/-- Open reasoning is finished at its place. -/
theorem closeReasoning (holds : Holds e who settled thought none []) :
    Holds e.closeReasoning.1 who (settled ++ textOpen who.id settled.length thought none)
      none none [] := by
  cases thought with
  | none =>
      have none_ : e.reasoning = none := holds.reasoning
      rw [Encoder.closeReasoning, none_]
      simpa [textOpen] using holds
  | some s =>
      have some_ : e.reasoning =
        some ⟨⟨reasoningId who.id settled.length, UInt32.ofNat settled.length⟩, s⟩ :=
          holds.reasoning
      rw [Encoder.closeReasoning, some_]
      refine ⟨holds.running, holds.unfinished, holds.identity, ?_, rfl, holds.message,
        holds.calls, ?_, ?_⟩
      · show Keyed.put (UInt32.ofNat settled.length) _ e.output = _
        rw [holds.output, put_placed holds.fits]
        rfl
      · show e.counters.nextPlace = _
        rw [holds.next, List.length_append]
        rfl
      · rw [List.length_append]
        exact holds.fits

/-- An open message is finished at its place. -/
theorem closeMessage (holds : Holds e who settled none text []) :
    Holds e.closeMessage.1 who (settled ++ textOpen who.id settled.length none text)
      none none [] := by
  cases text with
  | none =>
      have none_ : e.message = none := holds.message
      rw [Encoder.closeMessage, none_]
      simpa [textOpen] using holds
  | some s =>
      have some_ : e.message =
        some ⟨⟨messageId who.id settled.length, UInt32.ofNat settled.length⟩, s⟩ := holds.message
      rw [Encoder.closeMessage, some_]
      refine ⟨holds.running, holds.unfinished, holds.identity, ?_, holds.reasoning, rfl,
        holds.calls, ?_, ?_⟩
      · show Keyed.put (UInt32.ofNat settled.length) _ e.output = _
        rw [holds.output, put_placed holds.fits]
        rfl
      · show e.counters.nextPlace = _
        rw [holds.next, List.length_append]
        rfl
      · rw [List.length_append]
        exact holds.fits

/-- At most one text is open, and none once there are calls. -/
def Single (thought text : Option String) (tools : List ToolCall) : Prop :=
  thought = none ∧ text = none ∨ tools = [] ∧ (thought = none ∨ text = none)

/-- Whatever text is open is finished. -/
theorem closeTexts (holds : Holds e who settled thought text tools)
    (single : Single thought text tools) :
    Holds e.closeReasoning.1.closeMessage.1 who
      (settled ++ textOpen who.id settled.length thought text) none none tools := by
  rcases single with ⟨rfl, rfl⟩ | ⟨rfl, rfl | rfl⟩
  · have noReasoning : e.reasoning = none := holds.reasoning
    have noMessage : e.message = none := holds.message
    rw [Encoder.closeReasoning, noReasoning, Encoder.closeMessage, noMessage]
    simpa [textOpen] using holds
  · have noReasoning : e.reasoning = none := holds.reasoning
    rw [Encoder.closeReasoning, noReasoning]
    exact holds.closeMessage
  · have closed := holds.closeReasoning.closeMessage
    have nothing (place : Nat) : textOpen who.id place none none = [] := rfl
    rw [nothing, List.append_nil] at closed
    exact closed

/-- A thought goes on, or is the first item. -/
theorem reason (holds : Holds e who settled thought none []) (room : settled.length < UInt32.size)
    (s : String) : Holds (e.reason s).1 who settled (some (thought.getD "" ++ s)) none [] := by
  have noMessage : e.message = none := holds.message
  have next := holds.next
  cases thought with
  | none =>
      have none_ : e.reasoning = none := holds.reasoning
      rw [Encoder.reason, Encoder.openReasoning, none_, Encoder.closeMessage, noMessage]
      have place : e.counters.nextPlace = UInt32.ofNat settled.length := next
      refine ⟨holds.running, holds.unfinished, holds.identity, holds.output, ?_, holds.message,
        holds.calls, ?_, room⟩
      · show some (OpenText.mk ⟨reasoningId e.responseId e.counters.nextPlace.toNat,
          e.counters.nextPlace⟩ ("" ++ s)) = _
        rw [holds.responseId, place, Word.toNat_ofNat_of_lt room]
        rfl
      · show e.counters.nextPlace + 1 = _
        rw [place]
        exact (Word.ofNat_succ _).symm
  | some t =>
      have some_ : e.reasoning =
        some ⟨⟨reasoningId who.id settled.length, UInt32.ofNat settled.length⟩, t⟩ :=
          holds.reasoning
      rw [Encoder.reason, Encoder.openReasoning, some_]
      exact ⟨holds.running, holds.unfinished, holds.identity, holds.output, rfl, holds.message,
        holds.calls, next, holds.fits⟩

/-- A message goes on. -/
theorem say_more {t : String} (holds : Holds e who settled none (some t) []) (s : String) :
    Holds (e.say s).1 who settled none (some (t ++ s)) [] := by
  have some_ : e.message =
    some ⟨⟨messageId who.id settled.length, UInt32.ofNat settled.length⟩, t⟩ := holds.message
  rw [Encoder.say, Encoder.openMessage, some_]
  exact ⟨holds.running, holds.unfinished, holds.identity, holds.output, holds.reasoning, rfl,
    holds.calls, holds.next, holds.fits⟩

/-- A message begins after what was thought. -/
theorem say (holds : Holds e who settled thought none [])
    (room : (settled ++ textOpen who.id settled.length thought none).length < UInt32.size)
    (s : String) :
    Holds (e.say s).1 who (settled ++ textOpen who.id settled.length thought none)
      none (some s) [] := by
  have none_ : e.message = none := holds.message
  have closed := holds.closeReasoning
  generalize settled ++ textOpen who.id settled.length thought none = settled' at closed room ⊢
  rw [Encoder.say, Encoder.openMessage, none_]
  generalize e.closeReasoning = result at closed
  obtain ⟨c, closing⟩ := result
  dsimp only at closed
  have place : c.counters.nextPlace = UInt32.ofNat settled'.length := closed.next
  refine ⟨closed.running, closed.unfinished, closed.identity, closed.output, closed.reasoning, ?_,
    closed.calls, ?_, room⟩
  · show some (OpenText.mk ⟨messageId c.responseId c.counters.nextPlace.toNat,
      c.counters.nextPlace⟩ ("" ++ s)) = _
    rw [closed.responseId, place, Word.toNat_ofNat_of_lt room, String.empty_append]
    rfl
  · show c.counters.nextPlace + 1 = _
    rw [place]
    exact (Word.ofNat_succ _).symm

end Holds

/-- A slot that has no call gets one after open texts are closed. -/
theorem Encoder.openCall_of_absent {e : Encoder} {f : ToolFragment} {id name : String}
    (absent : e.calls.lookup f.slot = none) (known : f.id = some id) (named : f.name = some name)
    {shut : Encoder} (closed : e.closeReasoning.1.closeMessage.1 = shut) {c : OpenCall}
    (opened : c = ⟨⟨callItemId shut.responseId shut.counters.nextPlace.toNat,
      shut.counters.nextPlace⟩, id, name, "", false⟩) :
    ∃ opening, e.openCall f =
      .ok ({ shut.takePlace.2 with calls := Keyed.put f.slot c shut.calls }, c, opening) := by
  subst closed opened
  rw [openCall, absent, named, known]
  exact ⟨_, rfl⟩

/-- A fragment adds its arguments to a call that is the last by slot, and open. -/
theorem Encoder.call_of_last {e m : Encoder} {f : ToolFragment} {c : OpenCall}
    {opening : List Notice} (asked : e.openCall f = .ok (m, c, opening)) (undone : c.done = false)
    {before : List (UInt32 × OpenCall)} (below : ∀ x ∈ before, x.1 < f.slot)
    (last : m.calls = before ++ [(f.slot, c)]) :
    ∃ notices, e.call f = .ok ({ m with
      calls := before ++ [(f.slot, { c with arguments := c.arguments ++ f.addition })] },
      notices) := by
  obtain ⟨subject, callId, name, arguments, done⟩ := c
  obtain rfl : done = false := undone
  rw [call, asked]
  simp only [bind, Except.bind, pure, Except.pure, Bool.false_eq_true, if_false]
  split
  · next empty =>
      refine ⟨opening, ?_⟩
      rw [String.isEmpty_iff.1 empty, String.append_empty, ← last]
  · rw [last, Keyed.put_append below, Keyed.put, if_pos rfl]
    exact ⟨_, rfl⟩

namespace Holds

variable {e : Encoder} {who : Identity} {settled : List Item} {thought text : Option String}
  {tools : List ToolCall}

/-- A call begins after what was thought and said. -/
theorem call (holds : Holds e who settled thought text tools)
    (single : Single thought text tools)
    (room : (settled ++ textOpen who.id settled.length thought text).length + tools.length <
      UInt32.size) {f : ToolFragment} {id name : String} (slot : f.slot.toNat = tools.length)
    (known : f.id = some id) (named : f.name = some name) :
    ∃ e' notices, e.call f = .ok (e', notices) ∧
      Holds e' who (settled ++ textOpen who.id settled.length thought text) none none
        (tools ++ [⟨id, name, f.addition⟩]) := by
  have below (base : Nat) : ∀ x ∈ callsFrom who.id base tools, x.1 < f.slot :=
    callsFrom_below (Nat.le_of_eq slot.symm)
  have absent : e.calls.lookup f.slot = none := by
    have none_ := Keyed.lookup_append (below settled.length) []
    rw [List.append_nil] at none_
    rw [holds.calls, none_]
    rfl
  have closed := holds.closeTexts single
  generalize settled ++ textOpen who.id settled.length thought text = settled' at closed room ⊢
  generalize shut : e.closeReasoning.1.closeMessage.1 = d at closed
  have place : d.counters.nextPlace = UInt32.ofNat (settled'.length + tools.length) := closed.next
  have own : f.slot = UInt32.ofNat tools.length := by rw [← slot, UInt32.ofNat_toNat]
  obtain ⟨c, made⟩ : ∃ c : OpenCall, c = ⟨⟨callItemId d.responseId d.counters.nextPlace.toNat,
    d.counters.nextPlace⟩, id, name, "", false⟩ := ⟨_, rfl⟩
  obtain ⟨opening, opened⟩ := Encoder.openCall_of_absent absent known named shut made
  have last : Keyed.put f.slot c d.calls =
      callsFrom who.id settled'.length tools ++ [(f.slot, c)] := by
    have put := Keyed.put_append (below settled'.length) c []
    rw [List.append_nil] at put
    rw [closed.calls, put]
    rfl
  obtain ⟨notices, accepted⟩ := Encoder.call_of_last opened (by rw [made]) (below _) last
  refine ⟨_, notices, accepted, closed.running, closed.unfinished, closed.identity, closed.output,
    closed.reasoning, closed.message, ?_, ?_, ?_⟩
  · rw [callsFrom_append_singleton, ← own]
    simp only [made, closed.responseId, place, Word.toNat_ofNat_of_lt room, String.empty_append]
  · show d.counters.nextPlace + 1 = _
    rw [place, List.length_append]
    exact (Word.ofNat_succ _).symm
  · rw [List.length_append]
    exact room

/-- The last call goes on. -/
theorem call_more {before : List ToolCall} {t : ToolCall}
    (holds : Holds e who settled none none (before ++ [t])) {f : ToolFragment}
    (slot : f.slot.toNat = before.length) :
    ∃ e' notices, e.call f = .ok (e', notices) ∧ Holds e' who settled none none
      (before ++ [{ t with arguments := t.arguments ++ f.addition }]) := by
  have below : ∀ x ∈ callsFrom who.id settled.length before, x.1 < f.slot :=
    callsFrom_below (Nat.le_of_eq slot.symm)
  have own : f.slot = UInt32.ofNat before.length := by rw [← slot, UInt32.ofNat_toNat]
  obtain ⟨c, made⟩ : ∃ c : OpenCall, c = ⟨⟨callItemId who.id (settled.length + before.length),
    UInt32.ofNat (settled.length + before.length)⟩, t.id, t.name, t.arguments, false⟩ := ⟨_, rfl⟩
  have last := holds.calls
  rw [callsFrom_append_singleton, ← own, ← made] at last
  have opened : e.openCall f = .ok (e, c, []) := by
    rw [Encoder.openCall, last, Keyed.lookup_append below, List.lookup_cons_self]
  obtain ⟨notices, accepted⟩ := Encoder.call_of_last opened (by rw [made]) below last
  refine ⟨_, notices, accepted, holds.running, holds.unfinished, holds.identity, holds.output,
    holds.reasoning, holds.message, ?_, ?_, ?_⟩
  · rw [callsFrom_append_singleton, ← own, made]
  · show e.counters.nextPlace = _
    rw [holds.next, List.length_append, List.length_append]
    rfl
  · have fits := holds.fits
    rw [List.length_append, List.length_singleton] at fits ⊢
    exact fits

end Holds

/-! ## Closing -/

theorem openCalls_callsFrom (response : String) (base : Nat) (tools : List ToolCall) :
    openCalls (callsFrom response base tools) =
      ((callItems response base tools).zipIdx base).map
        fun (item, n) => (UInt32.ofNat n, item) := by
  have open_ : (callsFrom response base tools).filter (!·.2.done) =
      callsFrom response base tools := by
    rw [List.filter_eq_self]
    intro x member
    obtain ⟨_, _, rfl⟩ := List.mem_map.1 member
    rfl
  rw [openCalls, open_, callsFrom, callItems, List.map_map]
  apply List.ext_getElem?
  intro n
  simp only [List.getElem?_map, List.getElem?_zipIdx]
  cases tools[n]? <;> simp [OpenCall.item]

theorem Encoder.output_closeCalls (e : Encoder) :
    e.closeCalls.1.output = Keyed.putAll (openCalls e.calls) e.output := by
  rw [(Settles.closeCalls e).output, closeCalls_snd, finished, done_endings]

theorem Encoder.done_closeCalls (e : Encoder) : ∀ x ∈ e.closeCalls.1.calls, x.2.done = true := by
  intro x member
  obtain ⟨_, _, rfl⟩ := List.mem_map.1 member
  rfl

/-- What is held is all finished, by place. -/
theorem Holds.closeItems {e : Encoder} {who : Identity} {settled : List Item}
    {thought text : Option String} {tools : List ToolCall}
    (holds : Holds e who settled thought text tools) (single : Holds.Single thought text tools) :
    Rests e.closeItems.1 who ((settled ++ textOpen who.id settled.length thought text) ++
      callItems who.id (settled ++ textOpen who.id settled.length thought text).length tools) := by
  have closed := holds.closeTexts single
  generalize settled ++ textOpen who.id settled.length thought text = settled' at closed ⊢
  show Rests e.closeReasoning.1.closeMessage.1.closeCalls.1 who _
  generalize e.closeReasoning.1.closeMessage.1 = d at closed ⊢
  refine ⟨closed.running, closed.identity, ?_, closed.reasoning, closed.message, d.done_closeCalls⟩
  have fits : (settled' ++ callItems who.id settled'.length tools).length ≤ UInt32.size := by
    rw [List.length_append, callItems, List.length_map, List.length_zipIdx]
    exact closed.fits
  rw [d.output_closeCalls, closed.calls, closed.output, openCalls_callsFrom, putAll_placed fits]

/-- Where nothing is open, nothing is closed. -/
theorem Rests.closeItems {e : Encoder} {who : Identity} {items : List Item}
    (rests : Rests e who items) : Rests e.closeItems.1 who items := by
  have texts : e.closeReasoning.1.closeMessage.1 = e := by
    rw [Encoder.closeReasoning, rests.noReasoning, Encoder.closeMessage, rests.noMessage]
  show Rests e.closeReasoning.1.closeMessage.1.closeCalls.1 who items
  rw [texts]
  refine ⟨rests.running, rests.identity, ?_, rests.noReasoning, rests.noMessage,
    e.done_closeCalls⟩
  have none_ : openCalls e.calls = [] := by
    rw [openCalls, List.map_eq_nil_iff, List.filter_eq_nil_iff]
    intro x member
    simp [rests.noCall x member]
  rw [e.output_closeCalls, none_, rests.output]
  rfl

theorem Rests.announce {e : Encoder} {who : Identity} {items : List Item}
    (rests : Rests e who items) (event : Event) : Rests (e.announce event).1 who items := by
  rw [Encoder.announce, Encoder.create, rests.identity]
  exact ⟨rests.running, rests.identity, rests.output, rests.noReasoning, rests.noMessage,
    rests.noCall⟩

/-! ## Partial replies -/

/-- Which items of a partial reply are settled, and which text is open. -/
inductive Divides (response : String) (ρ : Reply) :
    List Item → Option String → Option String → Prop
  | thinking (untold : ρ.text = "") (idle : ρ.tools = []) :
      Divides response ρ [] ρ.reasoning none
  | telling (told : ρ.text ≠ "") (idle : ρ.tools = []) :
      Divides response ρ (thoughtItems response ρ) none (some ρ.text)
  | calling (busy : ρ.tools ≠ []) :
      Divides response ρ (thoughtItems response ρ ++ textItems response ρ) none none

namespace Divides

variable {response : String} {ρ : Reply} {settled : List Item} {thought text : Option String}

theorem single (divides : Divides response ρ settled thought text) :
    Holds.Single thought text ρ.tools := by
  cases divides with
  | thinking _ idle => exact .inr ⟨idle, .inr rfl⟩
  | telling _ idle => exact .inr ⟨idle, .inl rfl⟩
  | calling => exact .inl ⟨rfl, rfl⟩

/-- What is settled and what is open are the texts of the partial reply. -/
theorem texts (divides : Divides response ρ settled thought text) :
    settled ++ textOpen response settled.length thought text =
      thoughtItems response ρ ++ textItems response ρ := by
  cases divides with
  | thinking untold => simp [textOpen, thoughtItems, textItems, untold]
  | telling told => simp [textOpen, textItems, told]
  | calling => simp [textOpen]

end Divides

/-- A reply has at most one thought and one text. -/
theorem length_thoughtItems (response : String) (ρ : Reply) :
    (thoughtItems response ρ).length = ρ.reasoning.toList.length := List.length_map _

theorem length_texts (response : String) (ρ : Reply) :
    (thoughtItems response ρ ++ textItems response ρ).length + ρ.tools.length = ρ.pieces := by
  rw [List.length_append, length_thoughtItems, textItems, Reply.pieces]
  split <;> rfl

/-- A reply given at once has an item for each of its pieces. -/
theorem length_replyItems {r : Reply} (some_ : r.text ≠ "" ∨ r.tools ≠ []) :
    (replyItems r).length = r.pieces := by
  rw [replyItems_eq r some_, heldItems, List.length_append, callItems, List.length_map,
    List.length_zipIdx, length_texts]

/-- The encoder stands for the partial reply, and no reason to end is known. -/
def Follows (who : Identity) (ρ : Reply) (e : Encoder) : Prop :=
  ∃ settled thought text, Divides who.id ρ settled thought text ∧
    Holds e who settled thought text ρ.tools

namespace Follows

variable {who : Identity} {ρ ρ' : Reply} {e : Encoder}

/-- **What adds to a partial reply is accepted**, and leads to what has become of it. -/
theorem output1 (follows : Follows who ρ e) {o : Output} (adds : Reply.Adds ρ o ρ')
    (fits : ρ'.pieces ≤ UInt32.size) :
    ∃ e' notices, e.output1 o = .ok (e', notices) ∧ Follows who ρ' e' := by
  obtain ⟨settled, thought, text, divides, holds⟩ := follows
  cases adds with
  | thought s _ untold idle =>
      rw [idle] at holds
      cases divides with
      | thinking =>
          refine ⟨(e.reason s).1, (e.reason s).2, rfl, [], _, none, .thinking untold idle, ?_⟩
          rw [idle]
          exact holds.reason (by decide) s
      | telling told => exact absurd untold told
      | calling busy => exact absurd idle busy
  | text s some_ idle =>
      have told : ρ.text ++ s ≠ "" := fun empty => some_ (String.append_eq_empty_iff.1 empty).2
      rw [idle] at holds
      refine ⟨(e.say s).1, (e.say s).2, rfl, thoughtItems who.id ρ, none, some (ρ.text ++ s),
        .telling told idle, ?_⟩
      rw [idle]
      cases divides with
      | thinking untold =>
          have room : (([] : List Item) ++ textOpen who.id 0 ρ.reasoning none).length <
              UInt32.size := by
            refine Nat.lt_of_le_of_lt (m := 1) ?_ (by decide)
            cases ρ.reasoning <;> simp [textOpen]
          have begun := holds.say room s
          rw [untold, String.empty_append]
          simpa [textOpen, thoughtItems] using begun
      | telling => exact holds.say_more s
      | calling busy => exact absurd idle busy
  | call f id name slot known named =>
      have room : (settled ++ textOpen who.id settled.length thought text).length +
          ρ.tools.length < UInt32.size := by
        rw [divides.texts, length_texts]
        refine Nat.lt_of_lt_of_le ?_ fits
        simp only [Reply.pieces, List.length_append, List.length_singleton]
        omega
      obtain ⟨e', notices, accepted, holds'⟩ := holds.call divides.single room slot known named
      rw [divides.texts] at holds'
      exact ⟨e', notices, accepted, _, none, none, .calling (by simp), holds'⟩
  | arguments f before call last slot =>
      cases divides with
      | thinking _ idle => exact absurd (last.symm.trans idle) (by simp)
      | telling _ idle => exact absurd (last.symm.trans idle) (by simp)
      | calling =>
          rw [last] at holds
          obtain ⟨e', notices, accepted, holds'⟩ := holds.call_more slot
          exact ⟨e', notices, accepted, _, none, none, .calling (by simp), holds'⟩

theorem number (follows : Follows who ρ e) (notices : List Notice) :
    Follows who ρ (e.number notices).1 := by
  obtain ⟨settled, thought, text, divides, holds⟩ := follows
  exact ⟨settled, thought, text, divides, holds.running, holds.unfinished, holds.identity,
    holds.output, holds.reasoning, holds.message, holds.calls, holds.next, holds.fits⟩

theorem outputs (follows : Follows who ρ e) {os : List Output} (grows : Reply.Grows ρ os ρ')
    (fits : ρ'.pieces ≤ UInt32.size) :
    ∃ e' frames, e.outputs os = (e', .ok frames) ∧ Follows who ρ' e' := by
  induction grows generalizing e with
  | nil => exact ⟨e, [], rfl, follows⟩
  | cons first rest ih =>
      obtain ⟨middle, notices, accepted, follows'⟩ :=
        follows.output1 first (Nat.le_trans rest.pieces_le fits)
      obtain ⟨e', later, all, follows''⟩ := ih (follows'.number notices) fits
      refine ⟨e', (middle.number notices).2 ++ later, ?_, follows''⟩
      rw [Encoder.outputs, accepted]
      simp only [all, Except.map]

/-- Whatever is held of a partial reply is finished when its items are closed. -/
theorem closeItems (follows : Follows who ρ e) :
    Rests e.closeItems.1 who (heldItems who.id ρ) := by
  obtain ⟨settled, thought, text, divides, holds⟩ := follows
  have closed := holds.closeItems divides.single
  rw [divides.texts] at closed
  exact closed

end Follows

/-- What an encoder stands for along a spelling: nothing yet, or a partial reply, which is
whole once a reason to end is known. -/
inductive Stands (r : Reply) (spareId : String) : Reply → Bool → Encoder → Prop
  | silent : Stands r spareId r.blank false { spareId }
  | open_ {ρ : Reply} {e : Encoder} (follows : Follows ⟨r.id, r.model, r.created⟩ ρ e) :
      Stands r spareId ρ false e
  | closed {ρ : Reply} {e : Encoder} (finished : e.finish.isSome = true)
      (rests : Rests e ⟨r.id, r.model, r.created⟩ (heldItems r.id ρ)) : Stands r spareId ρ true e

namespace Stands

variable {r : Reply} {spareId : String} {ρ ρ' : Reply} {finished : Bool} {e : Encoder}

theorem running (stands : Stands r spareId ρ finished e) :
    e.ended = false ∧ e.finish.isSome = finished := by
  cases stands with
  | silent => exact ⟨rfl, rfl⟩
  | open_ follows =>
      obtain ⟨_, _, _, _, holds⟩ := follows
      exact ⟨holds.running, by rw [holds.unfinished]; rfl⟩
  | closed known rests => exact ⟨rests.running, known⟩

/-- The first event that is not empty says who replies. -/
theorem announce (stands : Stands r spareId ρ false e) {event : Event} (named : r.id ≠ "")
    (head : event.IsOf r) :
    Follows ⟨r.id, r.model, r.created⟩ ρ (e.announce event).1 := by
  obtain ⟨id, model, created, _⟩ := head
  cases stands with
  | silent =>
      refine ⟨[], none, none, .thinking rfl rfl, rfl, rfl, ?_, rfl, rfl, rfl, rfl, rfl,
        Nat.zero_le _⟩
      show some (Identity.mk (if event.id.isEmpty then _ else event.id) event.model event.created) =
        _
      rw [if_neg (by simpa [id] using named), id, model, created]
  | open_ follows =>
      obtain ⟨settled, thought, text, divides, holds⟩ := follows
      refine ⟨settled, thought, text, divides, ?_⟩
      rw [Encoder.announce, Encoder.create, holds.identity]
      exact ⟨holds.running, holds.unfinished, holds.identity, holds.output, holds.reasoning,
        holds.message, holds.calls, holds.next, holds.fits⟩

/-- What is generated before a reason to end is known adds to the partial reply, and a reason
to end finishes it. -/
theorem proceed (stands : Stands r spareId ρ false e) {event : Event} (named : r.id ≠ "")
    (head : event.IsOf r) (grows : Reply.Grows ρ event.outputs ρ')
    (fits : ρ'.pieces ≤ UInt32.size) :
    ∃ middle now, (e.announce event).1.outputs event.outputs = (middle, .ok now) ∧
      Stands r spareId ρ' event.finish.isSome (middle.conclude event).1 := by
  obtain ⟨middle, now, outputs, follows⟩ := (stands.announce named head).outputs grows fits
  refine ⟨middle, now, outputs, ?_⟩
  have unfinished : middle.finish = none := by
    obtain ⟨_, _, _, _, holds⟩ := follows
    exact holds.unfinished
  rw [Encoder.conclude, Encoder.noteFinish, unfinished]
  cases reason : event.finish with
  | none => exact .open_ (follows.number _)
  | some finish =>
      have closed := follows.closeItems
      exact .closed rfl ⟨closed.running, closed.identity, closed.output, closed.noReasoning,
        closed.noMessage, closed.noCall⟩

/-- Once a reason to end is known, an event that generates nothing changes nothing. -/
theorem rest (stands : Stands r spareId ρ true e) (event : Event) :
    Stands r spareId ρ true ((e.announce event).1.conclude event).1 := by
  cases stands with
  | closed some_ rests =>
      have same : (e.announce event).1.finish = e.finish := by
        rw [Encoder.announce, Encoder.create, rests.identity]
        rfl
      have noted : (e.announce event).1.noteFinish event.finish = ((e.announce event).1, []) := by
        rw [Encoder.noteFinish, if_neg]
        rw [same, Option.isNone_iff_eq_none]
        rintro ⟨_, none_⟩
        rw [none_] at some_
        exact absurd some_ (by simp)
      rw [Encoder.conclude, noted]
      have announced := rests.announce event
      exact .closed (same ▸ some_) ⟨announced.running, announced.identity, announced.output,
        announced.noReasoning, announced.noMessage, announced.noCall⟩

/-- **An event of the spelling is accepted.** -/
theorem feed (stands : Stands r spareId ρ finished e) {event : Event} (named : r.id ≠ "")
    (grows : Reply.Grows ρ event.outputs ρ') (fits : ρ'.pieces ≤ UInt32.size)
    (head : event.isEmpty = false → event.IsOf r)
    (late : finished = true → event.outputs = []) :
    ∃ e' frames, e.feed event = (e', .ok frames) ∧
      Stands r spareId ρ' (finished || event.finish.isSome) e' := by
  cases empty : event.isEmpty with
  | true =>
      rw [Event.outputs_of_isEmpty empty] at grows
      cases grows
      refine ⟨e, [], by rw [Encoder.feed, empty]; rfl, ?_⟩
      rw [Event.finish_of_isEmpty empty]
      simpa using stands
  | false =>
      obtain ⟨_, _, _, single⟩ := head empty
      obtain ⟨running, known⟩ := stands.running
      have accepted : event.refusal? e.ended e.finish.isSome = none := by
        rw [running, known]
        exact Event.refusal?_of_single single late
      obtain ⟨middle, now, outputs, stands'⟩ : ∃ middle now,
          (e.announce event).1.outputs event.outputs = (middle, .ok now) ∧
            Stands r spareId ρ' (finished || event.finish.isSome) (middle.conclude event).1 := by
        cases finished with
        | false => exact stands.proceed named (head empty) grows fits
        | true =>
            rw [late rfl] at grows ⊢
            cases grows
            exact ⟨(e.announce event).1, [], rfl, stands.rest event⟩
      refine ⟨_, (e.announce event).2 ++ now ++ (middle.conclude event).2, ?_, stands'⟩
      rw [Encoder.feed, empty, accepted]
      simp only [outputs, Bool.false_eq_true, if_false]

/-- Of a reply that has text or calls all items are finished in the end. -/
theorem close (stands : Stands r spareId ρ finished e) (some_ : ρ.text ≠ "" ∨ ρ.tools ≠ []) :
    Rests (e.create {}).1.closeItems.1 ⟨r.id, r.model, r.created⟩ (heldItems r.id ρ) := by
  have created {who : Identity} (known : e.identity = some who) : (e.create {}).1 = e := by
    rw [Encoder.create, known]
  cases stands with
  | silent => exact absurd some_ (by simp [Reply.blank])
  | open_ follows =>
      have known : e.identity = some ⟨r.id, r.model, r.created⟩ := by
        obtain ⟨_, _, _, _, holds⟩ := follows
        exact holds.identity
      rw [created known]
      exact follows.closeItems
  | closed _ rests =>
      rw [created rests.identity]
      exact rests.closeItems

end Stands

/-! ## A whole reply -/

/-- The reason why a response is incomplete is a field of its own. -/
theorem Snapshot.get?_json (s : Snapshot) (status : String) (incomplete : Option String)
    {key : String} (other : key ≠ "incomplete_details") :
    (s.json status incomplete).get? key = (s.json status none).get? key := by
  cases incomplete with
  | none => rfl
  | some reason =>
      have apart : (key == "incomplete_details") = false := by simpa using other
      simp [Snapshot.json, Json.optField, List.lookup_cons, apart]

theorem get?_output_replyJson (r : Reply) :
    (replyJson r).get? "output" = some (.list ((replyItems r).map Item.json)) := rfl

/-- The response at the end of a stream, and the same response given at once. -/
theorem Encoder.get?_terminal {e : Encoder} {r : Reply} (same : e.snapshot =
    ⟨r.id, r.model, r.created, replyItems r, some r.usage⟩) (finish : e.finish = r.finish)
    (sequence : Nat) {key : String} (other : key ≠ "incomplete_details") :
    ((Frame.mk sequence e.terminal).json.field "response").get? key = (replyJson r).get? key := by
  rw [terminal, finish, replyJson, same]
  cases Shortfall.of? r.finish with
  | none => rfl
  | some shortfall => exact Snapshot.get?_json _ "incomplete" (some shortfall.word) other

/-- **A reply spelled out is the reply given at once**, field by field, save that a stream
says why it is incomplete, if there are places for all its pieces. -/
theorem feedAll_spelled {r : Reply} {events : List Event} (spells : Spells r events)
    (named : r.id ≠ "") (thought : r.reasoning ≠ some "") (fits : r.pieces ≤ UInt32.size)
    (spareId : String) :
    ∃ e frames, feedAll Encoder.feed { spareId } events = .ok (e, frames) ∧
      (r.text ≠ "" ∨ r.tools ≠ [] → ∃ body last, frames ++ e.close.2 = body ++ [last] ∧
        last.notice.isTerminal = true ∧ ∀ key, key ≠ "incomplete_details" →
          (last.json.field "response").get? key = (replyJson r).get? key) := by
  obtain ⟨e, frames, fed, finished, stands⟩ := spells.feedAll thought
    (fun ρ finished e _ => Stands r spareId ρ finished e)
    (fun _ _ _ _ _ _ stands grows small head late =>
      stands.feed named grows (Nat.le_trans small fits) head late) .silent
  refine ⟨e, frames, fed, ?_⟩
  intro some_
  have booked : Booked e events frames :=
    feedAll_invariant Booked (fun _ _ _ _ _ _ booked step => booked.feed step)
      (Booked.fresh spareId) fed
  have settles := (Encoder.Settles.create e {}).trans (Encoder.Settles.closeItems (e.create {}).1)
  have rests := stands.close some_
  have spelled := (feedAll_begun fed).1.notice_close
  have finish := settles.finish.trans (booked.finish.trans spells.finish)
  have usage := settles.usage.trans (booked.usage.trans spells.usage)
  have snapshot : (e.create {}).1.closeItems.1.snapshot =
      ⟨r.id, r.model, r.created, replyItems r, some r.usage⟩ := by
    rw [Encoder.snapshot, Encoder.responseId, rests.identity, rests.output, usage,
      replyItems_eq r some_, placed, List.map_map]
    show Snapshot.mk r.id r.model r.created ((heldItems r.id r).zipIdx.map Prod.fst) _ = _
    rw [List.zipIdx_map_fst]
  obtain ⟨before, tail, whole, _, last⟩ := List.map_eq_append_iff.1 spelled
  obtain ⟨⟨sequence, notice⟩, rfl, same⟩ := List.map_eq_singleton_iff.1 last
  obtain rfl : notice = _ := same
  refine ⟨frames ++ before, _, by rw [whole, List.append_assoc], ?_, ?_⟩
  · exact (e.create {}).1.closeItems.1.isTerminal_terminal
  · intro key other
    exact Encoder.get?_terminal snapshot finish sequence other

end DialectGateway.Responses
