/-
# Proofs.Dialect.Responses.Content — a stream says what was generated

What was generated is spread over items that interleave. It is put together again
along a channel (all texts, all reasoning) or along an item (`gained`), and either way
nothing is lost, said twice or out of order (`feedAll_close_faithful`).

Two accounts are kept. The lives of `Proofs.Dialect.Responses.Lives` know of each item
what it gains and what it is in the end (`Said.whole`, `Said.itemDone_iff`). What the
encoder remembers beside its open items, and what came in, is in a `Ledger`: an output is
one gain on its channel, each slot has one call, and the finished items by place are
those that were told of. All other turns of an encoder leave what was generated as it is
(`Settles`).

What holds of each slot and of each item (`Slots`, `Itemized`) holds as long as there are
places for all items, and the rest holds of every stream. Items that share a place share an
entry of the output (`crowd_output`).
-/
import DialectGateway.Proofs.Dialect.Responses.Stream
import DialectGateway.Proofs.Dialect.Responses.Wire
import Mathlib.Data.List.Nodup

set_option autoImplicit false

namespace DialectGateway.Responses

/-! ## What notices say together -/

/-- What a text is generated for: a message, reasoning or a call. -/
inductive Channel where
  | text
  | summary
  | arguments
  deriving DecidableEq, Repr

/-- What a delta says: the item gains the piece. -/
structure Gain where
  channel : Channel
  of_ : Subject
  piece : String
  deriving DecidableEq, Repr

namespace Notice

def gain? : Notice → Option Gain
  | textDelta s piece => some ⟨.text, s, piece⟩
  | summaryDelta s piece => some ⟨.summary, s, piece⟩
  | argumentsDelta s piece => some ⟨.arguments, s, piece⟩
  | _ => none

/-- What a done notice gives as all that its item has gained. -/
def whole? : Notice → Option (Subject × String)
  | textDone s whole | partDone s whole | summaryDone s whole | argumentsDone s whole =>
    some (s, whole)
  | itemDone place item => some (⟨item.id, place⟩, item.text)
  | _ => none

/-- The item that a notice finishes, with its place. -/
def done? : Notice → Option (UInt32 × Item)
  | itemDone place item => some (place, item)
  | _ => none

/-- The place of the call that a notice adds or extends. -/
def call? : Notice → Option UInt32
  | itemAdded place (.call ..) => some place
  | argumentsDelta s _ => some s.place
  | _ => none

/-- The response as the last notice of a stream gives it. -/
def response? : Notice → Option Snapshot
  | completed r | incomplete r _ => some r
  | _ => none

theorem subject?_of_gain? {n : Notice} {gain : Gain} (gains : n.gain? = some gain) :
    n.subject? = some gain.of_ := by
  cases n <;> cases gains <;> rfl

theorem subject?_of_whole? {n : Notice} {s : Subject} {whole : String}
    (gives : n.whole? = some (s, whole)) : n.subject? = some s := by
  cases n <;> cases gives <;> rfl

end Notice

/-- What notices say of the gains that are asked for, one after another. -/
def gained (asked : Gain → Bool) (said : List Notice) : String :=
  String.join (((said.filterMap Notice.gain?).filter asked).map Gain.piece)

theorem gained_append (asked : Gain → Bool) (said more : List Notice) :
    gained asked (said ++ more) = gained asked said ++ gained asked more := by
  simp only [gained, List.filterMap_append, List.filter_append, List.map_append,
    String.join_append]

theorem gained_cons (asked : Gain → Bool) (n : Notice) (rest : List Notice) :
    gained asked (n :: rest) = gained asked [n] ++ gained asked rest :=
  gained_append asked [n] rest

theorem gained_of_silent {asked : Gain → Bool} {more : List Notice}
    (silent : ∀ n ∈ more, ∀ gain, n.gain? = some gain → asked gain = false) :
    gained asked more = "" := by
  have nothing : (more.filterMap Notice.gain?).filter asked = [] := by
    rw [List.filter_eq_nil_iff]
    intro gain member
    obtain ⟨n, within, gains⟩ := List.mem_filterMap.1 member
    simp [silent n within gain gains]
  rw [gained, nothing]
  rfl

theorem gained_singleton {n : Notice} {gain : Gain} (gains : n.gain? = some gain)
    (asked : Gain → Bool) : gained asked [n] = if asked gain then gain.piece else "" := by
  cases wanted : asked gain <;> simp [gained, gains, wanted]

/-- What an item gains is said by the notices about its place. -/
theorem gained_filter_isAbout {asked : Gain → Bool} {place : UInt32}
    (there : ∀ gain, asked gain = true → gain.of_.place = place) (said : List Notice) :
    gained asked (said.filter (Notice.isAbout place)) = gained asked said := by
  induction said with
  | nil => rfl
  | cons n rest ih =>
      rw [List.filter_cons]
      split
      · rw [gained_cons, ih, ← gained_cons]
      · next elsewhere =>
          have silent : gained asked [n] = "" := by
            refine gained_of_silent ?_
            intro n' member gain gains
            rw [List.mem_singleton.1 member] at gains
            rw [Bool.eq_false_iff]
            intro wanted
            refine elsewhere ?_
            simp [Notice.isAbout, Notice.subject?_of_gain? gains, there gain wanted]
          rw [gained_cons, silent, ih, String.empty_append]

/-! ## What lives say -/

namespace Life

theorem gained_notices (l : Life) (place : UInt32) :
    gained (·.of_ = ⟨l.announced.id, place⟩) (l.notices place) = String.join l.pieces := by
  have opening : gained (·.of_ = ⟨l.announced.id, place⟩) (l.announced.opening place) = "" := by
    refine gained_of_silent ?_
    intro n member gain gains
    cases item : l.announced <;> rw [item] at member <;>
      simp only [Item.opening, List.mem_cons, List.not_mem_nil, or_false] at member <;>
      rcases member with rfl | rfl <;> cases gains
  have ending : gained (·.of_ = ⟨l.announced.id, place⟩)
      (if l.done then l.item.ending place else []) = "" := by
    refine gained_of_silent ?_
    intro n member gain gains
    split at member
    · cases item : l.item <;> rw [item] at member <;>
        simp only [Item.ending, List.mem_cons, List.not_mem_nil, or_false] at member <;>
        rcases member with rfl | rfl | rfl <;> cases gains
    · exact absurd member List.not_mem_nil
  have deltas : gained (·.of_ = ⟨l.announced.id, place⟩)
      (l.pieces.map fun piece => l.announced.delta place piece) = String.join l.pieces := by
    induction l.pieces with
    | nil => rfl
    | cons piece rest ih =>
        have one : gained (·.of_ = ⟨l.announced.id, place⟩) [l.announced.delta place piece] =
            piece := by
          cases l.announced <;> simp [gained, Item.delta, Notice.gain?, Item.id]
        rw [List.map_cons, gained_cons, one, ih, String.join_cons]
  rw [notices, gained_append, gained_append, opening, ending, deltas]
  simp

/-- What is given as the whole text of an item is all that it has gained. -/
theorem whole_of_mem {l : Life} {place : UInt32} {n : Notice} {s : Subject} {whole : String}
    (member : n ∈ l.notices place) (gives : n.whole? = some (s, whole)) :
    whole = String.join l.pieces := by
  rw [notices] at member
  rcases List.mem_append.1 member with early | ending
  · rcases List.mem_append.1 early with opening | delta
    · cases item : l.announced <;> rw [item] at opening <;>
        simp only [Item.opening, List.mem_cons, List.not_mem_nil, or_false] at opening <;>
        rcases opening with rfl | rfl <;> cases gives
    · obtain ⟨piece, _, rfl⟩ := List.mem_map.1 delta
      cases item : l.announced <;> rw [item] at gives <;> cases gives
  · split at ending
    · rw [← l.announced.text_withText (String.join l.pieces)]
      show whole = l.item.text
      cases item : l.item <;> rw [item] at ending <;>
        simp only [Item.ending, List.mem_cons, List.not_mem_nil, or_false] at ending <;>
        rcases ending with rfl | rfl | rfl <;> cases gives <;> rfl
    · exact absurd ending List.not_mem_nil

end Life

namespace Said

variable {response : String} {lives : List Life} {said : List Notice}

/-- **What a done notice gives is what its item has gained.** -/
theorem whole (told : Said response lives said) (fits : lives.length ≤ UInt32.size) {n : Notice}
    {s : Subject} {whole : String} (member : n ∈ said) (gives : n.whole? = some (s, whole)) :
    whole = gained (·.of_ = s) said := by
  obtain ⟨l, _, about, within⟩ := told.mem_notices fits member (Notice.subject?_of_whole? gives)
  have named := Life.subject_of_mem within
  rw [Notice.subject?_of_whole? gives] at named
  have here : ∀ gain : Gain, decide (gain.of_ = s) = true → gain.of_.place = s.place := by
    intro gain same
    rw [of_decide_eq_true same]
  rw [Life.whole_of_mem within gives, ← gained_filter_isAbout here, about,
    Option.some.inj named, Life.gained_notices]

/-- **An item is finished as it was added**, with what it has gained. -/
theorem item_eq (told : Said response lives said) (fits : lives.length ≤ UInt32.size)
    {place : UInt32} {item : Item} (finished : .itemDone place item ∈ said) :
    ∃ opened, .itemAdded place opened ∈ said ∧
      item = opened.withText (gained (·.of_ = ⟨item.id, place⟩) said) := by
  obtain ⟨n, l, at_, rfl, _, rfl⟩ := (told.itemDone_iff place item).1 finished
  obtain ⟨notice, member, adds⟩ := List.mem_filterMap.1 (told.added_of_life at_)
  refine ⟨l.announced, ?_, ?_⟩
  · cases notice <;> cases adds
    exact member
  · have text : l.item.text = gained (·.of_ = ⟨l.item.id, UInt32.ofNat n⟩) said :=
      told.whole fits finished rfl
    rw [← text, Life.item, Item.text_withText]

end Said

/-! ## Turns that generate nothing -/

/-- The finished items by place, after what notices finish. -/
def finished (output : List (UInt32 × Item)) (said : List Notice) : List (UInt32 × Item) :=
  Keyed.putAll (said.filterMap Notice.done?) output

theorem finished_append (output : List (UInt32 × Item)) (said more : List Notice) :
    finished output (said ++ more) = finished (finished output said) more := by
  rw [finished, List.filterMap_append, Keyed.putAll_append]
  rfl

theorem finished_of_silent {more : List Notice} (silent : ∀ n ∈ more, n.done? = none)
    (output : List (UInt32 × Item)) : finished output more = output := by
  rw [finished, List.filterMap_eq_nil_iff.2 silent]
  rfl

theorem done_endings (items : List (UInt32 × Item)) :
    (endings items).filterMap Notice.done? = items := by
  have one (place : UInt32) (item : Item) :
      (item.ending place).filterMap Notice.done? = [(place, item)] := by
    cases item <;> rfl
  induction items with
  | nil => rfl
  | cons x rest ih =>
      obtain ⟨place, item⟩ := x
      rw [endings, List.flatMap_cons, List.filterMap_append, one]
      exact congrArg ((place, item) :: ·) ih

/-- How many items notices add. -/
def additions (said : List Notice) : Nat := (said.filterMap Notice.added?).length

theorem additions_append (said more : List Notice) :
    additions (said ++ more) = additions said + additions more := by
  rw [additions, List.filterMap_append, List.length_append]
  rfl

theorem additions_of_silent {more : List Notice} (silent : ∀ n ∈ more, n.added? = none) :
    additions more = 0 := by
  rw [additions, List.filterMap_eq_nil_iff.2 silent]
  rfl

theorem additions_endings (items : List (UInt32 × Item)) : additions (endings items) = 0 := by
  refine additions_of_silent ?_
  intro n member
  obtain ⟨⟨place, item⟩, _, within⟩ := List.mem_flatMap.1 member
  exact Item.added_ending within

theorem Encoder.additions_closeReasoning (e : Encoder) : additions e.closeReasoning.2 = 0 := by
  rw [closeReasoning.eq_def]
  split <;> rfl

theorem Encoder.additions_closeMessage (e : Encoder) : additions e.closeMessage.2 = 0 := by
  rw [closeMessage.eq_def]
  split <;> rfl

theorem Encoder.additions_closeItems (e : Encoder) : additions e.closeItems.2 = 0 := by
  show additions (e.closeReasoning.2 ++ e.closeReasoning.1.closeMessage.2 ++
    e.closeReasoning.1.closeMessage.1.closeCalls.2) = 0
  rw [additions_append, additions_append, closeCalls_snd, additions_endings,
    additions_closeReasoning, additions_closeMessage]

theorem Encoder.additions_create (e : Encoder) (event : Event) :
    additions (e.create event).2 = 0 := by
  rw [create]
  split <;> rfl

/-- What a notice must be to leave what was generated as it is. -/
def Notice.Quiet (n : Notice) : Prop := n.gain? = none ∧ n.call? = none

theorem quiet_endings {items : List (UInt32 × Item)} {n : Notice} (member : n ∈ endings items) :
    n.Quiet := by
  obtain ⟨⟨place, item⟩, _, within⟩ := List.mem_flatMap.1 member
  cases item <;> simp only [Item.ending, List.mem_cons, List.not_mem_nil, or_false] at within <;>
    rcases within with rfl | rfl | rfl <;> exact ⟨rfl, rfl⟩

namespace Encoder

/-- The place of a slot's call. -/
def placeOf (e : Encoder) (slot : UInt32) : Option UInt32 :=
  (e.calls.lookup slot).map (·.subject.place)

/-- A turn that generates nothing and says this: each slot keeps its call, items that are
finished are told of, and the next place moves past those that are added. -/
structure Settles (e e' : Encoder) (more : List Notice) : Prop where
  finish : e'.finish = e.finish
  usage : e'.usage = e.usage
  calls : e'.placeOf = e.placeOf
  next : e'.counters.nextPlace = e.counters.nextPlace + UInt32.ofNat (additions more)
  output : e'.output = finished e.output more
  quiet : ∀ n ∈ more, n.Quiet

namespace Settles

variable {e e' e'' : Encoder} {more later : List Notice}

theorem refl (e : Encoder) : Settles e e [] :=
  ⟨rfl, rfl, rfl, (UInt32.add_zero _).symm, rfl, fun _ member => absurd member List.not_mem_nil⟩

theorem trans (first : Settles e e' more) (second : Settles e' e'' later) :
    Settles e e'' (more ++ later) where
  finish := second.finish.trans first.finish
  usage := second.usage.trans first.usage
  calls := second.calls.trans first.calls
  next := by rw [second.next, first.next, additions_append, UInt32.ofNat_add, UInt32.add_assoc]
  output := by rw [second.output, first.output, finished_append]
  quiet := by
    intro n member
    exact (List.mem_append.1 member).elim (first.quiet n) (second.quiet n)

/-- Items that are finished are told of, and that is all. -/
theorem of_endings {items : List (UInt32 × Item)} (finish : e'.finish = e.finish)
    (usage : e'.usage = e.usage) (calls : e'.placeOf = e.placeOf)
    (next : e'.counters.nextPlace = e.counters.nextPlace)
    (output : e'.output = Keyed.putAll items e.output) : Settles e e' (endings items) where
  finish := finish
  usage := usage
  calls := calls
  next := by
    rw [additions_endings, next]
    exact (UInt32.add_zero _).symm
  output := by rw [output, finished, done_endings]
  quiet := fun _ => quiet_endings

theorem closeReasoning (e : Encoder) : Settles e e.closeReasoning.1 e.closeReasoning.2 := by
  rw [Encoder.closeReasoning.eq_def]
  split
  · exact refl e
  · next r _ => exact @of_endings _ _ [r.asReasoning] rfl rfl rfl rfl rfl

theorem closeMessage (e : Encoder) : Settles e e.closeMessage.1 e.closeMessage.2 := by
  rw [Encoder.closeMessage.eq_def]
  split
  · exact refl e
  · next m _ => exact @of_endings _ _ [m.asMessage] rfl rfl rfl rfl rfl

theorem closeCalls (e : Encoder) : Settles e e.closeCalls.1 e.closeCalls.2 := by
  rw [closeCalls_snd]
  refine of_endings rfl rfl ?_ rfl ?_
  · funext slot
    have same := Keyed.lookup_map (fun c : OpenCall => { c with done := true }) slot e.calls
    exact (congrArg (Option.map (·.subject.place)) same).trans (Option.map_map _ _ _)
  · rw [openCalls, Keyed.putAll, List.foldl_map]
    rfl

theorem closeItems (e : Encoder) : Settles e e.closeItems.1 e.closeItems.2 := by
  exact ((closeReasoning e).trans (closeMessage _)).trans (closeCalls _)

/-- An item is announced, unless it is a call, at the next place. -/
theorem announce (e : Encoder) {notices : List Notice} (one : additions notices = 1)
    (quiet : ∀ n ∈ notices, n.Quiet ∧ n.done? = none) : Settles e e.takePlace.2 notices where
  finish := rfl
  usage := rfl
  calls := rfl
  next := by
    rw [one]
    rfl
  output := (finished_of_silent (fun n member => (quiet n member).2) _).symm
  quiet := fun n member => (quiet n member).1

/-- What else an encoder remembers does not matter here. -/
theorem of_same (settles : Settles e e' more) (finish : e''.finish = e'.finish)
    (usage : e''.usage = e'.usage) (calls : e''.calls = e'.calls)
    (next : e''.counters.nextPlace = e'.counters.nextPlace) (output : e''.output = e'.output) :
    Settles e e'' more where
  finish := finish.trans settles.finish
  usage := usage.trans settles.usage
  calls := by
    rw [← settles.calls]
    funext slot
    rw [placeOf, calls]
    rfl
  next := next.trans settles.next
  output := output.trans settles.output
  quiet := settles.quiet

theorem openReasoning (e : Encoder) : Settles e e.openReasoning.1 e.openReasoning.2.2 := by
  rw [Encoder.openReasoning.eq_def]
  split
  · exact refl e
  · refine ((closeMessage e).trans (announce _ rfl ?_)).of_same rfl rfl rfl rfl rfl
    intro n member
    rw [List.mem_singleton.1 member]
    exact ⟨⟨rfl, rfl⟩, rfl⟩

theorem openMessage (e : Encoder) : Settles e e.openMessage.1 e.openMessage.2.2 := by
  rw [Encoder.openMessage.eq_def]
  split
  · exact refl e
  · refine ((closeReasoning e).trans (announce _ rfl ?_)).of_same rfl rfl rfl rfl rfl
    intro n member
    rcases List.mem_cons.1 member with rfl | later
    · exact ⟨⟨rfl, rfl⟩, rfl⟩
    · rw [List.mem_singleton.1 later]
      exact ⟨⟨rfl, rfl⟩, rfl⟩

theorem create (e : Encoder) (event : Event) : Settles e (e.create event).1 (e.create event).2 := by
  rw [Encoder.create]
  split
  · exact refl e
  · refine ⟨rfl, rfl, rfl, (UInt32.add_zero _).symm, rfl, ?_⟩
    intro n member
    rw [List.mem_singleton.1 member]
    exact ⟨rfl, rfl⟩

end Settles
end Encoder

/-! ## The ledger -/

/-- A gain of the call at the place. -/
def argumentsAt (place : UInt32) (gain : Gain) : Bool :=
  gain.channel = .arguments ∧ gain.of_.place = place

/-- The call at the place is made of the fragments: it has the name of the first, and its id
if that gives one, and gains the arguments of all. -/
structure CallAt (place : UInt32) (fragments : List ToolFragment) (said : List Notice) : Prop where
  opens : ∃ first rest id callId name, fragments = first :: rest ∧ first.name = some name ∧
    (∀ given, first.id = some given → callId = given) ∧
    .itemAdded place (.call id callId name "") ∈ said
  gains : gained (argumentsAt place) said = String.join (fragments.map ToolFragment.addition)

/-- The calls of slots, as long as each has a place to itself. -/
structure Slots (e : Encoder) (os : List Output) (said : List Notice) : Prop where
  calls : ∀ slot place, e.placeOf slot = some place → CallAt place (fragmentsIn slot os) said
  below : ∀ slot place, e.placeOf slot = some place → place.toNat < additions said
  apart : ∀ slot slot' place, e.placeOf slot = some place → e.placeOf slot' = some place →
    slot = slot'
  owned : ∀ n ∈ said, ∀ place, n.call? = some place → ∃ slot, e.placeOf slot = some place

/-- What an encoder remembers of the outputs so far, and what it said of them. -/
structure Ledger (e : Encoder) (os : List Output) (said : List Notice) : Prop where
  text : gained (·.channel = .text) said = String.join (os.map Output.contentText)
  summary : gained (·.channel = .summary) said = String.join (os.map Output.reasoningText)
  output : e.output = finished [] said
  next : e.counters.nextPlace = UInt32.ofNat (additions said)
  idle : ∀ slot, e.placeOf slot = none → fragmentsIn slot os = []
  slots : additions said ≤ UInt32.size → Slots e os said

/-- The notices of a fragment's arguments. -/
def argumentNotices (s : Subject) (f : ToolFragment) : List Notice :=
  if f.addition.isEmpty then [] else [.argumentsDelta s f.addition]

theorem gained_argumentNotices (asked : Gain → Bool) (s : Subject) (f : ToolFragment) :
    gained asked (argumentNotices s f) =
      if asked ⟨.arguments, s, f.addition⟩ then f.addition else "" := by
  rw [argumentNotices]
  split
  · next empty =>
      rw [String.isEmpty_iff.1 empty, ite_self]
      rfl
  · exact gained_singleton rfl asked

theorem mem_argumentNotices {s : Subject} {f : ToolFragment} {n : Notice}
    (member : n ∈ argumentNotices s f) : n = .argumentsDelta s f.addition := by
  rw [argumentNotices] at member
  split at member
  · exact absurd member List.not_mem_nil
  · exact List.mem_singleton.1 member

theorem additions_argumentNotices (s : Subject) (f : ToolFragment) :
    additions (argumentNotices s f) = 0 := by
  refine additions_of_silent ?_
  intro n member
  rw [mem_argumentNotices member]
  rfl

theorem finished_argumentNotices (output : List (UInt32 × Item)) (s : Subject) (f : ToolFragment) :
    finished output (argumentNotices s f) = output := by
  refine finished_of_silent ?_ output
  intro n member
  rw [mem_argumentNotices member]
  rfl

/-- The notices of a call's first fragment. -/
def callNotices (place : UInt32) (id callId name : String) (f : ToolFragment) : List Notice :=
  .itemAdded place (.call id callId name "") :: argumentNotices ⟨id, place⟩ f

theorem gained_callNotices (asked : Gain → Bool) (place : UInt32) (id callId name : String)
    (f : ToolFragment) : gained asked (callNotices place id callId name f) =
      if asked ⟨.arguments, ⟨id, place⟩, f.addition⟩ then f.addition else "" := by
  rw [callNotices, gained_cons, gained_argumentNotices]
  exact String.empty_append

theorem call?_of_mem_callNotices {place : UInt32} {id callId name : String} {f : ToolFragment}
    {n : Notice} (member : n ∈ callNotices place id callId name f) : n.call? = some place := by
  rcases List.mem_cons.1 member with rfl | argument
  · rfl
  · rw [mem_argumentNotices argument]
    rfl

theorem additions_callNotices (place : UInt32) (id callId name : String) (f : ToolFragment) :
    additions (callNotices place id callId name f) = 1 :=
  congrArg (· + 1) (additions_argumentNotices ⟨id, place⟩ f)

namespace CallAt

variable {place : UInt32} {fragments : List ToolFragment} {said more : List Notice}

/-- A call begins with a fragment that names it. -/
theorem begin (before : gained (argumentsAt place) said = "") {f : ToolFragment}
    {id callId name : String} (named : f.name = some name)
    (given : ∀ given, f.id = some given → callId = given) :
    CallAt place [f] (said ++ callNotices place id callId name f) where
  opens := ⟨f, [], id, callId, name, rfl, named, given, by simp [callNotices]⟩
  gains := by
    rw [gained_append, before, gained_callNotices]
    simp [argumentsAt]

/-- What is not about a call leaves it as it is. -/
theorem append (call : CallAt place fragments said)
    (silent : gained (argumentsAt place) more = "") : CallAt place fragments (said ++ more) where
  opens := by
    obtain ⟨first, rest, id, callId, name, same, named, given, added⟩ := call.opens
    exact ⟨first, rest, id, callId, name, same, named, given, List.mem_append_left _ added⟩
  gains := by rw [gained_append, silent, String.append_empty, call.gains]

/-- A call takes a further fragment. -/
theorem extend (call : CallAt place fragments said) {s : Subject} (here : s.place = place)
    (f : ToolFragment) : CallAt place (fragments ++ [f]) (said ++ argumentNotices s f) where
  opens := by
    obtain ⟨first, rest, id, callId, name, same, named, given, added⟩ := call.opens
    refine ⟨first, rest ++ [f], id, callId, name, ?_, named, given, List.mem_append_left _ added⟩
    rw [same, List.cons_append]
  gains := by
    rw [gained_append, call.gains, gained_argumentNotices, List.map_append, String.join_append]
    simp [argumentsAt, here]

end CallAt

namespace Slots

variable {e e' : Encoder} {os : List Output} {said more : List Notice}

theorem settle (slots : Slots e os said) (settles : e.Settles e' more)
    (silent : ∀ asked, gained asked more = "") : Slots e' os (said ++ more) where
  calls := by
    intro slot place called
    rw [settles.calls] at called
    exact (slots.calls slot place called).append (silent _)
  below := by
    intro slot place called
    rw [settles.calls] at called
    rw [additions_append]
    exact Nat.lt_add_right _ (slots.below slot place called)
  apart := by
    rw [settles.calls]
    exact slots.apart
  owned := by
    intro n member place about
    rw [settles.calls]
    rcases List.mem_append.1 member with old | new
    · exact slots.owned n old place about
    · rw [(settles.quiet n new).2] at about
      exact absurd about (by simp)

/-- Nothing of calls is said. -/
theorem other (slots : Slots e os said) {o : Output} (other : o.fragment? = none)
    (silent : ∀ place, gained (argumentsAt place) more = "")
    (quiet : ∀ n ∈ more, n.call? = none) : Slots e (os ++ [o]) (said ++ more) where
  calls := by
    intro slot place called
    rw [fragmentsIn_append_other slot os other]
    exact (slots.calls slot place called).append (silent place)
  below := by
    intro slot place called
    rw [additions_append]
    exact Nat.lt_add_right _ (slots.below slot place called)
  apart := slots.apart
  owned := by
    intro n member place about
    rcases List.mem_append.1 member with old | new
    · exact slots.owned n old place about
    · rw [quiet n new] at about
      exact absurd about (by simp)

/-- A slot that has a call gains a fragment. -/
theorem extend (slots : Slots e os said) {f : ToolFragment} {s : Subject}
    (present : e.placeOf f.slot = some s.place) :
    Slots e (os ++ [.tool f]) (said ++ argumentNotices s f) where
  calls := by
    intro slot place called
    rw [fragmentsIn_append_tool]
    by_cases own : f.slot = slot
    · rw [if_pos own]
      rw [own, called] at present
      exact (slots.calls slot place called).extend (Option.some.inj present).symm f
    · rw [if_neg own, List.append_nil]
      refine (slots.calls slot place called).append ?_
      have elsewhere : s.place ≠ place := by
        rintro rfl
        exact own (slots.apart _ _ _ present called)
      rw [gained_argumentNotices]
      simp [argumentsAt, elsewhere]
  below := by
    intro slot place called
    rw [additions_append]
    exact Nat.lt_add_right _ (slots.below slot place called)
  apart := slots.apart
  owned := by
    intro n member place about
    rcases List.mem_append.1 member with old | new
    · exact slots.owned n old place about
    · rw [mem_argumentNotices new] at about
      exact ⟨f.slot, present.trans about⟩

/-- Nothing is said of a place that no slot has. -/
theorem gained_of_unknown (slots : Slots e os said) {place : UInt32}
    (unknown : ∀ slot, e.placeOf slot ≠ some place) : gained (argumentsAt place) said = "" := by
  refine gained_of_silent ?_
  intro n member gain gains
  rw [Bool.eq_false_iff]
  intro here
  have about : n.call? = some place := by
    obtain ⟨arguments, there⟩ := of_decide_eq_true here
    rw [← there]
    cases n <;> cases gains <;> first | rfl | exact absurd arguments (by simp)
  obtain ⟨slot, called⟩ := slots.owned n member _ about
  exact unknown slot called

/-- A slot that has no call yet gets one, at a place that no other has. -/
theorem begin (slots : Slots e os said) {f : ToolFragment} (absent : e.placeOf f.slot = none)
    (idle : fragmentsIn f.slot os = []) {id callId name : String} (named : f.name = some name)
    (given : ∀ given, f.id = some given → callId = given) {next : UInt32}
    (beyond : next.toNat = additions said)
    (calls : ∀ slot, e'.placeOf slot = if slot = f.slot then some next else e.placeOf slot) :
    Slots e' (os ++ [.tool f]) (said ++ callNotices next id callId name f) := by
  have own : e'.placeOf f.slot = some next := by rw [calls, if_pos rfl]
  have other {slot : UInt32} (other : slot ≠ f.slot) : e'.placeOf slot = e.placeOf slot := by
    rw [calls, if_neg other]
  have known {slot : UInt32} {place : UInt32} (called : e.placeOf slot = some place) :
      place ≠ next := by
    rintro rfl
    exact absurd beyond (Nat.ne_of_lt (slots.below slot place called))
  have kept {slot : UInt32} {place : UInt32} (called : e.placeOf slot = some place) :
      e'.placeOf slot = some place := by
    rw [other, called]
    rintro rfl
    exact absurd (absent.symm.trans called) (by simp)
  have one : additions (said ++ callNotices next id callId name f) = additions said + 1 := by
    rw [additions_append, additions_callNotices]
  refine ⟨?_, ?_, ?_, ?_⟩
  · intro slot place called
    rw [fragmentsIn_append_tool]
    by_cases same : slot = f.slot
    · rw [same, own] at called
      obtain rfl := Option.some.inj called
      rw [if_pos same.symm, same, idle]
      exact .begin (slots.gained_of_unknown fun _ called => known called rfl) named given
    · rw [other same] at called
      rw [if_neg (Ne.symm same), List.append_nil]
      refine (slots.calls slot place called).append ?_
      rw [gained_callNotices]
      simp [argumentsAt, (known called).symm]
  · intro slot place called
    rw [one]
    rw [calls] at called
    split at called
    · rw [← Option.some.inj called, beyond]
      exact Nat.lt_succ_self _
    · exact Nat.lt_succ_of_lt (slots.below slot place called)
  · intro slot slot' place called called'
    rw [calls] at called called'
    split at called <;> split at called'
    · next own own' => exact own.trans own'.symm
    · exact absurd (Option.some.inj called).symm (known called')
    · exact absurd (Option.some.inj called').symm (known called)
    · exact slots.apart slot slot' place called called'
  · intro n member place about
    rcases List.mem_append.1 member with old | new
    · obtain ⟨slot, called⟩ := slots.owned n old place about
      exact ⟨slot, kept called⟩
    · rw [call?_of_mem_callNotices new] at about
      exact ⟨f.slot, own.trans about⟩

end Slots

namespace Ledger

variable {e e' : Encoder} {os : List Output} {said more : List Notice}

/-- The slots before more is said. -/
theorem slots_before (ledger : Ledger e os said) (fits : additions (said ++ more) ≤ UInt32.size) :
    Slots e os said := by
  rw [additions_append] at fits
  exact ledger.slots (Nat.le_of_add_right_le fits)

theorem settle (ledger : Ledger e os said) (settles : e.Settles e' more) :
    Ledger e' os (said ++ more) := by
  have silent (asked : Gain → Bool) : gained asked more = "" := by
    refine gained_of_silent ?_
    intro n member gain gains
    rw [(settles.quiet n member).1] at gains
    exact absurd gains (by simp)
  refine ⟨?_, ?_, ?_, ?_, ?_, ?_⟩
  · rw [gained_append, silent, String.append_empty, ledger.text]
  · rw [gained_append, silent, String.append_empty, ledger.summary]
  · rw [settles.output, ledger.output, finished_append]
  · rw [settles.next, ledger.next, additions_append, UInt32.ofNat_add]
  · rw [settles.calls]
    exact ledger.idle
  · exact fun fits => (ledger.slots_before fits).settle settles silent

/-- Other things that an encoder remembers do not matter. -/
theorem congr (ledger : Ledger e os said) (calls : e'.calls = e.calls)
    (next : e'.counters.nextPlace = e.counters.nextPlace) (output : e'.output = e.output) :
    Ledger e' os said := by
  have same : e'.placeOf = e.placeOf := by
    funext slot
    rw [Encoder.placeOf, calls]
    rfl
  refine ⟨ledger.text, ledger.summary, output.trans ledger.output, next.trans ledger.next,
    same ▸ ledger.idle, ?_⟩
  intro fits
  obtain ⟨calls, below, apart, owned⟩ := ledger.slots fits
  exact ⟨same ▸ calls, same ▸ below, same ▸ apart, same ▸ owned⟩

/-- A text or a summary gains a piece. -/
theorem gain (ledger : Ledger e os said) {o : Output} {n : Notice} {g : Gain}
    (gains : n.gain? = some g) (plain : g.channel ≠ .arguments)
    (content : o.contentText = if g.channel = .text then g.piece else "")
    (reasoning : o.reasoningText = if g.channel = .summary then g.piece else "")
    (other : o.fragment? = none) : Ledger e (os ++ [o]) (said ++ [n]) := by
  have quiet : n.call? = none ∧ n.done? = none ∧ n.added? = none := by
    cases n <;> cases gains <;> first | exact ⟨rfl, rfl, rfl⟩ | exact absurd rfl plain
  have added : additions [n] = 0 := additions_of_silent (by simp [quiet.2.2])
  refine ⟨?_, ?_, ?_, ?_, ?_, ?_⟩
  · rw [gained_append, ledger.text, gained_singleton gains, List.map_append, String.join_append,
      List.map_singleton, content]
    simp
  · rw [gained_append, ledger.summary, gained_singleton gains, List.map_append,
      String.join_append, List.map_singleton, reasoning]
    simp
  · rw [finished_append, finished_of_silent, ledger.output]
    intro n' member
    rw [List.mem_singleton.1 member]
    exact quiet.2.1
  · rw [additions_append, added]
    exact ledger.next
  · intro slot silent
    rw [fragmentsIn_append_other slot os other]
    exact ledger.idle slot silent
  · intro fits
    refine (ledger.slots_before fits).other other ?_ (by simp [quiet.1])
    intro place
    rw [gained_singleton gains]
    simp [argumentsAt, plain]

/-- A slot that has a call gains a fragment. -/
theorem extend (ledger : Ledger e os said) {f : ToolFragment} {s : Subject}
    (present : e.placeOf f.slot = some s.place) :
    Ledger e (os ++ [.tool f]) (said ++ argumentNotices s f) := by
  refine ⟨?_, ?_, ?_, ?_, ?_, fun fits => (ledger.slots_before fits).extend present⟩
  · rw [gained_append, ledger.text, gained_argumentNotices]
    simp [Output.contentText]
  · rw [gained_append, ledger.summary, gained_argumentNotices]
    simp [Output.reasoningText]
  · rw [finished_append, finished_argumentNotices, ledger.output]
  · rw [additions_append, additions_argumentNotices]
    exact ledger.next
  · intro slot silent
    have other : f.slot ≠ slot := by
      rintro rfl
      rw [present] at silent
      exact absurd silent (by simp)
    rw [fragmentsIn_append_tool, if_neg other, List.append_nil]
    exact ledger.idle slot silent

/-- A slot that has no call yet gets one, at the next place. -/
theorem begin (ledger : Ledger e os said) {f : ToolFragment} (absent : e.placeOf f.slot = none)
    {id callId name : String} (named : f.name = some name)
    (given : ∀ given, f.id = some given → callId = given)
    (next : e'.counters.nextPlace = e.counters.nextPlace + 1)
    (calls : ∀ slot, e'.placeOf slot =
      if slot = f.slot then some e.counters.nextPlace else e.placeOf slot)
    (output : e'.output = e.output) :
    Ledger e' (os ++ [.tool f])
      (said ++ callNotices e.counters.nextPlace id callId name f) := by
  refine ⟨?_, ?_, ?_, ?_, ?_, ?_⟩
  · rw [gained_append, ledger.text, gained_callNotices]
    simp [Output.contentText]
  · rw [gained_append, ledger.summary, gained_callNotices]
    simp [Output.reasoningText]
  · rw [output, finished_append, ledger.output]
    exact (finished_argumentNotices _ ⟨id, e.counters.nextPlace⟩ f).symm
  · rw [additions_append, additions_callNotices, Word.ofNat_succ, ← ledger.next]
    exact next
  · intro slot none_
    by_cases same : slot = f.slot
    · rw [calls, if_pos same] at none_
      exact absurd none_ (by simp)
    · rw [calls, if_neg same] at none_
      rw [fragmentsIn_append_tool, if_neg (Ne.symm same), List.append_nil]
      exact ledger.idle slot none_
  · intro fits
    refine (ledger.slots_before fits).begin absent (ledger.idle _ absent) named given ?_ calls
    rw [additions_append, additions_callNotices] at fits
    rw [ledger.next, Word.toNat_ofNat_of_lt fits]

end Ledger

/-! ## Turns that generate something -/

namespace Encoder

/-- The call of a slot is the one it has, or a new one that is announced at the next place
after open texts are closed. -/
theorem openCall_cases {e m : Encoder} {f : ToolFragment} {c : OpenCall} {opening : List Notice}
    (asked : e.openCall f = .ok (m, c, opening)) : m.calls.lookup f.slot = some c ∧
      (m = e ∧ opening = [] ∨
        ∃ id callId name shut closing, e.calls.lookup f.slot = none ∧ f.name = some name ∧
          (∀ given, f.id = some given → callId = given) ∧ e.Settles shut closing ∧
          additions closing = 0 ∧
          c = ⟨⟨id, shut.counters.nextPlace⟩, callId, name, "", false⟩ ∧
          m = { shut.takePlace.2 with calls := Keyed.put f.slot c shut.calls } ∧
          opening = closing ++
            [.itemAdded shut.counters.nextPlace (.call id callId name "")]) := by
  rw [openCall] at asked
  split at asked
  · next present =>
      cases asked
      exact ⟨present, .inl ⟨rfl, rfl⟩⟩
  · next absent =>
      split at asked
      · exact absurd asked (by simp)
      · next name named =>
          cases asked
          refine ⟨Keyed.lookup_put_self _ _ _, .inr ⟨_, _, name, _, _, absent, named, ?_,
            (Settles.closeReasoning e).trans (Settles.closeMessage _), ?_, rfl, rfl, rfl⟩⟩
          · intro given known
            rw [known]
            rfl
          · rw [additions_append, additions_closeReasoning, additions_closeMessage]

/-- A fragment finds the call of its slot and adds its arguments. -/
theorem call_cases {e e' : Encoder} {f : ToolFragment} {notices : List Notice}
    (asked : e.call f = .ok (e', notices)) : ∃ m c opening calls,
      e.openCall f = .ok (m, c, opening) ∧ e' = { m with calls } ∧
      (∀ slot, (calls.lookup slot).map (·.subject.place) = m.placeOf slot) ∧
      notices = opening ++ argumentNotices c.subject f := by
  rw [call] at asked
  cases result : e.openCall f with
  | error refusal =>
      rw [result] at asked
      exact absurd asked (by simp [bind, Except.bind])
  | ok opened =>
      obtain ⟨m, c, opening⟩ := opened
      obtain ⟨present, _⟩ := openCall_cases result
      simp only [result, bind, Except.bind, pure, Except.pure, throw, throwThe,
        MonadExceptOf.throw] at asked
      split at asked
      · next empty =>
          cases asked
          refine ⟨e', c, notices, e'.calls, rfl, rfl, fun _ => rfl, ?_⟩
          rw [argumentNotices, if_pos empty, List.append_nil]
      · next some_ =>
          split at asked
          · exact absurd asked (by simp)
          · cases asked
            refine ⟨m, c, opening, _, rfl, rfl, ?_, ?_⟩
            · intro slot
              by_cases own : slot = f.slot
              · rw [own, Keyed.lookup_put_self, placeOf, present]
                rfl
              · rw [Keyed.lookup_put_ne own]
                rfl
            · rw [argumentNotices, if_neg some_]

end Encoder

namespace Ledger

variable {e e' : Encoder} {os : List Output} {said notices : List Notice}

theorem reason (ledger : Ledger e os said) (s : String) :
    Ledger (e.reason s).1 (os ++ [.reasoning s]) (said ++ (e.reason s).2) := by
  have settles : Encoder.Settles e (e.reason s).1 e.openReasoning.2.2 :=
    (Encoder.Settles.openReasoning e).of_same rfl rfl rfl rfl rfl
  have opened := ledger.settle settles
  rw [Encoder.reason, ← List.append_assoc]
  exact opened.gain (g := ⟨.summary, _, s⟩) rfl (by simp) rfl rfl rfl

theorem say (ledger : Ledger e os said) (s : String) :
    Ledger (e.say s).1 (os ++ [.content s]) (said ++ (e.say s).2) := by
  have settles : Encoder.Settles e (e.say s).1 e.openMessage.2.2 :=
    (Encoder.Settles.openMessage e).of_same rfl rfl rfl rfl rfl
  have opened := ledger.settle settles
  rw [Encoder.say, ← List.append_assoc]
  exact opened.gain (g := ⟨.text, _, s⟩) rfl (by simp) rfl rfl rfl

theorem call (ledger : Ledger e os said) {f : ToolFragment}
    (asked : e.call f = .ok (e', notices)) :
    Ledger e' (os ++ [.tool f]) (said ++ notices) ∧ e'.finish = e.finish ∧ e'.usage = e.usage := by
  obtain ⟨m, c, opening, calls, opened, rfl, same, rfl⟩ := Encoder.call_cases asked
  obtain ⟨present, ⟨rfl, rfl⟩ |
    ⟨id, callId, name, shut, closing, absent, named, given, settles, _, rfl, rfl, rfl⟩⟩ :=
      Encoder.openCall_cases opened
  · refine ⟨?_, rfl, rfl⟩
    have here : m.placeOf f.slot = some c.subject.place := by
      rw [Encoder.placeOf, present]
      rfl
    have kept : m.Settles { m with calls } [] :=
      { Encoder.Settles.refl m with calls := funext same }
    simpa using (ledger.extend here).settle kept
  · refine ⟨?_, settles.finish, settles.usage⟩
    have none_ : shut.placeOf f.slot = none := by
      rw [settles.calls, Encoder.placeOf, absent]
      rfl
    rw [List.append_assoc, ← List.append_assoc said]
    refine (ledger.settle settles).begin none_ named given rfl ?_ rfl
    intro slot
    show (calls.lookup slot).map _ = _
    rw [same]
    show ((Keyed.put f.slot _ shut.calls).lookup slot).map _ = _
    split
    · next own =>
        rw [own, Keyed.lookup_put_self]
        rfl
    · next other =>
        rw [Keyed.lookup_put_ne other]
        rfl

/-- **An accepted output is entered**, and nothing else changes. -/
theorem output1 (ledger : Ledger e os said) {o : Output}
    (asked : e.output1 o = .ok (e', notices)) :
    Ledger e' (os ++ [o]) (said ++ notices) ∧ e'.finish = e.finish ∧ e'.usage = e.usage := by
  cases o with
  | reasoning s =>
      cases asked
      have kept := Encoder.Settles.openReasoning e
      exact ⟨ledger.reason s, kept.finish, kept.usage⟩
  | content s =>
      cases asked
      have kept := Encoder.Settles.openMessage e
      exact ⟨ledger.say s, kept.finish, kept.usage⟩
  | tool f => exact ledger.call asked

end Ledger

/-! ## Runs -/

namespace Encoder

/-- What every accepted output keeps, a run of accepted outputs keeps. -/
theorem outputs_invariant (Inv : Encoder → List Output → List Notice → Prop)
    (step : ∀ e os said o e' more, Inv e os said → e.output1 o = .ok (e', more) →
      Inv (e'.number more).1 (os ++ [o]) (said ++ more))
    {e e' : Encoder} {os : List Output} {frames : List Frame} (start : Inv e [] [])
    (asked : e.outputs os = (e', .ok frames)) : Inv e' os (frames.map (·.notice)) := by
  suffices general : ∀ (os : List Output) (e : Encoder) (past : List Output)
      (said : List Notice) (frames : List Frame), Inv e past said →
        e.outputs os = (e', .ok frames) → Inv e' (past ++ os) (said ++ frames.map (·.notice)) by
    simpa using general os e [] [] frames start asked
  intro os
  induction os with
  | nil =>
      intro e past said frames holds asked
      cases asked
      simpa using holds
  | cons o rest ih =>
      intro e past said frames holds asked
      rw [outputs] at asked
      split at asked
      · exact absurd asked (by simp)
      · next middle notices first =>
          have kept := step e past said o middle notices holds first
          have spelled := notice_number middle notices
          generalize middle.number notices = counted at asked kept spelled
          obtain ⟨middle, now⟩ := counted
          dsimp only at asked kept spelled
          generalize remaining : middle.outputs rest = result at asked
          obtain ⟨last, answer⟩ := result
          cases answer with
          | error refusal => exact absurd asked (by simp [Except.map])
          | ok later =>
              cases asked
              rw [List.map_append, spelled]
              simpa using ih _ (past ++ [o]) (said ++ notices) later kept remaining

/-- An accepted event says nothing, or it is announced, says its outputs and is concluded. -/
theorem feed_cases {e e' : Encoder} {event : Event} {more : List Frame}
    (fed : e.feed event = (e', .ok more)) :
    event.isEmpty = true ∧ e' = e ∧ more = [] ∨
    ∃ middle now, event.refusal? e.ended e.finish.isSome = none ∧
      (e.announce event).1.outputs event.outputs = (middle, .ok now) ∧
      e' = (middle.conclude event).1 ∧
      more = (e.announce event).2 ++ now ++ (middle.conclude event).2 := by
  rw [feed] at fed
  split at fed
  · next empty =>
      cases fed
      exact .inl ⟨empty, rfl, rfl⟩
  · split at fed
    · exact absurd fed (by simp)
    · next accepted =>
        simp only at fed
        split at fed
        · exact absurd fed (by simp)
        · next middle now said =>
            cases fed
            exact .inr ⟨middle, now, accepted, said, rfl, rfl⟩

end Encoder

namespace Ledger

variable {e e' : Encoder} {os : List Output} {said : List Notice}

theorem number (ledger : Ledger e os said) (notices : List Notice) :
    Ledger (e.number notices).1 os said := ledger.congr rfl rfl rfl

theorem announce (ledger : Ledger e os said) (event : Event) :
    Ledger (e.announce event).1 os (said ++ (e.announce event).2.map (·.notice)) ∧
      (e.announce event).1.finish = e.finish ∧
      (e.announce event).1.usage = event.usage.or e.usage := by
  have created := Encoder.Settles.create e event
  refine ⟨?_, created.finish, congrArg event.usage.or created.usage⟩
  show Ledger _ os (said ++ ((e.create event).1.number (e.create event).2).2.map (·.notice))
  rw [Encoder.notice_number]
  exact (ledger.settle created).congr rfl rfl rfl

theorem outputs (ledger : Ledger e os said) {more : List Output} {frames : List Frame}
    (asked : e.outputs more = (e', .ok frames)) :
    Ledger e' (os ++ more) (said ++ frames.map (·.notice)) ∧ e'.finish = e.finish ∧
      e'.usage = e.usage := by
  refine Encoder.outputs_invariant (fun e' more notices =>
    Ledger e' (os ++ more) (said ++ notices) ∧ e'.finish = e.finish ∧ e'.usage = e.usage)
    ?_ ⟨by simpa using ledger, rfl, rfl⟩ asked
  rintro m past notices o m' now ⟨ledger', finish, usage⟩ first
  obtain ⟨ledger'', finish', usage'⟩ := ledger'.output1 first
  refine ⟨?_, finish'.trans finish, usage'.trans usage⟩
  rw [← List.append_assoc, ← List.append_assoc]
  exact ledger''.number now

theorem conclude (ledger : Ledger e os said) (event : Event) :
    Ledger (e.conclude event).1 os (said ++ (e.conclude event).2.map (·.notice)) ∧
      (e.conclude event).1.finish = e.finish.or event.finish ∧
      (e.conclude event).1.usage = e.usage := by
  suffices noted : Ledger (e.noteFinish event.finish).1 os
      (said ++ (e.noteFinish event.finish).2) ∧
      (e.noteFinish event.finish).1.finish = e.finish.or event.finish ∧
      (e.noteFinish event.finish).1.usage = e.usage by
    refine ⟨?_, noted.2⟩
    show Ledger _ os (said ++ ((e.noteFinish event.finish).1.number
      (e.noteFinish event.finish).2).2.map (·.notice))
    rw [Encoder.notice_number]
    exact noted.1.number _
  rw [Encoder.noteFinish]
  split
  · next first =>
      have closed := Encoder.Settles.closeItems e
      refine ⟨(ledger.settle closed).congr rfl rfl rfl, ?_, closed.usage⟩
      rw [Option.isNone_iff_eq_none.1 first.2, Option.none_or]
  · next later =>
      refine ⟨by simpa using ledger, ?_, rfl⟩
      cases known : e.finish with
      | some _ => rfl
      | none =>
          cases given : event.finish with
          | none => rfl
          | some _ => exact absurd ⟨by simp [given], by simp [known]⟩ later

end Ledger

/-- What an encoder knows after events that it accepted. -/
structure Booked (e : Encoder) (events : List Event) (frames : List Frame) : Prop where
  ledger : Ledger e (events.flatMap Event.outputs) (frames.map (·.notice))
  finish : e.finish = firstFinish events
  usage : e.usage = lastUsage events

namespace Booked

variable {e e' : Encoder} {events : List Event} {frames more : List Frame}

theorem fresh (spareId : String) : Booked { spareId } [] [] where
  ledger := by
    refine ⟨rfl, rfl, rfl, rfl, fun _ _ => rfl, fun _ => ?_⟩
    constructor <;> simp [Encoder.placeOf]
  finish := rfl
  usage := rfl

/-- **An accepted event is booked.** -/
theorem feed (booked : Booked e events frames) {event : Event}
    (fed : e.feed event = (e', .ok more)) : Booked e' (events ++ [event]) (frames ++ more) := by
  obtain ⟨ledger, finish, usage⟩ := booked
  rcases Encoder.feed_cases fed with ⟨empty, rfl, rfl⟩ | ⟨middle, now, _, said, rfl, rfl⟩
  · refine ⟨?_, ?_, ?_⟩
    · simpa [Event.outputs_of_isEmpty empty] using ledger
    · simp [finish, firstFinish_append_singleton, Event.finish_of_isEmpty empty]
    · simp [usage, lastUsage_append_singleton, Event.usage_of_isEmpty empty]
  · obtain ⟨announced, finish₁, usage₁⟩ := ledger.announce event
    obtain ⟨told, finish₂, usage₂⟩ := announced.outputs said
    obtain ⟨concluded, finish₃, usage₃⟩ := told.conclude event
    refine ⟨?_, ?_, ?_⟩
    · simp only [List.flatMap_append, List.flatMap_singleton, List.map_append, List.append_assoc]
        at concluded ⊢
      exact concluded
    · rw [finish₃, finish₂, finish₁, finish, firstFinish_append_singleton]
    · rw [usage₃, usage₂, usage₁, usage, lastUsage_append_singleton]

end Booked

/-! ## A whole stream -/

theorem Notice.mem_done_iff {said : List Notice} {place : UInt32} {item : Item} :
    (place, item) ∈ said.filterMap done? ↔ .itemDone place item ∈ said := by
  rw [List.mem_filterMap]
  constructor
  · rintro ⟨n, member, finishes⟩
    cases n <;> cases finishes
    exact member
  · exact fun member => ⟨_, member, rfl⟩

theorem ascending_finished (said : List Notice) : Keyed.Ascending (finished [] said) :=
  Keyed.ascending_putAll List.Pairwise.nil _

/-- There are no more finished items by place than there are places. -/
theorem length_finished_le (said : List Notice) : (finished [] said).length ≤ UInt32.size := by
  have few := Word.length_le_of_nodup (Keyed.nodup_keys (ascending_finished said))
  rwa [List.length_map] at few

theorem mem_finished {said : List Notice} {place : UInt32} {item : Item}
    (member : (place, item) ∈ finished [] said) : .itemDone place item ∈ said :=
  Notice.mem_done_iff.1 ((Keyed.mem_putAll member).resolve_right List.not_mem_nil)

namespace Said

variable {response : String} {lives : List Life} {said : List Notice}

/-- Where nothing is open, the places of items that were added have finished items. -/
theorem mem_places_finished (told : Said response lives said) (idle : openLives lives = [])
    (place : UInt32) : place ∈ (finished [] said).map Prod.fst ↔
      place ∈ (said.filterMap Notice.added?).map Prod.fst := by
  rw [finished, Keyed.mem_keys_putAll, List.map_nil, or_iff_left List.not_mem_nil, List.mem_map,
    List.mem_map]
  constructor
  · rintro ⟨⟨place, item⟩, member, rfl⟩
    obtain ⟨n, l, at_, rfl, _⟩ := (told.itemDone_iff place item).1 (Notice.mem_done_iff.1 member)
    exact ⟨_, told.added_of_life at_, rfl⟩
  · rintro ⟨⟨place, item⟩, member, rfl⟩
    obtain ⟨n, l, at_, here, _⟩ := told.life_of_added member
    refine ⟨(place, l.item), Notice.mem_done_iff.2 ((told.itemDone_iff _ _).2
      ⟨n, l, at_, here, ?_, rfl⟩), rfl⟩
    cases done : l.done with
    | true => rfl
    | false =>
        have open_ := mem_openLives.2 ⟨n, l, at_, here, done, rfl⟩
        rw [idle] at open_
        exact absurd open_ List.not_mem_nil

/-- The finished items of a stream in which nothing is open stand by place. -/
theorem places_finished (told : Said response lives said) (fits : lives.length ≤ UInt32.size)
    (idle : openLives lives = []) :
    (finished [] said).map (·.1.toNat) = List.range (additions said) := by
  have sorted : ((finished [] said).map (·.1.toNat)).Pairwise (· < ·) := by
    refine List.pairwise_map.2 ((ascending_finished said).imp ?_)
    exact fun less => UInt32.lt_iff_toNat_lt.1 less
  refine List.Perm.eq_of_pairwise (fun _ _ _ _ less more => absurd more (Nat.lt_asymm less))
    sorted List.pairwise_lt_range ?_
  rw [List.perm_ext_iff_of_nodup sorted.nodup List.nodup_range]
  intro p
  rw [additions, ← told.range_places fits]
  have same (place : UInt32) := told.mem_places_finished idle place
  simp only [List.mem_map] at same ⊢
  constructor
  · rintro ⟨x, member, rfl⟩
    obtain ⟨y, added, here⟩ := (same x.1).1 ⟨x, member, rfl⟩
    exact ⟨y, added, congrArg UInt32.toNat here⟩
  · rintro ⟨x, added, rfl⟩
    obtain ⟨y, member, here⟩ := (same x.1).2 ⟨x, added, rfl⟩
    exact ⟨y, member, congrArg UInt32.toNat here⟩

/-- The finished items of a stream in which nothing is open are those that were told of. -/
theorem mem_finished_iff (told : Said response lives said) (fits : lives.length ≤ UInt32.size)
    (idle : openLives lives = []) (place : UInt32) (item : Item) :
    (place, item) ∈ finished [] said ↔ .itemDone place item ∈ said := by
  refine ⟨mem_finished, ?_⟩
  intro member
  -- The place has one finished item, and that is told of too, by the same life.
  obtain ⟨n, l, at_, rfl, _, rfl⟩ := (told.itemDone_iff place item).1 member
  have here := (told.mem_places_finished idle (UInt32.ofNat n)).2
    (List.mem_map_of_mem (told.added_of_life at_))
  obtain ⟨⟨place', item'⟩, found, rfl⟩ := List.mem_map.1 here
  obtain ⟨n', l', at', same, _, rfl⟩ := (told.itemDone_iff _ item').1 (mem_finished found)
  obtain rfl := Word.eq_of_ofNat_eq (lt_size fits at') (lt_size fits at_) same
  obtain rfl := Option.some.inj (at_.symm.trans at')
  exact found

end Said

/-- What a stream says of each item is what events generated, if there are places for all. -/
structure Itemized (events : List Event) (said : List Notice) : Prop where
  /-- The slots that have fragments have one call each, and there are no other calls. -/
  calls : ∃ placeOf : UInt32 → UInt32,
    (∀ slot, fragmentsOf slot events ≠ [] →
      CallAt (placeOf slot) (fragmentsOf slot events) said) ∧
    (∀ slot slot', fragmentsOf slot events ≠ [] → fragmentsOf slot' events ≠ [] →
      placeOf slot = placeOf slot' → slot = slot') ∧
    ∀ n ∈ said, ∀ place, n.call? = some place →
      ∃ slot, fragmentsOf slot events ≠ [] ∧ placeOf slot = place
  /-- What is given as the whole text of an item is what the item has gained. -/
  whole : ∀ n ∈ said, ∀ s whole, n.whole? = some (s, whole) → whole = gained (·.of_ = s) said
  /-- An item is finished as it was added, with what it has gained. -/
  items : ∀ place item, .itemDone place item ∈ said → ∃ opened, .itemAdded place opened ∈ said ∧
    item = opened.withText (gained (·.of_ = ⟨item.id, place⟩) said)
  /-- The response has each item that was added, as it was finished, by place. -/
  output : ∀ n ∈ said, ∀ response, n.response? = some response →
    response.output.length = additions said ∧
    ∀ place item, response.output[place.toNat]? = some item ↔ .itemDone place item ∈ said

/-- What a stream says is what events generated. -/
structure Faithful (events : List Event) (said : List Notice) : Prop where
  text : gained (·.channel = .text) said = contentOf events
  summary : gained (·.channel = .summary) said = reasoningOf events
  /-- The last notice is the response: the token counts that were reported last, and whether the
  first reason to end is one of falling short. -/
  ending : ∃ body last response, said = body ++ [last] ∧ last.response? = some response ∧
    (last.name = "response.incomplete" ↔
      firstFinish events = some .length ∨ firstFinish events = some .contentFilter) ∧
    response.usage = lastUsage events
  itemized : additions said ≤ UInt32.size → Itemized events said

theorem Encoder.response_terminal (e : Encoder) : e.terminal.response? = some e.snapshot ∧
    (e.terminal.name = "response.incomplete" ↔
      e.finish = some .length ∨ e.finish = some .contentFilter) := by
  rw [terminal]
  cases e.finish with
  | none => exact ⟨rfl, by simp [Shortfall.of?, Notice.name]⟩
  | some reason => cases reason <;> exact ⟨rfl, by simp [Shortfall.of?, Notice.name]⟩

/-- The last notice of a stream is about no item. -/
theorem Notice.quiet_of_response? {n : Notice} {response : Snapshot}
    (last : n.response? = some response) :
    n.Quiet ∧ n.whole? = none ∧ n.added? = none ∧ n.done? = none := by
  cases n <;> cases last <;> exact ⟨⟨rfl, rfl⟩, rfl, rfl, rfl⟩

theorem Encoder.gained_terminal (e : Encoder) (asked : Gain → Bool) (body : List Notice) :
    gained asked (body ++ [e.terminal]) = gained asked body := by
  obtain ⟨quiet, _⟩ := Notice.quiet_of_response? e.response_terminal.1
  have silent : gained asked [e.terminal] = "" := by
    refine gained_of_silent ?_
    intro n member gain gains
    rw [List.mem_singleton.1 member, quiet.1] at gains
    exact absurd gains (by simp)
  rw [gained_append, silent, String.append_empty]

theorem Encoder.additions_terminal (e : Encoder) (body : List Notice) :
    additions (body ++ [e.terminal]) = additions body := by
  obtain ⟨_, _, noItem, _⟩ := Notice.quiet_of_response? e.response_terminal.1
  have silent : additions [e.terminal] = 0 := additions_of_silent (by simp [noItem])
  rw [additions_append, silent, Nat.add_zero]

/-- A slot that has fragments has a call. -/
theorem Ledger.place_of_fragments {e : Encoder} {events : List Event} {said : List Notice}
    (ledger : Ledger e (events.flatMap Event.outputs) said) {slot : UInt32}
    (some_ : fragmentsOf slot events ≠ []) : ∃ place, e.placeOf slot = some place := by
  rw [← Option.isSome_iff_exists, Option.isSome_iff_ne_none]
  intro none_
  rw [← fragmentsIn_outputs] at some_
  exact some_ (ledger.idle slot none_)

/-- Each call that is said is the call of a slot that has fragments. -/
theorem Slots.fragments_of_call {e : Encoder} {events : List Event} {said : List Notice}
    (slots : Slots e (events.flatMap Event.outputs) said) {n : Notice} (member : n ∈ said)
    {place : UInt32} (about : n.call? = some place) :
    ∃ slot, fragmentsOf slot events ≠ [] ∧ e.placeOf slot = some place := by
  obtain ⟨slot, here⟩ := slots.owned n member place about
  refine ⟨slot, ?_, here⟩
  obtain ⟨first, rest, _, _, _, fragments, _⟩ := (slots.calls slot place here).opens
  rw [← fragmentsIn_outputs, fragments]
  exact List.cons_ne_nil _ _

/-- What an encoder knows that has been closed, and what was said until then: the last notice
but all others. -/
structure Settled (e : Encoder) (events : List Event) (response : String) (lives : List Life)
    (body : List Notice) : Prop where
  ledger : Ledger e (events.flatMap Event.outputs) body
  finish : e.finish = firstFinish events
  usage : e.usage = lastUsage events
  told : Said response lives body
  idle : openLives lives = []

namespace Settled

variable {e : Encoder} {events : List Event} {response : String} {lives : List Life}
  {body : List Notice}

/-- The calls of slots, once all is said. -/
theorem calls (settled : Settled e events response lives body)
    (slots : Slots e (events.flatMap Event.outputs) body) :
    ∃ placeOf : UInt32 → UInt32,
      (∀ slot, fragmentsOf slot events ≠ [] →
        CallAt (placeOf slot) (fragmentsOf slot events) (body ++ [e.terminal])) ∧
      (∀ slot slot', fragmentsOf slot events ≠ [] → fragmentsOf slot' events ≠ [] →
        placeOf slot = placeOf slot' → slot = slot') ∧
      ∀ n ∈ body ++ [e.terminal], ∀ place, n.call? = some place →
        ∃ slot, fragmentsOf slot events ≠ [] ∧ placeOf slot = place := by
  obtain ⟨quiet, _⟩ := Notice.quiet_of_response? e.response_terminal.1
  refine ⟨fun slot => (e.placeOf slot).getD 0, ?_, ?_, ?_⟩
  · intro slot some_
    obtain ⟨place, here⟩ := settled.ledger.place_of_fragments some_
    have call := slots.calls slot place here
    rw [fragmentsIn_outputs] at call
    simp only [here]
    refine call.append (gained_of_silent ?_)
    intro n member gain gains
    rw [List.mem_singleton.1 member, quiet.1] at gains
    exact absurd gains (by simp)
  · intro slot slot' some_ some' same
    obtain ⟨place, here⟩ := settled.ledger.place_of_fragments some_
    obtain ⟨place', here'⟩ := settled.ledger.place_of_fragments some'
    simp only [here, here', Option.getD_some] at same
    obtain rfl := same
    exact slots.apart slot slot' place here here'
  · intro n member place about
    rcases List.mem_append.1 member with early | late
    · obtain ⟨slot, some_, here⟩ := slots.fragments_of_call early about
      exact ⟨slot, some_, by simp [here]⟩
    · rw [List.mem_singleton.1 late, quiet.2] at about
      exact absurd about (by simp)

/-- As long as there are places for all items, each is accounted for. -/
theorem itemized (settled : Settled e events response lives body)
    (few : additions body ≤ UInt32.size) : Itemized events (body ++ [e.terminal]) := by
  have ledger := settled.ledger
  have told := settled.told
  obtain ⟨_, noWhole, _, notDone⟩ := Notice.quiet_of_response? e.response_terminal.1
  have fits : lives.length ≤ UInt32.size := by
    rw [← told.length_added]
    exact few
  have finishes {place : UInt32} {item : Item} :
      .itemDone place item ∈ body ++ [e.terminal] ↔ .itemDone place item ∈ body := by
    rw [List.mem_append, List.mem_singleton, or_iff_left]
    intro same
    rw [← same] at notDone
    exact absurd notDone (by simp [Notice.done?])
  refine ⟨settled.calls (ledger.slots few), ?_, ?_, ?_⟩
  · intro n member s whole gives
    rw [e.gained_terminal]
    rcases List.mem_append.1 member with early | late
    · exact told.whole fits early gives
    · rw [List.mem_singleton.1 late, noWhole] at gives
      exact absurd gives (by simp)
  · intro place item member
    obtain ⟨opened, added, same⟩ := told.item_eq fits (finishes.1 member)
    refine ⟨opened, List.mem_append_left _ added, ?_⟩
    rw [e.gained_terminal]
    exact same
  · intro n member response given
    have last : n = e.terminal := by
      rcases List.mem_append.1 member with early | late
      · have running := told.not_terminal n early
        cases n <;> cases given <;> exact absurd running (by simp [Notice.isTerminal])
      · exact List.mem_singleton.1 late
    rw [last, e.response_terminal.1] at given
    obtain rfl := Option.some.inj given
    have places := told.places_finished fits settled.idle
    rw [← ledger.output] at places
    constructor
    · have count := congrArg List.length places
      rw [List.length_map, List.length_range] at count
      rw [e.additions_terminal, ← count]
      exact List.length_map _
    · intro place item
      rw [finishes, ← told.mem_finished_iff fits settled.idle, ← ledger.output]
      exact Keyed.getElem?_map_snd_iff places place item

/-- What was said until nothing is open any more, with the last notice, is what events
generated. -/
theorem faithful (settled : Settled e events response lives body) :
    Faithful events (body ++ [e.terminal]) := by
  obtain ⟨last, short⟩ := e.response_terminal
  refine ⟨?_, ?_, ⟨body, _, _, rfl, last, ?_, settled.usage⟩, ?_⟩
  · rw [e.gained_terminal, settled.ledger.text, join_contentText]
  · rw [e.gained_terminal, settled.ledger.summary, join_reasoningText]
  · rw [short, settled.finish]
  · intro few
    rw [e.additions_terminal] at few
    exact settled.itemized few

/-- Items that are announced have no text yet. -/
theorem blank (settled : Settled e events response lives body) :
    ∀ n ∈ body ++ [e.terminal], n.Blank := by
  rintro n member place item rfl
  rcases List.mem_append.1 member with early | late
  · exact settled.told.blank_of_added early
  · have last := e.response_terminal.1
    rw [← List.mem_singleton.1 late] at last
    exact absurd last (by simp [Notice.response?])

end Settled

/-- A stream of accepted events is settled by its closing frames. -/
theorem feedAll_close_settled {spareId : String} {events : List Event} {e : Encoder}
    {frames : List Frame} (fed : feedAll Encoder.feed { spareId } events = .ok (e, frames)) :
    ∃ last response lives body, Settled last events response lives body ∧
      (frames ++ e.close.2).map (·.notice) = body ++ [last.terminal] := by
  have booked : Booked e events frames :=
    feedAll_invariant Booked (fun _ _ _ _ _ _ booked step => booked.feed step)
      (Booked.fresh spareId) fed
  obtain ⟨begun, _⟩ := feedAll_begun fed
  obtain ⟨lives, created⟩ := begun.create {}
  obtain ⟨lives', told, idle⟩ := created.closeItems
  have settles := (Encoder.Settles.create e {}).trans (Encoder.Settles.closeItems (e.create {}).1)
  have said := told.said
  rw [List.append_assoc] at said
  refine ⟨_, _, lives', _, ⟨booked.ledger.settle settles, settles.finish.trans booked.finish,
    settles.usage.trans booked.usage, said, idle⟩, ?_⟩
  rw [List.map_append, begun.notice_close]
  simp only [List.append_assoc]

/-- **A stream of accepted events says what was generated**, no more and no less, along each
channel, for each slot and for each item, and the response at its end is made of the items
as they were finished. All of it is read from the data of the frames. Slots and items are told
apart as long as there are places for all items. -/
theorem feedAll_close_faithful {spareId : String} {events : List Event} {e : Encoder}
    {frames : List Frame} (fed : feedAll Encoder.feed { spareId } events = .ok (e, frames)) :
    received ((frames ++ e.close.2).map Frame.json) = frames ++ e.close.2 ∧
    Faithful events ((received ((frames ++ e.close.2).map Frame.json)).map (·.notice)) := by
  obtain ⟨last, response, lives, body, settled, spelled⟩ := feedAll_close_settled fed
  have whole : received ((frames ++ e.close.2).map Frame.json) = frames ++ e.close.2 := by
    refine received_json ?_
    intro f member
    refine settled.blank f.notice ?_
    rw [← spelled]
    exact List.mem_map_of_mem member
  refine ⟨whole, ?_⟩
  rw [whole, spelled]
  exact settled.faithful

/-- The two texts of `mixed` are said one after the other, though calls come between them. -/
theorem feedAll_close_faithful_mixed :
    ∃ e frames, feedAll Encoder.feed { spareId := "0" } mixed = .ok (e, frames) ∧
      Faithful mixed ((received ((frames ++ e.close.2).map Frame.json)).map (·.notice)) ∧
      Itemized mixed ((received ((frames ++ e.close.2).map Frame.json)).map (·.notice)) ∧
      gained (·.channel = .text)
        ((received ((frames ++ e.close.2).map Frame.json)).map (·.notice)) = "onetwo" := by
  obtain ⟨e, frames, fed, few⟩ : ∃ e frames,
      feedAll Encoder.feed { spareId := "0" } mixed = .ok (e, frames) ∧
        additions ((frames ++ e.close.2).map (·.notice)) ≤ UInt32.size :=
    ⟨_, _, rfl, by decide +kernel⟩
  obtain ⟨whole, faithful⟩ := feedAll_close_faithful fed
  rw [← whole] at few
  exact ⟨e, frames, fed, faithful, faithful.itemized few, faithful.text.trans rfl⟩

/-- The output of a last notice stands in its frame. -/
theorem Frame.get?_output {f : Frame} {r : Snapshot} (last : f.notice.response? = some r) :
    (f.json.field "response").get? "output" = some (.list (r.output.map Item.json)) := by
  obtain ⟨sequence, notice⟩ := f
  cases notice <;> cases last
  · rfl
  · rfl

/-- **The response at the end of a stream has no more items than there are places.** -/
theorem feedAll_close_few {spareId : String} {events : List Event} {e : Encoder}
    {frames before : List Frame} {last : Frame}
    (fed : feedAll Encoder.feed { spareId } events = .ok (e, frames))
    (whole : frames ++ e.close.2 = before ++ [last]) : ∃ items,
      items.length ≤ UInt32.size ∧
      (last.json.field "response").get? "output" = some (.list items) := by
  obtain ⟨final, _, lives, body, settled, spelled⟩ := feedAll_close_settled fed
  rw [whole, List.map_append] at spelled
  obtain ⟨_, same⟩ := List.append_inj' spelled rfl
  have terminal : last.notice = final.terminal := List.singleton_inj.1 same
  have response : last.notice.response? = some final.snapshot := by
    rw [terminal]
    exact final.response_terminal.1
  refine ⟨_, ?_, Frame.get?_output response⟩
  rw [List.length_map, Encoder.snapshot, List.length_map, settled.ledger.output]
  exact length_finished_le body

/-- **The response at the end of a crowd does not have each item that was added**: an item at a
place that comes again takes that of the one before it. -/
theorem crowd_output :
    ∃ e frames, feedAll Encoder.feed { spareId := "0" } crowd = .ok (e, frames) ∧
      ∃ before last items, frames ++ e.close.2 = before ++ [last] ∧
        (last.json.field "response").get? "output" = some (.list items) ∧
        items.length < (addedBy (frames ++ e.close.2)).length := by
  obtain ⟨e, frames, fed, many⟩ := crowd_added
  obtain ⟨_, _, _, _, _, spelled⟩ := feedAll_close_settled fed
  obtain ⟨before, after, whole, _, same⟩ := List.map_eq_append_iff.1 spelled
  obtain ⟨last, rfl, _⟩ := List.map_eq_singleton_iff.1 same
  obtain ⟨items, few, given⟩ := feedAll_close_few fed whole
  exact ⟨e, frames, fed, before, last, items, whole, given, Nat.lt_of_le_of_lt few many⟩

end DialectGateway.Responses
