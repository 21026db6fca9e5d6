/-
# Proofs.Server.Accounting — every request is accounted for once

Whatever order handlers, streams, other requests and the ledger's writer take their turns
in, a request that has begun is in exactly one place: it waits for the backend, it has an
open stream, it has been counted and has no entry yet, it has its entry and is about to be
released, or it has been released. `Books` says so, and that the traffic counts those in
flight and the measures count what was counted. A turn takes a request from its place into
the hand and puts it down at the next, so every turn keeps the books (`Books.step`).

As long as the backend's calls return and the ledger has room, exactly the requests that
were recorded have an entry, one each (`Recorded.step`). `run_accounts` is what both
together say of a gateway that starts fresh.
-/
import DialectGateway.Proofs.Ledger.Holding
import DialectGateway.Proofs.Server.Gateway
import Mathlib.Data.List.Basic
import Mathlib.Data.List.Perm.Basic

set_option autoImplicit false

namespace DialectGateway.Server

open Delivery (Ending Live Origin Timing)
open Ledger (Pipeline Traffic)

variable {D : Type} [DecidableEq D]

/-! ## Requests in flight -/

/-- What is in flight and what has ended is all that has begun, each once, and the traffic
counts those in flight. -/
structure Placed (t : Traffic) (inFlight ended : List Nat) : Prop where
  active : t.balance = (inFlight.length : Int)
  once : (inFlight ++ ended).Perm (List.range t.total)

namespace Placed

variable {t : Traffic} {inFlight ended : List Nat}

theorem fresh (horizon : Nat) : Placed { horizon } [] [] := ⟨rfl, List.Perm.refl _⟩

theorem perm (placed : Placed t inFlight ended) {inFlight' : List Nat}
    (same : inFlight'.Perm inFlight) : Placed t inFlight' ended where
  active := by rw [same.length_eq, placed.active]
  once := (same.append_right ended).trans placed.once

/-- A request that begins is in flight. -/
theorem start (placed : Placed t inFlight ended) (now : Nat) :
    Placed (t.start now) (t.total :: inFlight) ended := by
  obtain ⟨total, balance⟩ := t.start_counts now
  refine ⟨?_, ?_⟩
  · rw [balance, placed.active, List.length_cons]
    rfl
  · rw [total, List.range_succ]
    exact (placed.once.cons t.total).trans (List.perm_append_singleton _ _).symm

/-- A request that is released has ended. -/
theorem finish {request : Nat} (placed : Placed t (request :: inFlight) ended) :
    Placed t.finish inFlight (ended ++ [request]) where
  active := by
    show t.balance - 1 = _
    rw [placed.active, List.length_cons]
    omega
  once := by
    refine List.Perm.trans ?_ placed.once
    rw [← List.append_assoc]
    exact List.perm_append_singleton _ _

end Placed

/-! ## Streams and their requests -/

/-- The requests whose streams are not closed. -/
def openOwners (owners : List Nat) (closed : List Bool) : List Nat :=
  ((owners.zip closed).filter fun x => !x.2).map (·.1)

theorem openOwners_append (owners : List Nat) (closed : List Bool)
    (owned : owners.length = closed.length) (request : Nat) :
    openOwners (owners ++ [request]) (closed ++ [false]) =
      openOwners owners closed ++ [request] := by
  rw [openOwners, List.zip_append owned, List.filter_append, List.map_append]
  rfl

/-- Closing a stream takes its request out. -/
theorem openOwners_modify {owners : List Nat} {closed : List Bool} {place : Nat}
    (owned : owners.length = closed.length) (open_ : closed[place]? = some false) :
    (openOwners owners closed).Perm
      (owners.getD place 0 :: openOwners owners (closed.modify place fun _ => true)) := by
  induction closed generalizing owners place with
  | nil => exact absurd open_ (by simp)
  | cons c closed ih =>
      cases owners with
      | nil => exact absurd owned (by simp)
      | cons owner owners =>
          have owned' : owners.length = closed.length := by simpa using owned
          cases place with
          | zero =>
              obtain rfl : c = false := by simpa using open_
              exact List.Perm.refl _
          | succ place =>
              have rest := ih owned' (by simpa using open_)
              cases c with
              | true => exact rest
              | false => exact (rest.cons owner).trans (List.Perm.swap _ _ _)

theorem closed_modifyLive (s : State) (place : Nat) (f : Live → Live) :
    (s.modifyLive place f).streams.map (·.closed) = s.streams.map (·.closed) := by
  apply List.ext_getElem?
  intro p
  rw [State.modifyLive, List.getElem?_map, List.getElem?_map, List.getElem?_modify]
  cases s.streams[p]? with
  | none => rfl
  | some stream =>
      by_cases same : place = p <;> simp [same]

theorem closed_shut (s : State) (place : Nat) :
    (s.shut place).streams.map (·.closed) =
      (s.streams.map (·.closed)).modify place fun _ => true := by
  apply List.ext_getElem?
  intro p
  rw [State.shut, List.getElem?_map, List.getElem?_modify, List.getElem?_modify, List.getElem?_map]
  cases s.streams[p]? with
  | none => rfl
  | some stream =>
      by_cases same : place = p <;> simp [same]

/-- A stream that has ended and is to be closed is open, and its ending is sound. -/
theorem of_ending? {s : State} {place : Nat} {ending : Ending}
    (ended : s.ending? place = some ending) :
    (s.streams.map (·.closed))[place]? = some false ∧ ending.Sound := by
  rw [State.ending?] at ended
  cases at_ : s.streams[place]? with
  | none =>
      rw [at_] at ended
      exact absurd ended (by simp)
  | some stream =>
      rw [at_, Option.bind_some, Stream.ending?] at ended
      cases closed : stream.closed with
      | true =>
          rw [closed, if_pos rfl] at ended
          exact absurd ended (by simp)
      | false =>
          rw [closed, if_neg Bool.false_ne_true, Delivery.ending?, Option.map_eq_some_iff] at ended
          obtain ⟨outcome, _, rfl⟩ := ended
          refine ⟨?_, Ending.sound_delivered _ _ _⟩
          rw [List.getElem?_map, at_, Option.map_some, closed]

omit [DecidableEq D] in
/-- The ending that a handler records is sound. -/
theorem sound_of_handle {setup : Setup D} {around : Surroundings} {dialect : Dialect}
    {requestId : String} {body : List UInt8} {answer : Answer} {ending : Ending}
    (answered : (handle setup around dialect requestId body).1 = .answered answer ending) :
    ending.Sound := by
  have failed {o : Origin} {stream : Bool} {f : Failure}
      (same : Fate.failed o stream f = .answered answer ending) : ending.Sound := by
    cases same
    exact Ending.sound_failed o stream f
  rw [handle] at answered
  split at answered
  · exact failed answered
  · next request read =>
      cases reaction : around.backend request with
      | failed f =>
          rw [reaction] at answered
          exact failed answered
      | single reply =>
          rw [reaction] at answered
          cases answered
          exact Ending.sound_completed _ _
      | stream script =>
          rw [reaction] at answered
          exact absurd answered (by simp [Reaction.fate])
      | broke =>
          rw [reaction] at answered
          exact absurd answered (by simp [Reaction.fate])

namespace Gateway

/-- The requests with an open stream. -/
def streaming (g : Gateway) : List Nat := openOwners g.owners (g.state.streams.map (·.closed))

/-- The requests that have begun and are not released. -/
def inFlight (g : Gateway) : List Nat :=
  g.waiting.map (·.request) ++ g.streaming ++ g.counted.map (·.request) ++ g.leaving

theorem inFlight_count (g : Gateway) (n : Note) :
    (g.count n).inFlight.Perm (n.request :: g.inFlight) := by
  show (g.waiting.map (·.request) ++ g.streaming ++ (g.counted ++ [n]).map (·.request) ++
    g.leaving).Perm _
  rw [List.map_append, ← List.append_assoc]
  exact (List.perm_append_singleton _ _).append_right _

theorem inFlight_log (g : Gateway) (n : Note) :
    (g.log n).inFlight.Perm (n.request :: g.inFlight) := by
  show (g.waiting.map (·.request) ++ g.streaming ++ g.counted.map (·.request) ++
    (g.leaving ++ [n.request])).Perm _
  rw [← List.append_assoc]
  exact List.perm_append_singleton _ _

theorem perm_eraseIdx {α : Type} {xs : List α} {place : Nat} {x : α} (at_ : xs[place]? = some x) :
    xs.Perm (x :: xs.eraseIdx place) := by
  obtain ⟨within, rfl⟩ := List.getElem?_eq_some_iff.1 at_
  exact (List.getElem_cons_eraseIdx_perm within).symm

/-- What is recorded and what is counted stay together when an entry is made. -/
theorem perm_log {notes counted : List Note} {place : Nat} {n : Note}
    (at_ : counted[place]? = some n) :
    (notes ++ counted).Perm (notes ++ [n] ++ counted.eraseIdx place) := by
  rw [List.append_assoc]
  exact (perm_eraseIdx at_).append_left notes

/-- The books of a gateway, with requests in hand that are on their way from one place
to another. -/
structure Books (hand : List Nat) (g : Gateway) : Prop where
  owned : g.owners.length = g.state.streams.length
  placed : Placed g.state.traffic (hand ++ g.inFlight) g.ended
  tallied : Tallied g.state.counts (g.notes ++ g.counted)
  sound : ∀ n ∈ g.notes ++ g.counted, n.ending.Sound

namespace Books

variable {g : Gateway}

theorem fresh (settings : Settings) : (Gateway.fresh settings).Books [] where
  owned := rfl
  placed := .fresh _
  tallied := .fresh
  sound _ member := absurd member List.not_mem_nil

/-! ## A request in hand -/

theorem takeWaiting (books : g.Books []) {place : Nat} {w : Waiting}
    (at_ : g.waiting[place]? = some w) :
    { g with waiting := g.waiting.eraseIdx place }.Books [w.request] where
  owned := books.owned
  placed := by
    refine books.placed.perm ?_
    have taken := (perm_eraseIdx at_).map (·.request)
    exact (((taken.append_right _).append_right _).append_right _).symm
  tallied := books.tallied
  sound := books.sound

theorem takeStream (books : g.Books []) {place : Nat} {ending : Ending}
    (ended : g.state.ending? place = some ending) :
    { g with state := g.state.shut place }.Books [g.owners.getD place 0] where
  owned := by
    show g.owners.length = (g.state.streams.modify place _).length
    rw [List.length_modify, books.owned]
  placed := by
    refine books.placed.perm ?_
    have owned : g.owners.length = (g.state.streams.map (·.closed)).length := by
      rw [List.length_map, books.owned]
    have taken := openOwners_modify owned (of_ending? ended).1
    rw [← closed_shut] at taken
    have out := ((taken.append_left (g.waiting.map (·.request))).append_right
      (g.counted.map (·.request))).append_right g.leaving
    refine List.Perm.trans ?_ out.symm
    exact ((List.perm_middle.append_right _).append_right _).symm
  tallied := books.tallied
  sound := books.sound

theorem takeLeaving (books : g.Books []) {place : Nat} {request : Nat}
    (at_ : g.leaving[place]? = some request) :
    { g with leaving := g.leaving.eraseIdx place }.Books [request] where
  owned := books.owned
  placed := by
    refine books.placed.perm ?_
    have out := (perm_eraseIdx at_).append_left
      (g.waiting.map (·.request) ++ g.streaming ++ g.counted.map (·.request))
    show (request :: (g.waiting.map (·.request) ++ g.streaming ++ g.counted.map (·.request) ++
      g.leaving.eraseIdx place)).Perm _
    exact List.perm_middle.symm.trans out.symm
  tallied := books.tallied
  sound := books.sound

/-- A request in hand is counted. -/
theorem count {n : Note} (books : g.Books [n.request]) (sound : n.ending.Sound) :
    (g.count n).Books [] where
  owned := books.owned
  placed := books.placed.perm (inFlight_count g n)
  tallied := by
    show Tallied (n.ending.count n.timing g.state.counts) (g.notes ++ (g.counted ++ [n]))
    rw [← List.append_assoc]
    exact books.tallied.note n
  sound m member := by
    change m ∈ g.notes ++ (g.counted ++ [n]) at member
    rw [← List.append_assoc] at member
    rcases List.mem_append.1 member with before | new
    · exact books.sound m before
    · obtain rfl : m = n := List.mem_singleton.1 new
      exact sound

/-- A request in hand is released. -/
theorem release {request : Nat} (books : g.Books [request]) : (g.release request).Books [] where
  owned := books.owned
  placed := books.placed.finish
  tallied := books.tallied
  sound := books.sound

/-- A stream is opened for a request in hand. -/
theorem launch {request : Nat} (books : g.Books [request]) (live : Live) (origin : Origin) :
    { g with
      state := (g.state.launch ⟨live, origin, false⟩).2
      owners := g.owners ++ [request] }.Books [] where
  owned := by
    show (g.owners ++ [request]).length = (g.state.streams ++ [_]).length
    rw [List.length_append, List.length_append, books.owned]
    rfl
  placed := by
    refine books.placed.perm ?_
    have owned : g.owners.length = (g.state.streams.map (·.closed)).length := by
      rw [List.length_map, books.owned]
    have grown : openOwners (g.owners ++ [request])
        ((g.state.streams ++ [(⟨live, origin, false⟩ : Stream)]).map (·.closed)) =
          g.streaming ++ [request] := by
      rw [List.map_append]
      exact openOwners_append _ _ owned request
    show (g.waiting.map (·.request) ++ openOwners (g.owners ++ [request])
      ((g.state.streams ++ [(⟨live, origin, false⟩ : Stream)]).map (·.closed)) ++ _ ++ _).Perm _
    rw [grown, ← List.append_assoc]
    exact ((List.perm_append_singleton _ _).append_right _).append_right _
  tallied := books.tallied
  sound := books.sound

/-- A handler does about its request what the request's fate says. -/
theorem meet {request : Nat} (books : g.Books [request]) (t : Timing) {fate : Fate}
    (sound : ∀ answer ending, fate = .answered answer ending → ending.Sound) :
    (g.meet request t fate).Books [] := by
  cases fate with
  | answered answer ending =>
      exact Books.count (n := ⟨request, ending, t⟩) books (sound answer ending rfl)
  | streamed live origin => exact books.launch live origin
  | broke => exact books.release

/-! ## Turns -/

theorem arrive (books : g.Books []) (setup : Setup D) (around : Surroundings) (a : Arrived) :
    (g.step setup (.arrive around a)).Books [] := by
  rw [step]
  cases begins : a.begins? setup with
  | some d =>
      refine ⟨books.owned, ?_, books.tallied, books.sound⟩
      refine (books.placed.start around.uptime).perm ?_
      let w : Waiting := ⟨g.state.traffic.total, d, a.idIn around, a.body⟩
      show ((g.waiting ++ [w]).map (·.request) ++ g.streaming ++ g.counted.map (·.request) ++
        g.leaving).Perm _
      rw [List.map_append]
      exact (((List.perm_append_singleton _ _).append_right _).append_right _).append_right _
  | none =>
      obtain ⟨window, active, served⟩ := state_serve_of_not_begins begins around g.state
      simp only [served]
      exact ⟨books.owned, ⟨books.placed.active, books.placed.once⟩,
        books.tallied.setActive active, books.sound⟩

theorem log (books : g.Books []) {place : Nat} {n : Note} (at_ : g.counted[place]? = some n) :
    ({ g with counted := g.counted.eraseIdx place }.log n).Books [] where
  owned := books.owned
  placed := by
    refine books.placed.perm ?_
    refine (inFlight_log _ n).trans ?_
    have out := (((perm_eraseIdx at_).map Note.request).append_left
      (g.waiting.map (·.request) ++ g.streaming)).append_right g.leaving
    refine List.Perm.trans ?_ out.symm
    exact (List.perm_middle.append_right _).symm
  tallied := books.tallied.perm (perm_log at_)
  sound m member := books.sound m ((perm_log at_).mem_iff.2 member)

/-- **A turn keeps the books balanced.** -/
theorem step (books : g.Books []) (setup : Setup D) (t : Turn) : (g.step setup t).Books [] := by
  cases t with
  | arrive around a => exact books.arrive setup around a
  | goOn place around =>
      rw [Gateway.step]
      cases at_ : g.waiting[place]? with
      | none => exact books
      | some w =>
          exact (books.takeWaiting at_).meet around.timing fun _ _ => sound_of_handle
  | move place f =>
      refine ⟨?_, ?_, books.tallied, books.sound⟩
      · show g.owners.length = (g.state.streams.modify place _).length
        rw [List.length_modify, books.owned]
      · have same := closed_modifyLive g.state place f
        show Placed g.state.traffic (g.waiting.map (·.request) ++
          openOwners g.owners ((g.state.modifyLive place f).streams.map (·.closed)) ++ _ ++ _) _
        rw [same]
        exact books.placed
  | report place timing =>
      rw [Gateway.step]
      cases ended : g.state.ending? place with
      | none => exact books
      | some ending =>
          exact Books.count (n := ⟨_, ending, timing⟩) (books.takeStream ended) (of_ending? ended).2
  | log place =>
      rw [Gateway.step]
      cases at_ : g.counted[place]? with
      | none => exact books
      | some n => exact books.log at_
  | release place =>
      rw [Gateway.step]
      cases at_ : g.leaving[place]? with
      | none => exact books
      | some request => exact (books.takeLeaving at_).release
  | askFlush | tick | take => exact ⟨books.owned, books.placed, books.tallied, books.sound⟩

theorem run (books : g.Books []) (setup : Setup D) (turns : List Turn) :
    (g.run setup turns).Books [] := by
  induction turns generalizing g with
  | nil => exact books
  | cons t rest ih => exact ih (books.step setup t)

end Books

/-! ## Entries -/

/-- Exactly the requests that are recorded have an entry, one each. -/
structure Recorded (g : Gateway) : Prop where
  noted : (g.notes.map (·.request)).Perm (g.leaving ++ g.ended)
  held : g.state.ledger.Holds (entriesOf g.notes)

/-- In this turn the backend's call returns, and an entry finds room. -/
def Smooth (g : Gateway) : Turn → Prop
  | .goOn _ around => ∀ request, around.backend request ≠ .broke
  | .log _ => g.state.ledger.hasRoom = true
  | _ => True

/-- Every turn of a run goes smoothly. -/
def RunsSmoothly (setup : Setup D) (g : Gateway) : List Turn → Prop
  | [] => True
  | t :: rest => g.Smooth t ∧ RunsSmoothly setup (g.step setup t) rest

omit [DecidableEq D] in
theorem handle_ne_broke {setup : Setup D} {around : Surroundings}
    (returns : ∀ request, around.backend request ≠ .broke) (dialect : Dialect) (requestId : String)
    (body : List UInt8) : (handle setup around dialect requestId body).1 ≠ .broke := by
  rw [handle]
  split
  · simp [Fate.failed]
  · next request read =>
      have returned := returns request
      cases reaction : around.backend request with
      | broke => exact absurd reaction returned
      | failed f => simp [Reaction.fate, Fate.failed]
      | single reply => simp [Reaction.fate]
      | stream script => simp [Reaction.fate]

namespace Recorded

variable {g : Gateway}

theorem fresh (settings : Settings) : (Gateway.fresh settings).Recorded :=
  ⟨List.Perm.refl _, Ledger.Pipeline.Holds.ofSizes _ _ _⟩

theorem meet (recorded : g.Recorded) (request : Nat) (t : Timing) {fate : Fate}
    (returned : fate ≠ .broke) : (g.meet request t fate).Recorded := by
  cases fate with
  | answered | streamed => exact ⟨recorded.noted, recorded.held⟩
  | broke => exact absurd rfl returned

theorem log (recorded : g.Recorded) (room : g.state.ledger.hasRoom = true) (n : Note) :
    (g.log n).Recorded where
  noted := by
    show ((g.notes ++ [n]).map (·.request)).Perm (g.leaving ++ [n.request] ++ g.ended)
    rw [List.map_append]
    refine (recorded.noted.append_right _).trans ?_
    rw [List.append_assoc, List.append_assoc]
    exact List.perm_append_comm.append_left _
  held := by
    show (g.state.ledger.log n.entry).Holds ((g.notes ++ [n]).map Note.entry)
    rw [List.map_append]
    exact recorded.held.log room n.entry

/-- **A smooth turn makes an entry exactly for what is recorded.** -/
theorem step (recorded : g.Recorded) (setup : Setup D) {t : Turn} (smooth : g.Smooth t) :
    (g.step setup t).Recorded := by
  cases t with
  | arrive around a =>
      rw [Gateway.step]
      cases begins : a.begins? setup with
      | some d => exact ⟨recorded.noted, recorded.held⟩
      | none =>
          obtain ⟨window, active, served⟩ := state_serve_of_not_begins begins around g.state
          simp only [served]
          exact ⟨recorded.noted, recorded.held⟩
  | goOn place around =>
      rw [Gateway.step]
      cases at_ : g.waiting[place]? with
      | none => exact recorded
      | some w =>
          have taken : { g with waiting := g.waiting.eraseIdx place }.Recorded :=
            ⟨recorded.noted, recorded.held⟩
          exact taken.meet _ _ (handle_ne_broke smooth _ _ _)
  | move place f => exact ⟨recorded.noted, recorded.held⟩
  | report place timing =>
      rw [Gateway.step]
      cases ended : g.state.ending? place with
      | none => exact recorded
      | some ending => exact ⟨recorded.noted, recorded.held⟩
  | log place =>
      rw [Gateway.step]
      cases at_ : g.counted[place]? with
      | none => exact recorded
      | some n =>
          have taken : { g with counted := g.counted.eraseIdx place }.Recorded :=
            ⟨recorded.noted, recorded.held⟩
          exact taken.log smooth n
  | release place =>
      rw [Gateway.step]
      cases at_ : g.leaving[place]? with
      | none => exact recorded
      | some request =>
          refine ⟨recorded.noted.trans ?_, recorded.held⟩
          show (g.leaving ++ g.ended).Perm (g.leaving.eraseIdx place ++ (g.ended ++ [request]))
          rw [← List.append_assoc]
          exact ((perm_eraseIdx at_).append_right _).trans (List.perm_append_singleton _ _).symm
  | askFlush | tick | take =>
      exact ⟨recorded.noted, recorded.held.step (by simp)⟩

theorem run (recorded : g.Recorded) (setup : Setup D) (turns : List Turn)
    (smooth : g.RunsSmoothly setup turns) : (g.run setup turns).Recorded := by
  induction turns generalizing g with
  | nil => exact recorded
  | cons t rest ih => exact ih (recorded.step setup smooth.1) smooth.2

end Recorded

/-! ## The accounts -/

/-- The total grows by one when a request begins, and at no other time. -/
theorem total_step (setup : Setup D) (g : Gateway) (t : Turn) :
    (g.step setup t).state.traffic.total =
      g.state.traffic.total + if t.begins setup then 1 else 0 := by
  cases t with
  | arrive around a =>
      rw [step, Turn.begins]
      cases begins : a.begins? setup with
      | some d => exact (g.state.traffic.start_counts around.uptime).1
      | none =>
          obtain ⟨window, active, served⟩ := state_serve_of_not_begins begins around g.state
          simp only [served]
          rfl
  | goOn place around =>
      rw [step]
      cases g.waiting[place]? with
      | none => rfl
      | some w =>
          dsimp only
          cases (handle setup around w.dialect w.requestId w.body).1 <;> rfl
  | report place timing =>
      rw [step]
      cases g.state.ending? place <;> rfl
  | log place =>
      rw [step]
      cases g.counted[place]? <;> rfl
  | release place =>
      rw [step]
      cases g.leaving[place]? <;> rfl
  | move | askFlush | tick | take => rfl

theorem total_run (setup : Setup D) (g : Gateway) (turns : List Turn) :
    (g.run setup turns).state.traffic.total =
      g.state.traffic.total + turns.countP (Turn.begins setup) := by
  induction turns generalizing g with
  | nil => rfl
  | cons t rest ih =>
      show ((g.step setup t).run setup rest).state.traffic.total = _
      rw [ih, total_step, List.countP_cons]
      omega

/-- A request that is not let in leaves everything as it is. -/
theorem step_of_refused {setup : Setup D} {a : Arrived} {r : Route}
    (route : Route.at? a.path = some r) (refused : setup.admits r a = false)
    (around : Surroundings) (g : Gateway) : g.step setup (.arrive around a) = g := by
  have begins : a.begins? setup = none := by
    rw [Arrived.begins?, route]
    cases r with
    | generation d => simp [refused]
    | health | metrics | figure => simp
  rw [step, begins, state_serve_of_refused route refused around g.state]

/-- What holds of a gateway after any turns in which the backend's calls return and the
ledger has room. A request is counted before it has its entry, so in between the counters
are ahead of the ledger by what is still to be entered. -/
structure Accounts (setup : Setup D) (turns : List Turn) (g : Gateway) : Prop where
  total : g.state.traffic.total = turns.countP (Turn.begins setup)
  /-- Each request that has begun is in flight or has ended, and is so once. -/
  once : (g.inFlight ++ g.ended).Perm (List.range g.state.traffic.total)
  balance : g.state.traffic.balance = (g.state.traffic.total : Int) - g.ended.length
  active : g.state.traffic.active = g.inFlight.length
  /-- Each request that is recorded, those that have ended among them, has one entry, and
  the ledger has got these entries. -/
  noted : (g.notes.map (·.request)).Perm (g.leaving ++ g.ended)
  held : g.state.ledger.Holds (entriesOf g.notes)
  /-- Each request that is counted is counted once, under its own key. -/
  counter : ∀ key, counter g.state.counts key = (g.notes ++ g.counted).countP fun n => n.key == key
  requests : Keyed.sumWhere (fun _ => true) g.state.counts.requests =
    g.notes.length + g.counted.length
  completed : ∀ (d : Dialect) (isStream : Bool),
    Server.counter g.state.counts (Metrics.Counts.requestKey d.name isStream "completed") =
      (entriesOf (g.notes ++ g.counted)).countP fun e =>
        e.dialect == d && e.isStream == isStream && e.success
  others : ∀ (d : Dialect) (isStream : Bool),
    otherCounters g.state.counts d isStream =
      (entriesOf (g.notes ++ g.counted)).countP fun e =>
        e.dialect == d && e.isStream == isStream && !e.success
  firstBytes : ∀ d : Dialect,
    Server.firstBytes g.state.counts d.name =
      (entriesOf (g.notes ++ g.counted)).countP fun e => e.dialect == d && e.firstByteMs.isSome
  messages : ∀ e ∈ entriesOf (g.notes ++ g.counted), e.errorMessage = none ↔ e.success = true
  all_ended : g.ended.length = g.state.traffic.total →
    g.state.traffic.active = 0 ∧ g.counted = [] ∧
      (g.notes.map (·.request)).Perm (List.range g.state.traffic.total)
  refused : ∀ (around : Surroundings) (a : Arrived) (r : Route), Route.at? a.path = some r →
    setup.admits r a = false → g.step setup (.arrive around a) = g

theorem Books.inFlight_eq_nil {g : Gateway} (books : g.Books [])
    (all : g.ended.length = g.state.traffic.total) : g.inFlight = [] := by
  have length := books.placed.once.length_eq
  rw [List.length_append, List.length_range, List.nil_append] at length
  exact List.length_eq_zero_iff.1 (by omega)

/-- **Every request is accounted for once**, whatever order the turns come in. -/
theorem run_accounts (setup : Setup D) (settings : Settings) (turns : List Turn)
    (smooth : (fresh settings).RunsSmoothly setup turns) :
    ((fresh settings).run setup turns).Accounts setup turns := by
  have total := total_run setup (fresh settings) turns
  have books := (Books.fresh settings).run setup turns
  have recorded := (Recorded.fresh settings).run setup turns smooth
  generalize (fresh settings).run setup turns = g at total books recorded
  have length := books.placed.once.length_eq
  rw [List.length_append, List.length_range, List.nil_append] at length
  have balance : g.state.traffic.balance = (g.inFlight.length : Int) := books.placed.active
  refine
    { total := total.trans (Nat.zero_add _)
      once := books.placed.once
      balance := by omega
      active := by rw [Ledger.Traffic.active, balance, Int.toNat_natCast]
      noted := recorded.noted
      held := recorded.held
      counter := books.tallied.counter
      requests := ?_
      completed := books.tallied.completed books.sound
      others := books.tallied.others books.sound
      firstBytes := books.tallied.firstBytes
      messages := ?_
      all_ended := ?_
      refused := fun around a r route refused => step_of_refused route refused around g }
  · rw [books.tallied.sums, List.countP_true, List.length_append]
  · intro e member
    obtain ⟨n, noted, rfl⟩ := List.mem_map.1 member
    exact (books.sound n noted).message
  · intro all
    have none_ := books.inFlight_eq_nil all
    have empty := none_
    simp only [inFlight, List.append_eq_nil_iff, List.map_eq_nil_iff] at empty
    obtain ⟨⟨_, counted⟩, leaving⟩ := empty
    refine ⟨?_, counted, ?_⟩
    · rw [Ledger.Traffic.active, balance, none_]
      rfl
    · have once := books.placed.once
      rw [none_] at once
      refine recorded.noted.trans ?_
      rw [leaving]
      exact once

/-- A gateway that lets everybody in. -/
def openSetup : Setup String := ⟨id, ⟨[], none⟩, {}, 4, "default"⟩

/-- Streams panic after some silence, and other replies come at once. -/
def moody : Surroundings where
  mint n := toString n
  requestId := "id"
  uptime := 0
  timing := ⟨⟨0, 0⟩, 1, 2⟩
  backend request :=
    if request.stream then .stream ⟨false, [], .panics "lost"⟩
    else .single { text := "hello" }

def asking (path body : String) : Arrived where
  method := "POST"
  path
  body := body.toUTF8.toList

/-- A stream, a body that asks for nothing, and a reply given at once; none of them is
through before the next has come. -/
def mixed : List Turn :=
  let advance (l : Live) := l.advance.getD l
  let body (more : String) :=
    "\x7b\"model\":\"m\",\"messages\":[\x7b\"role\":\"user\",\"content\":\"hi\"\x7d]" ++ more ++
      "\x7d"
  [ .arrive moody (asking "/v1/messages" (body ",\"max_tokens\":5,\"stream\":true")),
    .arrive moody (asking "/v1/responses" ""),
    .goOn 1 moody, .goOn 0 moody, .move 0 advance,
    .arrive moody (asking "/v1/chat/completions" (body "")),
    .log 0, .goOn 0 moody, .move 0 advance, .release 0, .log 0, .tick, .move 0 advance,
    .report 0 moody.timing, .log 0, .release 1, .release 0 ]

theorem run_accounts_mixed :
    (fresh {}).RunsSmoothly openSetup mixed ∧
      ((fresh {}).run openSetup mixed).Accounts openSetup mixed ∧
      ((fresh {}).run openSetup mixed).notes.map (·.ending.label) =
        ["bad_request", "completed", "panicked"] ∧
      ((fresh {}).run openSetup mixed).ended = [1, 0, 2] := by
  have returns : ∀ request, moody.backend request ≠ .broke := by
    intro request
    show (if request.stream then _ else _) ≠ _
    split <;> simp
  have smooth : (fresh {}).RunsSmoothly openSetup mixed := by
    refine ⟨trivial, trivial, returns, returns, trivial, trivial, ?_, returns, trivial, trivial, ?_,
      trivial, trivial, trivial, ?_, trivial, trivial, trivial⟩
    all_goals
      show Ledger.Pipeline.hasRoom _ = true
      decide +kernel
  exact ⟨smooth, run_accounts openSetup {} mixed smooth, by decide +kernel, by decide +kernel⟩

end Gateway
end DialectGateway.Server
