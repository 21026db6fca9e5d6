/-
# Proofs.Server.Gateway — the gateway with several requests under way

Handlers and streams take turns in any order. A request for generation that is let in is
begun, and its handler waits for the backend. When that has reacted, the handler counts
the request or opens a stream for it. A stream goes on as it likes and is counted when it
has ended. Whoever has counted a request then sends its entry, and then releases it. In
between other requests come and pages are read, and the ledger's writer takes its turns.
A `Gateway` is the state with all that is under way, `Gateway.step` is one turn, and
`Gateway.notes` and `Gateway.ended` remember what has been.

The program serves one request after another and lets its streams settle in between. That
is one of these orders: `Gateway.run_serve` and `Gateway.run_settle`.
-/
import DialectGateway.Proofs.Server.Tally
import DialectGateway.Server.Serve

set_option autoImplicit false

namespace DialectGateway.Server

open Delivery (Ending Live Origin Timing)
open Ledger (Pipeline)

variable {D : Type} [DecidableEq D]

/-! ## Which requests begin -/

/-- The dialect of a request that is begun: it asks for generation, it is let in, and its
body is within the limits. -/
def Arrived.begins? (setup : Setup D) (a : Arrived) : Option Dialect :=
  if a.method == "OPTIONS" || decide (bodyLimit < a.body.length) then none
  else
    match Route.at? a.path with
    | some (.generation d) =>
      if setup.admits (.generation d) a && (Route.generation d).allows a.method &&
          decide (a.body.length ≤ generationLimit) then some d
      else none
    | _ => none

def Arrived.idIn (a : Arrived) (around : Surroundings) : String :=
  a.requestId?.getD around.requestId

theorem state_serve (setup : Setup D) (around : Surroundings) (s : State) (a : Arrived) :
    (serve setup around s a).state =
      if a.method == "OPTIONS" || decide (bodyLimit < a.body.length) then s
      else (respond setup around s (a.idIn around) a).state := by
  rw [serve]
  cases permission : a.method == "OPTIONS" with
  | true => rfl
  | false =>
      by_cases large : bodyLimit < a.body.length
      · simp only [large, decide_true, Bool.or_true, if_true]
        rfl
      · simp only [large, decide_false, Bool.or_false, Bool.false_eq_true, if_false]
        rfl

/-- A request that begins is generated for. -/
theorem state_serve_of_begins {setup : Setup D} {a : Arrived} {d : Dialect}
    (begins : a.begins? setup = some d) (around : Surroundings) (s : State) :
    (serve setup around s a).state =
      (generate setup around s d (a.idIn around) a.body).state := by
  rw [Arrived.begins?] at begins
  rw [state_serve]
  split at begins
  · exact absurd begins (by simp)
  · next received =>
      rw [if_neg received, respond]
      split at begins
      · next d' route =>
          split at begins
          · next open_ =>
              cases begins
              simp only [Bool.and_eq_true, decide_eq_true_eq] at open_
              obtain ⟨⟨admitted, allowed⟩, small⟩ := open_
              simp only [route, admitted, allowed, Bool.not_true, Bool.false_eq_true, if_false]
              rw [Route.serve, if_neg (Nat.not_lt.2 small)]
          · exact absurd begins (by simp)
      · exact absurd begins (by simp)

/-- A request that is not let in changes nothing. -/
theorem state_serve_of_refused {setup : Setup D} {a : Arrived} {r : Route}
    (route : Route.at? a.path = some r) (refused : setup.admits r a = false)
    (around : Surroundings) (s : State) : (serve setup around s a).state = s := by
  rw [state_serve]
  split
  · rfl
  · rw [respond, route]
    simp only [refused, Bool.not_false, if_true]

/-- A request that does not begin may prune the window and may read the measures, and
changes nothing else. -/
theorem state_serve_of_not_begins {setup : Setup D} {a : Arrived}
    (begins : a.begins? setup = none) (around : Surroundings) (s : State) :
    ∃ window active, (serve setup around s a).state =
      { s with traffic := { s.traffic with window }, counts := s.counts.setActive active } := by
  have same : ∃ window active, s = { s with
      traffic := { s.traffic with window }, counts := s.counts.setActive active } :=
    ⟨s.traffic.window, s.counts.active, rfl⟩
  rw [Arrived.begins?] at begins
  rw [state_serve]
  split at begins
  · next unreceived =>
      rw [if_pos unreceived]
      exact same
  · next received =>
      rw [if_neg received, respond]
      split
      · exact same
      · next r route =>
          split
          · exact same
          · next admitted =>
              split
              · exact same
              · next allowed =>
                  cases r with
                  | health => exact same
                  | metrics => exact ⟨s.traffic.window, s.traffic.active, rfl⟩
                  | figure page =>
                      cases page with
                      | realtime => exact ⟨_, s.counts.active, rfl⟩
                      | overview | rank | log => exact same
                  | generation d =>
                      rw [Route.serve]
                      split
                      · exact same
                      · next small =>
                          rw [route] at begins
                          simp only [Bool.not_eq_true', Bool.not_eq_false] at admitted allowed
                          simp [admitted, allowed, Nat.not_lt.1 small] at begins

/-! ## Turns -/

/-- A request whose handler waits for the backend. -/
structure Waiting where
  request : Nat
  dialect : Dialect
  requestId : String
  body : List UInt8

structure Gateway where
  state : State
  waiting : List Waiting := []
  /-- The requests that the streams belong to, by place. -/
  owners : List Nat := []
  /-- What has been counted and has no entry yet. -/
  counted : List Note := []
  /-- The requests that are recorded and not yet released. -/
  leaving : List Nat := []
  /-- What has been recorded, in the order of the entries. -/
  notes : List Note := []
  /-- The requests that have been released. -/
  ended : List Nat := []

inductive Turn where
  | arrive (around : Surroundings) (a : Arrived)
  /-- The handler at a place among those that wait goes on. -/
  | goOn (place : Nat) (around : Surroundings)
  /-- Anything happens to a stream. -/
  | move (place : Nat) (f : Live → Live)
  | report (place : Nat) (timing : Timing)
  /-- The request at a place among those that are counted gets its entry. -/
  | log (place : Nat)
  /-- The request at a place among those that are leaving is released. -/
  | release (place : Nat)
  | askFlush
  | tick
  | take

/-- Whether a request begins in a turn. -/
def Turn.begins (setup : Setup D) : Turn → Bool
  | .arrive _ a => (a.begins? setup).isSome
  | _ => false

namespace Gateway

def fresh (settings : Settings) : Gateway := { state := .fresh settings }

/-- The end of a request is counted. -/
def count (g : Gateway) (n : Note) : Gateway :=
  { g with state := g.state.count n.ending n.timing, counted := g.counted ++ [n] }

/-- A request gets its entry. -/
def log (g : Gateway) (n : Note) : Gateway :=
  { g with
    state := g.state.log n.ending n.timing
    leaving := g.leaving ++ [n.request]
    notes := g.notes ++ [n] }

/-- A request is released. -/
def release (g : Gateway) (request : Nat) : Gateway :=
  { g with state := g.state.release, ended := g.ended ++ [request] }

/-- What a handler does about the fate of its request. A request whose handling broke is
released without a record. -/
def meet (g : Gateway) (request : Nat) (t : Timing) : Fate → Gateway
  | .answered _ ending => g.count ⟨request, ending, t⟩
  | .streamed live origin =>
    { g with
      state := (g.state.launch ⟨live, origin, false⟩).2
      owners := g.owners ++ [request] }
  | .broke => g.release request

/-- One turn. A request is numbered by how many have begun before it. -/
def step (setup : Setup D) (g : Gateway) : Turn → Gateway
  | .arrive around a =>
    match a.begins? setup with
    | some d =>
      { g with
        state := g.state.begin around.uptime
        waiting := g.waiting ++ [⟨g.state.traffic.total, d, a.idIn around, a.body⟩] }
    | none => { g with state := (serve setup around g.state a).state }
  | .goOn place around =>
    match g.waiting[place]? with
    | some w =>
      { g with waiting := g.waiting.eraseIdx place }.meet w.request around.timing
        (handle setup around w.dialect w.requestId w.body).1
    | none => g
  | .move place f => { g with state := g.state.modifyLive place f }
  | .report place timing =>
    match g.state.ending? place with
    | some ending =>
      { g with state := g.state.shut place }.count ⟨g.owners.getD place 0, ending, timing⟩
    | none => g
  | .log place =>
    match g.counted[place]? with
    | some note => { g with counted := g.counted.eraseIdx place }.log note
    | none => g
  | .release place =>
    match g.leaving[place]? with
    | some request => { g with leaving := g.leaving.eraseIdx place }.release request
    | none => g
  | .askFlush => { g with state.ledger := g.state.ledger.step .askFlush }
  | .tick => { g with state.ledger := g.state.ledger.step .tick }
  | .take => { g with state.ledger := g.state.ledger.step .take }

def run (setup : Setup D) (g : Gateway) (turns : List Turn) : Gateway := turns.foldl (step setup) g

/-! ## The program's own order -/

theorem run_append (setup : Setup D) (g : Gateway) (first second : List Turn) :
    g.run setup (first ++ second) = (g.run setup first).run setup second := List.foldl_append

theorem goOn_last (setup : Setup D) (g : Gateway) (w : Waiting) (around : Surroundings) :
    { g with waiting := g.waiting ++ [w] }.step setup (.goOn g.waiting.length around) =
      g.meet w.request around.timing (handle setup around w.dialect w.requestId w.body).1 := by
  have last : (g.waiting ++ [w])[g.waiting.length]? = some w := by simp
  have rest : (g.waiting ++ [w]).eraseIdx g.waiting.length = g.waiting := by
    rw [List.eraseIdx_append_of_length_le (Nat.le_refl _), Nat.sub_self]
    exact List.append_nil _
  rw [step]
  simp only [last, rest]

/-- What is under way as a request ends is its entry and its release. -/
theorem state_log_release (setup : Setup D) (g : Gateway) (n : Note) :
    (((g.count n).step setup (.log g.counted.length)).step setup
      (.release g.leaving.length)).state = g.state.close n.ending n.timing := by
  have counted : (g.counted ++ [n])[g.counted.length]? = some n := by simp
  have leaving : (g.leaving ++ [n.request])[g.leaving.length]? = some n.request := by simp
  simp only [step, count, counted, log, leaving]
  rfl

/-- With nothing counted and nobody leaving in between, nothing is done. -/
theorem log_release_of_idle (setup : Setup D) {g : Gateway} {place other : Nat}
    (counted : g.counted.length = place) (leaving : g.leaving.length = other) :
    (g.step setup (.log place)).step setup (.release other) = g := by
  have unlogged : g.step setup (.log place) = g := by
    rw [step, List.getElem?_eq_none (Nat.le_of_eq counted)]
  rw [unlogged, step, List.getElem?_eq_none (Nat.le_of_eq leaving)]

/-- **Serving a request is a run**: it arrives, its handler goes on, and the request gets its
entry and is released if that is its end. -/
theorem run_serve (setup : Setup D) (g : Gateway) (around : Surroundings) (a : Arrived) :
    (g.run setup [.arrive around a, .goOn g.waiting.length around, .log g.counted.length,
      .release g.leaving.length]).state = (serve setup around g.state a).state := by
  show ((((g.step setup (.arrive around a)).step setup (.goOn g.waiting.length around)).step setup
    (.log g.counted.length)).step setup (.release g.leaving.length)).state = _
  cases begins : a.begins? setup with
  | none =>
      have arrived : g.step setup (.arrive around a) =
          { g with state := (serve setup around g.state a).state } := by rw [step, begins]
      have waits : { g with state := (serve setup around g.state a).state }.step setup
          (.goOn g.waiting.length around) =
            { g with state := (serve setup around g.state a).state } := by
        rw [step, List.getElem?_eq_none (Nat.le_refl _)]
      rw [arrived, waits, log_release_of_idle setup rfl rfl]
  | some d =>
      let w : Waiting := ⟨g.state.traffic.total, d, a.idIn around, a.body⟩
      let begun : Gateway := { g with state := g.state.begin around.uptime }
      have arrived : g.step setup (.arrive around a) =
          { begun with waiting := g.waiting ++ [w] } := by
        rw [step, begins]
      rw [arrived, state_serve_of_begins begins around g.state, generate]
      have gone := goOn_last setup begun w around
      rw [show begun.waiting = g.waiting from rfl] at gone
      rw [gone]
      dsimp only [w]
      rcases handle setup around d (a.idIn around) a.body with ⟨fate, asked⟩
      cases fate with
      | answered answer ending => exact state_log_release setup begun _
      | streamed live origin =>
          have idle := log_release_of_idle setup rfl rfl
            (g := begun.meet w.request around.timing (.streamed live origin))
          exact congrArg Gateway.state idle
      | broke =>
          have idle := log_release_of_idle setup rfl rfl
            (g := begun.meet w.request around.timing .broke)
          exact congrArg Gateway.state idle

theorem run_settleAt (setup : Setup D) (g : Gateway) (t : Timing) (place : Nat) :
    (g.run setup [.move place Live.settle, .report place t, .log g.counted.length,
      .release g.leaving.length]).state = g.state.settleAt t place := by
  let moved : Gateway := { g with state := g.state.modifyLive place Live.settle }
  show (((moved.step setup (.report place t)).step setup (.log g.counted.length)).step setup
    (.release g.leaving.length)).state = _
  rw [State.settleAt]
  cases ended : moved.state.ending? place with
  | none =>
      have waits : moved.step setup (.report place t) = moved := by rw [step, ended]
      rw [waits, log_release_of_idle setup rfl rfl]
  | some ending =>
      have reported : moved.step setup (.report place t) =
          { moved with state := moved.state.shut place }.count
            ⟨g.owners.getD place 0, ending, t⟩ := by rw [step, ended]
      have closed := state_log_release setup { moved with state := moved.state.shut place }
        ⟨g.owners.getD place 0, ending, t⟩
      rw [reported]
      exact closed

theorem run_drain (setup : Setup D) (g : Gateway) :
    (g.run setup (List.replicate g.state.ledger.queue.length .take)).state =
      { g.state with ledger := g.state.ledger.drain } := by
  rw [Ledger.Pipeline.drain]
  generalize g.state.ledger.queue.length = n
  induction n generalizing g with
  | zero => rfl
  | succ n ih =>
      rw [List.replicate_succ]
      exact ih (g.step setup .take)

theorem run_flush (setup : Setup D) (g : Gateway) :
    ∃ turns, (g.run setup turns).state = { g.state with ledger := g.state.ledger.flush } := by
  let takes (g : Gateway) : List Turn := List.replicate g.state.ledger.queue.length .take
  let asked := (g.run setup (takes g)).step setup .askFlush
  refine ⟨takes g ++ .askFlush :: takes asked, ?_⟩
  have first : (g.run setup (takes g)).state = { g.state with ledger := g.state.ledger.drain } :=
    run_drain setup g
  have asked_state : asked.state =
      { g.state with ledger := g.state.ledger.drain.step .askFlush } := by
    show { (g.run setup (takes g)).state with
      ledger := (g.run setup (takes g)).state.ledger.step .askFlush } = _
    rw [first]
  rw [run_append]
  show (asked.run setup (takes asked)).state = _
  rw [run_drain, asked_state, Ledger.Pipeline.flush]

/-- **Settling is a run**: each stream goes on and is closed if that ends it, and then the
ledger is flushed. -/
theorem run_settle (setup : Setup D) (g : Gateway) (t : Timing) :
    ∃ turns, (g.run setup turns).state = g.state.settle t := by
  have settled (places : List Nat) (g : Gateway) :
      ∃ turns, (g.run setup turns).state = places.foldl (State.settleAt t) g.state := by
    induction places generalizing g with
    | nil => exact ⟨[], rfl⟩
    | cons place rest ih =>
        let first : List Turn := [.move place Live.settle, .report place t, .log g.counted.length,
          .release g.leaving.length]
        obtain ⟨turns, after⟩ := ih (g.run setup first)
        refine ⟨first ++ turns, ?_⟩
        rw [run_append, after, run_settleAt]
        rfl
  obtain ⟨turns, after⟩ := settled (List.range g.state.streams.length) g
  obtain ⟨more, flushed⟩ := run_flush setup (g.run setup turns)
  refine ⟨turns ++ more, ?_⟩
  rw [run_append, flushed, after, State.settle]

end Gateway
end DialectGateway.Server
