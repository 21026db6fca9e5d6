/-
# Ledger.Store — the last entries, and how they get there

The store keeps the last entries up to its capacity and numbers every entry it
is given, from 1. Entries reach it through a pipeline: callers put them into a
bounded queue, which drops what does not fit, and a writer takes them out,
gathers them in a buffer, and stores the buffer when it is full, when a flush
request comes up, or when its timer ticks. The parties take turns in any order;
`Pipeline.step` is one turn.
-/
import DialectGateway.Ledger.Entry

set_option autoImplicit false

namespace DialectGateway.Ledger

open Time (Instant)

structure Store where
  capacity : Nat
  /-- How many entries have ever been stored. -/
  stored : Nat := 0
  /-- The entries kept, oldest first. -/
  entries : List Entry := []
  deriving Repr

namespace Store

/-- An empty store; a capacity of 0 counts as 1. -/
def ofCapacity (capacity : Nat) : Store := { capacity := max capacity 1 }

def push (s : Store) (e : Entry) : Store :=
  let kept := if s.capacity ≤ s.entries.length then s.entries.drop 1 else s.entries
  { s with stored := s.stored + 1, entries := kept ++ [{ e with id := s.stored + 1 }] }

def pushAll (s : Store) (es : List Entry) : Store := es.foldl push s

/-- The entries from one instant to another, both included; a bound left out
bounds nothing. -/
def between (s : Store) (first last : Option Instant) : List Entry :=
  s.entries.filter fun e => first.all (·.le e.timestamp) && last.all (e.timestamp.le ·)

end Store

/-- What waits in the queue. -/
inductive Command where
  | record (e : Entry)
  | flush
  deriving Repr

structure Pipeline where
  store : Store
  queueCapacity : Nat
  batchSize : Nat
  queue : List Command := []
  /-- What the writer has taken and not yet stored. -/
  buffer : List Entry := []
  /-- How many flush requests have been answered. -/
  answered : Nat := 0
  deriving Repr

namespace Pipeline

/-- An empty pipeline; sizes of 0 count as 1. -/
def ofSizes (capacity queueCapacity batchSize : Nat) : Pipeline where
  store := Store.ofCapacity capacity
  queueCapacity := max queueCapacity 1
  batchSize := max batchSize 1

/-- One turn of one party. -/
inductive Turn where
  | log (e : Entry)
  | askFlush
  | tick
  | take
  deriving Repr

def hasRoom (p : Pipeline) : Bool := p.queue.length < p.queueCapacity

/-- Stores the buffer. -/
def write (p : Pipeline) : Pipeline :=
  { p with store := p.store.pushAll p.buffer, buffer := [] }

def obey (p : Pipeline) : Command → Pipeline
  | .record e =>
    let p := { p with buffer := p.buffer ++ [e] }
    if p.batchSize ≤ p.buffer.length then p.write else p
  | .flush =>
    let p := p.write
    { p with answered := p.answered + 1 }

/-- An entry that finds no room is dropped; a flush request waits for room. -/
def step (p : Pipeline) : Turn → Pipeline
  | .log e => if p.hasRoom then { p with queue := p.queue ++ [.record e] } else p
  | .askFlush => if p.hasRoom then { p with queue := p.queue ++ [.flush] } else p
  | .tick => p.write
  | .take =>
    match p.queue with
    | command :: queue => { p with queue }.obey command
    | [] => p

def run (p : Pipeline) (turns : List Turn) : Pipeline := turns.foldl step p

def log (p : Pipeline) (e : Entry) : Pipeline := p.step (.log e)

/-- The writer takes everything that is queued. -/
def drain (p : Pipeline) : Pipeline := p.run (List.replicate p.queue.length .take)

/-- Asks for a flush and waits for the answer. -/
def flush (p : Pipeline) : Pipeline := (p.drain.step .askFlush).drain

/-- The writer's last turns when nobody can log any more. -/
def shut (p : Pipeline) : Pipeline := p.drain.write

end Pipeline
end DialectGateway.Ledger
