/-
# Delivery.Live — a delivery over a pipe, and the client at its other end

The writing side has one next step at most: it takes what the backend does next,
or notices the cancellation, or puts a frame into the pipe, or flushes it. It has
none while the pipe is full, while the backend is silent, and when it is through.
The client reads, or goes away in two steps: it signals the cancellation and
then closes its end.

Every step of the writing side makes the delivery lighter (`advance_lighter`), so
`settle`, which takes steps while there are any, comes to an end, and so does
`collect`, in which the client reads whatever comes.
-/
import DialectGateway.Delivery.Pipe
import DialectGateway.Delivery.Recorder

set_option autoImplicit false

namespace DialectGateway.Delivery

structure Live where
  delivery : Delivery
  pipe : Pipe Sse.Frame
  /-- What the backend has yet to hand out. -/
  handouts : List Handout
  /-- What the backend does after that. -/
  tail : Tail

namespace Live

def ofScript (mint : Nat → String) (dialect : Dialect) (capacity : Nat) (script : Script) : Live :=
  let d := Delivery.fresh mint dialect
  { delivery := if script.cancelledFirst then d.cancel else d
    pipe := Pipe.ofCapacity capacity
    handouts := script.handouts
    tail := script.tail }

/-! ## The writing side -/

/-- What the backend does after the last event; it is silent from then on. -/
def afterLast (l : Live) : Option Live :=
  match l.tail with
  | .ends => some { l with delivery := l.delivery.takeEnd, tail := .hangs }
  | .cancels => some { l with delivery := l.delivery.cancel, tail := .hangs }
  | .panics message => some { l with delivery := l.delivery.takePanic message, tail := .hangs }
  | .hangs => none

/-- The next step of a delivery that waits for an event. -/
def await (l : Live) : Option Live :=
  if l.delivery.cancellation.signalled then
    some { l with delivery := l.delivery.noticeCancel l.pipe.readerGone }
  else
    match l.handouts with
    | h :: handouts =>
      let d := if h.cancels then l.delivery.cancel else l.delivery
      some { l with delivery := d.takeEvent h.event, handouts }
    | [] => l.afterLast

/-- The next step of a delivery with a frame to write. -/
def put (l : Live) : List Sse.Frame → Option Live
  | [] => some { l with delivery := l.delivery.wrote }
  | f :: _ =>
    match l.pipe.write f with
    | .accepted pipe => some { l with delivery := l.delivery.wrote, pipe }
    | .full => none
    | .gone => some { l with delivery := l.delivery.failed }

/-- The next step of the writing side. -/
def advance (l : Live) : Option Live :=
  match l.delivery.stage with
  | .awaiting => l.await
  | .writing frames _ => l.put frames
  | .flushing .. =>
    some { l with delivery := if l.pipe.readerGone then l.delivery.failed else l.delivery.flushed }
  | .over _ => if l.pipe.writerGone then none else some { l with pipe := l.pipe.dropWriter }

/-! ## Every step makes it lighter -/

def Stage.weight (writerGone : Bool) : Stage → Nat
  | .over _ => if writerGone then 0 else 1
  | .awaiting => 2
  | .flushing frames _ => 2 * frames.length + 3
  | .writing frames _ => 2 * frames.length + 4

def Tail.weight : Tail → Nat
  | .hangs => 0
  | _ => 1

/-- What is left to do: for the backend, and for the frames at hand. -/
def weight (l : Live) : Nat × Nat :=
  (l.handouts.length + Tail.weight l.tail, Stage.weight l.pipe.writerGone l.delivery.stage)

def Lighter (a b : Nat × Nat) : Prop := Prod.Lex (· < ·) (· < ·) a b

theorem lighter_wf : WellFounded Lighter := (Prod.lex Nat.lt_wfRel Nat.lt_wfRel).wf

theorem lighter_of_backend {a b : Nat × Nat} (h : a.1 < b.1) : Lighter a b :=
  Prod.lex_def.2 (.inl h)

theorem lighter_of_stage {a b : Nat × Nat} (same : a.1 = b.1) (h : a.2 < b.2) : Lighter a b :=
  Prod.lex_def.2 (.inr ⟨same, h⟩)

theorem Lighter.trans {a b c : Nat × Nat} (h : Lighter a b) (h' : Lighter b c) : Lighter a c := by
  simp only [Lighter, Prod.lex_def] at *
  omega

/-- Nothing is left to write. -/
theorem weight_settle (d : Delivery) (p : Purpose) (gone : Bool) :
    Stage.weight gone (d.settle p).stage ≤ 2 := by
  cases p <;> cases gone <;> simp [Delivery.settle, Delivery.ended, Stage.weight]

theorem weight_giveUp (d : Delivery) (p : Purpose) (gone : Bool) :
    Stage.weight gone (d.giveUp p).stage ≤ 1 := by
  cases p <;> cases gone <;> simp [Delivery.giveUp, Delivery.ended, Stage.weight]

theorem weight_send (d : Delivery) (frames : List Sse.Frame) (p : Purpose) (gone : Bool) :
    Stage.weight gone (d.send frames p).stage ≤ 2 * frames.length + 4 := by
  unfold Delivery.send
  split
  · exact Nat.le_trans (weight_settle d p gone) (by omega)
  · simp [Stage.weight]

theorem afterLast_lighter {l l' : Live} (h : l.afterLast = some l') :
    Lighter l'.weight l.weight := by
  unfold afterLast at h
  split at h <;> simp only [Option.some.injEq, reduceCtorEq] at h <;> subst h <;>
    exact lighter_of_backend (by simp [weight, Tail.weight, *])

theorem await_lighter {l l' : Live} (waits : l.delivery.stage = .awaiting)
    (h : l.await = some l') : Lighter l'.weight l.weight := by
  unfold await at h
  split at h
  · simp only [Option.some.injEq] at h
    subst h
    refine lighter_of_stage rfl ?_
    simp only [weight, waits, Delivery.noticeCancel, Delivery.ended, Stage.weight]
    split <;> omega
  · split at h
    · next rest more =>
      simp only [Option.some.injEq] at h
      subst h
      exact lighter_of_backend (by simp [weight, more])
    · exact afterLast_lighter h

theorem failed_lighter {l : Live} {frames : List Sse.Frame} {p : Purpose}
    (stage : l.delivery.stage = .writing frames p ∨ l.delivery.stage = .flushing frames p) :
    Lighter { l with delivery := l.delivery.failed }.weight l.weight := by
  have small := weight_giveUp l.delivery p l.pipe.writerGone
  have failed : l.delivery.failed = l.delivery.giveUp p := by
    rcases stage with stage | stage <;> simp only [Delivery.failed, stage]
  have large : 3 ≤ Stage.weight l.pipe.writerGone l.delivery.stage := by
    rcases stage with stage | stage <;> simp only [stage, Stage.weight] <;> omega
  refine lighter_of_stage rfl ?_
  simp only [weight, failed]
  omega

theorem put_lighter {l l' : Live} {frames : List Sse.Frame} {p : Purpose}
    (stage : l.delivery.stage = .writing frames p) (h : l.put frames = some l') :
    Lighter l'.weight l.weight := by
  unfold put at h
  split at h
  · simp only [Option.some.injEq] at h
    subst h
    exact lighter_of_stage rfl (by simp [weight, Delivery.wrote, stage, Stage.weight])
  · split at h <;> simp only [Option.some.injEq, reduceCtorEq] at h
    · next pipe accepted =>
      subst h
      refine lighter_of_stage rfl ?_
      simp [weight, Delivery.wrote, stage, Stage.weight]
    · subst h
      exact failed_lighter (.inl stage)

theorem weight_flushed {d : Delivery} {frames : List Sse.Frame} {p : Purpose} (gone : Bool)
    (stage : d.stage = .flushing frames p) :
    Stage.weight gone d.flushed.stage < Stage.weight gone d.stage := by
  simp only [Delivery.flushed, stage]
  cases frames with
  | nil =>
    refine Nat.lt_of_le_of_lt (weight_settle _ p gone) ?_
    simp [Stage.weight]
  | cons f rest =>
    refine Nat.lt_of_le_of_lt (weight_send _ rest p gone) ?_
    simp only [Stage.weight, List.length_cons]
    omega

theorem flushed_lighter {l : Live} {frames : List Sse.Frame} {p : Purpose}
    (stage : l.delivery.stage = .flushing frames p) :
    Lighter { l with delivery := l.delivery.flushed }.weight l.weight :=
  lighter_of_stage rfl (weight_flushed l.pipe.writerGone stage)

theorem advance_lighter {l l' : Live} (h : l.advance = some l') : Lighter l'.weight l.weight := by
  unfold advance at h
  split at h
  · next stage => exact await_lighter stage h
  · next stage => exact put_lighter stage h
  · next stage =>
    simp only [Option.some.injEq] at h
    subst h
    split
    · exact failed_lighter (.inr stage)
    · exact flushed_lighter stage
  · next outcome stage =>
    split at h
    · exact absurd h (by simp)
    · next open_ =>
      simp only [Option.some.injEq] at h
      subst h
      refine lighter_of_stage rfl ?_
      simp [weight, stage, Stage.weight, Pipe.dropWriter, open_]

/-- Takes steps until there is none to take. -/
def settle (l : Live) : Live :=
  match step : l.advance with
  | none => l
  | some l' =>
    have := advance_lighter step
    settle l'
  termination_by lighter_wf.wrap l.weight
  decreasing_by exact this

theorem settle_eq_or_lighter (l : Live) : l.settle = l ∨ Lighter l.settle.weight l.weight := by
  fun_induction settle l with
  | case1 => exact .inl rfl
  | case2 l l' step _ ih =>
    right
    rcases ih with same | lighter
    · rw [same]
      exact advance_lighter step
    · exact lighter.trans (advance_lighter step)

/-! ## The client -/

/-- Going away begins with the signal. -/
def leave (l : Live) : Live := { l with delivery := l.delivery.cancel }

/-- Going away ends with the pipe. -/
def hangUp (l : Live) : Live := { l with pipe := l.pipe.dropReader }

def drop (l : Live) : Live := l.leave.hangUp

/-- The writing side goes on only while the client waits, and the client waits only
if there is nothing to read. -/
def wait (l : Live) : Live := if l.pipe.queue.isEmpty then l.settle else l

/-- Reads a frame. Nothing is read if there will be no more frames, or none as
things stand. -/
def receive (l : Live) : Option Sse.Frame × Live :=
  match l.wait.pipe.read with
  | .item f pipe => (some f, { l.wait with pipe })
  | .empty | .ended => (none, l.wait)

/-- Reads as many frames, or fewer if no more come. -/
def take : Nat → Live → List Sse.Frame × Live
  | 0, l => ([], l)
  | n + 1, l =>
    match l.receive with
    | (some f, l) =>
      let (frames, l) := take n l
      (f :: frames, l)
    | (none, l) => ([], l)

/-- What is left to do, and then what is left to read. -/
def Shorter (a b : Live) : Prop :=
  Prod.Lex Lighter (· < ·) (a.weight, a.pipe.queue.length) (b.weight, b.pipe.queue.length)

theorem shorter_wf : WellFounded Shorter :=
  InvImage.wf (fun l : Live => (l.weight, l.pipe.queue.length))
    (Prod.lex ⟨Lighter, lighter_wf⟩ Nat.lt_wfRel).wf

/-- A frame taken from the queue leaves less to read. -/
theorem weight_of_item {l : Live} {f : Sse.Frame} {pipe : Pipe Sse.Frame}
    (item : l.pipe.read = .item f pipe) :
    weight { l with pipe } = l.weight ∧ pipe.queue.length < l.pipe.queue.length := by
  obtain ⟨queue, queued, rfl⟩ := Pipe.item_of_read item
  simp [weight, queued]

theorem wait_eq_or_lighter (l : Live) : l.wait = l ∨ Lighter l.wait.weight l.weight := by
  unfold wait
  split
  · exact settle_eq_or_lighter l
  · exact .inl rfl

theorem receive_shorter {l l' : Live} {f : Sse.Frame} (h : l.receive = (some f, l')) :
    Shorter l' l := by
  unfold receive at h
  split at h
  · next item =>
    cases h
    obtain ⟨same, fewer⟩ := weight_of_item item
    rw [Shorter, Prod.lex_def, same]
    rcases wait_eq_or_lighter l with waited | lighter
    · rw [waited] at fewer ⊢
      exact .inr ⟨rfl, fewer⟩
    · exact .inl lighter
  · cases h
  · cases h

/-- Reads to the end, or until nothing more comes. -/
def collect (l : Live) : List Sse.Frame × Live :=
  match received : l.receive with
  | (some f, l') =>
    have := receive_shorter received
    let (frames, l) := collect l'
    (f :: frames, l)
  | (none, l') => ([], l')
  termination_by shorter_wf.wrap l
  decreasing_by exact this

end Live
end DialectGateway.Delivery
