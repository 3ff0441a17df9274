import ArrayBridge.Lifecycle

/-! A lifecycle that several threads share.

Every thread takes its steps one at a time, and between two steps any other
thread may take some. A step is what happens under one hold of the lock, or, for
the start of the runtime, what happens without it. A thread that waits may look
again at any time, whether or not there is something new to see. -/

namespace ArrayBridge.Lifecycle

/-- A lifecycle as threads share it. While a start is under way the phase is still
the one before it. -/
structure Shared (σ : Type) where
  lifecycle : Lifecycle σ
  starting : Bool
  deriving Inhabited

/-- Where a thread is in its call. -/
inductive Thread (σ : Type) where
  /-- Is about to inspect the phase, for the first time or after a wait. -/
  | acquiring
  /-- Has marked the start as under way. -/
  | entered
  /-- Has run the start, which it has to record. -/
  | settling (outcome : StartOutcome σ)
  | acquired (answer : Answer)
  /-- Is about to release, for the first time or after a wait. -/
  | releasing
  /-- Has closed the lifecycle and has to shut down its runtime. -/
  | closing
  | released (hadRuntime : Bool)
  deriving Inhabited

namespace Thread

variable {σ : Type} [ForeignRuntime σ]

/-- One step of a thread. A thread that is done does nothing. -/
def step (start : Unit → StartOutcome σ) (shared : Shared σ) : Thread σ → Shared σ × Thread σ
  | acquiring =>
    if shared.starting then (shared, acquiring)
    else match answer? shared.lifecycle.phase with
      | some answer => (shared, acquired answer)
      | none => ({ shared with starting := true }, entered)
  | entered => ({ shared with lifecycle := shared.lifecycle.countAttempt }, settling (start ()))
  | settling outcome =>
    let lifecycle := shared.lifecycle.settle outcome
    (⟨lifecycle, false⟩, acquired ((answer? lifecycle.phase).getD (.error .released)))
  | acquired answer => (shared, acquired answer)
  | releasing =>
    if shared.starting then (shared, releasing)
    else
      let closed : Shared σ := { shared with lifecycle := shared.lifecycle.close }
      if shared.lifecycle.hasRuntime then (closed, closing) else (closed, released false)
  | closing => ({ shared with lifecycle := shared.lifecycle.shutdown.2 }, released true)
  | released hadRuntime => (shared, released hadRuntime)

/-- The answer of an acquisition that is done. -/
def answer? : Thread σ → Option Answer
  | acquired answer => some answer
  | _ => none

end Thread

/-- A shared lifecycle with its threads. -/
structure Threads (σ : Type) where
  shared : Shared σ
  threads : List (Thread σ)
  deriving Inhabited

namespace Threads

variable {σ : Type} [ForeignRuntime σ]

/-- Lets one thread take a step. -/
def step (start : Unit → StartOutcome σ) (t : Threads σ) (i : Nat) : Threads σ :=
  match t.threads[i]? with
  | some thread =>
    let (shared, thread) := thread.step start t.shared
    ⟨shared, t.threads.set i thread⟩
  | none => t

/-- Lets threads take steps in the given order. -/
def run (start : Unit → StartOutcome σ) (t : Threads σ) (schedule : List Nat) : Threads σ :=
  schedule.foldl (step start) t

/-- A number of threads that are about to acquire. -/
def acquirers (lifecycle : Lifecycle σ) (count : Nat) : Threads σ :=
  ⟨⟨lifecycle, false⟩, List.replicate count .acquiring⟩

/-- The schedule in which the threads take turns. -/
def turns (count rounds : Nat) : List Nat := (List.replicate rounds (List.range count)).flatten

/-- Lets a number of threads acquire at once. In the fourth round the last of them
has its answer. -/
def acquireTogether (start : Unit → StartOutcome σ) (lifecycle : Lifecycle σ) (count : Nat) :
    List (Option Answer) × Lifecycle σ :=
  let t := (acquirers lifecycle count).run start (turns count 4)
  (t.threads.map Thread.answer?, t.shared.lifecycle)

end Threads

end ArrayBridge.Lifecycle
