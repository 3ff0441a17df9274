import ArrayBridge.Lifecycle

/-! The status-code interface for hosts that link the bridge as a library.

Handles are words, addresses are numbers, and every result is a status code of
which zero is success. The functions work on the one lifecycle of the process. -/

namespace ArrayBridge.StatusInterface

variable {σ : Type} [ForeignRuntime σ]

/-- The status of a handle that is not registered. -/
def invalidHandle : Int := ReleaseStatus.staleHandle.code

/-- The status of a runtime that is not running. -/
def notRunning : Int := ReleaseStatus.runtimeReleased.code

/-- Acquires the runtime. -/
def acquire (start : Unit → StartOutcome σ) (l : Lifecycle σ) : Int × Lifecycle σ :=
  match l.acquire start with
  | (.ok _, l) => (0, l)
  | (.error _, l) => (-1, l)

/-- Releases the runtime; the code is one if it was running. -/
def release (l : Lifecycle σ) : Int × Lifecycle σ :=
  match l.release with
  | (true, l) => (1, l)
  | (false, l) => (0, l)

/-- Acquires the runtime and runs an operation that has a status code. -/
def withRuntime (start : Unit → StartOutcome σ) (op : InterpreterOp σ Int) (l : Lifecycle σ) :
    Int × Lifecycle σ :=
  match l.acquire start with
  | (.error _, l) => (notRunning, l)
  | (.ok _, l) =>
    match l.onInterpreter op with
    | (some (.ok code), l) => (code, l)
    | (some (.error .released), l) => (notRunning, l)
    | (some (.error _), l) => (invalidHandle, l)
    | (none, l) => (notRunning, l)

/-- Releases the buffer of a handle. -/
def free (start : Unit → StartOutcome σ) (handle : UInt64) (address : Nat) (l : Lifecycle σ) :
    Int × Lifecycle σ :=
  withRuntime start (do return (← Interpreter.free ⟨handle⟩ address).code) l

/-- Disposes of an iterator. -/
def disposeIterator (start : Unit → StartOutcome σ) (handle : UInt64) (l : Lifecycle σ) :
    Int × Lifecycle σ :=
  withRuntime start (do
    Interpreter.run (Session.dispose ⟨handle⟩)
    return 0) l

end ArrayBridge.StatusInterface
