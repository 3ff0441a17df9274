import ArrayBridge.Bridge.Interpreter
import ArrayBridge.Installation

/-! The lifecycle of a runtime.

A lifecycle starts its runtime on the first acquisition, and at most once. What
comes of that start is final: a failure is reported to every later caller. After
the release nothing can be acquired any more. The interpreter that was started
stays known after the release, since callers may still hold it. -/

namespace ArrayBridge

/-- What a start that did not return left behind. -/
inductive PanicPayload where
  | text (message : String)
  | other
  deriving DecidableEq, Inhabited

def PanicPayload.message : PanicPayload → String
  | text message => message
  | other => "unknown panic"

/-- What comes of starting a runtime. -/
inductive StartOutcome (σ : Type) where
  | started (interpreter : Interpreter σ)
  | failed (cause : InitializationError)
  | panicked (payload : PanicPayload)
  deriving Inhabited

/-- The phase of a lifecycle in which no start is under way. -/
inductive Phase where
  | uninitialized
  /-- The interpreter of the start with the given number is running. -/
  | ready (start : Nat)
  | failed (cause : InitializationError)
  | released
  deriving DecidableEq, Inhabited

namespace Phase

def name : Phase → String
  | uninitialized => "Uninitialized"
  | ready _ => "Ready"
  | failed _ => "Failed"
  | released => "Released"

/-- The cause of a failed start. -/
def cause? : Phase → Option InitializationError
  | failed cause => some cause
  | _ => none

end Phase

structure Lifecycle (σ : Type) where
  phase : Phase
  /-- How often the runtime was started. -/
  attempts : Nat
  /-- The interpreter that was started, if a start succeeded. -/
  interpreter : Option (Interpreter σ)
  deriving Inhabited

namespace Lifecycle

variable {σ : Type}

def initial : Lifecycle σ := ⟨.uninitialized, 0, none⟩

/-- The answer of an acquisition: the number of the start whose interpreter it
gives out. -/
abbrev Answer := Except InitializationError Nat

/-- What an acquisition finds in a phase: its answer, or nothing if the runtime
has to be started first. -/
def answer? : Phase → Option Answer
  | .uninitialized => none
  | .ready start => some (.ok start)
  | .failed cause => some (.error cause)
  | .released => some (.error .released)

/-- Counts a start. -/
def countAttempt (l : Lifecycle σ) : Lifecycle σ := { l with attempts := l.attempts + 1 }

/-- Records what came of a start. -/
def settle (l : Lifecycle σ) : StartOutcome σ → Lifecycle σ
  | .started interpreter => { l with phase := .ready l.attempts, interpreter := some interpreter }
  | .failed cause => { l with phase := .failed cause }
  | .panicked payload => { l with phase := .failed (.panicked payload.message) }

/-- Acquires the interpreter, which is started if it was not before. -/
def acquire (start : Unit → StartOutcome σ) (l : Lifecycle σ) : Answer × Lifecycle σ :=
  match answer? l.phase with
  | some answer => (answer, l)
  | none =>
    let l := l.countAttempt.settle (start ())
    ((answer? l.phase).getD (.error .released), l)

/-- Whether a release finds a runtime that it has to shut down. -/
def hasRuntime (l : Lifecycle σ) : Bool :=
  match l.phase with
  | .ready _ => true
  | _ => false

/-- Ends the lifecycle without touching the runtime. -/
def close (l : Lifecycle σ) : Lifecycle σ := { l with phase := .released }

variable [ForeignRuntime σ]

/-- Shuts the interpreter down. The result is the runtime as it is then. -/
def shutdown (l : Lifecycle σ) : Option σ × Lifecycle σ :=
  match l with
  | ⟨phase, attempts, some interpreter⟩ =>
    let (runtime, interpreter) := interpreter.shutdown
    (runtime, ⟨phase, attempts, some interpreter⟩)
  | ⟨phase, attempts, none⟩ => (none, ⟨phase, attempts, none⟩)

/-- Releases the lifecycle and reports whether a runtime was shut down. -/
def release (l : Lifecycle σ) : Bool × Lifecycle σ :=
  if l.hasRuntime then (true, l.close.shutdown.2) else (false, l.close)

/-- Runs an operation on the interpreter, if one was started. -/
def onInterpreter {α : Type} (op : InterpreterOp σ α) (l : Lifecycle σ) :
    Option (Except BridgeError α) × Lifecycle σ :=
  match l with
  | ⟨phase, attempts, some interpreter⟩ =>
    let (outcome, interpreter) := op.perform interpreter
    (some outcome, ⟨phase, attempts, some interpreter⟩)
  | ⟨phase, attempts, none⟩ => (none, ⟨phase, attempts, none⟩)

end Lifecycle

/-- Starts an engine behind a bridge as the settings describe it. -/
def startWith (files : FileSystem) (entropy : Generator) (settings : Configuration.Settings) :
    StartOutcome Engine :=
  match Installation.load files settings with
  | .error cause => .failed cause
  | .ok installation =>
    match Engine.start files.isDirectory entropy
        ⟨installation.home, installation.libraryPath, settings.rootModule, settings.seed⟩ with
    | .error e => .failed (.runtime e.text)
    | .ok engine => .started (.ofRuntime engine settings.rootModule)

/-- Starts an engine as the environment asks for it. -/
def startDiscovered (files : FileSystem) (environment : String → Option String)
    (entropy : Generator) : StartOutcome Engine :=
  match Configuration.discover files environment with
  | .error cause => .failed cause
  | .ok settings => startWith files entropy settings

end ArrayBridge
