import ArrayBridge.Bridge.Indexing
import ArrayBridge.Bridge.Iteration

/-! The interpreter: a session until it is shut down. -/

namespace ArrayBridge

/-- A bridge to a runtime. After the shutdown there is no session any more, and
every operation that needs one fails in the same way. -/
structure Interpreter (σ : Type) where
  session : Option (Session σ)
  root : String
  deriving Inhabited

/-- An operation on an interpreter. -/
abbrev InterpreterOp (σ α : Type) := Operation BridgeError (Interpreter σ) α

namespace Interpreter

variable {σ α : Type} [ForeignRuntime σ]

/-- Wraps a runtime. Unqualified names are looked up in the root module. -/
def ofRuntime (runtime : σ) (root : String) : Interpreter σ := ⟨some ⟨runtime, .empty, root⟩, root⟩

def runtimeName (_ : Interpreter σ) : String := ForeignRuntime.name σ

def isReleased (interpreter : Interpreter σ) : Bool := interpreter.session.isNone

/-- The number of registered handles. -/
def liveHandles (interpreter : Interpreter σ) : Nat :=
  match interpreter.session with
  | some session => session.handles.live
  | none => 0

/-- Runs an operation on the session. -/
def run (op : BridgeOp σ α) : InterpreterOp σ α := fun interpreter =>
  match interpreter with
  | ⟨some session, root⟩ =>
    let (outcome, session) := op.perform session
    (outcome, ⟨some session, root⟩)
  | ⟨none, root⟩ => (.error .released, ⟨none, root⟩)

/-- The elements of an array as host values of the given element type. An array keeps
its element type on the side of the host, so a wrong type is found without a session. -/
def toVector (a : ArrayObject) (dtype : DType) : InterpreterOp σ HostValue :=
  match a.checkDType dtype with
  | .error e => throw e
  | .ok () => run do
    let values ← Session.values a
    Session.ofOutcome (dtype.valuesType.accept values)

/-- Releases the buffer of a handle. -/
def free (h : Handle) (address : Nat) : InterpreterOp σ ReleaseStatus := fun interpreter =>
  match interpreter with
  | ⟨some session, root⟩ =>
    let (outcome, session) := (Session.freeBuffer h address).perform session
    (outcome, ⟨some session, root⟩)
  | ⟨none, root⟩ => (.ok .runtimeReleased, ⟨none, root⟩)

/-- Frees an array; anything but success is a failure. -/
def freeArray (a : ArrayObject) : InterpreterOp σ Unit := do
  let status ← free a.handle a.buffer.address
  if status.isOk then return () else throw (.release a.handle status)

/-- Drops an array that is not needed any more, whatever its release reports. -/
def discard (a : ArrayObject) : InterpreterOp σ Unit := do
  let _ ← free a.handle a.buffer.address

/-- Ends the session: all references of handles are released and the runtime is
torn down. The result is the runtime as it is then, if there was a session. -/
def shutdown (interpreter : Interpreter σ) : Option σ × Interpreter σ :=
  match interpreter with
  | ⟨none, root⟩ => (none, ⟨none, root⟩)
  | ⟨some session, root⟩ =>
    let runtime := session.handles.objects.foldl
      (fun runtime id => ForeignRuntime.release id runtime) session.runtime
    (some (ForeignRuntime.finalize runtime), ⟨none, root⟩)

end Interpreter

end ArrayBridge
