import ArrayBridge.Bridge.HostValue

/-! The session of a running bridge: a runtime together with the table of the
handles that the host holds. Every operation of the bridge runs on one session
from its start to its end. -/

namespace ArrayBridge

structure Session (σ : Type) where
  runtime : σ
  handles : HandleTable
  /-- The module that unqualified names are looked up in. -/
  root : String
  deriving Inhabited

/-- An operation of the bridge on a session. -/
abbrev BridgeOp (σ α : Type) := Operation BridgeError (Session σ) α

namespace Session

variable {σ α β : Type}

/-- Runs an operation of the runtime; its exceptions are reported for a path. -/
def runtimeOp (path : String) (op : RuntimeOp σ α) : BridgeOp σ α := fun session =>
  match session with
  | ⟨runtime, handles, root⟩ =>
    match op.perform runtime with
    | (.ok result, runtime) => (.ok result, ⟨runtime, handles, root⟩)
    | (.error e, runtime) => (.error (.foreignCall path e), ⟨runtime, handles, root⟩)

/-- Runs an operation of the runtime and gives its outcome to the caller. -/
def tryRuntime (op : RuntimeOp σ α) : BridgeOp σ (Except Exception α) := fun session =>
  match session with
  | ⟨runtime, handles, root⟩ =>
    let (outcome, runtime) := op.perform runtime
    (.ok outcome, ⟨runtime, handles, root⟩)

/-- Runs an action of the runtime that cannot fail. -/
def onRuntime (action : StateM σ α) : BridgeOp σ α := fun session =>
  match session with
  | ⟨runtime, handles, root⟩ =>
    let (result, runtime) := action.run runtime
    (.ok result, ⟨runtime, handles, root⟩)

/-- Runs an action on the handle table. -/
def onHandles (f : HandleTable → α × HandleTable) : BridgeOp σ α := fun session =>
  match session with
  | ⟨runtime, handles, root⟩ =>
    let (result, handles) := f handles
    (.ok result, ⟨runtime, handles, root⟩)

/-- The outcome of an operation, as data. -/
def outcome (op : BridgeOp σ α) : BridgeOp σ (Except BridgeError α) := op.attempt

/-- The operation whose outcome is given. -/
def ofOutcome (result : Except BridgeError α) : BridgeOp σ α := fun session => (result, session)

variable [ForeignRuntime σ]

/-- Adds a reference to an object. -/
def retain (id : ObjectId) : BridgeOp σ Unit :=
  onRuntime fun runtime => ((), ForeignRuntime.retain id runtime)

/-- Releases a reference to an object. -/
def release (id : ObjectId) : BridgeOp σ Unit :=
  onRuntime fun runtime => ((), ForeignRuntime.release id runtime)

/-- Releases references from first to last. -/
def releaseAll (ids : List ObjectId) : BridgeOp σ Unit :=
  onRuntime fun runtime => ((), ids.foldl (fun runtime id => ForeignRuntime.release id runtime) runtime)

def typeName (id : ObjectId) : BridgeOp σ String := fun session =>
  (.ok (ForeignRuntime.typeName session.runtime id), session)

def arrayInfo (id : ObjectId) : BridgeOp σ (Option ArrayInfo) :=
  onRuntime (ForeignRuntime.arrayInfo id)

/-- The object behind a registered handle. The reference is borrowed. -/
def lookup (h : Handle) : BridgeOp σ ObjectId := fun session =>
  match session.handles.get? h with
  | some id => (.ok id, session)
  | none => (.error (.invalidHandle h), session)

/-- Registers an object under a new handle, which takes over the reference. -/
def register (id : ObjectId) (kind : HandleKind) : BridgeOp σ Handle :=
  onHandles fun handles => handles.insert id kind

/-- The attribute of an object whose reference is used up. -/
def stepInto (id : ObjectId) (name : String) : BridgeOp σ (Except Exception ObjectId) := do
  let member ← tryRuntime (ForeignRuntime.getAttribute id name)
  release id
  return member

/-- Follows attribute names from an object whose reference is used up. -/
def follow : List String → ObjectId → BridgeOp σ (Except Exception ObjectId)
  | [], id => return .ok id
  | name :: names, id => do
    match ← stepInto id name with
    | .ok next => follow names next
    | .error e => return .error e

/-- The object that the first name of a path stands for: a module, or else an
attribute of the root module. -/
def resolveFirst (name : String) : BridgeOp σ (Except Exception ObjectId) := do
  match ← tryRuntime (ForeignRuntime.importModule name) with
  | .ok id => return .ok id
  | .error e =>
    let root := (← get).root
    if e.kind = .moduleNotFoundError ∧ name ≠ root then
      match ← tryRuntime (ForeignRuntime.importModule root) with
      | .ok id => stepInto id name
      | .error e => return .error e
    else return .error e

/-- The names of a dotted path. An empty path has one empty name. -/
def pathNames (path : String) : List String := (path.toList.splitOn '.').map String.ofList

/-- A new reference to the object of a dotted path. -/
def resolve (path : String) : BridgeOp σ ObjectId := do
  let names := pathNames path
  let found ← match ← resolveFirst (names.headD "") with
    | .ok id => follow names.tail id
    | .error e => pure (.error e)
  match found with
  | .ok id => return id
  | .error e => throw (.foreignCall path e)

/-- Releases the buffer of a handle. The handle is removed if, and only if, the
runtime accepts the address. -/
def freeBuffer (h : Handle) (address : Nat) : BridgeOp σ ReleaseStatus := do
  match (← get).handles.get? h with
  | none => return .staleHandle
  | some id =>
    let status := ReleaseStatus.ofCode (← onRuntime (ForeignRuntime.releaseBuffer id address))
    if status.isOk then
      let _ ← onHandles fun handles => handles.remove h
    return status

/-- Removes a handle and releases its reference. -/
def releaseHandle (h : Handle) : BridgeOp σ Unit := do
  match ← onHandles fun handles => handles.remove h with
  | some id => release id
  | none => throw (.invalidHandle h)

/-- The type name of the object behind a handle. -/
def typeNameOf (h : Handle) : BridgeOp σ String := do typeName (← lookup h)

/-- The array behind a handle. -/
def arrayOf (h : Handle) : BridgeOp σ (ObjectId × ArrayInfo) := do
  let id ← lookup h
  match ← arrayInfo id with
  | some info => return (id, info)
  | none => throw (.typeMismatch "ndarray" (← typeName id))

/-- The buffer of the array behind a handle. -/
def buffer (h : Handle) : BridgeOp σ BufferDescriptor := do
  let (_, info) ← arrayOf h
  return ⟨h, info.address, info.byteSize, info.dtype, info.shape⟩

end Session

end ArrayBridge
