import ArrayBridge.Bridge.Call

/-! Iteration over foreign objects.

An iterator handle stands for a foreign iterator and knows its progress. Once a
handle has seen the end, it does not enter the runtime any more. -/

namespace ArrayBridge

namespace Session

variable {σ : Type} [ForeignRuntime σ]

/-- The progress of an iterator handle. -/
def iterationState (h : Handle) : BridgeOp σ IterationState := do
  match (← get).handles.entry? h with
  | some (_, .iterator state) => return state
  | some (id, .object) => throw (.typeMismatch "iterator" (← typeName id))
  | none => throw (.invalidHandle h)

/-- Registers an iterator over the object behind a handle. -/
def iterate (h : Handle) : BridgeOp σ Handle := do
  let id ← lookup h
  let iterator ← runtimeOp "iter" (ForeignRuntime.iterate id)
  register iterator (.iterator .created)

/-- Notes the progress of an iterator handle. -/
def setState (h : Handle) (state : IterationState) : BridgeOp σ Unit :=
  onHandles fun handles => ((), handles.setKind h (.iterator state))

/-- The next item of an iterator, or nothing at its end. -/
def next (h : Handle) : BridgeOp σ (Option Item) := do
  if (← iterationState h) = .exhausted then return none
  let id ← lookup h
  match ← runtimeOp "next" (ForeignRuntime.next id) with
  | none =>
    setState h .exhausted
    return none
  | some item =>
    setState h .yielding
    return some (← toItem item "next")

/-- Removes an iterator handle and releases its iterator. -/
def dispose (h : Handle) : BridgeOp σ Unit := do
  let _ ← iterationState h
  match ← onHandles fun handles => handles.remove h with
  | some id => release id
  | none => return ()

end Session

/-- A walk over a foreign object, which owns its iterator until it fails or is
closed. -/
structure Walk where
  iterator : Option Handle
  deriving DecidableEq, Inhabited

namespace Walk

variable {σ : Type} [ForeignRuntime σ]

/-- Starts a walk over the object behind a handle. -/
def start (h : Handle) : BridgeOp σ Walk := do
  return ⟨some (← Session.iterate h)⟩

/-- Disposes of the iterator, if the walk still has one. -/
def close (walk : Walk) : BridgeOp σ Unit := do
  match walk.iterator with
  | some h =>
    let _ ← Session.outcome (Session.dispose h)
  | none => return ()

/-- The next element of a walk: an item or a failure. A failure ends the walk. -/
def next (walk : Walk) : BridgeOp σ (Option (Except BridgeError Item) × Walk) := do
  match walk.iterator with
  | none => return (none, walk)
  | some h =>
    match ← Session.outcome (Session.next h) with
    | .ok (some item) => return (some (.ok item), walk)
    | .ok none => return (none, walk)
    | .error e =>
      walk.close
      return (some (.error e), ⟨none⟩)

end Walk

end ArrayBridge
