import ArrayBridge.Bridge.Session

/-! Building foreign objects from host values.

If a build fails, the objects that were built before it for the same purpose are
released in the order in which they were built. -/

namespace ArrayBridge.Session

variable {σ α β : Type} [ForeignRuntime σ]

/-- Runs an operation on each item and collects the references it returns after
those that are given. If it fails on an item, all collected references are
released. -/
def collect (op : α → BridgeOp σ ObjectId) : List α → Array ObjectId → BridgeOp σ (Array ObjectId)
  | [], built => return built
  | item :: items, built => do
    match ← outcome (op item) with
    | .ok id => collect op items (built.push id)
    | .error e =>
      releaseAll built.toList
      throw e

/-- Builds an object; a failure is reported for a path. -/
def build (path : String) (value : Primitive) : BridgeOp σ ObjectId :=
  runtimeOp path (ForeignRuntime.build value)

/-- The path that failures of argument conversion are reported for. -/
def argumentPath : String := "<argument>"

/-- Builds a tuple of immediate values. -/
def buildSequence (items : List Primitive) : BridgeOp σ ObjectId := do
  let ids ← collect (build argumentPath) items #[]
  build argumentPath (.tuple ids.toList)

/-- A new reference to the foreign object of a host value. A sequence becomes a
tuple, and a handle stands for the object behind it. -/
def toForeign : HostValue → BridgeOp σ ObjectId
  | .handle h => do
    let id ← lookup h
    retain id
    return id
  | .none => build argumentPath .none
  | .bool b => build argumentPath (.bool b)
  | .int i => build argumentPath (.int i)
  | .float x => build argumentPath (.float x)
  | .str text => build argumentPath (.str text)
  | .bytes bytes => build argumentPath (.bytes bytes)
  | .bools values => buildSequence (values.map .bool)
  | .ints values => buildSequence (values.map .int)
  | .floats values => buildSequence (values.map .float)

/-- The foreign object of an argument slot. -/
def toForeignArgument (path : String) : Argument → BridgeOp σ ObjectId
  | .provided value => toForeign value
  | .omitted => build path .noValue

end ArrayBridge.Session
