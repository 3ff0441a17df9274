import ArrayBridge.Element
import ArrayBridge.Exception
import ArrayBridge.Slice

/-! What the bridge needs from an array runtime.

The bridge never sees the objects of a runtime, only their names. Every name
that an operation returns is a new reference, which the caller has to release.
Names inside of an extracted value are borrowed. -/

namespace ArrayBridge

/-- An immediate value that is built as an object or read from one. -/
inductive Primitive where
  | none
  /-- Stands for an argument that was not supplied. -/
  | noValue
  | bool (value : Bool)
  | int (value : Int64)
  | float (value : Float)
  | str (value : String)
  | bytes (value : List UInt8)
  /-- The references of the items move into a tuple that is built. -/
  | tuple (items : List ObjectId)
  | slice (bounds : SliceBounds)
  deriving DecidableEq, Inhabited

namespace Primitive

/-- The kind of a value, as type errors name it. -/
def kind : Primitive → String
  | none => "None"
  | noValue => "no value"
  | bool _ => "bool"
  | int _ => "int"
  | float _ => "float"
  | str _ => "str"
  | bytes _ => "bytes"
  | tuple _ => "tuple"
  | slice _ => "slice"

/-- The number that a value is. -/
def number? : Primitive → Option Scalar
  | bool b => some (.bool b)
  | int i => some (.int i)
  | float x => some (.float x)
  | _ => Option.none

end Primitive

/-- A description of an array object at the moment. -/
structure ArrayInfo where
  dtype : DType
  shape : Shape
  /-- The address of the first element. -/
  address : Nat
  /-- The number of bytes of all elements. -/
  byteSize : Nat
  deriving DecidableEq, Inhabited

/-- An operation on a state that can fail. The state after a failure is that at
the point of the failure. -/
abbrev Operation (ε σ α : Type) := ExceptT ε (StateM σ) α

namespace Operation

variable {ε ε' σ τ α : Type}

/-- Runs an operation. -/
def perform (op : Operation ε σ α) (state : σ) : Except ε α × σ := op.run.run state

/-- An operation that is given by its effect. -/
def ofFunction (f : σ → Except ε α × σ) : Operation ε σ α := fun state => f state

/-- An action that cannot fail. -/
def always (action : StateM σ α) : Operation ε σ α := fun state =>
  let (result, state) := action.run state
  (.ok result, state)

/-- A change of the state that cannot fail. -/
def update (f : σ → σ) : Operation ε σ Unit := fun state => (.ok (), f state)

/-- An operation that gives its failure or its result to the caller. -/
def attempt (op : Operation ε σ α) : Operation ε' σ (Except ε α) := fun state =>
  let (outcome, state) := op.perform state
  (.ok outcome, state)

/-- An operation with another description of its failures. -/
def mapError (f : ε → ε') (op : Operation ε σ α) : Operation ε' σ α := fun state =>
  match op.perform state with
  | (.ok result, state) => (.ok result, state)
  | (.error e, state) => (.error (f e), state)

end Operation

/-- An operation of a runtime. -/
abbrev RuntimeOp (σ α : Type) := Operation Exception σ α

/-- A runtime with states of type `σ`. -/
class ForeignRuntime (σ : Type) where
  /-- The name of the runtime. -/
  name : String
  /-- Tears the runtime down. -/
  finalize : σ → σ
  /-- The top-level module of the given name. -/
  importModule : String → RuntimeOp σ ObjectId
  getAttribute : ObjectId → String → RuntimeOp σ ObjectId
  /-- Calls an object with positional and keyword arguments, which are
  borrowed. -/
  call : ObjectId → List ObjectId → List (String × ObjectId) → RuntimeOp σ ObjectId
  getItem : ObjectId → (key : ObjectId) → RuntimeOp σ ObjectId
  setItem : ObjectId → (key value : ObjectId) → RuntimeOp σ Unit
  /-- An iterator over an object. -/
  iterate : ObjectId → RuntimeOp σ ObjectId
  /-- The next item of an iterator, or nothing if it is exhausted. -/
  next : ObjectId → RuntimeOp σ (Option ObjectId)
  /-- The array of an array-like object. -/
  asArray : ObjectId → RuntimeOp σ ObjectId
  /-- A new object of an immediate value. -/
  build : Primitive → RuntimeOp σ ObjectId
  /-- The immediate value of an object. -/
  extract : ObjectId → RuntimeOp σ Primitive
  typeName : σ → ObjectId → String
  /-- The description of an array object. -/
  arrayInfo : ObjectId → StateM σ (Option ArrayInfo)
  /-- Adds a reference. -/
  retain : ObjectId → σ → σ
  /-- Releases a reference. -/
  release : ObjectId → σ → σ
  /-- Releases a reference to the array whose elements start at the given
  address. The result is a status code; zero is success. -/
  releaseBuffer : ObjectId → (address : Nat) → StateM σ Int

end ArrayBridge
