import ArrayBridge.Arguments
import ArrayBridge.ForeignRuntime
import ArrayBridge.Generator
import ArrayBridge.Heap
import ArrayBridge.NdArray.Reshape
import ArrayBridge.NdArray.Select

/-! The state of the built-in array runtime, and how it reads arguments.

The engine is a heap of reference-counted objects, the buffers of its arrays, a
namespace of modules and a seeded generator. Reading an argument never changes
the state. -/

namespace ArrayBridge

/-- What an engine knows by name. -/
structure Namespace where
  modules : List (String × ObjectId)
  /-- The object that stands for no value. -/
  noneId : ObjectId
  /-- The object that stands for an argument that was not supplied. -/
  noValueId : ObjectId
  home : Option String
  libraryPath : Option String
  finalized : Bool
  deriving DecidableEq, Inhabited

/-- Registers a module; a later one replaces an earlier one of the same name. -/
def Namespace.register (names : Namespace) (name : String) (id : ObjectId) : Namespace :=
  { names with modules := (name, id) :: names.modules.filter fun entry => entry.1 ≠ name }

structure Engine where
  heap : Heap
  buffers : BufferStore
  generator : Generator
  /-- The source of seeds where none is given. -/
  entropy : Generator
  names : Namespace
  deriving Inhabited

namespace Engine

section Actions

/-- Runs an action on the heap. -/
def onHeap {α : Type} (f : Heap → α × Heap) : StateM Engine α := fun engine =>
  match engine with
  | ⟨heap, buffers, generator, entropy, names⟩ =>
    let (result, heap) := f heap
    (result, ⟨heap, buffers, generator, entropy, names⟩)

/-- Runs an action on the buffers. -/
def onBuffers {α : Type} (f : BufferStore → α × BufferStore) : StateM Engine α := fun engine =>
  match engine with
  | ⟨heap, buffers, generator, entropy, names⟩ =>
    let (result, buffers) := f buffers
    (result, ⟨heap, buffers, generator, entropy, names⟩)

/-- Draws from the generator. -/
def draw {α : Type} (f : Generator → α × Generator) : StateM Engine α := fun engine =>
  match engine with
  | ⟨heap, buffers, generator, entropy, names⟩ =>
    let (result, generator) := f generator
    (result, ⟨heap, buffers, generator, entropy, names⟩)

/-- Draws a seed from the environment. -/
def drawSeed : StateM Engine UInt64 := fun engine =>
  match engine with
  | ⟨heap, buffers, generator, entropy, names⟩ =>
    let (seed, entropy) := entropy.word
    (seed, ⟨heap, buffers, generator, entropy, names⟩)

/-- Stores a new object. -/
def create (object : Object) : StateM Engine ObjectId := onHeap fun heap => heap.allocate object

/-- Adds a reference to an object. -/
def retain (id : ObjectId) : StateM Engine Unit := onHeap fun heap => ((), heap.retain id)

/-- Releases a reference to an object. -/
def release (id : ObjectId) : StateM Engine Unit := onHeap fun heap => ((), heap.release id)

/-- A new reference to an object that exists. -/
def share (id : ObjectId) : StateM Engine ObjectId := do
  retain id
  return id

/-- A new reference to the object that stands for no value. -/
def createNone : StateM Engine ObjectId := fun engine => share engine.names.noneId engine

/-- Stores a new array object. -/
def createArray (form : ArrayForm) : StateM Engine ObjectId := do
  let array ← onBuffers form.realize
  create (.array array)

/-- Stores an array result; a result without axes becomes a number. -/
def createResult (form : ArrayForm) : StateM Engine ObjectId := fun engine =>
  match form.scalar? engine.buffers with
  | some value => create (.ofScalar value) engine
  | none => createArray form engine

/-- Writes cells of a buffer. -/
def write (buffer : BufferId) (writes : List (Nat × Scalar)) : StateM Engine Unit :=
  onBuffers fun store => ((), store.setAll buffer writes)

end Actions

/-- The live object of a name. -/
def object (engine : Engine) (id : ObjectId) : Except Exception Object :=
  match engine.heap.get? id with
  | some object => .ok object
  | none => .error (.releasedObject id)

def typeName (engine : Engine) (id : ObjectId) : String :=
  match engine.heap.get? id with
  | some object => object.typeName
  | none => "<released>"

def isNone (engine : Engine) (id : ObjectId) : Bool := engine.heap.get? id = some .none

/-- An argument that was supplied and is not the object for no value. -/
def given (engine : Engine) (slot : Option ObjectId) : Option ObjectId :=
  slot.filter fun id => !engine.isNone id

/-- The number that an object is: a number object or an array without axes. -/
def scalarOf (engine : Engine) : Object → Option Scalar
  | .array a => a.scalar? engine.buffers
  | object => object.number?

def scalar? (engine : Engine) (id : ObjectId) : Except Exception (Option Scalar) := do
  return engine.scalarOf (← engine.object id)

/-- An argument that has to be a number. -/
def scalar (engine : Engine) (id : ObjectId) : Except Exception Scalar := do
  match ← engine.scalar? id with
  | some value => return value
  | none => throw (.notAScalar (engine.typeName id))

/-- An integer argument; truth values count as zero and one. -/
def integer (engine : Engine) (id : ObjectId) : Except Exception Int64 := do
  match ← engine.scalar? id with
  | some (.int i) => return i
  | some (.bool b) => return if b then 1 else 0
  | _ => throw (.notAnInteger (engine.typeName id))

def float (engine : Engine) (id : ObjectId) : Except Exception Float := do
  match ← engine.scalar? id with
  | some value => return value.toFloat
  | none => throw (.notANumber (engine.typeName id))

def truth (engine : Engine) (id : ObjectId) : Except Exception Bool := do
  match ← engine.object id with
  | .none => return false
  | object =>
    match engine.scalarOf object with
    | some value => return value.toBool
    | none => throw (.noTruthValue (engine.typeName id))

/-- Checks a list of axis lengths. -/
def checkShape (lengths : List Int64) : Except Exception Shape := do
  if lengths.any (· < 0) then throw .negativeDimension
  let shape : Shape := lengths.map Int64.toNatClampNeg
  let _ ← shape.checkedSize
  return shape

/-- The integers of a shape argument. Items of a sequence have to be integers;
the values of an array with one axis are truncated. -/
def shapeLengths (engine : Engine) (id : ObjectId) : Except Exception (List Int64) := do
  match ← engine.object id with
  | .tuple items | .list items => items.mapM engine.integer
  | .array a =>
    if a.rank = 1 then return ((a.values engine.buffers).map Scalar.toInt64).toList
    else return [← engine.integer id]
  | _ => return [← engine.integer id]

/-- A shape argument: one length or a sequence of lengths. -/
def shape (engine : Engine) (id : ObjectId) : Except Exception Shape := do
  checkShape (← engine.shapeLengths id)

/-- An optional element type argument, given by its name. -/
def dtype? (engine : Engine) (slot : Option ObjectId) : Except Exception (Option DType) := do
  match slot with
  | none => return none
  | some id =>
    match ← engine.object id with
    | .none => return none
    | .str name =>
      match DType.parse name with
      | some dtype => return some dtype
      | none => throw (.unknownDType name)
    | object => throw (.notADType object.typeName)

end Engine

end ArrayBridge
