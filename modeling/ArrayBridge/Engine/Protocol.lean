import ArrayBridge.Engine.Sampling

/-! The engine as a runtime for the bridge.

An operation reads its operands from the engine as it is at the start, and changes
it as it goes. -/

namespace ArrayBridge

namespace Engine

open Operation

/-- The name under which the engine reports itself. -/
def runtimeName : String := "numbridge-vm"

/-- Removes all objects and modules. -/
def finalize (engine : Engine) : Engine :=
  if engine.names.finalized then engine
  else
    { engine with
      heap := engine.heap.clear
      names := { engine.names with modules := [], finalized := true } }

/-- The number of live objects, those that the engine itself keeps included. -/
def liveObjects (engine : Engine) : Nat := engine.heap.live

def importModule (name : String) : RuntimeOp Engine ObjectId := do
  let engine ← get
  match engine.names.modules.lookup name with
  | some id => always (share id)
  | none => throw (.moduleNotFound name)

/-- Creates the objects of a list of values and a tuple of them. -/
def createTuple (objects : List Object) : Effect := do
  let ids ← objects.mapM create
  create (.tuple ids)

/-- The attributes of an array. -/
def arrayAttribute? (engine : Engine) (a : NdArray) : String → Option Effect
  | "shape" => some (createTuple (a.shape.map fun d => .int d.toInt64))
  | "ndim" => some (create (.int a.rank.toInt64))
  | "size" => some (create (.int a.size.toInt64))
  | "itemsize" => some (create (.int a.dtype.itemSize.toInt64))
  | "nbytes" => some (create (.int a.byteSize.toInt64))
  | "dtype" => some (create (.str a.dtype.name))
  | "T" => some (createArray (.fresh (a.contents engine.buffers).transpose))
  | _ => none

def getAttribute (id : ObjectId) (name : String) : RuntimeOp Engine ObjectId := do
  let engine ← get
  match ← engine.object id with
  | .module m =>
    match m.attributes.lookup name with
    | some member => always (share member)
    | none => throw (.noModuleAttribute m.name name)
  | .array a =>
    match engine.arrayAttribute? a name with
    | some effect => always effect
    | none => throw (.noAttribute (engine.typeName id) name)
  | object => throw (.noAttribute object.typeName name)

/-- The arguments of a call. The object for an argument that was not supplied
leaves its slot empty. -/
def argumentsOf (engine : Engine) (positional : List ObjectId)
    (keywords : List (String × ObjectId)) : Arguments ObjectId :=
  let absent := engine.names.noValueId
  ⟨positional.map fun id => if id = absent then none else some id,
    keywords.filter fun entry => entry.2 ≠ absent⟩

def call (id : ObjectId) (positional : List ObjectId) (keywords : List (String × ObjectId)) :
    RuntimeOp Engine ObjectId := do
  let engine ← get
  match ← engine.object id with
  | .native native => engine.nativeCall native (engine.argumentsOf positional keywords)
  | object => throw (.notCallable object.typeName)

def getItem (id key : ObjectId) : RuntimeOp Engine ObjectId := do
  let engine ← get
  match ← engine.object id with
  | .array a =>
    match ← a.select engine.buffers (← engine.selectors key) with
    | .view v => always (createResult (.view v))
    | .fresh c => always (createArray (.fresh c))
  | .tuple items | .list items =>
    let position ← engine.sequencePosition items.length key
    always (share (items.getD position default))
  | object => throw (.notSubscriptable object.typeName)

def setItem (id key value : ObjectId) : RuntimeOp Engine Unit := do
  let engine ← get
  match ← engine.object id with
  | .array a =>
    let selectors ← engine.selectors key
    let contents ← engine.arrayContents value
    let writes ← a.assignment selectors contents
    always (write a.buffer writes)
  | .list items =>
    let position ← engine.sequencePosition items.length key
    always do
      retain value
      onHeap fun heap => ((), heap.replace id (.list (items.set position value)))
      release (items.getD position default)
  | object => throw (.notAssignable object.typeName)

/-- Stores a cursor that keeps a reference to its source. -/
def createCursor (source : ObjectId) (length : Nat) : Effect := do
  retain source
  create (.iterator ⟨source, 0, length⟩)

def iterate (id : ObjectId) : RuntimeOp Engine ObjectId := do
  let engine ← get
  match ← engine.object id with
  | .array a =>
    match a.shape with
    | [] => throw .scalarIteration
    | length :: _ => always (createCursor id length)
  | .tuple items | .list items => always (createCursor id items.length)
  | .iterator _ => always (share id)
  | object => throw (.notIterable object.typeName)

/-- Moves a cursor to its next position. -/
def advance (id : ObjectId) (cursor : Cursor) : StateM Engine Unit :=
  onHeap fun heap =>
    ((), heap.replace id (.iterator { cursor with position := cursor.position + 1 }))

/-- The item at the position of a cursor. -/
def itemAt (engine : Engine) (cursor : Cursor) : RuntimeOp Engine ObjectId := do
  match ← engine.object cursor.source with
  | .array a =>
    let row ← a.select engine.buffers [.at cursor.position.toInt64]
    always (createResult row)
  | .tuple items | .list items => always (share (items.getD cursor.position default))
  | _ => throw .iterationSourceChanged

def next (id : ObjectId) : RuntimeOp Engine (Option ObjectId) := do
  let engine ← get
  match ← engine.object id with
  | .iterator cursor =>
    if cursor.length ≤ cursor.position then return none
    let item ← engine.itemAt cursor
    always do
      advance id cursor
      return some item
  | object => throw (.notAnIterator object.typeName)

def asArray (id : ObjectId) : RuntimeOp Engine ObjectId := do
  let engine ← get
  match ← engine.arrayForm id with
  | .view _ => always (share id)
  | .fresh contents => always (createArray (.fresh contents))

/-- The object that holds an immediate value. -/
def objectOf : Primitive → Object
  | .none => .none
  | .noValue => .noValue
  | .bool b => .bool b
  | .int i => .int i
  | .float x => .float x
  | .str text => .str text
  | .bytes bytes => .bytes bytes
  | .tuple items => .tuple items
  | .slice bounds => .slice bounds

/-- Stores an immediate value. The values without contents have one object each,
which is shared. -/
def build (value : Primitive) : RuntimeOp Engine ObjectId := .always <|
  match value with
  | .none => createNone
  | .noValue => fun engine => share engine.names.noValueId engine
  | value => create (objectOf value)

/-- The immediate value of a number. -/
def primitiveOf : Scalar → Primitive
  | .bool b => .bool b
  | .int i => .int i
  | .float x => .float x

@[simp] theorem number?_primitiveOf (s : Scalar) : (primitiveOf s).number? = some s := by
  cases s <;> rfl

/-- The immediate value of an object. -/
def primitive (engine : Engine) (id : ObjectId) : Except Exception Primitive := do
  match ← engine.object id with
  | .none => return .none
  | .noValue => return .noValue
  | .bool b => return .bool b
  | .int i => return .int i
  | .float x => return .float x
  | .str text => return .str text
  | .bytes bytes => return .bytes bytes
  | .tuple items | .list items => return .tuple items
  | .slice bounds => return .slice bounds
  | .array a =>
    match a.scalar? engine.buffers with
    | some value => return primitiveOf value
    | none => throw .notAScalarArray
  | object => throw (.noHostForm object.typeName)

def extract (id : ObjectId) : RuntimeOp Engine Primitive := do
  let engine ← get
  engine.primitive id

/-- The description of an array object. -/
def arrayInfo? (engine : Engine) (id : ObjectId) : Option ArrayInfo :=
  match engine.heap.get? id with
  | some (.array a) => some ⟨a.dtype, a.shape, a.address engine.buffers, a.byteSize⟩
  | _ => none

/-- Releases a reference to the array whose elements start at an address. The
status is one if there is no such object, and two if the address is not that of
the object's elements. -/
def releaseBuffer (id : ObjectId) (address : Nat) : StateM Engine Int := fun engine =>
  match engine.heap.get? id with
  | none => (1, engine)
  | some (.array a) =>
    if a.address engine.buffers = address then
      let ((), engine) := release id engine
      (0, engine)
    else (2, engine)
  | some _ => (2, engine)

instance : ForeignRuntime Engine where
  name := runtimeName
  finalize := finalize
  importModule := importModule
  getAttribute := getAttribute
  call := call
  getItem := getItem
  setItem := setItem
  iterate := iterate
  next := next
  asArray := asArray
  build := build
  extract := extract
  typeName := typeName
  arrayInfo id := fun engine => (engine.arrayInfo? id, engine)
  retain id engine := (Engine.retain id engine).2
  release id engine := (Engine.release id engine).2
  releaseBuffer := releaseBuffer

end Engine

end ArrayBridge
