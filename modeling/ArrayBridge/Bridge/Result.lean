import ArrayBridge.Bridge.Marshal

/-! Reading results back from the runtime.

A result is either brought into the form that a tag asks for, or becomes an item:
a host scalar or a registered array. -/

namespace ArrayBridge

/-- A registered array and its description at the time of the registration. The
host frees it by its handle and address. -/
structure ArrayObject where
  buffer : BufferDescriptor
  deriving DecidableEq, Inhabited

namespace ArrayObject

def handle (a : ArrayObject) : Handle := a.buffer.handle

def dtype (a : ArrayObject) : DType := a.buffer.dtype

def shape (a : ArrayObject) : Shape := a.buffer.shape

def rank (a : ArrayObject) : Nat := a.buffer.shape.length

/-- The number of elements. -/
def size (a : ArrayObject) : Nat := Shape.size a.buffer.shape

/-- Checks the element type of an array. -/
def checkDType (a : ArrayObject) (dtype : DType) : Except BridgeError Unit :=
  if a.dtype = dtype then .ok () else .error (.typeMismatch dtype.name a.dtype.name)

end ArrayObject

/-- A result in the form that suits it. -/
inductive Item where
  | scalar (value : HostValue)
  | array (array : ArrayObject)
  deriving DecidableEq, Inhabited

namespace Flatten

variable {σ : Type} [ForeignRuntime σ]

/-- The values that were read so far, or why reading stopped. -/
abbrev Progress := Except Exception (Array Primitive)

/-- A value that is read from an object as it is. -/
def single (id : ObjectId) (values : Array Primitive) : RuntimeOp σ (Array Primitive) := do
  return values.push (← ForeignRuntime.extract id)

/-- Reads the items of an iterator one after the other and releases each. At most
the given number of items is read. -/
def drain (visit : ObjectId → Array Primitive → RuntimeOp σ (Array Primitive)) (iterator : ObjectId) :
    Nat → Array Primitive → RuntimeOp σ (Array Primitive)
  | 0, values => return values
  | limit + 1, values => do
    match ← ForeignRuntime.next iterator with
    | none => return values
    | some item =>
      let progress ← (visit item values).attempt
      Operation.update (ForeignRuntime.release item)
      drain visit iterator limit (← liftExcept progress)
where
  liftExcept (progress : Progress) : RuntimeOp σ (Array Primitive) := fun state => (progress, state)

/-- How many items an object that is not a scalar has. -/
def itemCount? (id : ObjectId) : RuntimeOp σ (Option Nat) := do
  match ← Operation.always (ForeignRuntime.arrayInfo id) with
  | some info => return info.shape.head?
  | none =>
    match ← (ForeignRuntime.extract id).attempt with
    | .ok (.tuple items) => return some items.length
    | _ => return none

/-- Reads an object as a sequence of scalars in row-major order: a scalar itself,
or the scalars of all items of an array or a sequence. Nests are read to the
given depth. The reads after the last item are part of the walk. -/
def read : (depth : Nat) → ObjectId → Array Primitive → RuntimeOp σ (Array Primitive)
  | 0, _, _ => throw .nestTooDeep
  | depth + 1, id, values => do
    match ← itemCount? id with
    | none => single id values
    | some count =>
      let iterator ← ForeignRuntime.iterate id
      let progress ← (drain (read depth) iterator (count + 1) values).attempt
      Operation.update (ForeignRuntime.release iterator)
      drain.liftExcept progress

/-- A bound for the depth of nests: objects are named by slots of 32 bits, so no
chain of distinct objects is longer. -/
def depthLimit : Nat := 0x100000001

/-- Reads all scalars of an object. -/
def scalars (id : ObjectId) : RuntimeOp σ (Array Primitive) := read depthLimit id #[]

end Flatten

/-- The truth value of a scalar. -/
def Primitive.asBool? : Primitive → Option Bool
  | .bool b => some b
  | _ => Option.none

/-- The integer of a scalar; truth values count as zero and one. -/
def Primitive.asInt? : Primitive → Option Int64
  | .int i => some i
  | .bool b => some (if b then 1 else 0)
  | _ => Option.none

/-- The float of a scalar; integers and truth values are converted. -/
def Primitive.asFloat? (p : Primitive) : Option Float := p.number?.map Scalar.toFloat

/-- The single host value that a primitive is for a tag. -/
def Primitive.scalarFor? : ResultTag → Primitive → Option HostValue
  | .bool, .bool b => some (.bool b)
  | .int, p => p.asInt?.map .int
  | .float, p => p.asFloat?.map .float
  | .str, .str text => some (.str text)
  | .bytes, .bytes octets => some (.bytes octets)
  | _, _ => Option.none

namespace Session

variable {σ α : Type} [ForeignRuntime σ]

/-- The path that failures of reading a result are reported for. -/
def resultPath : String := "<result>"

/-- Reads all scalars of an object, each converted to one type. -/
def sequence (id : ObjectId) (expected : String) (convert : Primitive → Option α) :
    BridgeOp σ (List α) := do
  let values ← runtimeOp resultPath (Flatten.scalars id)
  ofOutcome <| values.toList.mapM fun p =>
    match convert p with
    | some value => .ok value
    | none => .error (.typeMismatch expected p.kind)

/-- Brings an object into the form of a tag. The reference is borrowed. -/
def coerce (id : ObjectId) : ResultTag → BridgeOp σ HostValue
  | .unit => return .none
  | .bools => return .bools (← sequence id "bool" Primitive.asBool?)
  | .ints => return .ints (← sequence id "int" Primitive.asInt?)
  | .floats => return .floats (← sequence id "float" Primitive.asFloat?)
  | tag => do
    let extracted ← tryRuntime (ForeignRuntime.extract id)
    match extracted.toOption.bind (Primitive.scalarFor? tag) with
    | some value => return value
    | none => throw (.typeMismatch tag.form (← typeName id))

/-- Brings an object into the form of a tag and releases it. -/
def consume (id : ObjectId) (tag : ResultTag) : BridgeOp σ HostValue := do
  let value ← outcome (coerce id tag)
  release id
  ofOutcome value

/-- Registers the array of a result, whose reference is used up. -/
def adoptArray (id : ObjectId) (path : String) : BridgeOp σ ArrayObject := do
  let converted ← tryRuntime (ForeignRuntime.asArray id)
  release id
  match converted with
  | .error e => throw (.foreignCall path e)
  | .ok array =>
    match ← arrayInfo array with
    | none =>
      let found ← typeName array
      release array
      throw (.typeMismatch "ndarray" found)
    | some info =>
      let handle ← register array .object
      return ⟨⟨handle, info.address, info.byteSize, info.dtype, info.shape⟩⟩

/-- The host scalar of a value that is not a sequence or a slice. -/
def scalarOf? : Primitive → Option HostValue
  | .none | .noValue => some .none
  | .bool b => some (.bool b)
  | .int i => some (.int i)
  | .float x => some (.float x)
  | .str text => some (.str text)
  | .bytes bytes => some (.bytes bytes)
  | .tuple _ | .slice _ => none

/-- The item of a result, whose reference is used up. Arrays with axes and
sequences become registered arrays, scalars and arrays without axes become host
values. -/
def toItem (id : ObjectId) (path : String) : BridgeOp σ Item := do
  let info ← arrayInfo id
  if info.any fun info => info.shape ≠ [] then return .array (← adoptArray id path)
  match ← tryRuntime (ForeignRuntime.extract id) with
  | .ok (.tuple _) => return .array (← adoptArray id path)
  | .ok value =>
    match scalarOf? value with
    | some value =>
      release id
      return .scalar value
    | none => refuse id
  | .error _ => refuse id
where
  refuse (id : ObjectId) : BridgeOp σ Item := do
    let found ← typeName id
    release id
    throw (.typeMismatch "scalar or array" found)

end Session

end ArrayBridge
