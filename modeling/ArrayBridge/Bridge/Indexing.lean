import ArrayBridge.Bridge.Call

/-! Reading and writing elements of foreign arrays.

An index expression is checked against the rank of the array before the runtime
is entered. It is then passed to the runtime as a tuple with one item for each
axis. -/

namespace ArrayBridge

/-- An index on one axis. -/
inductive AxisIndex where
  | at (index : Int64)
  /-- The whole axis. -/
  | full
  | slice (bounds : SliceBounds)
  /-- Integer positions. -/
  | fancy (positions : List Int64)
  | mask (flags : List Bool)
  /-- A foreign array of positions, or a foreign mask. -/
  | foreign (handle : Handle)
  deriving DecidableEq, Inhabited

/-- An index expression. -/
inductive Index where
  /-- One position for every axis. -/
  | offsets (positions : List Int64)
  /-- Any indices for the first axes. -/
  | axes (indices : List AxisIndex)
  deriving DecidableEq, Inhabited

/-- Whether an index is a slice that cannot move. -/
def AxisIndex.hasZeroStep : AxisIndex → Bool
  | slice bounds => bounds.step = some 0
  | _ => false

/-- Checks an index expression for an array of the given rank. -/
def Index.validate (rank : Nat) : Index → Except IndexFault Unit
  | offsets positions =>
    if positions.length = rank then .ok () else .error (.rank rank positions.length)
  | axes indices =>
    if rank < indices.length then .error (.rank rank indices.length)
    else if indices.any AxisIndex.hasZeroStep then .error .zeroStep
    else .ok ()

/-- The indices of an expression, axis by axis. -/
def Index.items : Index → List AxisIndex
  | offsets positions => positions.map .at
  | axes indices => indices

/-- Whether a list has another one as a part. -/
def occursIn (part : List Char) : List Char → Bool
  | [] => part.isEmpty
  | c :: rest => part.isPrefixOf (c :: rest) || occursIn part rest

/-- Whether a text has another one in it. -/
def mentions (text part : String) : Bool := occursIn part.toList text.toList

namespace Session

variable {σ : Type} [ForeignRuntime σ]

/-- The path that failures of building a key are reported for. -/
def indexPath : String := "<index>"

/-- Builds the key item of one axis. -/
def axisKey : AxisIndex → BridgeOp σ ObjectId
  | .at i => build indexPath (.int i)
  | .full => build indexPath (.slice .full)
  | .slice bounds => build indexPath (.slice bounds)
  | .fancy positions => toForeign (.ints positions)
  | .mask flags => toForeign (.bools flags)
  | .foreign h => toForeign (.handle h)

/-- Builds the key of an index expression: a tuple with an item for each axis. -/
def key (index : Index) : BridgeOp σ ObjectId := do
  let items ← collect axisKey index.items #[]
  build indexPath (.tuple items.toList)

/-- The array behind a handle, if the index expression suits its rank. -/
def target (h : Handle) (index : Index) : BridgeOp σ ObjectId := do
  let (id, info) ← arrayOf h
  match index.validate info.shape.length with
  | .ok () => return id
  | .error fault => throw (.index fault)

/-- The bridge's account of an exception that indexing raised. For a write, a bad
value is a mismatch of shapes. -/
def indexError (path : String) (isWrite : Bool) (e : Exception) : BridgeError :=
  match e.kind with
  | .indexError => .index (.outOfRange e.message)
  | .valueError =>
    if mentions e.message "step" then .index .zeroStep
    else if isWrite then .index (.shape e.message)
    else .foreignCall path e
  | _ => .foreignCall path e

/-- The path that failures of reading elements are reported for. -/
def readPath : String := "getitem"

/-- The path that failures of writing elements are reported for. -/
def writePath : String := "setitem"

/-- A new reference to the elements that an index expression selects. -/
def getObject (h : Handle) (index : Index) : BridgeOp σ ObjectId := do
  let id ← target h index
  let key ← key index
  let found ← tryRuntime (ForeignRuntime.getItem id key)
  release key
  match found with
  | .ok item => return item
  | .error e => throw (indexError readPath false e)

/-- Reads elements as an item. -/
def getItem (h : Handle) (index : Index) : BridgeOp σ Item := do
  toItem (← getObject h index) readPath

/-- Reads elements as a host type. -/
def getAs (h : Handle) (index : Index) (type : HostType) : BridgeOp σ HostValue := do
  let value ← consume (← getObject h index) type.tag
  ofOutcome (type.accept value)

/-- Writes a value to the selected elements, to which it is broadcast. -/
def setItem (h : Handle) (index : Index) (value : HostValue) : BridgeOp σ Unit := do
  let id ← target h index
  let key ← key index
  match ← outcome (toForeign value) with
  | .error e =>
    release key
    throw e
  | .ok value =>
    let written ← tryRuntime (ForeignRuntime.setItem id key value)
    releaseAll [key, value]
    match written with
    | .ok () => return ()
    | .error e => throw (indexError writePath true e)

/-- Reads an attribute of the object behind a handle as a host type. -/
def field (h : Handle) (name : String) (type : HostType) : BridgeOp σ HostValue := do
  let id ← lookup h
  match ← tryRuntime (ForeignRuntime.getAttribute id name) with
  | .ok member =>
    let value ← consume member type.tag
    ofOutcome (type.accept value)
  | .error e =>
    if e.kind = .attributeError then throw (.noAttribute name (← typeName id))
    else throw (.foreignCall name e)

/-- The elements of an array in row-major order. -/
def values (a : ArrayObject) : BridgeOp σ HostValue := do
  coerce (← lookup a.handle) a.dtype.valuesTag

end Session

end ArrayBridge
