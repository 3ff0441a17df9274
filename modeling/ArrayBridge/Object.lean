import ArrayBridge.NdArray
import ArrayBridge.ObjectId
import ArrayBridge.Native
import ArrayBridge.Slice

/-! Objects of the array runtime. -/

namespace ArrayBridge

/-- A position in the first axis of an array or in a sequence. The number of
items was taken when the cursor was made. -/
structure Cursor where
  source : ObjectId
  position : Nat
  length : Nat
  deriving DecidableEq, Inhabited

/-- A module: a name and the objects that its attributes name, in the order of
their registration. -/
structure Module where
  name : String
  attributes : List (String × ObjectId)
  deriving DecidableEq, Inhabited

/-- A heap object. -/
inductive Object where
  | none
  /-- Stands for an argument that was not supplied. -/
  | noValue
  | bool (value : Bool)
  | int (value : Int64)
  | float (value : Float)
  | str (value : String)
  | bytes (value : List UInt8)
  | tuple (items : List ObjectId)
  | list (items : List ObjectId)
  | slice (bounds : SliceBounds)
  | array (array : NdArray)
  | iterator (cursor : Cursor)
  | module (module : Module)
  | native (native : Native)
  deriving DecidableEq, Inhabited

namespace Object

/-- The name of an object's type. -/
def typeName : Object → String
  | none => "NoneType"
  | noValue => "_NoValueType"
  | bool _ => "bool"
  | int _ => "int"
  | float _ => "float"
  | str _ => "str"
  | bytes _ => "bytes"
  | tuple _ => "tuple"
  | list _ => "list"
  | slice _ => "slice"
  | array _ => "ndarray"
  | iterator _ => "iterator"
  | module _ => "module"
  | native _ => "builtin_function_or_method"

/-- The references that an object owns, once for each occurrence. -/
def children : Object → List ObjectId
  | tuple items | list items => items
  | iterator cursor => [cursor.source]
  | module m => m.attributes.map Prod.snd
  | _ => []

/-- The object of a number. -/
def ofScalar : Scalar → Object
  | .bool b => bool b
  | .int i => int i
  | .float x => float x

/-- The number that an object is, arrays excepted. -/
def number? : Object → Option Scalar
  | bool b => some (.bool b)
  | int i => some (.int i)
  | float x => some (.float x)
  | _ => Option.none

end Object

end ArrayBridge
