import ArrayBridge.Bridge.Fault
import ArrayBridge.ForeignRuntime

/-! Values on the host's side of the bridge. -/

namespace ArrayBridge

/-- A value that the host passes to a call or gets from one. -/
inductive HostValue where
  | none
  | bool (value : Bool)
  | int (value : Int64)
  | float (value : Float)
  | str (value : String)
  | bytes (value : List UInt8)
  | bools (values : List Bool)
  | ints (values : List Int64)
  | floats (values : List Float)
  /-- A registered foreign object. -/
  | handle (value : Handle)
  deriving DecidableEq, Inhabited

namespace HostValue

/-- The kind of a value, as type errors name it. -/
def kind : HostValue → String
  | none => "None"
  | bool _ => "bool"
  | int _ => "int"
  | float _ => "float"
  | str _ => "str"
  | bytes _ => "bytes"
  | bools _ => "bool sequence"
  | ints _ => "int sequence"
  | floats _ => "float sequence"
  | handle _ => "handle"

/-- The immediate value of a host value that is neither a sequence nor a
handle. -/
def immediate? : HostValue → Option Primitive
  | none => some .none
  | bool b => some (.bool b)
  | int i => some (.int i)
  | float x => some (.float x)
  | str text => some (.str text)
  | bytes octets => some (.bytes octets)
  | bools _ | ints _ | floats _ | handle _ => Option.none

end HostValue

/-- An argument slot. An omitted argument keeps its position, which is not the
same as passing no value. -/
inductive Argument where
  | provided (value : HostValue)
  | omitted
  deriving DecidableEq, Inhabited

namespace Argument

def isProvided : Argument → Bool
  | provided _ => true
  | omitted => false

/-- The argument of an optional value. -/
def ofOption : Option HostValue → Argument
  | some value => provided value
  | none => omitted

end Argument

/-- The form that the result of a call is brought into. -/
inductive ResultTag where
  /-- The result is discarded. -/
  | unit
  | bool
  | int
  | float
  | str
  | bytes
  | bools
  | ints
  | floats
  deriving DecidableEq, Inhabited

namespace ResultTag

/-- The form that a tag asks for, as type errors name it. -/
def form : ResultTag → String
  | unit => "no value"
  | bool => "bool"
  | int => "int"
  | float => "float"
  | str => "str"
  | bytes => "bytes"
  | bools => "bool sequence"
  | ints => "int sequence"
  | floats => "float sequence"

def name : ResultTag → String
  | unit => "unit"
  | bool => "bool"
  | int => "int"
  | float => "float"
  | str => "str"
  | bytes => "bytes"
  | bools => "bools"
  | ints => "ints"
  | floats => "floats"

def all : List ResultTag := [unit, bool, int, float, str, bytes, bools, ints, floats]

/-- The tag of the given name. -/
def parse (text : String) : Option ResultTag := all.find? fun tag => tag.name = text

end ResultTag

/-- The tag of the values of an array. -/
def DType.valuesTag : DType → ResultTag
  | .bool => .bools
  | .int64 => .ints
  | .float64 => .floats

/-- A foreign call: the dotted path of a callable and host arguments. -/
structure CallSpec where
  path : String
  args : List Argument
  keywords : List (String × Argument)
  result : Option ResultTag
  deriving DecidableEq, Inhabited

/-- A call with positional arguments only. -/
def CallSpec.positional (path : String) (args : List Argument) : CallSpec := ⟨path, args, [], none⟩

/-- A type of the host that a call result can be read as. -/
inductive HostType where
  | unit
  | bool
  | int64
  | int32
  | float
  | str
  | bytes
  | bools
  | ints
  | floats
  deriving DecidableEq, Inhabited

namespace HostType

/-- The result tag that a type calls for. -/
def tag : HostType → ResultTag
  | unit => .unit
  | bool => .bool
  | int64 | int32 => .int
  | float => .float
  | str => .str
  | bytes => .bytes
  | bools => .bools
  | ints => .ints
  | floats => .floats

/-- The widest type whose results carry a tag. -/
def ofTag : ResultTag → HostType
  | .unit => unit
  | .bool => bool
  | .int => int64
  | .float => float
  | .str => str
  | .bytes => bytes
  | .bools => bools
  | .ints => ints
  | .floats => floats

@[simp] theorem tag_ofTag (t : ResultTag) : (ofTag t).tag = t := by cases t <;> rfl

/-- Whether a machine integer fits 32 bits. -/
def fits32 (i : Int64) : Bool := -2147483648 ≤ i && i ≤ 2147483647

/-- Reads a value as one of a type. The unit type accepts and forgets every
value; every other type accepts only values of its own kind. -/
def accept : HostType → HostValue → Except BridgeError HostValue
  | unit, _ => .ok .none
  | bool, .bool b => .ok (.bool b)
  | int64, .int i => .ok (.int i)
  | int32, .int i =>
    if fits32 i then .ok (.int i) else .error (.typeMismatch "int32" (toString i.toInt))
  | float, .float x => .ok (.float x)
  | str, .str text => .ok (.str text)
  | bytes, .bytes octets => .ok (.bytes octets)
  | bools, .bools values => .ok (.bools values)
  | ints, .ints values => .ok (.ints values)
  | floats, .floats values => .ok (.floats values)
  | type, value => .error (.typeMismatch type.tag.form value.kind)

end HostType

/-- The type of the values of an array. -/
def DType.valuesType : DType → HostType
  | .bool => .bools
  | .int64 => .ints
  | .float64 => .floats

end ArrayBridge
