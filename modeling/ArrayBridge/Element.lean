/-! Element types and single elements.

An array holds elements of one of three types. A scalar is one element together
with its type. Casting is total: it never fails, and it is the only way in which
a value changes its type when it is stored in an array of another type. -/

namespace ArrayBridge

/-- The element type of an array. -/
inductive DType where
  | bool
  | int64
  | float64
  deriving DecidableEq, Inhabited

namespace DType

/-- The number of bytes that one element occupies. -/
def itemSize : DType → Nat
  | bool => 1
  | int64 | float64 => 8

def name : DType → String
  | bool => "bool"
  | int64 => "int64"
  | float64 => "float64"

/-- Reads the name of an element type. Each type has one canonical name and a
few short ones; no other spelling is accepted. -/
def parse (text : String) : Option DType :=
  if text ∈ ["bool", "bool_"] then some bool
  else if text ∈ ["int", "int64", "long", "i8"] then some int64
  else if text ∈ ["float", "float64", "double", "f8"] then some float64
  else none

/-- The smaller of the element types that hold all values of both arguments. -/
def join : DType → DType → DType
  | float64, _ | _, float64 => float64
  | int64, _ | _, int64 => int64
  | bool, bool => bool

/-- The smallest element type that holds all values of the listed types. -/
def joinAll (dtypes : List DType) : DType := dtypes.foldl join bool

end DType

/-- The float nearest to a machine integer, by the rule of IEEE 754: of two that are equally near,
the one with the even mantissa. -/
def nearestFloat (i : Int64) : Float := .ofModel (.ofInt64 i)

/-- The machine integer that a float is truncated to, toward zero. It is clamped to the 64-bit range,
and a float that is not a number becomes zero. -/
def truncated (x : Float) : Int64 := x.toModel.toInt64

/-- One element of an array, or a number outside of any array. -/
inductive Scalar where
  | bool (value : Bool)
  | int (value : Int64)
  | float (value : Float)
  deriving DecidableEq, Inhabited

namespace Scalar

def dtype : Scalar → DType
  | bool _ => .bool
  | int _ => .int64
  | float _ => .float64

def toFloat : Scalar → Float
  | bool b => if b then 1 else 0
  | int i => nearestFloat i
  | float x => x

/-- Floats are truncated. -/
def toInt64 : Scalar → Int64
  | bool b => if b then 1 else 0
  | int i => i
  | float x => truncated x

/-- Everything but zero is true. In particular a float that is not a number is
true. -/
def toBool : Scalar → Bool
  | bool b => b
  | int i => i != 0
  | float x => x != 0

def cast (s : Scalar) : DType → Scalar
  | .bool => bool s.toBool
  | .int64 => int s.toInt64
  | .float64 => float s.toFloat

/-- The zero of an element type. -/
def zero : DType → Scalar
  | .bool => bool false
  | .int64 => int 0
  | .float64 => float 0

@[simp] theorem dtype_cast (s : Scalar) (d : DType) : (s.cast d).dtype = d := by
  cases d <;> rfl

@[simp] theorem cast_dtype (s : Scalar) : s.cast s.dtype = s := by
  cases s <;> rfl

end Scalar

end ArrayBridge
