import ArrayBridge.Bridge.CallSite
import ArrayBridge.Proofs.AccessOutcome
import ArrayBridge.Proofs.CallReplies
import ArrayBridge.Proofs.ReadingOut
import ArrayBridge.Proofs.StrideProducts

/-! Sequences of the host with elements of one type.

A sequence crosses the bridge as a tuple of numbers, which does not tell the type of its elements.
The function that is called finds the type again from the numbers, if there are any, and stores
them in an array of that type. What is read out of that array is the sequence that was passed. A
tuple without items is taken for one of floats. -/

namespace ArrayBridge

open Operation Engine Outcome

namespace DType

/-- The host's elements of an element type. -/
abbrev Element : DType → Type
  | bool => Bool
  | int64 => Int64
  | float64 => Float

variable {dtype : DType}

/-- An element as a number. -/
def scalar : (dtype : DType) → dtype.Element → Scalar
  | bool, b => .bool b
  | int64, i => .int i
  | float64, x => .float x

/-- A sequence of elements as a value of the host. -/
def sequence : (dtype : DType) → List dtype.Element → HostValue
  | bool, xs => .bools xs
  | int64, xs => .ints xs
  | float64, xs => .floats xs

end DType

namespace Contents

/-- Contents with one axis and the elements of a sequence along it. -/
def ofElements (dtype : DType) (xs : List dtype.Element) : Contents :=
  ⟨dtype, [xs.length], (xs.map dtype.scalar).toArray⟩

variable {dtype : DType} {xs : List dtype.Element}

@[simp] theorem size_ofElements : (ofElements dtype xs).values.size = xs.length := by
  simp [ofElements]

@[simp] theorem shapeSize_ofElements : (ofElements dtype xs).shape.size = xs.length :=
  Nat.mul_one _

end Contents

namespace CallSpec

variable {path : String} {values : List HostValue} {parameters : List String}

end CallSpec

namespace Session

variable {base : Heap} {session now : Session Engine} {engine : Engine} {id : ObjectId}
  {value : HostValue} {numbers : List Scalar} {native : Native} {parameters : List String}
  {assignment : String → Option HostValue} {b : CallBindings} {name : String} {dtype : DType}

section Arguments

variable (h : Bound session engine native parameters assignment b) (hName : name ∈ parameters)
include h hName

end Arguments

section Functions

end Functions

section Answers

variable {spec : CallSpec} {c : Contents} {x : ObjectId}

end Answers

end Session

namespace Interpreter

open Session

variable {isDirectory : String → Bool} {entropy : Generator} {settings : EngineSettings}
  {engine : Engine} {interpreter : Interpreter Engine} {session : Session Engine} {base : Heap}
  {native : Native} {parameters : List String} {path : String} {values : List HostValue}
  {dtype : DType}

/-- An operation gives an array with one axis, from which the host reads a value. -/
def Delivers (interpreter : Interpreter Engine) (op : BridgeOp Engine ArrayObject) (dtype : DType)
    (length : Nat) (value : HostValue) : Prop :=
  ∃ a after last, (run op).perform interpreter = (.ok a, after) ∧ a.dtype = dtype ∧
    a.shape = [length] ∧ (toVector a dtype).perform after = (.ok value, last)

section Deliveries

variable (hOrder : Registers base 0 session)
  (hEntries : session.handles.entries.size < Heap.slotLimit) (hNames : session.Names path native)
  (root : String)
include hOrder hEntries hNames

end Deliveries

end Interpreter

end ArrayBridge
