import ArrayBridge.Engine.Nest
import ArrayBridge.Euclid

/-! The functions of the root module: construction, reshaping, sums and
elementwise arithmetic.

A function reads its arguments from the state at the start of the call. Its steps can
fail up to the point where it begins to act; what it does from there on always
succeeds. -/

namespace ArrayBridge

/-- What a call does once nothing can fail any more. -/
abbrev Effect := StateM Engine ObjectId

/-- A call of a built-in function. -/
abbrev NativeOp := RuntimeOp Engine ObjectId

/-- The arguments of a call, assigned to parameters. -/
abbrev CallBindings := Bindings ObjectId

namespace Engine

open Operation

/-- Reads an argument that may be left out. -/
def optional {α : Type} (read : ObjectId → Except Exception α) (slot : Option ObjectId) :
    Except Exception (Option α) :=
  slot.mapM read

section Construction

/-- A fresh array with the values of an array-like object. -/
def arrayOf (engine : Engine) (b : CallBindings) : NativeOp := do
  let contents ← engine.arrayContents (← b.required "object")
  match ← engine.dtype? (b.get? "dtype") with
  | some dtype => always (createArray (.fresh (contents.cast dtype)))
  | none => always (createArray (.fresh contents))

/-- The array that an object is already, or else a fresh one. -/
def asArrayOf (engine : Engine) (b : CallBindings) : NativeOp := do
  let source ← b.required "a"
  let dtype ← engine.dtype? (b.get? "dtype")
  match ← engine.object source with
  | .array a =>
    if dtype.all (· = a.dtype) then always (share source)
    else always (createArray (.fresh (← converted source dtype)))
  | _ => always (createArray (.fresh (← converted source dtype)))
where
  converted (source : ObjectId) (dtype : Option DType) : Except Exception Contents := do
    let contents ← engine.arrayContents source
    match dtype with
    | some dtype => return contents.cast dtype
    | none => return contents

/-- The least number that is not below a float in the word range; zero for a negative one. -/
def ceiling (x : Float) : Nat :=
  let whole := x.toUInt64
  if whole.toFloat < x then whole.toNat + 1 else whole.toNat

/-- How many steps lead from the start up to the stop of a range of floats. -/
def rangeLength (start stop step : Float) : Except Exception Nat := do
  if step == 0 then throw .zeroRangeStep
  let quotient := (stop - start) / step
  if quotient.isNaN then throw .rangeLengthUndefined
  -- The bound is the word range, as a float.
  if Float.ofBits 0x43f0000000000000 ≤ quotient then throw .rangeLengthTooLarge
  let length ← Shape.checkedSize [ceiling quotient]
  reserve length
  return length

/-- The elements of a range. They are computed as floats and truncated where the
bounds are not floats. -/
def rangeValues (start step : Float) (inferred : DType) (length : Nat) : Array Scalar :=
  (Array.range length).map fun i =>
    let value := start + i.toUInt64.toFloat * step
    if inferred = .float64 then .float value else .int (truncated value)

/-- Evenly spaced values. A single bound is the stop of a range from zero. -/
def rangeOf (engine : Engine) (b : CallBindings) : NativeOp := do
  let first ← b.required "start"
  let (start?, stop) := match engine.given (b.get? "stop") with
    | some stop => (some first, stop)
    | none => (none, first)
  let start? ← optional engine.scalar start?
  let stop ← engine.scalar stop
  let step? ← optional engine.scalar (engine.given (b.get? "step"))
  let bounds := start?.toList ++ [stop] ++ step?.toList
  let inferred := (DType.joinAll (bounds.map Scalar.dtype)).join .int64
  let dtype := (← engine.dtype? (b.get? "dtype")).getD inferred
  let start := (start?.map Scalar.toFloat).getD 0
  let step := (step?.map Scalar.toFloat).getD 1
  let length ← rangeLength start stop.toFloat step
  let values := rangeValues start step inferred length
  always (createArray (.fresh (.ofValues dtype values [length])))

/-- An array in which every element is the given one. -/
def constantOf (engine : Engine) (b : CallBindings) (value : Scalar) : NativeOp := do
  let shape ← engine.shape (← b.required "shape")
  let dtype := (← engine.dtype? (b.get? "dtype")).getD .float64
  always (createArray (.fresh (← Contents.filled dtype shape value)))

/-- An array in which every element is an argument; its type is that of the
argument unless another one is given. -/
def fullOf (engine : Engine) (b : CallBindings) : NativeOp := do
  let value ← engine.scalar (← b.required "fill_value")
  let shape ← engine.shape (← b.required "shape")
  let dtype := (← engine.dtype? (b.get? "dtype")).getD value.dtype
  always (createArray (.fresh (← Contents.filled dtype shape value)))

/-- The dimensions that a reshape asks for: one integer or a sequence. -/
def dimensions (engine : Engine) (id : ObjectId) : Except Exception (List Int64) := do
  match ← engine.object id with
  | .tuple items | .list items => items.mapM engine.integer
  | _ => return [← engine.integer id]

def reshapeOf (engine : Engine) (b : CallBindings) : NativeOp := do
  let form ← engine.arrayForm (← b.required "a")
  let dimensions ← engine.dimensions (← b.required "newshape")
  always (createArray (← form.reshape engine.buffers dimensions))

def copyOf (engine : Engine) (b : CallBindings) : NativeOp := do
  always (createArray (.fresh (← engine.arrayContents (← b.required "a"))))

end Construction

section Sums

/-- The sum of values, as an array of the given type adds them: floats from left
to right starting at negative zero, anything else as wrapping integers. -/
def total (dtype : DType) (values : List Scalar) : Scalar :=
  match dtype with
  | .float64 => .float (values.foldl (fun sum value => sum + value.toFloat) (-0.0))
  | _ => .int (values.foldl (fun sum value => sum + value.toInt64) 0)

/-- The type of a sum. -/
def totalType : DType → DType
  | .float64 => .float64
  | _ => .int64

/-- The values along one axis of row-major contents, at one position of the axes
before it and one of the axes after it. -/
def column (c : Contents) (length inner outerPosition innerPosition : Nat) : List Scalar :=
  (List.range length).map fun k => c.get ((outerPosition * length + k) * inner + innerPosition)

/-- The sums along one axis. -/
def sumAlong (c : Contents) (axis : Nat) : Contents :=
  let outer := Shape.size (c.shape.take axis)
  let length := c.shape.getD axis 0
  let inner := Shape.size (c.shape.drop (axis + 1))
  let totals := (Array.range outer).flatMap fun o =>
    (Array.range inner).map fun i => total c.dtype (column c length inner o i)
  .ofValues (totalType c.dtype) totals (c.shape.eraseIdx axis)

/-- The axis that an integer names; a negative one counts from the last. -/
def resolveAxis (axis : Int64) (rank : Nat) : Except Exception Nat :=
  let resolved := if axis < 0 then axis.toInt + rank else axis.toInt
  if 0 ≤ resolved ∧ resolved < rank then .ok resolved.toNat
  else .error (.axisOutOfBounds axis rank)

def sumOf (engine : Engine) (b : CallBindings) : NativeOp := do
  let contents ← engine.arrayContents (← b.required "a")
  match engine.given (b.get? "axis") with
  | none => always (create (.ofScalar (total contents.dtype contents.values.toList)))
  | some axis =>
    let axis ← resolveAxis (← engine.integer axis) contents.rank
    always (createResult (.fresh (sumAlong contents axis)))

end Sums

section Arithmetic

/-- An elementwise operation on each element type; it need not be defined for
truth values. -/
structure Arithmetic where
  ints : Int64 → Int64 → Int64
  floats : Float → Float → Float
  bools? : Option (Bool → Bool → Bool)

namespace Arithmetic

def add : Arithmetic := ⟨(· + ·), (· + ·), some (· || ·)⟩

def subtract : Arithmetic := ⟨(· - ·), (· - ·), none⟩

def multiply : Arithmetic := ⟨(· * ·), (· * ·), some (· && ·)⟩

/-- The operation on two elements that are read as elements of one type. -/
def on? (op : Arithmetic) : DType → Option (Scalar → Scalar → Scalar)
  | .bool => op.bools?.map fun f x y => .bool (f x.toBool y.toBool)
  | .int64 => some fun x y => .int (op.ints x.toInt64 y.toInt64)
  | .float64 => some fun x y => .float (op.floats x.toFloat y.toFloat)

end Arithmetic

/-- The two operands of an elementwise function. -/
def operands (engine : Engine) (b : CallBindings) : Except Exception (Contents × Contents) := do
  let left ← engine.arrayContents (← b.required "x1")
  let right ← engine.arrayContents (← b.required "x2")
  return (left, right)

/-- Applies an operation to the elements of two operands in their common type. -/
def arithmeticOf (engine : Engine) (b : CallBindings) (op : Arithmetic) : NativeOp := do
  let (left, right) ← engine.operands b
  let dtype := left.dtype.join right.dtype
  match op.on? dtype with
  | some f => always (createResult (.fresh (← left.zipWith right dtype fun x y => .ok (f x y))))
  | none => throw (.unsupportedOperands b.function)

/-- Applies an operation on integers to the elements of two operands, neither of
which may hold floats. -/
def integerArithmeticOf (engine : Engine) (b : CallBindings) (f : Int64 → Int64 → Int64) :
    NativeOp := do
  let (left, right) ← engine.operands b
  if left.dtype = .float64 ∨ right.dtype = .float64 then throw (.unsupportedOperands b.function)
  let result ← left.zipWith right .int64 fun x y => .ok (.int (f x.toInt64 y.toInt64))
  always (createResult (.fresh result))

end Arithmetic

/-- Calls a function of the root module. -/
def numericCall (engine : Engine) (f : NumericFunction) (b : CallBindings) : NativeOp :=
  match f with
  | .array => engine.arrayOf b
  | .asarray => engine.asArrayOf b
  | .arange => engine.rangeOf b
  | .zeros => engine.constantOf b (.int 0)
  | .ones => engine.constantOf b (.int 1)
  | .full => engine.fullOf b
  | .reshape => engine.reshapeOf b
  | .copy => engine.copyOf b
  | .sum => engine.sumOf b
  | .add => engine.arithmeticOf b .add
  | .subtract => engine.arithmeticOf b .subtract
  | .multiply => engine.arithmeticOf b .multiply
  | .lcm => engine.integerArithmeticOf b Euclid.lcm
  | .gcd => engine.integerArithmeticOf b Euclid.gcd

end Engine

end ArrayBridge
