import ArrayBridge.NdArray

/-! Reshaping: the same elements in the same row-major order under another
shape. One dimension may be left to be inferred; it is written as minus one. -/

namespace ArrayBridge

namespace Shape

/-- The dimensions that are given. -/
def given (dimensions : List Int64) : Shape :=
  (dimensions.filter (0 ≤ ·)).map Int64.toNatClampNeg

/-- The product of the dimensions that are given. -/
def knownProduct (dimensions : List Int64) : Nat := size (given dimensions)

/-- How many dimensions are left to be inferred. -/
def unknownCount (dimensions : List Int64) : Nat := dimensions.count (-1)

/-- The shape of the given dimensions with an inferred length filled in. -/
def fill (dimensions : List Int64) (inferred : Nat) : Shape :=
  dimensions.map fun d => if d = -1 then inferred else d.toNatClampNeg

/-- The shape that dimensions denote for a number of elements. Those that are given are
multiplied in machine words. -/
def infer (size : Nat) (dimensions : List Int64) : Except Exception Shape :=
  if 1 < unknownCount dimensions then .error .severalUnknownDimensions
  else if dimensions.any (· < -1) then .error .negativeReshapeDimension
  else match (given dimensions).wordProduct? with
    | none => .error .wordOverflow
    | some known =>
      if unknownCount dimensions = 1 then
        if known = 0 ∨ size % known ≠ 0 then .error (.cannotReshape size dimensions)
        else .ok (fill dimensions (size / known))
      else if known ≠ size then .error (.cannotReshape size dimensions)
      else .ok (fill dimensions 0)

end Shape

namespace NdArray

/-- The elements of an array under another shape of the same size. A contiguous
array keeps its storage, any other is copied. -/
def withShape (a : NdArray) (store : BufferStore) (shape : Shape) : ArrayForm :=
  if a.isContiguous then .view ⟨a.buffer, a.dtype, shape, rowMajorStrides shape, a.offset⟩
  else .fresh ⟨a.dtype, shape, a.values store⟩

/-- Reshapes an array to the given dimensions. -/
def reshape (a : NdArray) (store : BufferStore) (dimensions : List Int64) :
    Except Exception ArrayForm := do
  let shape ← Shape.infer a.size dimensions
  shape.checkStrides
  return a.withShape store shape

end NdArray

namespace ArrayForm

/-- Reshapes an array form; fresh contents stay fresh. -/
def reshape (form : ArrayForm) (store : BufferStore) (dimensions : List Int64) :
    Except Exception ArrayForm :=
  match form with
  | view a => a.reshape store dimensions
  | fresh c => do
    let shape ← Shape.infer c.shape.size dimensions
    shape.checkStrides
    return .fresh { c with shape }

end ArrayForm

end ArrayBridge
