import ArrayBridge.Shape.Broadcast
import ArrayBridge.Shape.Limits

/-! The logical contents of an array: its element type, its shape and its values
in row-major order. Contents have no storage, so functions of contents never
touch an array that exists. -/

namespace ArrayBridge

/-- The values of an array in row-major order. The number of values is not
forced to be that of the shape, since a nest of sequences and arrays can be read
that does not have as many. -/
structure Contents where
  dtype : DType
  shape : Shape
  values : Array Scalar
  deriving Inhabited

namespace Contents

/-- Contents with all values cast to one type. -/
def ofValues (dtype : DType) (values : Array Scalar) (shape : Shape) : Contents :=
  ⟨dtype, shape, values.map (·.cast dtype)⟩

/-- Contents in which every value is the same. -/
def filled (dtype : DType) (shape : Shape) (value : Scalar) : Except Exception Contents := do
  let size ← shape.checkedSize
  reserve size
  shape.checkStrides
  return ofValues dtype (Array.replicate size value) shape

/-- Contents without axes. -/
def ofScalar (value : Scalar) : Contents := ⟨value.dtype, [], #[value]⟩

def rank (c : Contents) : Nat := c.shape.length

/-- The contents without values beyond the elements of the shape. -/
def trim (c : Contents) : Contents := { c with values := c.values.take c.shape.size }

/-- The value at a row-major position; a missing one reads as zero. -/
def get (c : Contents) (i : Nat) : Scalar := c.values.getD i (.zero c.dtype)

def cast (c : Contents) (dtype : DType) : Contents := ofValues dtype c.values c.shape

/-- The single value of contents without axes. -/
def scalar? (c : Contents) : Option Scalar := if c.shape = [] then some (c.get 0) else none

/-- The values that each index of the target shape reads, in row-major order.
Leading axes of length one in excess of the target's are dropped. -/
def broadcastTo (c : Contents) (target : Shape) : Except Exception (List Scalar) :=
  match c.shape.dropLeadingOnes target.length with
  | none => .error (.cannotBroadcastInto c.shape target)
  | some source =>
    if source.stretchesTo target then
      let strides := source.stretchedStrides
      .ok <| target.indices.toList.map fun index =>
        c.get (Shape.dot (index.drop (index.length - source.length)) strides)
    else .error (.cannotBroadcastInto c.shape target)

/-- Applies an operation to the aligned values of two operands and casts the
results. -/
def zipWith (left right : Contents) (dtype : DType)
    (op : Scalar → Scalar → Except Exception Scalar) : Except Exception Contents := do
  let shape ← left.shape.broadcast right.shape
  shape.checkLayout
  let xs ← left.broadcastTo shape
  let ys ← right.broadcastTo shape
  let values ← (xs.zip ys).mapM fun (x, y) => op x y
  return ofValues dtype values.toArray shape

/-- The contents with the order of the axes reversed. -/
def transpose (c : Contents) : Contents :=
  let strides := c.shape.strides
  let shape : Shape := c.shape.reverse
  ⟨c.dtype, shape, shape.indices.map fun index => c.get (Shape.dot index.reverse strides)⟩

end Contents

end ArrayBridge
