import ArrayBridge.Buffer
import ArrayBridge.Contents

/-! Strided arrays.

An array is a view of a buffer: an offset, and for every axis a length and a
stride. Views share the cells of their buffer; copies get a buffer of their
own. -/

namespace ArrayBridge

/-- A strided view of a buffer. Offset and strides count elements; a stride is
negative where the view runs backwards. -/
structure NdArray where
  buffer : BufferId
  dtype : DType
  shape : Shape
  strides : List Int
  offset : Nat
  deriving DecidableEq, Inhabited

namespace NdArray

def rank (a : NdArray) : Nat := a.shape.length

def size (a : NdArray) : Nat := a.shape.size

def byteSize (a : NdArray) : Nat := a.size * a.dtype.itemSize

/-- The row-major strides of a shape, as strides of a view. -/
def rowMajorStrides (shape : Shape) : List Int := shape.strides.map Int.ofNat

/-- A row-major array that fills a whole buffer. -/
def ofBuffer (buffer : BufferId) (dtype : DType) (shape : Shape) : NdArray :=
  ⟨buffer, dtype, shape, rowMajorStrides shape, 0⟩

/-- Sum of the coordinates weighted by the strides. -/
def displacement : List Nat → List Int → Int
  | i :: is, s :: ss => i * s + displacement is ss
  | _, _ => 0

/-- The cell that holds the element at an index. -/
def offsetOf (a : NdArray) (index : List Nat) : Nat :=
  ((a.offset : Int) + displacement index a.strides).toNat

/-- The cells of all elements in row-major order. -/
def offsets (a : NdArray) : Array Nat := a.shape.indices.map a.offsetOf

/-- Whether the elements lie in row-major order next to each other. At most one
element always does. -/
def isContiguous (a : NdArray) : Bool := a.size ≤ 1 || a.strides = rowMajorStrides a.shape

/-- Whether two arrays are views of the same buffer. -/
def sharesStorage (a b : NdArray) : Bool := a.buffer = b.buffer

/-- The values of an array at the moment. -/
def values (a : NdArray) (store : BufferStore) : Array Scalar :=
  a.offsets.map (store.get a.buffer)

def contents (a : NdArray) (store : BufferStore) : Contents := ⟨a.dtype, a.shape, a.values store⟩

/-- The value of an array without axes. -/
def scalar? (a : NdArray) (store : BufferStore) : Option Scalar :=
  if a.shape = [] then some (store.get a.buffer a.offset) else none

/-- The only value of an array with one element. -/
def item? (a : NdArray) (store : BufferStore) : Option Scalar :=
  if a.size = 1 then (a.values store)[0]? else none

/-- The address of the first element. -/
def address (a : NdArray) (store : BufferStore) : Nat :=
  store.address a.buffer + a.offset * a.dtype.itemSize

/-- Stores contents in a new buffer. -/
def allocate (store : BufferStore) (c : Contents) : NdArray × BufferStore :=
  let (buffer, store) := store.allocate (.ofValues c.dtype c.values)
  (ofBuffer buffer c.dtype c.shape, store)

end NdArray

/-- An array result before it gets its storage: a view of a buffer that exists,
or contents that need a buffer of their own. -/
inductive ArrayForm where
  | view (array : NdArray)
  | fresh (contents : Contents)
  deriving Inhabited

namespace ArrayForm

def dtype : ArrayForm → DType
  | view a => a.dtype
  | fresh c => c.dtype

def shape : ArrayForm → Shape
  | view a => a.shape
  | fresh c => c.shape

/-- The contents of a form. Values beyond the elements of the shape are stored but
not read. -/
def contents (form : ArrayForm) (store : BufferStore) : Contents :=
  match form with
  | view a => a.contents store
  | fresh c => c.trim

/-- The value of a form without axes. -/
def scalar? (form : ArrayForm) (store : BufferStore) : Option Scalar :=
  match form with
  | view a => a.scalar? store
  | fresh c => c.scalar?

/-- The array of a form; only fresh contents take new storage. -/
def realize (form : ArrayForm) (store : BufferStore) : NdArray × BufferStore :=
  match form with
  | view a => (a, store)
  | fresh c => NdArray.allocate store c

end ArrayForm

end ArrayBridge
