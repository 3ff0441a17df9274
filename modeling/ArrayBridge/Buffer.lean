import ArrayBridge.Element

/-! Element storage.

A buffer is a fixed number of cells of one element type. Arrays do not own
buffers: they name them, and two arrays share storage exactly if they name the
same buffer. Buffers are never removed from the store, so a name always denotes
the same cells. The addresses only tell cells of different buffers apart. -/

namespace ArrayBridge

/-- The cells of a buffer, all of one element type. -/
inductive Buffer where
  | bools (cells : Array Bool)
  | ints (cells : Array Int64)
  | floats (cells : Array Float)
  deriving Inhabited

namespace Buffer

def dtype : Buffer → DType
  | bools _ => .bool
  | ints _ => .int64
  | floats _ => .float64

def size : Buffer → Nat
  | bools cells => cells.size
  | ints cells => cells.size
  | floats cells => cells.size

/-- A buffer that holds the given values, cast to the given type. -/
def ofValues (dtype : DType) (values : Array Scalar) : Buffer :=
  match dtype with
  | .bool => bools (values.map Scalar.toBool)
  | .int64 => ints (values.map Scalar.toInt64)
  | .float64 => floats (values.map Scalar.toFloat)

def get? : Buffer → Nat → Option Scalar
  | bools cells, i => cells[i]?.map .bool
  | ints cells, i => cells[i]?.map .int
  | floats cells, i => cells[i]?.map .float

/-- The value of a cell; a position outside of the buffer reads as zero. -/
def get (b : Buffer) (i : Nat) : Scalar := (b.get? i).getD (.zero b.dtype)

/-- Stores a value, cast to the type of the buffer. A position outside of the
buffer is ignored. -/
def set : Buffer → Nat → Scalar → Buffer
  | bools cells, i, value => bools (cells.setIfInBounds i value.toBool)
  | ints cells, i, value => ints (cells.setIfInBounds i value.toInt64)
  | floats cells, i, value => floats (cells.setIfInBounds i value.toFloat)

/-- Stores values one after the other; a later value replaces an earlier one at
the same position. -/
def setAll (b : Buffer) (writes : List (Nat × Scalar)) : Buffer :=
  writes.foldl (fun b (i, value) => b.set i value) b

end Buffer

/-- The name of a buffer. -/
structure BufferId where
  index : Nat
  deriving DecidableEq, Inhabited

/-- A buffer and the address of its first cell. -/
structure StoredBuffer where
  buffer : Buffer
  address : Nat
  deriving Inhabited

/-- All buffers, in the order of their allocation. -/
structure BufferStore where
  stored : Array StoredBuffer
  /-- The first address that no buffer occupies yet. -/
  frontier : Nat
  deriving Inhabited

namespace BufferStore

/-- The address of the first buffer of a store. -/
def firstAddress : Nat := 0x100000000

/-- The distance that addresses of buffers keep. -/
def alignment : Nat := 16

def empty : BufferStore := ⟨#[], firstAddress⟩

/-- The address that a buffer gets. A buffer without cells occupies no memory:
its address is the size of one element of its type. -/
def placement (store : BufferStore) (buffer : Buffer) : Nat :=
  if buffer.size = 0 then buffer.dtype.itemSize else store.frontier

/-- Adds a buffer. -/
def allocate (store : BufferStore) (buffer : Buffer) : BufferId × BufferStore :=
  let bytes := buffer.size * buffer.dtype.itemSize
  let address := store.placement buffer
  match store with
  | ⟨stored, frontier⟩ =>
    (⟨stored.size⟩,
      ⟨stored.push ⟨buffer, address⟩, frontier + (bytes / alignment + 1) * alignment⟩)

def buffer? (store : BufferStore) (id : BufferId) : Option Buffer :=
  (store.stored[id.index]?).map StoredBuffer.buffer

def address (store : BufferStore) (id : BufferId) : Nat :=
  ((store.stored[id.index]?).map StoredBuffer.address).getD 0

/-- The value of a cell; a cell that does not exist reads as a false Boolean. -/
def get (store : BufferStore) (id : BufferId) (i : Nat) : Scalar :=
  ((store.buffer? id).map fun b => b.get i).getD default

/-- Stores values in a buffer and leaves all other buffers as they are. -/
def setAll (store : BufferStore) (id : BufferId) (writes : List (Nat × Scalar)) : BufferStore :=
  match store with
  | ⟨stored, frontier⟩ =>
    ⟨stored.modify id.index fun s => { s with buffer := s.buffer.setAll writes }, frontier⟩

end BufferStore

end ArrayBridge
