import ArrayBridge.NdArray
import ArrayBridge.Slice

/-! Indexing of strided arrays.

An index expression has one selector for each axis; missing trailing selectors
select whole axes. If all selectors are positions and slices, the selection is a
view. If one of them is an index array or a mask, the selected elements are
gathered: the axes with positions, index arrays and masks are replaced by the
common shape of their index arrays. This block stands where those axes were if
they are neighbours, and before all other axes otherwise. -/

namespace ArrayBridge

/-- What is selected along one axis. -/
inductive Selector where
  | at (index : Int64)
  | slice (bounds : SliceBounds)
  /-- An integer index array, given by its values in row-major order. -/
  | indices (values : Array Int64) (shape : Shape)
  | mask (flags : Array Bool)
  deriving DecidableEq, Inhabited

/-- A selector that was resolved on its axis. -/
inductive AxisSelection where
  | at (position : Nat)
  | range (range : SliceRange)
  | picked (positions : Array Nat) (shape : Shape)
  deriving DecidableEq, Inhabited

/-- The positions of the flags that are set. -/
def maskPositions (flags : Array Bool) : Array Nat :=
  (Array.range flags.size).filter fun i => flags.getD i false

namespace Selector

/-- The selector of a whole axis. -/
def all : Selector := slice .full

/-- A one-dimensional index array. -/
def ofIndices (values : List Int64) : Selector := indices values.toArray [values.length]

/-- Resolves a selector on the axis with the given number and length. -/
def resolve (selector : Selector) (axis size : Nat) : Except Exception AxisSelection :=
  match selector with
  | .at index => return .at (← resolvePosition index size axis)
  | slice bounds => return .range (← bounds.resolve size)
  | indices values shape => return .picked (← values.mapM (resolvePosition · size axis)) shape
  | mask flags =>
    if flags.size ≠ size then .error (.maskLength axis size flags.size)
    else
      let positions := maskPositions flags
      return .picked positions [positions.size]

/-- Resolves selectors on consecutive axes, the first of which has the given
number. The first axis that fails decides the failure. -/
def resolveFrom : Nat → List Selector → Shape → Except Exception (List AxisSelection)
  | axis, selector :: selectors, size :: sizes => do
    let first ← selector.resolve axis size
    let rest ← resolveFrom (axis + 1) selectors sizes
    return first :: rest
  | _, _, _ => return []

end Selector

namespace AxisSelection

def isPicked : AxisSelection → Bool
  | picked _ _ => true
  | _ => false

def isRange : AxisSelection → Bool
  | range _ => true
  | _ => false

/-- The shape of the index array that an axis contributes to a gathering. A
single position is an index array without axes. -/
def indexShape? : AxisSelection → Option Shape
  | .at _ => some []
  | picked _ shape => some shape
  | range _ => none

/-- The length of the axis that a slice leaves in the result. -/
def count? : AxisSelection → Option Nat
  | range r => some r.count
  | _ => none

/-- Whether the axes without a slice are neighbours. -/
def pickedAdjacent (axes : List AxisSelection) : Bool :=
  ((axes.dropWhile isRange).dropWhile (! ·.isRange)).all isRange

/-- How many sliced axes come before the block of picked axes in the result. -/
def leadingRanges (axes : List AxisSelection) : Nat :=
  if pickedAdjacent axes then (axes.takeWhile isRange).length else 0

/-- The element of an index array that a coordinate block selects. The shape of
the index array is aligned with the last axes of the block. -/
def blockPosition (shape : Shape) (block : List Nat) : Nat :=
  (shape.zip (block.drop (block.length - shape.length))).foldl
    (fun flat (d, i) => flat * d + if d = 1 then 0 else i) 0

/-- The index in the source of one result element: `block` holds its coordinates
on the common index shape, `coordinates` those on the sliced axes. -/
def sourceIndex : List AxisSelection → (block coordinates : List Nat) → List Nat
  | [], _, _ => []
  | .at position :: axes, block, coordinates => position :: sourceIndex axes block coordinates
  | picked positions shape :: axes, block, coordinates =>
    positions.getD (blockPosition shape block) 0 :: sourceIndex axes block coordinates
  | range r :: axes, block, coordinates =>
    (r.position (coordinates.headD 0)).toNat :: sourceIndex axes block coordinates.tail

end AxisSelection

/-- Where the elements of a selection are. -/
inductive Located where
  /-- A view of the same storage. -/
  | view (array : NdArray)
  /-- The cells of the selected elements in row-major order. -/
  | gather (shape : Shape) (offsets : Array Nat)
  deriving Inhabited

namespace Located

def shape : Located → Shape
  | view a => a.shape
  | gather shape _ => shape

/-- The cells of the selected elements in row-major order. -/
def offsets : Located → Array Nat
  | view a => a.offsets
  | gather _ offsets => offsets

end Located

namespace NdArray

/-- The view that positions and slices select; `axes` are the resolved selectors
with the strides of their axes. -/
def viewAlong : List (AxisSelection × Int) → Shape × List Int × Int
  | [] => ([], [], 0)
  | (.range r, stride) :: axes =>
    let (shape, strides, offset) := viewAlong axes
    (r.count :: shape, stride * r.step :: strides,
      (if 0 < r.count then r.start * stride else 0) + offset)
  | (.at position, stride) :: axes =>
    let (shape, strides, offset) := viewAlong axes
    (shape, strides, position * stride + offset)
  | (.picked _ _, _) :: axes => viewAlong axes

/-- The view that resolved positions and slices select. -/
def view (a : NdArray) (axes : List AxisSelection) : NdArray :=
  let (shape, strides, offset) := viewAlong (axes.zip a.strides)
  ⟨a.buffer, a.dtype, shape, strides, ((a.offset : Int) + offset).toNat⟩

/-- Gathers the elements that resolved selectors select, at least one of which
is an index array or a mask. -/
def gather (a : NdArray) (axes : List AxisSelection) : Except Exception Located := do
  let indexShapes := axes.filterMap AxisSelection.indexShape?
  let common ← match Shape.joinAll? indexShapes with
    | some common => pure common
    | none => throw (.indexShapeMismatch indexShapes)
  let counts := axes.filterMap AxisSelection.count?
  let lead := AxisSelection.leadingRanges axes
  let shape : Shape := counts.take lead ++ common ++ counts.drop lead
  let _ ← shape.checkedSize
  let offsets := shape.indices.map fun index =>
    let block := (index.drop lead).take common.length
    let coordinates := index.take lead ++ index.drop (lead + common.length)
    a.offsetOf (AxisSelection.sourceIndex axes block coordinates)
  return .gather shape offsets

/-- Resolves an index expression. -/
def locate (a : NdArray) (selectors : List Selector) : Except Exception Located := do
  if a.rank < selectors.length then throw (.tooManyIndices a.rank selectors.length)
  let selectors := selectors ++ List.replicate (a.rank - selectors.length) Selector.all
  let axes ← Selector.resolveFrom 0 selectors a.shape
  if axes.any AxisSelection.isPicked then a.gather axes
  else return .view (a.view axes)

/-- The array that an index expression selects: a view, or a copy of the
gathered elements. -/
def select (a : NdArray) (store : BufferStore) (selectors : List Selector) :
    Except Exception ArrayForm := do
  match ← a.locate selectors with
  | .view v => return .view v
  | .gather shape offsets =>
    shape.checkStrides
    return .fresh ⟨a.dtype, shape, offsets.map (store.get a.buffer)⟩

/-- The cell writes that assign contents to a selection. They are all known
before the first of them happens, so contents that were read from the same
buffer are those from before the assignment. -/
def assignment (a : NdArray) (selectors : List Selector) (value : Contents) :
    Except Exception (List (Nat × Scalar)) := do
  let located ← a.locate selectors
  let values ← value.broadcastTo located.shape
  return located.offsets.toList.zip values

/-- Assigns contents to a selection. -/
def assign (a : NdArray) (store : BufferStore) (selectors : List Selector) (value : Contents) :
    Except Exception BufferStore := do
  let writes ← a.assignment selectors value
  return store.setAll a.buffer writes

end NdArray

end ArrayBridge
