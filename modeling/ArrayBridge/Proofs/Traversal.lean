import ArrayBridge.Proofs.HeapContents
import ArrayBridge.Proofs.RowDelivery

/-! Reading an array out row by row.

An array is read by a walk through its first axis: each step makes an object for a row, reads
the row in the same way and releases it. So for each axis there are two objects at a time, the
cursor and the row that it came to. The values come in the row-major order of the shape, by
which the storage is read without any walk, and when they are read all objects are what they
were. -/

namespace ArrayBridge

open Operation

namespace Shape

variable {shape rest : Shape} {n : Nat}

/-- The positions on the first axis are counted by signed words, and so are the elements. -/
structure Walkable (shape : Shape) : Prop where
  first : ∀ n ∈ shape.head?, n < 0x8000000000000000
  elements : shape.size < 0x8000000000000000

theorem size_counted_le (shape : Shape) : shape.counted.size ≤ shape.size := by
  induction shape with
  | nil => exact Nat.le_refl _
  | cons n rest ih =>
      have hLength := signedLength_le n
      have hHead : (signedLength n).toNat ≤ n := by omega
      exact Nat.mul_le_mul hHead ih

namespace Walkable

variable (h : Walkable (n :: rest)) (hPositive : 0 < n)
include h hPositive

/-- A row has no more elements than the array. -/
theorem size_row_lt : rest.size < 0x8000000000000000 :=
  Nat.lt_of_le_of_lt (Nat.le_mul_of_pos_left _ hPositive) h.elements

theorem row : Walkable rest.counted where
  first d hd := by
    obtain ⟨_, _, rfl⟩ := List.mem_map.mp (List.mem_of_mem_head? hd)
    rw [signedLength, Int.toNat_lt' (by decide)]
    exact Int64.toInt_lt _
  elements := Nat.lt_of_le_of_lt (size_counted_le rest) (h.size_row_lt hPositive)

/-- Lengths that do not count stand only where there are no elements. -/
theorem listing_row : rest.counted.listing = rest.listing := by
  by_cases hEmpty : 0 ∈ rest
  · have hCounted : 0 ∈ rest.counted := List.mem_map.mpr ⟨0, hEmpty, by decide⟩
    rw [listing_eq_nil hEmpty, listing_eq_nil hCounted]
  · rw [counted_eq fun d hd => Nat.lt_of_le_of_lt (le_size_of_mem hd hEmpty) (h.size_row_lt hPositive)]

end Walkable

end Shape

namespace NdArray

variable {a : NdArray} {n k : Nat} {rest : Shape} (store : BufferStore)

/-- The values of a row in row-major order. -/
def rowValues (a : NdArray) (store : BufferStore) (k : Nat) : List Scalar :=
  (Shape.listing a.shape.tail).map fun index => store.get a.buffer (a.offsetOf (k :: index))

/-- The values of an array are those of its rows. -/
theorem toList_values_rows (hShape : a.shape = n :: rest) :
    (a.values store).toList = (List.range n).flatMap (a.rowValues store) := by
  rw [toList_values, hShape, Shape.listing, List.map_flatMap]
  refine List.flatMap_congr fun k _ => ?_
  rw [rowValues, hShape, List.map_map]
  rfl

theorem values_of_point (hShape : a.shape = []) :
    a.values store = #[store.get a.buffer a.offset] := by
  rw [← Array.toList_inj, toList_values, hShape]
  simp [Shape.listing, offsetOf_nil]

/-- The view at a position on the first axis has the values of that row. -/
theorem exists_row (h : a.Anchored) (hShape : a.shape = n :: rest) (hWalkable : a.shape.Walkable)
    (hPosition : k < n) :
    ∃ v : NdArray, a.select store [.at k.toInt64] = .ok (.view v) ∧ v.Anchored ∧
      v.shape.Walkable ∧ v.rank = rest.length ∧ (v.values store).toList = a.rowValues store k := by
  rw [hShape] at hWalkable
  have hSome : 0 < n := Nat.zero_lt_of_lt hPosition
  obtain ⟨v, hSelect, hBuffer, -, hRow, hCells⟩ :=
    select_first store h hShape (hWalkable.first n rfl) hPosition
  refine ⟨v, hSelect, h.select hSelect, hRow ▸ hWalkable.row hSome, ?_, ?_⟩
  · rw [rank, hRow, Shape.counted, List.length_map]
  · rw [toList_values, rowValues, hShape, List.tail_cons, ← hWalkable.listing_row hSome, ← hRow, hBuffer]
    exact List.map_congr_left fun index hIn => by rw [hCells index (Shape.mem_listing.mp hIn)]

end NdArray

namespace Engine

section Steps

open Flatten

variable {engine next finished : Engine} {id c item : ObjectId} {depth count limit : Nat}
  {values read : Array Primitive}
  {visit : ObjectId → Array Primitive → RuntimeOp Engine (Array Primitive)}

theorem perform_read_single {value : Primitive}
    (hCount : (itemCount? id).perform engine = (.ok none, engine))
    (hValue : engine.primitive id = .ok value) :
    (Flatten.read (depth + 1) id values).perform engine = (.ok (values.push value), engine) := by
  rw [Flatten.read, perform_bind, hCount]
  dsimp only
  rw [single, perform_bind, perform_extract hValue]
  rfl

theorem perform_read_items (hCount : (itemCount? id).perform engine = (.ok (some count), engine))
    (hIterate : (iterate id).perform engine = (.ok c, next))
    (hDrain : (drain (Flatten.read depth) c (count + 1) values).perform next = (.ok read, finished)) :
    (Flatten.read (depth + 1) id values).perform engine
      = (.ok read, { finished with heap := finished.heap.release c }) := by
  have hBegin : (ForeignRuntime.iterate id : RuntimeOp Engine _).perform engine = (.ok c, next) :=
    hIterate
  have hWalk : ((drain (Flatten.read depth) c (count + 1) values).attempt :
      RuntimeOp Engine Progress).perform next = (.ok (.ok read), finished) := by
    change (match (drain (Flatten.read depth) c (count + 1) values).perform next with
      | (outcome, after) => (Except.ok outcome, after)) = _
    rw [hDrain]
  rw [Flatten.read, perform_bind, hCount]
  dsimp only
  rw [perform_bind, hBegin]
  dsimp only
  rw [perform_bind, hWalk]
  rfl

theorem perform_drain_end (hNext : (Engine.next c).perform engine = (.ok none, next)) :
    (drain visit c (limit + 1) values).perform engine = (.ok values, next) := by
  have hEnd : (ForeignRuntime.next c : RuntimeOp Engine _).perform engine = (.ok none, next) := hNext
  rw [drain, perform_bind, hEnd]
  rfl

theorem perform_drain_item (hNext : (Engine.next c).perform engine = (.ok (some item), next))
    (hVisit : (visit item values).perform next = (.ok read, finished)) :
    (drain visit c (limit + 1) values).perform engine
      = (drain visit c limit read).perform
          { finished with heap := finished.heap.release item } := by
  have hItem : (ForeignRuntime.next c : RuntimeOp Engine _).perform engine
      = (.ok (some item), next) := hNext
  have hAttempt : ((visit item values).attempt : RuntimeOp Engine Progress).perform next
      = (.ok (.ok read), finished) := by
    change (match (visit item values).perform next with
      | (outcome, after) => (Except.ok outcome, after)) = _
    rw [hVisit]
  rw [drain, perform_bind, hItem]
  dsimp only
  rw [perform_bind, hAttempt]
  rfl

end Steps

section Walk

variable {engine : Engine} {objects : ObjectId → Option Occupant} {live places references : Nat}
  {id c : ObjectId} {a v : NdArray} {n k depth : Nat} {rest : Shape} {values : Array Primitive}

/-- From every heap that stores certain objects an operation gets a result, and it leaves a heap
that stores the same objects. -/
def Reads {α : Type} (engine : Engine) (objects : ObjectId → Option Occupant) (live places : Nat)
    (op : RuntimeOp Engine α) (result : α) : Prop :=
  ∀ heap : Heap, heap.Stores objects live places → ∃ after : Heap,
    op.perform { engine with heap } = (.ok result, { engine with heap := after }) ∧
      after.Stores objects live places

/-- The immediate values of numbers. -/
def primitives (numbers : List Scalar) : Array Primitive := (numbers.map primitiveOf).toArray

theorem append_primitives (values : Array Primitive) (first second : List Scalar) :
    values ++ primitives (first ++ second) = values ++ primitives first ++ primitives second := by
  simp only [primitives, List.map_append, ← List.append_toArray, Array.append_assoc]

theorem reads_number {value : Scalar} (hId : objects id = some ⟨references, .ofScalar value⟩) :
    engine.Reads objects live places (Flatten.read (depth + 1) id values)
      (values ++ primitives [value]) := by
  intro heap hStores
  have hGet : heap.get? id = some (.ofScalar value) := hStores.get?_eq hId
  have hValue : ({ engine with heap } : Engine).primitive id = .ok (primitiveOf value) :=
    primitive_of_number hGet
  refine ⟨heap, ?_, hStores⟩
  rw [perform_read_single ?_ hValue]
  · rfl
  · rw [perform_itemCount?, arrayInfo?_of_number hGet, hValue]
    cases value <;> rfl

/-- An array without axes is read as the number that it is. -/
theorem reads_point (hId : objects id = some ⟨references, .array a⟩) (hShape : a.shape = []) :
    engine.Reads objects live places (Flatten.read (depth + 1) id values)
      (values ++ primitives (a.values engine.buffers).toList) := by
  intro heap hStores
  have hGet : heap.get? id = some (.array a) := hStores.get?_eq hId
  have hValue : ({ engine with heap } : Engine).primitive id
      = .ok (primitiveOf (engine.buffers.get a.buffer a.offset)) :=
    primitive_of_scalar hGet (if_pos hShape)
  refine ⟨heap, ?_, hStores⟩
  rw [perform_read_single ?_ hValue, NdArray.values_of_point _ hShape]
  · rfl
  · rw [perform_itemCount?, arrayInfo?_of_array hGet]
    dsimp only
    rw [hShape]
    rfl

/-- The objects during a walk through the rows of an array: the cursor holds another reference
to it. -/
def walking (objects : ObjectId → Option Occupant) (id c : ObjectId) (references : Nat)
    (a : NdArray) (n k : Nat) : ObjectId → Option Occupant :=
  Function.update (Function.update objects id (some ⟨references + 2, .array a⟩)) c
    (some ⟨1, .iterator ⟨id, k, n⟩⟩)

theorem walking_cursor : walking objects id c references a n k c
    = some ⟨1, .iterator ⟨id, k, n⟩⟩ := Function.update_self ..

theorem walking_source (hDistinct : id ≠ c) :
    walking objects id c references a n k id = some ⟨references + 2, .array a⟩ := by
  rw [walking, Function.update_of_ne hDistinct, Function.update_self]

theorem viewResult_of_point (hShape : v.shape = []) :
    engine.viewResult v = .ofScalar (engine.buffers.get v.buffer v.offset) := by
  rw [viewResult, NdArray.scalar?, if_pos hShape]

theorem viewResult_of_axes (hShape : v.shape ≠ []) : engine.viewResult v = .array v := by
  rw [viewResult, NdArray.scalar?, if_neg hShape]

theorem children_viewResult (engine : Engine) (v : NdArray) : (engine.viewResult v).children = [] := by
  by_cases hShape : v.shape = []
  · rw [viewResult_of_point hShape]
    cases engine.buffers.get v.buffer v.offset <;> rfl
  · rw [viewResult_of_axes hShape]
    rfl

/-- Whatever there is room for is read by a visit, if it is a row of an array with so many axes. -/
def ReadsViews (engine : Engine) (rank places : Nat)
    (visit : ObjectId → Array Primitive → RuntimeOp Engine (Array Primitive)) : Prop :=
  ∀ (v : NdArray) (objects : ObjectId → Option Occupant) (live : Nat) (row : ObjectId)
    (values : Array Primitive), v.Anchored → v.shape.Walkable → v.rank = rank →
    objects row = some ⟨1, engine.viewResult v⟩ → engine.Reads objects live places
      (visit row values) (values ++ primitives (v.values engine.buffers).toList)

section Rows

variable {visit : ObjectId → Array Primitive → RuntimeOp Engine (Array Primitive)}
  (hVisit : engine.ReadsViews rest.length places visit) (hDistinct : id ≠ c)
  (hAnchored : a.Anchored) (hShape : a.shape = n :: rest) (hWalkable : a.shape.Walkable)
include hVisit hDistinct hAnchored hShape hWalkable

/-- A step of the walk reads a row and releases it. -/
theorem reads_row (values : Array Primitive) (hPosition : k < n) {heap : Heap}
    (hStores : heap.Stores (walking objects id c references a n k) (live + 1) (places + 1)) :
    ∃ after : Heap, (∀ limit, (Flatten.drain visit c (limit + 1) values).perform { engine with heap }
        = (Flatten.drain visit c limit
            (values ++ primitives (a.rowValues engine.buffers k))).perform
            { engine with heap := after }) ∧
      after.Stores (walking objects id c references a n (k + 1)) (live + 1) (places + 1) := by
  obtain ⟨v, hSelect, hRowAnchored, hRowWalkable, hRank, hRow⟩ :=
    NdArray.exists_row engine.buffers hAnchored hShape hWalkable hPosition
  have hNext : (next c).perform { engine with heap }
      = (.ok (some (heap.allocate (engine.viewResult v)).1), { engine with
        heap := (heap.allocate (engine.viewResult v)).2.replace c (.iterator ⟨id, k + 1, n⟩) }) :=
    perform_next_view (hStores.get?_eq walking_cursor) (hStores.get?_eq (walking_source hDistinct))
      hPosition hSelect
  obtain ⟨hFresh, hMade⟩ := hStores.allocate (engine.viewResult v)
  -- From here on the row has any name that nothing had.
  generalize heap.allocate (engine.viewResult v) = allocated at hNext hFresh hMade
  obtain ⟨row, made⟩ := allocated
  dsimp only at hNext hFresh hMade
  have hOther : c ≠ row := by
    rintro rfl
    cases walking_cursor.symm.trans hFresh
  have hCursor : Function.update (walking objects id c references a n k) row
      (some ⟨1, engine.viewResult v⟩) c = some ⟨1, .iterator ⟨id, k, n⟩⟩ := by
    rw [Function.update_of_ne hOther, walking_cursor]
  have hMoved := hMade.replace hCursor (.iterator ⟨id, k + 1, n⟩)
  rw [Function.update_comm hOther.symm] at hMoved
  obtain ⟨visited, hRead, hVisited⟩ := hVisit v _ _ row values hRowAnchored hRowWalkable hRank
    (Function.update_self ..) _ hMoved
  have hReleased := hVisited.release_plain (Function.update_self ..) (children_viewResult engine v)
  have hVacant : Function.update (walking objects id c references a n k) c
      (some ⟨1, .iterator ⟨id, k + 1, n⟩⟩) row = none := by
    rw [Function.update_of_ne hOther.symm, hFresh]
  rw [Heap.update_none_of_fresh hVacant, walking, Function.update_idem] at hReleased
  exact ⟨_, fun limit => by rw [perform_drain_item hNext hRead, hRow], hReleased⟩

/-- The walk from a row on reads the rows that are left. -/
theorem reads_rows (values : Array Primitive) {m : Nat} (hCount : k + m = n) {heap : Heap}
    (hStores : heap.Stores (walking objects id c references a n k) (live + 1) (places + 1)) :
    ∃ after : Heap, (Flatten.drain visit c (m + 1) values).perform { engine with heap }
        = (.ok (values ++ primitives ((List.range' k m).flatMap (a.rowValues engine.buffers))),
          { engine with heap := after }) ∧
      after.Stores (walking objects id c references a n n) (live + 1) (places + 1) := by
  induction m generalizing k values heap with
  | zero =>
      obtain rfl : k = n := hCount
      refine ⟨heap, ?_, hStores⟩
      rw [perform_drain_end (perform_next_end (hStores.get?_eq walking_cursor))]
      simp [primitives]
  | succ m ih =>
      obtain ⟨stepped, hStep, hStepped⟩ :=
        reads_row hVisit hDistinct hAnchored hShape hWalkable values (by omega) hStores
      obtain ⟨after, hRest, hAfter⟩ :=
        ih (values ++ primitives (a.rowValues engine.buffers k)) (by omega) hStepped
      refine ⟨after, ?_, hAfter⟩
      rw [hStep, hRest, List.range'_succ, List.flatMap_cons, append_primitives]

end Rows

/-- The objects are back when the cursor is gone. -/
theorem walking_over (hId : objects id = some ⟨references + 1, .array a⟩) (hDistinct : id ≠ c)
    (hFresh : objects c = none) :
    Function.update (Function.update (walking objects id c references a n k) c none) id
      (some ⟨references + 1, .array a⟩) = objects := by
  have hVacant : Function.update objects id (some ⟨references + 2, .array a⟩) c = none := by
    rw [Function.update_of_ne hDistinct.symm, hFresh]
  rw [walking, Heap.update_none_of_fresh hVacant, Function.update_idem, ← hId,
    Function.update_eq_self]

/-- The rows of an array are read with a cursor that is made for them. -/
theorem reads_items (hVisit : engine.ReadsViews rest.length places (Flatten.read depth))
    (hId : objects id = some ⟨references + 1, .array a⟩) (hAnchored : a.Anchored)
    (hShape : a.shape = n :: rest) (hWalkable : a.shape.Walkable) :
    engine.Reads objects live (places + 2) (Flatten.read (depth + 1) id values)
      (values ++ primitives (a.values engine.buffers).toList) := by
  intro heap hStores
  have hGet : heap.get? id = some (.array a) := hStores.get?_eq hId
  have hCount : (Flatten.itemCount? id).perform { engine with heap }
      = (.ok (some n), { engine with heap }) := by
    rw [perform_itemCount?, arrayInfo?_of_array hGet]
    dsimp only
    rw [hShape]
    rfl
  have hIterate : (iterate id).perform { engine with heap }
      = (.ok ((heap.retain id).allocate (.iterator ⟨id, 0, n⟩)).1,
        { engine with heap := ((heap.retain id).allocate (.iterator ⟨id, 0, n⟩)).2 }) :=
    perform_iterate_array hGet hShape
  obtain ⟨hFresh, hBegun⟩ := (hStores.retain hId).allocate (.iterator ⟨id, 0, n⟩)
  -- From here on the cursor has any name that nothing had.
  generalize (heap.retain id).allocate (.iterator ⟨id, 0, n⟩) = allocated at hIterate hFresh hBegun
  obtain ⟨c, begun⟩ := allocated
  dsimp only at hIterate hFresh hBegun
  have hDistinct : id ≠ c := by
    rintro rfl
    rw [Function.update_self] at hFresh
    cases hFresh
  rw [Function.update_of_ne hDistinct.symm] at hFresh
  obtain ⟨walked, hDrain, hWalked⟩ :=
    reads_rows hVisit hDistinct hAnchored hShape hWalkable values (Nat.zero_add n) hBegun
  have hOver := hWalked.release_owner walking_cursor rfl hDistinct (walking_source hDistinct)
  rw [walking_over hId hDistinct hFresh] at hOver
  refine ⟨walked.release c, ?_, hOver⟩
  rw [perform_read_items hCount hIterate hDrain, NdArray.toList_values_rows _ hShape,
    List.range_eq_range']

/-- An array is read in row-major order, and everything is as before. -/
theorem reads_array (hId : objects id = some ⟨references + 1, .array a⟩) (hAnchored : a.Anchored)
    (hWalkable : a.shape.Walkable) (hDepth : a.rank < depth) (hRoom : 2 * a.rank ≤ places) :
    engine.Reads objects live places (Flatten.read depth id values)
      (values ++ primitives (a.values engine.buffers).toList) := by
  induction depth generalizing objects live places references id a values with
  | zero => cases hDepth
  | succ depth ih =>
      cases hShape : a.shape with
      | nil => exact reads_point hId hShape
      | cons n rest =>
          rw [NdArray.rank, hShape, List.length_cons] at hDepth hRoom
          obtain ⟨left, rfl⟩ : ∃ left, places = left + 2 := ⟨places - 2, by omega⟩
          refine reads_items (fun v objects live row values hRowAnchored hRowWalkable hRank hRow => ?_)
            hId hAnchored hShape hWalkable
          by_cases hPoint : v.shape = []
          · obtain ⟨lower, rfl⟩ : ∃ lower, depth = lower + 1 := ⟨depth - 1, by omega⟩
            rw [viewResult_of_point hPoint] at hRow
            rw [NdArray.values_of_point _ hPoint]
            exact reads_number hRow
          · rw [viewResult_of_axes hPoint] at hRow
            exact ih hRow hRowAnchored hRowWalkable (by omega) (by omega)

end Walk

end Engine

end ArrayBridge
