import ArrayBridge.Proofs.Creation

/-! Transposed arrays.

The axes of an array in the opposite order: the element at an index is that at the index read
backwards. The result has cells of its own, in the row-major order of its shape, so nothing of the
strides of the array is left in it. Two transpositions lead back to the shape and to the values. -/

namespace ArrayBridge

open Operation Outcome

namespace Shape

variable {shape : Shape} {index : List Nat}

theorem Contains.reverse (h : shape.Contains index) : Contains shape.reverse index.reverse := by
  induction shape generalizing index with
  | nil =>
      rw [contains_nil_iff.mp h]
      trivial
  | cons d ds ih =>
      cases index with
      | nil => exact h.elim
      | cons i is =>
          have hLength : is.reverse.length = ds.reverse.length := by
            rw [List.length_reverse, List.length_reverse, h.2.length_eq]
          rw [List.reverse_cons, List.reverse_cons, contains_append, List.take_left' hLength,
            List.drop_left' hLength]
          exact ⟨ih h.2, h.1, trivial⟩

/-- An index lies inside the shape that is read backwards if it does so read backwards itself. -/
theorem contains_reverse : Contains shape.reverse index ↔ shape.Contains index.reverse := by
  refine ⟨fun h => ?_, fun h => ?_⟩
  · simpa using h.reverse
  · simpa using h.reverse

end Shape

namespace Contents

variable {c : Contents}

theorem Regular.dtype_get (h : c.Regular) (i : Nat) : (c.get i).dtype = c.dtype := by
  rw [get, Array.getD_eq_getD_getElem?]
  cases hValue : c.values[i]? with
  | none => cases c.dtype <;> rfl
  | some value => exact h.dtype_eq value (Array.mem_of_getElem? hValue)

theorem element_transpose {index : List Nat} (hIn : c.transpose.shape.Contains index) :
    c.transpose.element index = c.element index.reverse :=
  element_map_indices c.dtype (fun index => c.element index.reverse) hIn

theorem size_values_transpose (c : Contents) :
    c.transpose.values.size = c.transpose.shape.size := by
  simp [transpose]

theorem Regular.transpose (h : c.Regular) : c.transpose.Regular where
  size_eq := c.size_values_transpose
  dtype_eq value hValue := by
    obtain ⟨index, -, rfl⟩ := Array.mem_map.mp hValue
    exact h.dtype_get _

theorem transpose_transpose (h : c.values.size = c.shape.size) : c.transpose.transpose = c := by
  have hShape : c.transpose.transpose.shape = c.shape := List.reverse_reverse c.shape
  refine ext_element rfl hShape (size_values_transpose _) h fun index hIn => ?_
  have hBack : c.transpose.shape.Contains index.reverse := Shape.contains_reverse.mp hIn
  rw [element_transpose hIn, element_transpose hBack, List.reverse_reverse]

end Contents

namespace Engine

variable {engine : Engine} {id : ObjectId} {a : NdArray}

/-- The attribute stores the transposed contents as a new array. -/
theorem creates_transposed (h : engine.object id = .ok (.array a)) :
    engine.Creates (getAttribute id "T")
      (.array (NdArray.allocate engine.buffers (a.contents engine.buffers).transpose).1)
      (NdArray.allocate engine.buffers (a.contents engine.buffers).transpose).2 := by
  rw [Creates, getAttribute, perform_get, perform_check, h]
  rfl

/-- The transposed array of a well-formed one is an array of its own, of the same element type and
with the axes in the opposite order: the element at an index is the one at the index read backwards.
Its own transposed array has the shape and the values of the first array again, whenever it is asked
for, as long as the values of the array in between are what they were. -/
theorem getAttribute_transposes (h : engine.object id = .ok (.array a))
    (hFormed : a.WellFormed engine.buffers) :
    ∃ (b : NdArray) (store : BufferStore),
      engine.Creates (getAttribute id "T") (.array b) store ∧ b.WellFormed store ∧
      b.shape = a.shape.reverse ∧ b.dtype = a.dtype ∧
      (∀ index, b.shape.Contains index → store.get b.buffer (b.offsetOf index)
        = engine.buffers.get a.buffer (a.offsetOf index.reverse)) ∧
      ∀ (later : Engine) (name : ObjectId), later.object name = .ok (.array b) →
        b.values later.buffers = b.values store →
        ∃ (c : NdArray) (last : BufferStore),
          later.Creates (getAttribute name "T") (.array c) last ∧ c.WellFormed last ∧
          c.shape = a.shape ∧ c.dtype = a.dtype ∧ c.values last = a.values engine.buffers := by
  have hRegular := hFormed.regular_contents
  have hTransposed := hRegular.transpose
  have hContents := NdArray.contents_allocate engine.buffers hTransposed
  refine ⟨_, _, creates_transposed h, NdArray.wellFormed_allocate _ hTransposed.size_eq, rfl, rfl,
    fun index hIn => ?_, fun later name hName hValues => ?_⟩
  · have hBack : a.shape.Contains index.reverse := Shape.contains_reverse.mp hIn
    rw [← NdArray.element_contents _ hIn, hContents, Contents.element_transpose hIn,
      ← NdArray.element_contents _ hBack]
  · have hBetween : (NdArray.allocate engine.buffers (a.contents engine.buffers).transpose).1.contents
        later.buffers = (a.contents engine.buffers).transpose := by
      rw [NdArray.contents, hValues]
      exact hContents
    have hAgain := Contents.transpose_transpose hRegular.size_eq
    have hCreates := creates_transposed hName
    rw [hBetween, hAgain] at hCreates
    refine ⟨_, _, hCreates, NdArray.wellFormed_allocate _ hRegular.size_eq, rfl, rfl, ?_⟩
    exact NdArray.values_allocate later.buffers hRegular.size_eq hRegular.dtype_eq

/-- An engine with two rows of three numbers, the last row first. -/
def withRows : Engine where
  heap := ⟨#[⟨0, some ⟨1, .array ⟨⟨0⟩, .int64, [2, 3], [-3, 1], 3⟩⟩⟩], [], 1⟩
  buffers := (BufferStore.empty.allocate (.ints #[1, 2, 3, 4, 5, 6])).2
  generator := ⟨7⟩
  entropy := ⟨11⟩
  names := default

/-- Rows become columns and then rows again. -/
theorem getAttribute_transposes_rows : ∃ (b c : NdArray) (store last : BufferStore),
    withRows.Creates (getAttribute ⟨0, 0⟩ "T") (.array b) store ∧ b.shape = [3, 2] ∧
      store.get b.buffer (b.offsetOf [2, 0]) = .int 6 ∧
      Creates { withRows with heap := (withRows.heap.allocate (.array b)).2, buffers := store }
        (getAttribute ⟨1, 0⟩ "T") (.array c) last ∧
      c.shape = [2, 3] ∧ c.values last = #[.int 4, .int 5, .int 6, .int 1, .int 2, .int 3] := by
  let rows : NdArray := ⟨⟨0⟩, .int64, [2, 3], [-3, 1], 3⟩
  have hFormed : rows.WellFormed withRows.buffers :=
    .of_listing rfl ⟨_, rfl, rfl⟩ (by decide) (by decide)
  have hHere : withRows.object ⟨0, 0⟩ = .ok (.array rows) := rfl
  obtain ⟨b, store, hCreates, -, hShape, -, hElements, hAgain⟩ :=
    getAttribute_transposes hHere hFormed
  obtain ⟨c, last, hCreatesAgain, -, hShapeAgain, -, hValues⟩ :=
    hAgain { withRows with heap := (withRows.heap.allocate (.array b)).2, buffers := store } ⟨1, 0⟩
      rfl rfl
  refine ⟨b, c, store, last, hCreates, hShape, ?_, hCreatesAgain, hShapeAgain, hValues.trans ?_⟩
  · exact (hElements [2, 0] (by simp [hShape, rows])).trans rfl
  · rw [← Array.toList_inj, NdArray.toList_values]
    rfl

end Engine

end ArrayBridge
