import ArrayBridge.NdArray.Reshape
import ArrayBridge.Proofs.Addressing
import ArrayBridge.Proofs.Broadcasting
import ArrayBridge.Proofs.Outcome
import Mathlib.Algebra.Group.Nat.Defs

/-! Well-formed arrays.

An array is well-formed if every index inside its shape has a cell of its own in
the buffer. This is an invariant of the array and the store together: later
allocations and writes keep it, since buffers are never removed and never change
their size or element type. -/

namespace ArrayBridge

namespace Buffer

@[simp] theorem dtype_ofValues (dtype : DType) (values : Array Scalar) :
    (ofValues dtype values).dtype = dtype := by
  cases dtype <;> rfl

@[simp] theorem size_ofValues (dtype : DType) (values : Array Scalar) :
    (ofValues dtype values).size = values.size := by
  cases dtype <;> simp [ofValues, size]

/-- The cells hold the values, cast to the type of the buffer. -/
theorem get_ofValues (dtype : DType) (values : Array Scalar) (i : Nat) :
    (ofValues dtype values).get i = (values.getD i (.zero dtype)).cast dtype := by
  rw [get, dtype_ofValues, Array.getD_eq_getD_getElem?]
  cases dtype <;> simp [ofValues, get?] <;> cases values[i]? <;> rfl

/-- What a cell holds is of the type of its buffer. -/
theorem dtype_get (b : Buffer) (i : Nat) : (b.get i).dtype = b.dtype := by
  cases b with
  | bools cells | ints cells | floats cells =>
      rw [get, get?]
      cases cells[i]? <;> rfl

@[simp] theorem dtype_set (b : Buffer) (i : Nat) (value : Scalar) : (b.set i value).dtype = b.dtype := by
  cases b <;> rfl

@[simp] theorem size_set (b : Buffer) (i : Nat) (value : Scalar) : (b.set i value).size = b.size := by
  cases b <;> simp [set, size]

theorem setAll_cons (b : Buffer) (write : Nat × Scalar) (writes : List (Nat × Scalar)) :
    b.setAll (write :: writes) = (b.set write.1 write.2).setAll writes := rfl

/-- Writes change neither the element type nor the number of cells. -/
theorem dtype_size_setAll (b : Buffer) (writes : List (Nat × Scalar)) :
    (b.setAll writes).dtype = b.dtype ∧ (b.setAll writes).size = b.size := by
  induction writes generalizing b with
  | nil => exact ⟨rfl, rfl⟩
  | cons write writes ih =>
      obtain ⟨hType, hSize⟩ := ih (b.set write.1 write.2)
      rw [setAll_cons, hType, hSize]
      exact ⟨dtype_set _ _ _, size_set _ _ _⟩

end Buffer

namespace BufferStore

/-- The number of cells of a buffer; none if there is no such buffer. -/
def cellCount (store : BufferStore) (id : BufferId) : Nat :=
  ((store.buffer? id).map Buffer.size).getD 0

/-- A store keeps another one if all buffers of that one are still there with
their element type and number of cells. Their values may differ. -/
def Keeps (earlier later : BufferStore) : Prop :=
  ∀ id buffer, earlier.buffer? id = some buffer → ∃ now, later.buffer? id = some now ∧
    now.dtype = buffer.dtype ∧ now.size = buffer.size

theorem Keeps.refl (store : BufferStore) : store.Keeps store :=
  fun _ buffer h => ⟨buffer, h, rfl, rfl⟩

theorem Keeps.cellCount_eq {earlier later : BufferStore} (h : earlier.Keeps later) {id : BufferId}
    {buffer : Buffer} (hBuffer : earlier.buffer? id = some buffer) :
    later.cellCount id = earlier.cellCount id := by
  obtain ⟨now, hNow, -, hSize⟩ := h id buffer hBuffer
  rw [cellCount, cellCount, hBuffer, hNow, Option.map_some, Option.map_some, hSize]

theorem buffer?_allocate_fst (store : BufferStore) (buffer : Buffer) :
    (store.allocate buffer).2.buffer? (store.allocate buffer).1 = some buffer := by
  simp [allocate, buffer?]

theorem keeps_allocate (store : BufferStore) (buffer : Buffer) :
    store.Keeps (store.allocate buffer).2 := by
  intro id old h
  obtain ⟨entry, hEntry, rfl⟩ := Option.map_eq_some_iff.mp h
  obtain ⟨hIndex, hValue⟩ := Array.getElem?_eq_some_iff.mp hEntry
  refine ⟨entry.buffer, ?_, rfl, rfl⟩
  simp [allocate, buffer?, Array.getElem?_push_lt hIndex, hValue]

theorem buffer?_setAll (store : BufferStore) (id other : BufferId)
    (writes : List (Nat × Scalar)) :
    (store.setAll id writes).buffer? other =
      (store.buffer? other).map fun b => if other = id then b.setAll writes else b := by
  simp only [setAll, buffer?, Array.getElem?_modify]
  by_cases hId : other = id
  · subst hId
    simp only [if_true, Option.map_map]
    rfl
  · have hIndex : id.index ≠ other.index := by
      cases id
      cases other
      simp_all [eq_comm]
    simp [hIndex, hId, Function.comp_def]

theorem keeps_setAll (store : BufferStore) (id : BufferId) (writes : List (Nat × Scalar)) :
    store.Keeps (store.setAll id writes) := by
  intro other buffer h
  rw [buffer?_setAll, h]
  refine ⟨_, rfl, ?_⟩
  split_ifs
  · exact buffer.dtype_size_setAll writes
  · exact ⟨rfl, rfl⟩

end BufferStore

namespace NdArray

/-- The cell of an index as a number of any sign. -/
def cell (a : NdArray) (index : List Nat) : Int := a.offset + displacement index a.strides

/-- One stride for each axis, and no index inside the shape leads to a cell before the
first one. -/
structure Anchored (a : NdArray) : Prop where
  strides_length : a.strides.length = a.shape.length
  nonneg : ∀ index, a.shape.Contains index → 0 ≤ a.cell index

/-- One stride for each axis, a buffer of the array's element type, and for each
index inside the shape a cell of that buffer that no other index has. -/
structure WellFormed (a : NdArray) (store : BufferStore) : Prop where
  strides_length : a.strides.length = a.shape.length
  stored : ∃ buffer, store.buffer? a.buffer = some buffer ∧ buffer.dtype = a.dtype
  inside : ∀ index, a.shape.Contains index →
    0 ≤ a.cell index ∧ a.cell index < store.cellCount a.buffer
  apart : ∀ i j, a.shape.Contains i → a.shape.Contains j → a.cell i = a.cell j → i = j

theorem offsetOf_eq (a : NdArray) (index : List Nat) : a.offsetOf index = (a.cell index).toNat :=
  rfl

theorem displacement_rowMajorStrides (shape : Shape) (index : List Nat) :
    displacement index (rowMajorStrides shape) = Shape.dot index shape.strides := by
  have hStrides (strides : List Nat) :
      displacement index (strides.map Int.ofNat) = Shape.dot index strides := by
    induction index generalizing strides with
    | nil => cases strides <;> rfl
    | cons i is ih =>
        cases strides with
        | nil => rfl
        | cons s ss => simp [displacement, Shape.dot, ih]
  exact hStrides shape.strides

theorem displacement_zeros (shape : Shape) (strides : List Int) :
    displacement (shape.map fun _ => 0) strides = 0 := by
  induction shape generalizing strides with
  | nil => cases strides <;> rfl
  | cons d ds ih =>
      cases strides with
      | nil => rfl
      | cons s ss =>
          rw [List.map_cons, displacement, ih, Int.natCast_zero, Int.zero_mul, Int.zero_add]

/-- Rows one after the other start at the offset. -/
theorem anchored_rowMajor (buffer : BufferId) (dtype : DType) (shape : Shape) (offset : Nat) :
    Anchored ⟨buffer, dtype, shape, rowMajorStrides shape, offset⟩ where
  strides_length := by simp [rowMajorStrides]
  nonneg index _ := by
    rw [cell, displacement_rowMajorStrides]
    exact Int.add_nonneg (Int.natCast_nonneg _) (Int.natCast_nonneg _)

namespace WellFormed

variable {a : NdArray} {store later : BufferStore}

theorem anchored (h : a.WellFormed store) : a.Anchored :=
  ⟨h.strides_length, fun index hIn => (h.inside index hIn).1⟩

theorem offsetOf_lt (h : a.WellFormed store) {index : List Nat} (hIn : a.shape.Contains index) :
    a.offsetOf index < store.cellCount a.buffer := by
  have := h.inside index hIn
  rw [offsetOf_eq]
  omega

theorem offsetOf_injective (h : a.WellFormed store) {i j : List Nat} (hi : a.shape.Contains i)
    (hj : a.shape.Contains j) (hEq : a.offsetOf i = a.offsetOf j) : i = j := by
  have hLeft := (h.inside i hi).1
  have hRight := (h.inside j hj).1
  rw [offsetOf_eq, offsetOf_eq] at hEq
  exact h.apart i j hi hj (by omega)

/-- Allocations and writes keep arrays well-formed. -/
theorem mono (h : a.WellFormed store) (hKeeps : store.Keeps later) : a.WellFormed later := by
  obtain ⟨buffer, hBuffer, hType⟩ := h.stored
  obtain ⟨now, hNow, hNowType, -⟩ := hKeeps _ _ hBuffer
  refine ⟨h.strides_length, ⟨now, hNow, hNowType.trans hType⟩, ?_, h.apart⟩
  rw [hKeeps.cellCount_eq hBuffer]
  exact h.inside

end WellFormed

section Enumeration

theorem toList_offsets (a : NdArray) : a.offsets.toList = a.shape.listing.map a.offsetOf := by
  rw [offsets, Array.toList_map, Shape.toList_indices]

@[simp] theorem size_offsets (a : NdArray) : a.offsets.size = a.size := by
  rw [offsets, Array.size_map, Shape.size_indices]
  rfl

theorem mem_offsets {a : NdArray} {o : Nat} :
    o ∈ a.offsets ↔ ∃ index, a.shape.Contains index ∧ a.offsetOf index = o := by
  rw [← Array.mem_toList_iff, toList_offsets, List.mem_map]
  simp only [Shape.mem_listing]

/-- Whether an array is well-formed shows in the list of its indices. -/
theorem WellFormed.of_listing {a : NdArray} {store : BufferStore}
    (hStrides : a.strides.length = a.shape.length)
    (hStored : ∃ buffer, store.buffer? a.buffer = some buffer ∧ buffer.dtype = a.dtype)
    (hInside : ∀ index ∈ a.shape.listing, 0 ≤ a.cell index ∧ a.cell index < store.cellCount a.buffer)
    (hApart : ∀ i ∈ a.shape.listing, ∀ j ∈ a.shape.listing, a.cell i = a.cell j → i = j) :
    a.WellFormed store where
  strides_length := hStrides
  stored := hStored
  inside index hIn := hInside index (Shape.mem_listing.mpr hIn)
  apart i j hi hj := hApart i (Shape.mem_listing.mpr hi) j (Shape.mem_listing.mpr hj)

/-- The elements of a well-formed array lie in as many different cells. -/
theorem WellFormed.nodup_offsets {a : NdArray} {store : BufferStore} (h : a.WellFormed store) :
    a.offsets.toList.Nodup := by
  rw [toList_offsets]
  refine (Shape.nodup_listing a.shape).map_on fun i hi j hj => ?_
  exact h.offsetOf_injective (Shape.mem_listing.mp hi) (Shape.mem_listing.mp hj)

@[simp] theorem size_values (a : NdArray) (store : BufferStore) : (a.values store).size = a.size := by
  simp [values]

theorem toList_values (store : BufferStore) (a : NdArray) : (a.values store).toList
    = a.shape.listing.map fun index => store.get a.buffer (a.offsetOf index) := by
  rw [values, Array.toList_map, toList_offsets, List.map_map]
  rfl

/-- The values of an array that stands on a buffer of its element type are of that type. -/
theorem dtype_of_mem_values {a : NdArray} {store : BufferStore} {value : Scalar}
    (hStored : ∃ buffer, store.buffer? a.buffer = some buffer ∧ buffer.dtype = a.dtype)
    (hValue : value ∈ a.values store) : value.dtype = a.dtype := by
  obtain ⟨buffer, hBuffer, hType⟩ := hStored
  rw [← Array.mem_toList_iff, toList_values] at hValue
  obtain ⟨index, -, rfl⟩ := List.mem_map.mp hValue
  rw [BufferStore.get, hBuffer, ← hType]
  exact buffer.dtype_get _

/-- The value at the row-major position of an index is that of its cell. -/
theorem element_contents {a : NdArray} (store : BufferStore) {index : List Nat}
    (hIn : a.shape.Contains index) :
    (a.contents store).element index = store.get a.buffer (a.offsetOf index) := by
  have hValues : a.values store
      = a.shape.indices.map fun index => store.get a.buffer (a.offsetOf index) := by
    rw [values, offsets, Array.map_map]
    rfl
  rw [contents, hValues]
  exact Contents.element_map_indices a.dtype _ hIn

end Enumeration

section Contiguous

variable {a : NdArray}

theorem isContiguous_iff :
    a.isContiguous = true ↔ a.size ≤ 1 ∨ a.strides = rowMajorStrides a.shape := by
  simp only [isContiguous, Bool.or_eq_true, decide_eq_true_eq]

theorem isContiguous_of_rowMajor (h : a.strides = rowMajorStrides a.shape) :
    a.isContiguous = true :=
  isContiguous_iff.mpr (.inr h)

theorem offsetOf_of_rowMajor (h : a.strides = rowMajorStrides a.shape) (index : List Nat) :
    a.offsetOf index = a.offset + Shape.dot index a.shape.strides := by
  rw [offsetOf_eq, cell, h, displacement_rowMajorStrides, ← Int.natCast_add, Int.toNat_natCast]

/-- The cells of a contiguous array follow one another. With one element there is one cell, and
without any there is none, whatever the strides are. -/
theorem toList_offsets_of_isContiguous (h : a.isContiguous = true) :
    a.offsets.toList = (List.range a.size).map (a.offset + ·) := by
  rw [toList_offsets]
  rcases isContiguous_iff.mp h with hFew | hStrides
  · by_cases hEmpty : 0 ∈ a.shape
    · rw [Shape.listing_eq_nil hEmpty, size, Shape.size_eq_zero_iff.mpr hEmpty]
      rfl
    · have hFirst := Shape.contains_zeros hEmpty
      have hOne : a.shape.size = 1 := by
        have hSome := Nat.pos_of_ne_zero (mt Shape.size_eq_zero_iff.mp hEmpty)
        rw [size] at hFew
        omega
      obtain ⟨only, hOnly⟩ :=
        List.length_eq_one_iff.mp ((Shape.length_listing a.shape).trans hOne)
      obtain rfl : a.shape.map (fun _ => 0) = only :=
        List.mem_singleton.mp (hOnly ▸ Shape.mem_listing.mpr hFirst)
      rw [hOnly, size, hOne, List.map_singleton, offsetOf_eq, cell, displacement_zeros,
        Int.add_zero, Int.toNat_natCast]
      rfl
  · rw [size, ← Shape.map_dot_listing, List.map_map]
    exact List.map_congr_left fun index _ => offsetOf_of_rowMajor hStrides index

theorem toList_values_of_isContiguous {store : BufferStore} (h : a.isContiguous = true) :
    (a.values store).toList
      = (List.range a.size).map fun k => store.get a.buffer (a.offset + k) := by
  rw [values, Array.toList_map, toList_offsets_of_isContiguous h, List.map_map]
  rfl

end Contiguous

section RowMajor

/-- A row-major array that starts at an offset is well-formed if its buffer has
that many cells from there on. -/
theorem wellFormed_rowMajor {store : BufferStore} {id : BufferId} {buffer : Buffer}
    (shape : Shape) (offset : Nat) (hBuffer : store.buffer? id = some buffer)
    (hRoom : 0 ∉ shape → offset + shape.size ≤ buffer.size) :
    WellFormed ⟨id, buffer.dtype, shape, rowMajorStrides shape, offset⟩ store := by
  have hCell (index : List Nat) :
      cell ⟨id, buffer.dtype, shape, rowMajorStrides shape, offset⟩ index
        = offset + Shape.dot index shape.strides := by
    rw [cell, displacement_rowMajorStrides]
  have hCount : store.cellCount id = buffer.size := by
    rw [BufferStore.cellCount, hBuffer]
    rfl
  refine ⟨by simp [rowMajorStrides], ⟨buffer, hBuffer, rfl⟩, ?_, ?_⟩
  · intro index hIn
    have hLess := Shape.dot_strides_lt hIn
    have hFits := hRoom hIn.zero_notMem
    rw [hCell, hCount]
    dsimp only at hLess
    omega
  · intro i j hi hj hEq
    rw [hCell, hCell] at hEq
    have hDot : Shape.dot i shape.strides = Shape.dot j shape.strides := by omega
    exact Shape.dot_strides_injective hi hj hDot

/-- Contents with as many values as their shape has elements are stored as a
well-formed array. -/
theorem wellFormed_allocate (store : BufferStore) {c : Contents}
    (h : c.values.size = c.shape.size) :
    (allocate store c).1.WellFormed (allocate store c).2 := by
  have hBuffer := store.buffer?_allocate_fst (.ofValues c.dtype c.values)
  have hRow := wellFormed_rowMajor c.shape 0 hBuffer (by simp [h])
  rwa [Buffer.dtype_ofValues] at hRow

/-- New contents of one type for each element of the shape are the values of their array. -/
theorem values_allocate (store : BufferStore) {c : Contents} (hSize : c.values.size = c.shape.size)
    (hTypes : ∀ value ∈ c.values, value.dtype = c.dtype) :
    (allocate store c).1.values (allocate store c).2 = c.values := by
  have hBuffer := store.buffer?_allocate_fst (.ofValues c.dtype c.values)
  have hCell (index : List Nat) (hIn : c.shape.Contains index) :
      (allocate store c).2.get (allocate store c).1.buffer ((allocate store c).1.offsetOf index)
        = c.get (Shape.dot index c.shape.strides) := by
    have hOffset : (allocate store c).1.offsetOf index = Shape.dot index c.shape.strides :=
      (offsetOf_of_rowMajor rfl index).trans (Nat.zero_add _)
    have hBound : Shape.dot index c.shape.strides < c.values.size := hSize ▸ Shape.dot_strides_lt hIn
    have hFound : c.values[Shape.dot index c.shape.strides] ∈ c.values := Array.getElem_mem hBound
    rw [hOffset, BufferStore.get]
    change (((store.allocate (.ofValues c.dtype c.values)).2.buffer?
      (store.allocate (.ofValues c.dtype c.values)).1).map _).getD _ = _
    rw [hBuffer, Option.map_some, Option.getD_some, Buffer.get_ofValues, Contents.get,
      Array.getD_eq_getD_getElem?, Array.getElem?_eq_getElem hBound, Option.getD_some,
      ← hTypes _ hFound, Scalar.cast_dtype]
  rw [← Array.toList_inj, toList_values, ← Contents.map_get_range, hSize, ← Shape.map_dot_listing,
    List.map_map]
  exact List.map_congr_left fun index hIndex => hCell index (Shape.mem_listing.mp hIndex)

theorem keeps_allocate (store : BufferStore) (c : Contents) :
    store.Keeps (allocate store c).2 := store.keeps_allocate _

end RowMajor

end NdArray

namespace ArrayForm

/-- A form is sound if its view is well-formed, or if its contents have as many
values as their shape has elements. -/
def Sound (store : BufferStore) : ArrayForm → Prop
  | view a => a.WellFormed store
  | fresh c => c.values.size = c.shape.size

/-- A form is anchored if its view is; contents get an anchored array. -/
def Anchored : ArrayForm → Prop
  | view a => a.Anchored
  | fresh _ => True

theorem Anchored.realize {form : ArrayForm} (h : form.Anchored) (store : BufferStore) :
    (form.realize store).1.Anchored := by
  cases form with
  | view a => exact h
  | fresh c => exact NdArray.anchored_rowMajor _ _ c.shape 0

theorem keeps_realize (form : ArrayForm) (store : BufferStore) :
    store.Keeps (form.realize store).2 := by
  cases form with
  | view a => exact .refl store
  | fresh c => exact NdArray.keeps_allocate store c

theorem Sound.wellFormed_realize {store : BufferStore} {form : ArrayForm} (h : form.Sound store) :
    (form.realize store).1.WellFormed (form.realize store).2 := by
  cases form with
  | view a => exact h
  | fresh c => exact NdArray.wellFormed_allocate store h

end ArrayForm

section Reshape

namespace Shape

theorem size_fill (dimensions : List Int64) (inferred : Nat)
    (hSigns : ∀ d ∈ dimensions, d = -1 ∨ 0 ≤ d) :
    size (fill dimensions inferred)
      = knownProduct dimensions * inferred ^ unknownCount dimensions := by
  induction dimensions with
  | nil => rfl
  | cons d ds ih =>
      have hTail := ih fun e he => hSigns e (List.mem_cons_of_mem _ he)
      simp only [fill, knownProduct, given, unknownCount] at hTail ⊢
      rcases hSigns d (by simp) with rfl | hPositive
      · simp [size, hTail, show ¬ (0 : Int64) ≤ -1 by decide, Nat.pow_succ, Nat.mul_comm,
          Nat.mul_assoc]
      · have hNe : d ≠ -1 := by
          rintro rfl
          exact absurd hPositive (by decide)
        simp [size, hTail, hPositive, hNe, Nat.mul_assoc]

/-- A dimension that is not below minus one is minus one or a length. -/
theorem eq_neg_one_or_nonneg {d : Int64} (h : ¬ d < -1) : d = -1 ∨ 0 ≤ d := by
  have hMinusOne : (-1 : Int64).toInt = -1 := by decide
  rw [Int64.lt_iff_toInt_lt, hMinusOne] at h
  rw [Int64.le_iff_toInt_le, Int64.toInt_zero, ← Int64.toInt_inj, hMinusOne]
  omega

/-- The shape that a reshape infers has as many elements as there are. -/
theorem size_of_infer {elements : Nat} {dimensions : List Int64} {shape : Shape}
    (h : infer elements dimensions = .ok shape) : shape.size = elements := by
  simp only [infer] at h
  split at h
  · cases h
  rename_i hFew
  split at h
  · cases h
  rename_i hSigned
  have hSigns : ∀ d ∈ dimensions, d = -1 ∨ 0 ≤ d := fun d hd =>
    eq_neg_one_or_nonneg fun hLess =>
      hSigned (List.any_eq_true.mpr ⟨d, hd, decide_eq_true hLess⟩)
  split at h
  · cases h
  rename_i known hProduct
  obtain rfl : known = knownProduct dimensions := size_of_wordProduct? hProduct
  split at h
  · rename_i hOne
    split at h
    · cases h
    · rename_i hFactor
      cases h
      rw [size_fill _ _ hSigns, hOne, Nat.pow_one]
      exact Nat.mul_div_cancel' (Nat.dvd_of_mod_eq_zero (by omega))
  · rename_i hNone
    split at h
    · cases h
    · rename_i hSize
      cases h
      rw [size_fill _ _ hSigns, show unknownCount dimensions = 0 by omega, Nat.pow_zero,
        Nat.mul_one]
      omega

end Shape

open Outcome

variable {a : NdArray} {store : BufferStore} {shape : Shape}

/-- A contiguous array occupies as many cells from its offset on as it has
elements. -/
theorem NdArray.WellFormed.offset_add_size_le (h : a.WellFormed store)
    (hContiguous : a.isContiguous = true) (hPositive : 0 < a.size) :
    a.offset + a.size ≤ store.cellCount a.buffer := by
  have hLast : a.offset + (a.size - 1) ∈ a.offsets := by
    rw [← Array.mem_toList_iff, NdArray.toList_offsets_of_isContiguous hContiguous]
    exact List.mem_map.mpr ⟨a.size - 1, List.mem_range.mpr (by omega), rfl⟩
  obtain ⟨last, hIn, hCell⟩ := NdArray.mem_offsets.mp hLast
  have hInside := h.inside last hIn
  rw [NdArray.offsetOf_eq] at hCell
  omega

/-- Another shape of the same size is sound, as a view and as a copy. -/
theorem NdArray.WellFormed.sound_withShape (h : a.WellFormed store) (hSize : shape.size = a.size) :
    (a.withShape store shape).Sound store := by
  unfold NdArray.withShape
  split
  · rename_i hContiguous
    obtain ⟨buffer, hBuffer, hType⟩ := h.stored
    have hRow := NdArray.wellFormed_rowMajor shape a.offset hBuffer fun hAxes => by
      have hPositive : 0 < a.size := hSize ▸ Nat.pos_of_ne_zero (mt Shape.size_eq_zero_iff.mp hAxes)
      have hRoom := h.offset_add_size_le hContiguous hPositive
      rwa [BufferStore.cellCount, hBuffer, ← hSize] at hRoom
    rwa [hType] at hRow
  · exact (NdArray.size_values a store).trans hSize.symm

theorem NdArray.reshape_eq_ok_iff {dimensions : List Int64} {form : ArrayForm} :
    a.reshape store dimensions = .ok form ↔
      ∃ shape, Shape.infer a.size dimensions = .ok shape ∧ shape.checkStrides = .ok () ∧
        a.withShape store shape = form := by
  rw [NdArray.reshape, bind_eq_ok_iff]
  simp only [bind_eq_ok_iff, pure_eq_ok_iff]
  exact exists_congr fun _ => and_congr_right fun _ => ⟨fun ⟨(), h⟩ => h, fun h => ⟨(), h⟩⟩

theorem NdArray.WellFormed.sound_reshape (h : a.WellFormed store) {dimensions : List Int64}
    {form : ArrayForm} (hReshape : a.reshape store dimensions = .ok form) : form.Sound store := by
  obtain ⟨shape, hInfer, -, rfl⟩ := NdArray.reshape_eq_ok_iff.mp hReshape
  exact h.sound_withShape (Shape.size_of_infer hInfer)

end Reshape

section Elementwise

open Outcome

theorem Contents.size_values_cast (c : Contents) (dtype : DType) :
    (c.cast dtype).values.size = c.values.size := by simp [Contents.cast, Contents.ofValues]

/-- The result of an elementwise operation has one value for each index of the
common shape, whatever the operands are. -/
theorem Contents.size_values_zipWith {left right c : Contents} {dtype : DType}
    {op : Scalar → Scalar → Except Exception Scalar} (h : left.zipWith right dtype op = .ok c) :
    c.values.size = c.shape.size := by
  simp only [Contents.zipWith, bind_eq_ok_iff, pure_eq_ok_iff, mapM_eq_ok_iff] at h
  obtain ⟨shape, -, -, -, xs, hLeft, ys, hRight, values, hValues, rfl⟩ := h
  rw [Contents.broadcastTo_eq_ok_iff] at hLeft hRight
  have hLength := hValues.length_eq
  rw [hLeft.2, hRight.2, List.length_zip, List.length_map, List.length_map, Nat.min_self,
    Shape.length_listing] at hLength
  simp [Contents.ofValues, hLength]

end Elementwise

end ArrayBridge
