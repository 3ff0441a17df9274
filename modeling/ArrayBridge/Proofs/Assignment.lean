import ArrayBridge.Proofs.Selection

/-! Assignments to selections.

All values are read before the first cell is written, so an array can be assigned to
a selection of itself. A selection may name a cell more than once; then the last of
its values stays there. -/

namespace ArrayBridge

namespace Buffer

theorem get_set_self (b : Buffer) {i : Nat} (value : Scalar) (h : i < b.size) :
    (b.set i value).get i = value.cast b.dtype := by
  cases b <;> simp only [size] at h <;> simp [set, get, get?, h, Scalar.cast, dtype]

theorem get_set_of_ne (b : Buffer) {i j : Nat} (value : Scalar) (h : i ≠ j) :
    (b.set i value).get j = b.get j := by
  cases b <;> simp [set, get, get?, h, dtype]

/-- A cell is left alone by writes to other cells, and holds the last of the values
that are written to it otherwise. -/
theorem get_setAll (b : Buffer) (writes : List (Nat × Scalar)) (c : Nat) :
    (c ∉ writes.map Prod.fst ∧ (b.setAll writes).get c = b.get c) ∨
      ∃ (k : Nat) (value : Scalar), writes[k]? = some (c, value) ∧
        (∀ j, k < j → (writes.map Prod.fst)[j]? ≠ some c) ∧
        (c < b.size → (b.setAll writes).get c = value.cast b.dtype) := by
  induction writes generalizing b with
  | nil => exact .inl ⟨List.not_mem_nil, rfl⟩
  | cons write writes ih =>
      obtain ⟨i, value⟩ := write
      rw [setAll_cons]
      rcases ih (b.set i value) with ⟨hOther, hSame⟩ | ⟨k, last, hWrite, hLast, hValue⟩
      · by_cases hHere : i = c
        · subst hHere
          refine .inr ⟨0, value, rfl, fun j hj hFound => ?_, fun hBound => ?_⟩
          · obtain ⟨m, rfl⟩ : ∃ m, j = m + 1 := ⟨j - 1, by omega⟩
            exact hOther (List.mem_of_getElem? hFound)
          · rw [hSame, get_set_self b value hBound]
        · refine .inl ⟨?_, hSame.trans (get_set_of_ne b value hHere)⟩
          simp only [List.map_cons, List.mem_cons, not_or]
          exact ⟨Ne.symm hHere, hOther⟩
      · refine .inr ⟨k + 1, last, hWrite, fun j hj => ?_, fun hBound => ?_⟩
        · obtain ⟨m, rfl⟩ : ∃ m, j = m + 1 := ⟨j - 1, by omega⟩
          exact hLast m (by omega)
        · rw [hValue (by rwa [size_set]), dtype_set]

end Buffer

/-- An index inside the target is pulled back to an index inside contents that fit. -/
theorem Contents.Fits.contains_pull {c : Contents} {target : Shape} {index : List Nat}
    (h : c.Fits target) (hIn : target.Contains index) :
    c.shape.Contains (Shape.pull c.shape index) := by
  obtain ⟨rest, hStretch, hShape⟩ := h
  have hRest := hStretch.contains_pull hIn
  rcases Nat.lt_or_ge target.length c.shape.length with hLonger | hShort
  · have hLength : index.length ≤ rest.length := by
      have hCount := congrArg List.length hShape
      rw [List.length_append, List.length_replicate] at hCount
      rw [hIn.length_eq]
      omega
    rw [hShape, Shape.pull_replicate_append hLength]
    have hOnes (count : Nat) : Shape.Contains (List.replicate count 1 ++ rest)
        (List.replicate count 0 ++ Shape.pull rest index) := by
      induction count with
      | zero => exact hRest
      | succ count ih => exact ⟨Nat.one_pos, ih⟩
    exact hOnes _
  · rw [Nat.sub_eq_zero_of_le hShort, List.replicate_zero, List.nil_append] at hShape
    rwa [hShape]

namespace NdArray

open Outcome

variable {a v : NdArray} {store : BufferStore} {selectors : List Selector}

theorem assign_eq_ok_iff {value : Contents} {later : BufferStore} :
    a.assign store selectors value = .ok later ↔ ∃ located, a.locate selectors = .ok located ∧
      value.Fits located.shape ∧
      later = store.setAll a.buffer (located.offsets.toList.zip
        (located.shape.listing.map fun index => value.element (Shape.pull value.shape index))) := by
  simp only [assign, assignment, bind_eq_ok_iff, pure_eq_ok_iff, Contents.broadcastTo_eq_ok_iff]
  constructor
  · rintro ⟨writes, ⟨located, hLocate, values, ⟨hFits, rfl⟩, rfl⟩, rfl⟩
    exact ⟨located, hLocate, hFits, rfl⟩
  · rintro ⟨located, hLocate, hFits, rfl⟩
    exact ⟨_, ⟨located, hLocate, _, ⟨hFits, rfl⟩, rfl⟩, rfl⟩

/-- The store after an assignment, which stays as it is if the assignment fails. -/
def storeAfter (a : NdArray) (store : BufferStore) (selectors : List Selector)
    (value : Contents) : BufferStore :=
  match a.assign store selectors value with
  | .ok later => later
  | .error _ => store

/-- What a store looks like after the elements of an array were assigned to a
selection of another one. -/
structure Assigned (a v : NdArray) (located : Located) (store later : BufferStore) : Prop where
  /-- Each element of the selection has a cell of the array's buffer. -/
  inside : located.offsets.size = located.shape.size ∧
    ∀ o ∈ located.offsets, o < store.cellCount a.buffer
  others : ∀ id, id ≠ a.buffer → later.buffer? id = store.buffer? id
  layout : store.Keeps later
  /-- The last element of the selection in a cell gets the value that the index of
  the element is stretched from; the other cells keep theirs. -/
  cells : ∀ c, (c ∉ located.offsets ∧ later.get a.buffer c = store.get a.buffer c) ∨
    ∃ (k : Nat) (index : List Nat), located.offsets[k]? = some c ∧ (∀ j, k < j → located.offsets[j]? ≠ some c) ∧
      located.shape.listing[k]? = some index ∧
      later.get a.buffer c
        = (store.get v.buffer (v.offsetOf (Shape.pull v.shape index))).cast a.dtype

/-- Writing the stretched values of an array to a located selection. -/
theorem WellFormed.assigned (h : a.WellFormed store) (hExact : ∀ s ∈ selectors, s.Exact)
    {located : Located} (hLocate : a.locate selectors = .ok located)
    (hFits : (v.contents store).Fits located.shape) :
    Assigned a v located store (store.setAll a.buffer (located.offsets.toList.zip
      (located.shape.listing.map fun index =>
        (v.contents store).element (Shape.pull v.shape index)))) := by
  have hSize := size_offsets_of_locate hLocate
  have hInside : ∀ o ∈ located.offsets, o < store.cellCount a.buffer := by
    intro o ho
    obtain ⟨index, hIn, rfl⟩ := mem_offsets.mp (h.mem_offsets_of_locate hExact hLocate o ho)
    exact h.offsetOf_lt hIn
  obtain ⟨buffer, hBuffer, hType⟩ := h.stored
  have hCount : store.cellCount a.buffer = buffer.size := by
    rw [BufferStore.cellCount, hBuffer]
    rfl
  refine ⟨⟨hSize, hInside⟩, fun id hOther => ?_, store.keeps_setAll _ _, fun c => ?_⟩
  · rw [BufferStore.buffer?_setAll]
    simp [hOther]
  · have hCells : ((located.offsets.toList.zip (located.shape.listing.map fun index =>
        (v.contents store).element (Shape.pull v.shape index))).map Prod.fst)
          = located.offsets.toList := by
      refine List.map_fst_zip ?_
      rw [List.length_map, Shape.length_listing, Array.length_toList, hSize]
    simp only [BufferStore.get, BufferStore.buffer?_setAll, hBuffer, Option.map_some, if_true,
      Option.getD_some]
    rcases buffer.get_setAll _ c with ⟨hOther, hSame⟩ | ⟨k, value, hWrite, hLast, hValue⟩
    · rw [hCells, Array.mem_toList_iff] at hOther
      exact .inl ⟨hOther, hSame⟩
    · rw [hCells] at hLast
      obtain ⟨hOffset, hElement⟩ := List.getElem?_zip_eq_some.mp hWrite
      rw [List.getElem?_map] at hElement
      obtain ⟨index, hIndex, rfl⟩ := Option.map_eq_some_iff.mp hElement
      simp only [Array.getElem?_toList] at hOffset hLast
      have hPulled : v.shape.Contains (Shape.pull v.shape index) :=
        hFits.contains_pull (Shape.mem_listing.mp (List.mem_of_getElem? hIndex))
      refine .inr ⟨k, index, hOffset, hLast, hIndex, ?_⟩
      rw [hValue (hCount ▸ hInside c (Array.mem_of_getElem? hOffset)), hType,
        element_contents store hPulled]
      rfl

/-- An assignment succeeds exactly if the selection is located and the value fits its
shape. Then each selected cell holds the last of the values for it, which are those
from before the assignment, and all other cells are unchanged. An assignment that
fails changes nothing. -/
theorem assign_law (h : a.WellFormed store) (hExact : ∀ s ∈ selectors, s.Exact) :
    ((∃ later, a.assign store selectors (v.contents store) = .ok later) ↔
      ∃ located, a.locate selectors = .ok located ∧ (v.contents store).Fits located.shape) ∧
    (∀ e, a.assign store selectors (v.contents store) = .error e →
      a.storeAfter store selectors (v.contents store) = store) ∧
    ∀ later, a.assign store selectors (v.contents store) = .ok later →
      a.storeAfter store selectors (v.contents store) = later ∧
      ∃ located, a.locate selectors = .ok located ∧ Assigned a v located store later := by
  refine ⟨?_, fun e hFailed => by rw [storeAfter, hFailed], fun later hDone => ?_⟩
  · simp only [assign_eq_ok_iff]
    exact ⟨fun ⟨_, located, hLocate, hFits, _⟩ => ⟨located, hLocate, hFits⟩,
      fun ⟨located, hLocate, hFits⟩ => ⟨_, located, hLocate, hFits, rfl⟩⟩
  · refine ⟨by rw [storeAfter, hDone], ?_⟩
    obtain ⟨located, hLocate, hFits, rfl⟩ := assign_eq_ok_iff.mp hDone
    exact ⟨located, hLocate, h.assigned hExact hLocate hFits⟩

/-- Four numbers, of which all but the last are assigned to all but the first: none
is read after it was replaced. -/
theorem assign_shifted :
    let store := (allocate .empty ⟨.int64, [4], #[.int 1, .int 2, .int 3, .int 4]⟩).2
    let a : NdArray := ⟨⟨0⟩, .int64, [4], [1], 0⟩
    let front : NdArray := ⟨⟨0⟩, .int64, [3], [1], 0⟩
    ∃ later, a.assign store [.slice ⟨some 1, none, none⟩] (front.contents store) = .ok later ∧
      ∃ located, a.locate [.slice ⟨some 1, none, none⟩] = .ok located ∧
        located.shape = [3] ∧ Assigned a front located store later := by
  intro store a front
  have hFormed : a.WellFormed store :=
    wellFormed_allocate .empty (c := ⟨.int64, [4], #[.int 1, .int 2, .int 3, .int 4]⟩) rfl
  have hExact : ∀ s ∈ [Selector.slice ⟨some 1, none, none⟩], s.Exact := by simp [Selector.Exact]
  obtain ⟨hSucceeds, -, hCells⟩ := assign_law (v := front) hFormed hExact
  have hLocate : a.locate [.slice ⟨some 1, none, none⟩]
      = .ok (.view ⟨⟨0⟩, .int64, [3], [1], 1⟩) := rfl
  obtain ⟨later, hDone⟩ := hSucceeds.mpr ⟨_, hLocate, [3], Shape.stretchesReversed_refl _, rfl⟩
  obtain ⟨-, located, hFound, hAssigned⟩ := hCells later hDone
  refine ⟨later, hDone, located, hFound, ?_, hAssigned⟩
  rw [hLocate] at hFound
  cases hFound
  rfl

end NdArray

section Whole

/-- The slice of a whole axis has the positions that a signed word counts. -/
theorem SliceBounds.resolve_full (size : Nat) :
    SliceBounds.full.resolve size = .ok ⟨0, (signedLength size).toNat, 1⟩ := by
  have hCount : SliceBounds.countSteps 0 (signedLength size) 1 = (signedLength size).toNat := by
    unfold SliceBounds.countSteps
    split
    · rename_i hForward
      simp only [Int.natAbs_one, Nat.div_one]
      omega
    · split <;> omega
  have hStep : ((1 : Int64).toInt) = 1 := rfl
  simp [resolve, full, first, bound, hStep, hCount]

/-- The lengths of axes as whole slices of them count. -/
def Shape.counted (shape : Shape) : Shape := shape.map fun n => (signedLength n).toNat

theorem Shape.counted_eq {shape : Shape} (h : ∀ n ∈ shape, n < 0x8000000000000000) :
    shape.counted = shape := by
  refine (List.map_congr_left fun n hn => ?_).trans (List.map_id' shape)
  rw [signedLength_of_lt (h n hn), Int.toNat_natCast]

namespace NdArray

/-- The resolved slices of whole axes. -/
def wholeAxes (shape : Shape) : List AxisSelection := shape.map fun n => .range ⟨0, n, 1⟩

theorem resolveFrom_all (shape : Shape) (axis : Nat) :
    Selector.resolveFrom axis (List.replicate shape.length .all) shape
      = .ok (wholeAxes shape.counted) := by
  induction shape generalizing axis with
  | nil => rfl
  | cons n shape ih =>
      rw [List.length_cons, List.replicate_succ, Selector.resolveFrom, ih, Selector.all,
        Selector.resolve, SliceBounds.resolve_full]
      rfl

theorem viewAlong_wholeAxes {shape : Shape} {strides : List Int}
    (h : strides.length = shape.length) :
    viewAlong ((wholeAxes shape).zip strides) = (shape, strides, 0) := by
  induction shape generalizing strides with
  | nil =>
      rw [List.length_eq_zero_iff.mp h]
      rfl
  | cons n shape ih =>
      cases strides with
      | nil => cases h
      | cons stride strides =>
          have hRest := ih (Nat.succ.inj h)
          simp only [wholeAxes] at hRest
          simp [wholeAxes, viewAlong, hRest]

variable {a : NdArray}

/-- Without selectors an array is selected as it is. -/
theorem locate_nil (hStrides : a.strides.length = a.shape.length)
    (hWords : ∀ n ∈ a.shape, n < 0x8000000000000000) : a.locate [] = .ok (.view a) := by
  refine locate_eq_ok_iff.mpr ⟨Nat.zero_le _, wholeAxes a.shape, ?_, .inr ⟨?_, ?_⟩⟩
  · simpa [completed, rank, Shape.counted_eq hWords] using resolveFrom_all a.shape 0
  · simp [wholeAxes, AxisSelection.isPicked]
  · rw [view, viewAlong_wholeAxes hStrides]
    simp

end NdArray

/-- An index inside a shape is its own pull. -/
theorem Shape.pull_self {shape : Shape} {index : List Nat} (h : shape.Contains index) :
    shape.pull index = index := by
  have hLength := h.length_eq
  rw [pull, hLength, Nat.sub_self, List.replicate_zero, List.drop_zero, List.nil_append]
  clear hLength
  induction shape generalizing index with
  | nil => rw [contains_nil_iff.mp h, List.zipWith_nil_left]
  | cons d ds ih =>
      cases index with
      | nil => exact h.elim
      | cons i is =>
          have hHead : i < d := h.1
          rw [List.zipWith_cons_cons, ih h.2]
          split
          · rw [show i = 0 by omega]
          · rfl

/-- The elements of contents in row-major order are the values. -/
theorem Contents.map_element_listing {c : Contents} (h : c.values.size = c.shape.size) :
    c.shape.listing.map c.element = c.values.toList := by
  refine List.ext_getElem (by simp [h]) fun k hIndex hValue => ?_
  rw [List.getElem_map]
  rw [List.length_map] at hIndex
  obtain ⟨hPosition, hFound⟩ := List.getElem?_eq_some_iff.mp
    (Shape.listing_getElem?_dot (Shape.mem_listing.mp (List.getElem_mem hIndex)))
  have hDot := (Shape.nodup_listing c.shape).getElem_inj_iff.mp hFound
  rw [Array.length_toList] at hValue
  simp [element, get, hDot, hValue]

/-- The whole of an array can be assigned to, which writes the values in row-major
order. -/
theorem NdArray.assignment_nil {a : NdArray} {c : Contents}
    (hStrides : a.strides.length = a.shape.length)
    (hWords : ∀ n ∈ a.shape, n < 0x8000000000000000) (hShape : c.shape = a.shape)
    (hCount : c.values.size = a.size) :
    a.assignment [] c = .ok (a.offsets.toList.zip c.values.toList) := by
  have hFits : c.Fits a.shape := by
    refine ⟨a.shape, Shape.stretchesReversed_refl _, ?_⟩
    rw [hShape, Nat.sub_self, List.replicate_zero, List.nil_append]
  have hValues := Contents.broadcastTo_eq_ok_iff.mpr ⟨hFits, rfl⟩
  have hPulled : (a.shape.listing.map fun index => c.element (Shape.pull c.shape index))
      = c.values.toList := by
    rw [← Contents.map_element_listing (hCount.trans (congrArg Shape.size hShape).symm), hShape]
    refine List.map_congr_left fun index hIndex => ?_
    rw [Shape.pull_self (Shape.mem_listing.mp hIndex)]
  rw [hPulled] at hValues
  rw [assignment, locate_nil hStrides hWords]
  change (c.broadcastTo a.shape >>= _) = _
  rw [hValues]
  rfl

end Whole

end ArrayBridge
