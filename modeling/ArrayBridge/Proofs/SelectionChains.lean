import ArrayBridge.Proofs.StrideProducts
import ArrayBridge.Proofs.WordAddressing

/-! Chains of selections.

A view of a view may take ever longer steps through ever shorter axes. What stays is the range of
cells that the axes span, which no selection makes wider, so that the cells of an array that was
small at the beginning can be found in machine words after any number of selections. A gathering
starts over with a buffer of its own. If it gathers nothing the buffer has no cells, while the axes
beside the empty one are still walked through. -/

namespace ArrayBridge

namespace DType

theorem itemSize_pos (dtype : DType) : 0 < dtype.itemSize := by
  cases dtype <;> decide

theorem itemSize_le (dtype : DType) : dtype.itemSize ≤ 8 := by
  cases dtype <;> decide

end DType

namespace NdArray

open AxisSelection InWords Outcome

variable {a first : NdArray} {store start later : BufferStore} {form : ArrayForm}
  {selectors : List Selector}

namespace Spans

variable {limit : Nat} {offset : Int} {sizes : Shape} {strides : List Int}

/-- Where no axis is empty, the axes span what the indices of the shape lead to. -/
theorem of_cells (hLength : strides.length = sizes.length)
    (hSizes : ∀ n ∈ sizes, 0 < n ∧ n < Word.signedLimit)
    (hStrides : ∀ s ∈ strides, -(Word.signedLimit : Int) < s ∧ s < Word.signedLimit)
    (hCells : ∀ index, sizes.Contains index →
      0 ≤ offset + displacement index strides ∧ offset + displacement index strides < limit) :
    Spans limit offset sizes strides := by
  induction sizes generalizing offset strides with
  | nil =>
      obtain rfl := List.length_eq_zero_iff.mp hLength
      simpa [Spans, displacement] using hCells [] trivial
  | cons n ns ih =>
      cases strides with
      | nil => cases hLength
      | cons s ss =>
          obtain ⟨hSize, hRest⟩ := List.forall_mem_cons.mp hSizes
          obtain ⟨hStride, hOthers⟩ := List.forall_mem_cons.mp hStrides
          refine ⟨hSize.2, hStride, fun i hi => ?_⟩
          refine ih (Nat.succ.inj hLength) hRest hOthers fun index hIn => ?_
          rw [Int.add_assoc]
          exact hCells (i :: index) ⟨by omega, hIn⟩

/-- Rows one after the other span the product of their lengths, where an empty axis counts as
one. -/
theorem rowMajor (hOffset : 0 ≤ offset) (hRoom : offset + sizes.paddedSize ≤ limit)
    (hWord : sizes.paddedSize < Word.signedLimit) :
    Spans limit offset sizes (rowMajorStrides sizes) := by
  induction sizes generalizing offset with
  | nil =>
      rw [Shape.paddedSize] at hRoom
      exact ⟨hOffset, by omega⟩
  | cons n ns ih =>
      have hPositive := Shape.paddedSize_pos ns
      have hInner : Shape.paddedSize ns ≤ Shape.paddedSize (n :: ns) :=
        Shape.paddedSize_le_of_suffix (List.suffix_cons n ns)
      have hAxis : max n 1 ≤ Shape.paddedSize (n :: ns) := Nat.le_mul_of_pos_right _ hPositive
      refine ⟨by omega, ⟨by simp only [Int.ofNat_eq_natCast]; omega, Int.ofNat_lt.mpr (by omega)⟩,
        fun i hi => ?_⟩
      have hMoved : (i : Int) * Int.ofNat (Shape.paddedSize ns) = (i * Shape.paddedSize ns : Nat) :=
        (Int.natCast_mul i _).symm
      have hRows : (i + 1) * Shape.paddedSize ns ≤ Shape.paddedSize (n :: ns) :=
        Nat.mul_le_mul_right _ hi
      rw [Nat.succ_mul] at hRows
      rw [hMoved]
      exact ih (by omega) (by omega) (by omega)

end Spans

theorem cellCount_allocate (store : BufferStore) (c : Contents) :
    (allocate store c).2.cellCount (allocate store c).1.buffer = c.values.size := by
  have hBuffer : (allocate store c).2.buffer? (allocate store c).1.buffer
      = some (.ofValues c.dtype c.values) := store.buffer?_allocate_fst _
  rw [BufferStore.cellCount, hBuffer, Option.map_some, Option.getD_some, Buffer.size_ofValues]

/-- An array can be addressed in words: its axes span words, and no cell beyond those of its buffer
unless the buffer has none; and the bytes of the buffer are counted by a signed word. -/
structure Addresses (a : NdArray) (store : BufferStore) : Prop where
  stored : ∃ buffer, store.buffer? a.buffer = some buffer
  spans : ∃ limit ≤ Word.signedLimit, Spans limit a.offset a.shape a.strides ∧
    (0 < store.cellCount a.buffer → limit ≤ store.cellCount a.buffer)
  bytes : store.cellCount a.buffer * a.dtype.itemSize < Word.signedLimit

namespace Addresses

theorem mono (h : a.Addresses store) (hKeeps : store.Keeps later) : a.Addresses later := by
  obtain ⟨buffer, hBuffer⟩ := h.stored
  obtain ⟨now, hNow, -⟩ := hKeeps _ _ hBuffer
  refine ⟨⟨now, hNow⟩, ?_, ?_⟩
  · rw [hKeeps.cellCount_eq hBuffer]
    exact h.spans
  · rw [hKeeps.cellCount_eq hBuffer]
    exact h.bytes

/-- New contents start a buffer in which the rows lie one after the other. -/
theorem allocate (store : BufferStore) {c : Contents} (hValues : c.values.size = c.shape.size)
    (hFew : c.shape.size ≤ maxElements)
    (hStrides : 0 ∈ c.shape → c.shape.paddedSize < Word.signedLimit) :
    (NdArray.allocate store c).1.Addresses (NdArray.allocate store c).2 := by
  have hCount := (cellCount_allocate store c).trans hValues
  have hBytes : c.shape.size * c.dtype.itemSize ≤ maxElements * 8 :=
    Nat.mul_le_mul hFew c.dtype.itemSize_le
  have hLimits : maxElements * 8 < Word.signedLimit := by decide
  have hPadded : 0 ∉ c.shape → c.shape.paddedSize = c.shape.size := Shape.paddedSize_eq_size
  have hWord : c.shape.paddedSize < Word.signedLimit := by
    by_cases hEmpty : 0 ∈ c.shape
    · exact hStrides hEmpty
    · rw [hPadded hEmpty]
      omega
  refine ⟨⟨_, store.buffer?_allocate_fst _⟩,
    ⟨c.shape.paddedSize, Nat.le_of_lt hWord, ?_, fun hSome => ?_⟩, ?_⟩
  · exact Spans.rowMajor (Int.le_refl 0) (Int.le_of_eq (Int.zero_add _)) hWord
  · rw [hCount] at hSome ⊢
    rw [hPadded (mt Shape.size_eq_zero_iff.mpr (Nat.ne_of_gt hSome))]
  · rw [hCount]
    exact Nat.lt_of_le_of_lt hBytes hLimits

/-- What is selected from an array that can be addressed can be addressed. -/
theorem select (h : a.Addresses store) (hSelect : a.select store selectors = .ok form)
    (hStrides : ∀ c, form = .fresh c → 0 ∈ c.shape → c.shape.paddedSize < Word.signedLimit) :
    (form.realize store).1.Addresses (form.realize store).2 := by
  rcases select_eq_ok_iff.mp hSelect with ⟨v, hLocate, rfl⟩ | ⟨shape, offsets, hLocate, -, rfl⟩
  · obtain ⟨hRank, axes, hAxes, hValid, hPlain, rfl⟩ := exists_axes_of_view hLocate
    obtain ⟨limit, hLimit, hSpans, hCells⟩ := h.spans
    have hView := hSpans.viewAlong hLimit hValid hPlain (Selector.steady_of_resolveFrom hAxes)
    refine ⟨h.stored, ⟨limit, hLimit, ?_, hCells⟩, h.bytes⟩
    change Spans limit (((a.offset : Int) + _).toNat : Nat) _ _
    rw [Int.toNat_of_nonneg hView.offset_mem.1]
    exact hView
  · have hValues : offsets.size = shape.size := size_offsets_of_locate hLocate
    obtain ⟨count, hCount⟩ := exists_checkedSize_of_gather hLocate
    obtain ⟨rfl, hFew⟩ := Shape.size_of_checkedSize hCount
    exact allocate store ((Array.size_map ..).trans hValues) hFew (hStrides _ rfl)

end Addresses

/-- A contiguous array with elements, not more of them than can be counted in bytes, that stands in
a buffer of a size which memory has. The strides that a single element does not use are words, too,
also with the other sign. -/
structure Compact (a : NdArray) (store : BufferStore) : Prop where
  wellFormed : a.WellFormed store
  contiguous : a.isContiguous = true
  some : 0 < a.size
  few : a.size ≤ maxElements
  strides : a.size = 1 → ∀ s ∈ a.strides, -(Word.signedLimit : Int) < s ∧ s < Word.signedLimit
  bytes : store.cellCount a.buffer * a.dtype.itemSize < Word.signedLimit

theorem Compact.addresses (h : a.Compact store) : a.Addresses store := by
  obtain ⟨buffer, hBuffer, -⟩ := h.wellFormed.stored
  have hAxes : 0 ∉ a.shape := mt Shape.size_eq_zero_iff.mpr (Nat.ne_of_gt h.some)
  have hLimits : maxElements < Word.signedLimit := by decide
  have hFew : a.shape.size ≤ maxElements := h.few
  have hCells : store.cellCount a.buffer < Word.signedLimit := by
    exact Nat.lt_of_le_of_lt (Nat.le_mul_of_pos_right _ a.dtype.itemSize_pos) h.bytes
  refine ⟨⟨buffer, hBuffer⟩, ⟨_, Nat.le_of_lt hCells, ?_, fun _ => Nat.le_refl _⟩, h.bytes⟩
  rcases isContiguous_iff.mp h.contiguous with hSingle | hRows
  · refine Spans.of_cells h.wellFormed.strides_length (fun n hn => ?_)
      (h.strides (by have := h.some; omega)) h.wellFormed.inside
    have hAxis := Shape.le_size_of_mem hn hAxes
    exact ⟨Nat.pos_of_ne_zero fun hZero => hAxes (hZero ▸ hn), by omega⟩
  · have hRoom := h.wellFormed.offset_add_size_le h.contiguous h.some
    have hPadded : a.shape.paddedSize = a.size := Shape.paddedSize_eq_size hAxes
    rw [hRows]
    exact Spans.rowMajor (Int.natCast_nonneg _) (by omega) (by omega)

/-- A chain of selections, each from the result of the one before. In between anything may happen to
the store by which its buffers keep their size. The strides of a copy are words also where it has no
elements and an empty axis counts as one. -/
inductive SelectedFrom (first : NdArray) (start : BufferStore) : NdArray → BufferStore → Prop
  | refl : SelectedFrom first start first start
  | elsewhere {a : NdArray} {store later : BufferStore} (prior : SelectedFrom first start a store)
      (last : store.Keeps later) : SelectedFrom first start a later
  | select {a : NdArray} {store : BufferStore} {form : ArrayForm}
      (prior : SelectedFrom first start a store) (selectors : List Selector) (last : a.select store selectors = .ok form)
      (strides : ∀ c, form = .fresh c → 0 ∈ c.shape → c.shape.paddedSize < Word.signedLimit) :
      SelectedFrom first start (form.realize store).1 (form.realize store).2

/-- Whatever is selected in a chain can be addressed. -/
theorem SelectedFrom.addresses (h : SelectedFrom first start a store)
    (hFirst : first.Addresses start) : a.Addresses store := by
  induction h with
  | refl => exact hFirst
  | elsewhere prior last ih => exact ih.mono last
  | select prior selectors last strides ih => exact ih.select last strides

/-- The index arithmetic of views does not overflow. After any chain of selections from a compact
array, every index expression is resolved in machine words to what it is resolved to in numbers of
any size, with the same view, the same cells or the same failure; so is the cell of every index. The
offsets that result have no sign, and in bytes they are inside of the storage, unless this is
empty. -/
theorem SelectedFrom.words_suffice (hFirst : first.Compact start)
    (h : SelectedFrom first start a store) :
    (∀ selectors, (∀ s ∈ selectors, s.Exact) →
      a.locateInWords selectors = exact (a.locate selectors)) ∧
    (∀ index, a.shape.Contains index →
      a.offsetInWords index = exact (.ok (a.offsetOf index)) ∧
        (a.offsetOf index : Int) = a.cell index) ∧
    store.cellCount a.buffer * a.dtype.itemSize < Word.signedLimit ∧
    (0 < store.cellCount a.buffer →
      a.offset * a.dtype.itemSize < store.cellCount a.buffer * a.dtype.itemSize) := by
  have hAddresses := h.addresses hFirst.addresses
  obtain ⟨limit, hLimit, hSpans, hCells⟩ := hAddresses.spans
  refine ⟨fun selectors hExact => locateInWords_eq hLimit hSpans hExact, fun index hIn => ?_,
    hAddresses.bytes, fun hSome => ?_⟩
  · refine ⟨offsetInWords_eq hLimit hSpans hIn, ?_⟩
    rw [offsetOf_eq]
    exact Int.toNat_of_nonneg (hSpans.displacement_mem hIn).1
  · have hOffset := hSpans.offset_mem.2
    have hRoom := hCells hSome
    exact Nat.mul_lt_mul_of_pos_right (by omega) a.dtype.itemSize_pos

/-- Four rows of three elements. -/
def table : NdArray := ofBuffer ⟨0⟩ .int64 [4, 3]

/-- A store in which the elements of the table are the numbers from one on. -/
def tableStore : BufferStore :=
  (BufferStore.empty.allocate (.ints #[1, 2, 3, 4, 5, 6, 7, 8, 9, 10, 11, 12])).2

theorem compact_table : table.Compact tableStore where
  wellFormed := by
    have hBuffer : tableStore.buffer? ⟨0⟩
        = some (.ints #[1, 2, 3, 4, 5, 6, 7, 8, 9, 10, 11, 12]) := rfl
    exact wellFormed_rowMajor [4, 3] 0 hBuffer fun _ => by decide
  contiguous := by decide
  some := by decide
  few := by decide
  strides := by decide
  bytes := by decide

/-- Every second row from the last one backward, and of these the one that was the last, from its
end. -/
theorem words_suffice_of_backward_rows :
    table.Compact tableStore ∧ ∃ v,
      table.select tableStore [.slice ⟨none, none, some (-2)⟩] = .ok (.view v) ∧
      SelectedFrom table tableStore v tableStore ∧ v.strides = [-6, 1] ∧
      v.locateInWords [.at (-2), .slice ⟨some (-1), none, some Int64.minValue⟩]
        = exact (.ok (.view ⟨⟨0⟩, .int64, [1], [-1], 11⟩)) := by
  have hBackward : table.select tableStore [.slice ⟨none, none, some (-2)⟩]
      = .ok (.view ⟨⟨0⟩, .int64, [2, 3], [-6, 1], 9⟩) := rfl
  have hStart : SelectedFrom table tableStore table tableStore := .refl
  have hChain := hStart.select _ hBackward fun c hForm => by cases hForm
  obtain ⟨hLocates, -⟩ := hChain.words_suffice compact_table
  refine ⟨compact_table, _, hBackward, hChain, rfl, ?_⟩
  exact (hLocates _ (by simp [Selector.Exact])).trans rfl

/-- Nothing is gathered from a table, which leaves a buffer without bytes. The columns of what was
gathered still have offsets, and these are not inside of the buffer. And a single element can have
the one stride that has no opposite among the words, which is called for when it is walked through
backward. -/
theorem not_within_of_empty_gathering :
    (table.Compact tableStore ∧ ∃ a store, SelectedFrom table tableStore a store ∧
      store.cellCount a.buffer * a.dtype.itemSize < a.offset * a.dtype.itemSize) ∧
    let single : NdArray := ⟨⟨0⟩, .int64, [1], [-(Word.signedLimit : Int)], 0⟩
    single.WellFormed tableStore ∧ single.isContiguous = true ∧
      single.locateInWords [.slice ⟨none, none, some (-1)⟩] = ExceptT.mk none := by
  let nothing : Contents := ⟨.int64, [0, 3], #[]⟩
  have hAxes : Selector.resolveFrom 0 (table.completed [.indices #[] [0]]) table.shape
      = .ok [.picked #[] [0], .range ⟨0, 3, 1⟩] := by
    change Selector.resolveFrom 0 [.indices #[] [0], .all] [4, 3] = _
    rw [Selector.resolveFrom, Selector.resolve, Array.mapM_empty]
    rfl
  have hGather : table.gather [.picked #[] [0], .range ⟨0, 3, 1⟩] = .ok (.gather [0, 3] #[]) :=
    gather_eq_ok_iff.mpr ⟨[0], Shape.joinAll?_eq_some_iff.mp rfl, ⟨0, rfl⟩, by
      rw [show (gatheredShape [.picked #[] [0], .range ⟨0, 3, 1⟩] [0]).indices = #[] from rfl,
        Array.map_empty]
      rfl⟩
  have hNothing : table.select tableStore [.indices #[] [0]] = .ok (.fresh nothing) := by
    have hLocate : table.locate [.indices #[] [0]] = .ok (.gather [0, 3] #[]) := by
      rw [locate_eq (by decide), hAxes]
      exact hGather
    rw [select_of_gather hLocate, Array.map_empty]
    rfl
  have hColumn : (allocate tableStore nothing).1.select (allocate tableStore nothing).2
      [.all, .at 2] = .ok (.view ⟨⟨1⟩, .int64, [0], [3], 2⟩) := rfl
  have hFirst : SelectedFrom table tableStore (allocate tableStore nothing).1
      (allocate tableStore nothing).2 :=
    .select .refl _ hNothing fun c hForm _ => by
      cases hForm
      decide
  have hSecond := hFirst.select _ hColumn fun c hForm => by cases hForm
  refine ⟨⟨compact_table, _, _, hSecond, ?_⟩,
    .of_listing rfl ⟨_, rfl, rfl⟩ (by decide) (by decide), rfl, rfl⟩
  change (allocate tableStore nothing).2.cellCount (allocate tableStore nothing).1.buffer * 8 < 16
  rw [cellCount_allocate]
  decide

end NdArray

end ArrayBridge
