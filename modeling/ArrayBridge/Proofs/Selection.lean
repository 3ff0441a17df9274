import ArrayBridge.NdArray.Select
import ArrayBridge.Proofs.Layout
import ArrayBridge.Proofs.Slicing
import Mathlib.Data.Fintype.Card
import Mathlib.Tactic.Ring

/-! Selections stay inside their array.

Every index of a selection's result stands for one index of the array: the axes
with a slice take their position from the index, the others from the index arrays.
A view puts this into its offset and strides, a gathering lists the cells. -/

namespace ArrayBridge

namespace Selector

/-- An index array has as many indices as its shape says. -/
def Exact : Selector → Prop
  | indices values shape => values.size = shape.size
  | _ => True

end Selector

namespace AxisSelection

/-- What was resolved on an axis of the given length stays on it: positions are
below the length, those of a slice differ from each other, and an index array has
as many positions as its shape says. -/
def Valid (size : Nat) : AxisSelection → Prop
  | .at position => position < size
  | range r => (∀ k < r.count, 0 ≤ r.position k ∧ r.position k < size) ∧
      ∀ j < r.count, ∀ k < r.count, r.position j = r.position k → j = k
  | picked positions shape => positions.size = shape.size ∧ ∀ p ∈ positions, p < size

/-- The lengths of the sliced axes of a selection. -/
def counts (axes : List AxisSelection) : Shape := axes.filterMap count?

@[simp] theorem counts_nil : counts [] = [] := rfl

@[simp] theorem counts_at (p : Nat) (axes : List AxisSelection) :
    counts (.at p :: axes) = counts axes := rfl

@[simp] theorem counts_range (r : SliceRange) (axes : List AxisSelection) :
    counts (range r :: axes) = r.count :: counts axes := rfl

@[simp] theorem counts_picked (ps : Array Nat) (shape : Shape) (axes : List AxisSelection) :
    counts (picked ps shape :: axes) = counts axes := rfl

/-- A slice has no more positions than its axis. -/
theorem count_le_of_valid {range : SliceRange} {size : Nat}
    (h : (AxisSelection.range range).Valid size) : range.count ≤ size := by
  obtain ⟨hInside, hApart⟩ := h
  let place (k : Fin range.count) : Fin size :=
    ⟨(range.position k).toNat, by have := hInside k k.isLt; omega⟩
  have hInjective : Function.Injective place := by
    intro j k hEq
    have hj := hInside j j.isLt
    have hk := hInside k k.isLt
    have hSame := congrArg Fin.val hEq
    simp only [place] at hSame
    exact Fin.ext (hApart j j.isLt k k.isLt (by omega))
  simpa using Fintype.card_le_of_injective place hInjective

/-- The size of what slices and positions leave of some axes. -/
theorem size_counts_le {sizes : Shape} {axes : List AxisSelection}
    (hValid : List.Forall₂ Valid sizes axes) (hPlain : ∀ s ∈ axes, s.isPicked = false) :
    (counts axes).size ≤ sizes.size := by
  induction hValid with
  | nil => exact Nat.le_refl _
  | @cons n selected sizes axes hHead _ ih =>
      obtain ⟨hFirst, hRest⟩ := List.forall_mem_cons.mp hPlain
      have hTail := ih hRest
      cases selected with
      | «at» position =>
          have hPosition : position < n := hHead
          rw [counts_at, Shape.size]
          exact Nat.le_trans hTail (Nat.le_mul_of_pos_left _ (by omega))
      | range found =>
          rw [counts_range, Shape.size, Shape.size]
          exact Nat.mul_le_mul (count_le_of_valid hHead) hTail
      | picked positions shape => cases hFirst

end AxisSelection

theorem mem_maskPositions {flags : Array Bool} {p : Nat} :
    p ∈ maskPositions flags ↔ flags[p]? = some true := by
  simp only [maskPositions, Array.mem_filter, Array.mem_range, Array.getD_eq_getD_getElem?]
  cases hFlag : flags[p]? with
  | none => simp
  | some flag =>
      have hBound := (Array.getElem?_eq_some_iff.mp hFlag).1
      simp [hBound]

namespace Selector

open Outcome

/-- Whatever is resolved on an axis stays on it. -/
theorem valid_of_resolve {selector : Selector} {axis size : Nat} {resolved : AxisSelection}
    (hExact : selector.Exact) (h : selector.resolve axis size = .ok resolved) :
    resolved.Valid size := by
  cases selector with
  | «at» index =>
      obtain ⟨position, hPosition, h⟩ := bind_eq_ok_iff.mp h
      cases h
      exact lt_of_resolvePosition hPosition
  | slice bounds =>
      obtain ⟨range, hRange, h⟩ := bind_eq_ok_iff.mp h
      cases h
      exact ⟨fun k hk => SliceBounds.position_inside hRange hk,
        fun j hj k hk => SliceBounds.position_injective hRange hj hk⟩
  | indices values shape =>
      obtain ⟨positions, hPositions, h⟩ := bind_eq_ok_iff.mp h
      cases h
      rw [mapM_array_eq_ok_iff] at hPositions
      refine ⟨?_, fun p hp => ?_⟩
      · have hLength := hPositions.length_eq
        simp only [Array.length_toList] at hLength
        rw [← hLength]
        exact hExact
      · obtain ⟨i, hi, hEq⟩ := List.getElem_of_mem (Array.mem_toList_iff.mpr hp)
        have hIndex := hPositions.get (by rw [hPositions.length_eq]; exact hi) hi
        rw [List.get_eq_getElem, List.get_eq_getElem, hEq] at hIndex
        exact lt_of_resolvePosition hIndex
  | mask flags =>
      simp only [resolve] at h
      split at h
      · cases h
      · rename_i hSize
        cases h
        refine ⟨by simp [Shape.size], fun p hp => ?_⟩
        have hBound := (Array.getElem?_eq_some_iff.mp (mem_maskPositions.mp hp)).1
        omega

theorem valid_of_resolveFrom {axis : Nat} {selectors : List Selector} {sizes : Shape}
    {axes : List AxisSelection} (hExact : ∀ s ∈ selectors, s.Exact)
    (hLength : selectors.length = sizes.length)
    (h : resolveFrom axis selectors sizes = .ok axes) :
    List.Forall₂ AxisSelection.Valid sizes axes := by
  induction selectors generalizing axis sizes axes with
  | nil =>
      cases sizes with
      | nil =>
          cases h
          exact .nil
      | cons n ns => simp at hLength
  | cons selector selectors ih =>
      cases sizes with
      | nil => simp at hLength
      | cons n ns =>
          simp only [resolveFrom, bind_eq_ok_iff, pure_eq_ok_iff] at h
          obtain ⟨first, hFirst, rest, hRest, rfl⟩ := h
          exact .cons (valid_of_resolve (hExact _ (by simp)) hFirst)
            (ih (fun s hs => hExact s (List.mem_cons_of_mem _ hs)) (by simpa using hLength) hRest)

end Selector

namespace AxisSelection

section Sources

/-- The position in a block is counted up axis by axis. -/
theorem foldl_zip_eq {shape : Shape} {coordinates : List Nat} (start : Nat) (hAxes : 0 ∉ shape)
    (hLength : coordinates.length = shape.length) :
    (shape.zip coordinates).foldl (fun flat (d, i) => flat * d + if d = 1 then 0 else i) start
      = start * shape.size + Shape.dot
          (List.zipWith (fun d i => if d = 1 then 0 else i) shape coordinates) shape.strides := by
  induction shape generalizing coordinates start with
  | nil => simp [Shape.size, Shape.dot]
  | cons d ds ih =>
      cases coordinates with
      | nil => simp at hLength
      | cons i is =>
          simp only [List.mem_cons, not_or] at hAxes
          have hTail : is.length = ds.length := by simpa using hLength
          simp only [List.zip_cons_cons, List.foldl_cons, List.zipWith_cons_cons, Shape.strides,
            Shape.dot, Shape.size, ih _ hAxes.2 hTail, Shape.paddedSize_eq_size hAxes.2]
          ring

/-- An index array is read at the row-major position of the index pulled back. -/
theorem blockPosition_eq {shape : Shape} {block : List Nat} (hAxes : 0 ∉ shape)
    (h : shape.length ≤ block.length) :
    blockPosition shape block = Shape.dot (shape.pull block) shape.strides := by
  rw [blockPosition, foldl_zip_eq 0 hAxes (by simp; omega), Shape.pull, Nat.sub_eq_zero_of_le h,
    List.replicate_zero, List.nil_append, Nat.zero_mul, Nat.zero_add]

/-- The position that an index array gives for a block of coordinates is one of
its positions. -/
theorem exists_getElem?_blockPosition {positions : Array Nat} {shape common : Shape}
    {block : List Nat} (hSize : positions.size = shape.size) (hStretch : shape.Stretches common)
    (hBlock : common.Contains block) :
    ∃ p, positions[blockPosition shape block]? = some p ∧
      blockPosition shape block = Shape.dot (shape.pull block) shape.strides := by
  have hPulled := hStretch.contains_pull hBlock
  have hPosition := blockPosition_eq hPulled.zero_notMem (hBlock.length_eq ▸ hStretch.length_le)
  have hBound := Shape.dot_strides_lt hPulled
  have hInside : blockPosition shape block < positions.size := by omega
  exact ⟨positions[blockPosition shape block], Array.getElem?_eq_getElem hInside, hPosition⟩

/-- The index of the array that a result index stands for lies inside the array. -/
theorem contains_sourceIndex {axes : List AxisSelection} {sizes common : Shape}
    {block coordinates : List Nat} (hValid : List.Forall₂ Valid sizes axes)
    (hStretch : ∀ shape ∈ axes.filterMap indexShape?, Shape.Stretches shape common)
    (hBlock : common.Contains block) (hCoordinates : (counts axes).Contains coordinates) :
    sizes.Contains (sourceIndex axes block coordinates) := by
  induction hValid generalizing coordinates with
  | nil => simp [sourceIndex]
  | @cons size selection sizes axes hHead _ ih =>
      cases selection with
      | «at» p => exact ⟨hHead, ih (fun s hs => hStretch s (by simp [indexShape?, hs])) hCoordinates⟩
      | range r =>
          cases coordinates with
          | nil => exact hCoordinates.elim
          | cons i is =>
              have hInside := hHead.1 i hCoordinates.1
              refine ⟨?_, ih (fun s hs => hStretch s (by simpa [indexShape?] using hs)) hCoordinates.2⟩
              simp only [List.headD_cons]
              omega
      | picked ps shape =>
          have hShape := hStretch shape (by simp [indexShape?])
          obtain ⟨p, hp, -⟩ := exists_getElem?_blockPosition hHead.1 hShape hBlock
          refine ⟨?_, ih (fun s hs => hStretch s (by simp [indexShape?, hs])) hCoordinates⟩
          rw [Array.getD_eq_getD_getElem?, hp]
          exact hHead.2 p (Array.mem_of_getElem? hp)

end Sources

section Views

variable {axes : List AxisSelection} {sizes : Shape}

/-- Without index arrays, different result indices stand for different indices of
the array. -/
theorem sourceIndex_injective {i j : List Nat} (hValid : List.Forall₂ Valid sizes axes)
    (hPlain : ∀ s ∈ axes, s.isPicked = false) (hi : (counts axes).Contains i)
    (hj : (counts axes).Contains j)
    (hEq : sourceIndex axes [] i = sourceIndex axes [] j) : i = j := by
  induction hValid generalizing i j with
  | nil => rw [Shape.contains_nil_iff.mp hi, Shape.contains_nil_iff.mp hj]
  | @cons size selection sizes axes hHead _ ih =>
      have hRest : ∀ s ∈ axes, s.isPicked = false := fun s hs => hPlain s (List.mem_cons_of_mem _ hs)
      cases selection with
      | «at» p => exact ih hRest hi hj (List.cons.inj hEq).2
      | range r =>
          cases i with
          | nil => exact hi.elim
          | cons a as =>
              cases j with
              | nil => exact hj.elim
              | cons b bs =>
                  obtain ⟨hFirst, hTail⟩ := List.cons.inj hEq
                  have hLeft := hHead.1 a hi.1
                  have hRight := hHead.1 b hj.1
                  simp only [List.headD_cons] at hFirst
                  rw [hHead.2 a hi.1 b hj.1 (by omega), ih hRest hi.2 hj.2 hTail]
      | picked ps shape => simpa [isPicked] using hPlain (.picked ps shape) (by simp)

/-- Without index arrays, a result index stands for an index inside the array. -/
theorem contains_sourceIndex_of_plain {index : List Nat}
    (hValid : List.Forall₂ Valid sizes axes) (hPlain : ∀ s ∈ axes, s.isPicked = false)
    (hIn : (counts axes).Contains index) : sizes.Contains (sourceIndex axes [] index) := by
  refine contains_sourceIndex hValid (fun shape hShape => ?_) Shape.contains_nil_nil hIn
  obtain ⟨selection, hSelection, hShape⟩ := List.mem_filterMap.mp hShape
  have := hPlain selection hSelection
  cases selection with
  | «at» p =>
      cases hShape
      exact Shape.nil_stretches []
  | range r => cases hShape
  | picked ps shape => simp [isPicked] at this

/-- The offset and the strides of a view lead to the cell of the index that a
result index stands for. -/
theorem displacement_viewAlong {strides : List Int}
    (hValid : List.Forall₂ Valid sizes axes) (hLength : strides.length = axes.length)
    (hPlain : ∀ s ∈ axes, s.isPicked = false) :
    (NdArray.viewAlong (axes.zip strides)).1 = counts axes ∧
      (NdArray.viewAlong (axes.zip strides)).2.1.length = (counts axes).length ∧
      ∀ index, (counts axes).Contains index →
        (NdArray.viewAlong (axes.zip strides)).2.2
            + NdArray.displacement index (NdArray.viewAlong (axes.zip strides)).2.1
          = NdArray.displacement (sourceIndex axes [] index) strides := by
  induction hValid generalizing strides with
  | nil =>
      refine ⟨rfl, rfl, fun index hIn => ?_⟩
      rw [Shape.contains_nil_iff.mp hIn]
      rfl
  | @cons size selection sizes axes hHead _ ih =>
      cases strides with
      | nil => simp at hLength
      | cons stride strides =>
          obtain ⟨hShape, hStrides, hCells⟩ := ih (by simpa using hLength)
            fun s hs => hPlain s (List.mem_cons_of_mem _ hs)
          cases selection with
          | «at» p =>
              refine ⟨hShape, hStrides, fun index hIn => ?_⟩
              have hTail := hCells index hIn
              simp only [List.zip_cons_cons, NdArray.viewAlong, sourceIndex, NdArray.displacement,
                ← hTail]
              ring
          | range r =>
              refine ⟨by simp [NdArray.viewAlong, hShape], by simp [NdArray.viewAlong, hStrides],
                fun index hIn => ?_⟩
              cases index with
              | nil => exact hIn.elim
              | cons i is =>
                  have hTail := hCells is hIn.2
                  have hInside := (hHead.1 i hIn.1).1
                  have hSome : 0 < r.count := Nat.zero_lt_of_lt hIn.1
                  simp only [List.zip_cons_cons, NdArray.viewAlong, sourceIndex,
                    NdArray.displacement, List.headD_cons, List.tail_cons, if_pos hSome, ← hTail]
                  rw [Int.toNat_of_nonneg hInside, SliceRange.position]
                  ring
          | picked ps shape => simpa [isPicked] using hPlain (.picked ps shape) (by simp)

end Views

end AxisSelection

namespace NdArray

open AxisSelection

variable {a : NdArray} {store : BufferStore} {axes : List AxisSelection}

/-- A view shows the cells of the indices that its own indices stand for. -/
theorem Anchored.cell_view (h : a.Anchored) (hValid : List.Forall₂ Valid a.shape axes)
    (hPlain : ∀ s ∈ axes, s.isPicked = false) {index : List Nat}
    (hIn : (counts axes).Contains index) :
    (a.view axes).cell index = a.cell (sourceIndex axes [] index) := by
  have hLength : a.strides.length = axes.length := h.strides_length.trans hValid.length_eq
  obtain ⟨-, -, hCells⟩ := displacement_viewAlong hValid hLength hPlain
  -- The first index of the view shows that its offset is not negative.
  have hZeros := Shape.contains_zeros hIn.zero_notMem
  have hFirst := h.nonneg _ (contains_sourceIndex_of_plain hValid hPlain hZeros)
  rw [cell, ← hCells _ hZeros, displacement_zeros, Int.add_zero] at hFirst
  rw [cell, cell, ← hCells index hIn]
  simp only [view]
  rw [Int.toNat_of_nonneg hFirst, Int.add_assoc]

theorem Anchored.shape_view (h : a.Anchored) (hValid : List.Forall₂ Valid a.shape axes)
    (hPlain : ∀ s ∈ axes, s.isPicked = false) : (a.view axes).shape = counts axes :=
  (displacement_viewAlong hValid (h.strides_length.trans hValid.length_eq) hPlain).1

theorem Anchored.view (h : a.Anchored) (hValid : List.Forall₂ Valid a.shape axes)
    (hPlain : ∀ s ∈ axes, s.isPicked = false) : (a.view axes).Anchored := by
  have hLength : a.strides.length = axes.length := h.strides_length.trans hValid.length_eq
  obtain ⟨hShape, hStrides, -⟩ := displacement_viewAlong hValid hLength hPlain
  refine ⟨hStrides.trans (congrArg List.length hShape).symm, fun index hIn => ?_⟩
  rw [h.shape_view hValid hPlain] at hIn
  rw [h.cell_view hValid hPlain hIn]
  exact h.nonneg _ (contains_sourceIndex_of_plain hValid hPlain hIn)

theorem WellFormed.cell_view (h : a.WellFormed store) (hValid : List.Forall₂ Valid a.shape axes)
    (hPlain : ∀ s ∈ axes, s.isPicked = false) {index : List Nat}
    (hIn : (counts axes).Contains index) :
    (a.view axes).cell index = a.cell (sourceIndex axes [] index) :=
  h.anchored.cell_view hValid hPlain hIn

theorem WellFormed.shape_view (h : a.WellFormed store) (hValid : List.Forall₂ Valid a.shape axes)
    (hPlain : ∀ s ∈ axes, s.isPicked = false) : (a.view axes).shape = counts axes :=
  h.anchored.shape_view hValid hPlain

/-- A view of a well-formed array is well-formed. -/
theorem WellFormed.view (h : a.WellFormed store) (hValid : List.Forall₂ Valid a.shape axes)
    (hPlain : ∀ s ∈ axes, s.isPicked = false) : (a.view axes).WellFormed store := by
  have hSame := h.shape_view hValid hPlain
  refine ⟨(h.anchored.view hValid hPlain).strides_length, h.stored, ?_, ?_⟩
  · intro index hIn
    rw [hSame] at hIn
    rw [h.cell_view hValid hPlain hIn]
    exact h.inside _ (contains_sourceIndex_of_plain hValid hPlain hIn)
  · intro i j hi hj hEq
    rw [hSame] at hi hj
    rw [h.cell_view hValid hPlain hi, h.cell_view hValid hPlain hj] at hEq
    exact sourceIndex_injective hValid hPlain hi hj
      (h.apart _ _ (contains_sourceIndex_of_plain hValid hPlain hi)
        (contains_sourceIndex_of_plain hValid hPlain hj) hEq)

end NdArray

section Gatherings

open AxisSelection

/-- The shape of a gathering: the common index shape stands among the sliced axes. -/
def AxisSelection.gatheredShape (axes : List AxisSelection) (common : Shape) : Shape :=
  (counts axes).take (leadingRanges axes) ++ common ++ (counts axes).drop (leadingRanges axes)

/-- The index of the array that an index of a gathering stands for. -/
def AxisSelection.gatheredSource (axes : List AxisSelection) (common : Shape)
    (index : List Nat) : List Nat :=
  sourceIndex axes ((index.drop (leadingRanges axes)).take common.length)
    (index.take (leadingRanges axes) ++ index.drop (leadingRanges axes + common.length))

theorem AxisSelection.leadingRanges_le (axes : List AxisSelection) :
    leadingRanges axes ≤ (counts axes).length := by
  have hRanges : (axes.takeWhile isRange).length ≤ (counts axes).length := by
    induction axes with
    | nil => simp
    | cons selection axes ih =>
        cases selection with
        | «at» p => simp [isRange]
        | range r => simpa [List.takeWhile_cons, isRange] using ih
        | picked ps shape => simp [isRange]
  unfold leadingRanges
  split
  · exact hRanges
  · exact Nat.zero_le _

/-- An index of a gathering splits into a block on the common index shape and the
coordinates on the sliced axes. -/
theorem AxisSelection.contains_gatheredShape {axes : List AxisSelection} {common : Shape}
    {index : List Nat} (h : (gatheredShape axes common).Contains index) :
    common.Contains ((index.drop (leadingRanges axes)).take common.length) ∧
      (counts axes).Contains
        (index.take (leadingRanges axes) ++ index.drop (leadingRanges axes + common.length)) := by
  have hLead : ((counts axes).take (leadingRanges axes)).length = leadingRanges axes :=
    List.length_take_of_le (leadingRanges_le axes)
  rw [gatheredShape, List.append_assoc, Shape.contains_append, Shape.contains_append, hLead,
    List.drop_drop] at h
  obtain ⟨hFront, hBlock, hBack⟩ := h
  refine ⟨hBlock, ?_⟩
  have hFrontLength := hFront.length_eq
  rw [← List.take_append_drop (leadingRanges axes) (counts axes), Shape.contains_append, hLead]
  rw [hLead] at hFrontLength
  rw [List.take_append_of_le_length hFrontLength.ge, List.take_of_length_le hFrontLength.le,
    List.drop_append_of_le_length hFrontLength.ge, List.drop_of_length_le hFrontLength.le,
    List.nil_append]
  exact ⟨hFront, hBack⟩

open Outcome

variable {a : NdArray} {axes : List AxisSelection}

/-- A gathering lists the cells of the indices that its own indices stand for. -/
theorem NdArray.gather_eq_ok_iff {located : Located} :
    a.gather axes = .ok located ↔ ∃ common,
      Shape.IsCommon (axes.filterMap indexShape?) common ∧
        (∃ size, (gatheredShape axes common).checkedSize = .ok size) ∧
        located = .gather (gatheredShape axes common)
          ((gatheredShape axes common).indices.map fun index =>
            a.offsetOf (gatheredSource axes common index)) := by
  simp only [← Shape.joinAll?_eq_some_iff, NdArray.gather]
  cases hJoin : Shape.joinAll? (axes.filterMap indexShape?) with
  | none => exact ⟨fun h => (nomatch h), fun ⟨_, h, _⟩ => (nomatch h)⟩
  | some found =>
      change (Shape.checkedSize (gatheredShape axes found) >>= fun _ => _) = Except.ok located ↔ _
      rw [bind_eq_ok_iff]
      simp only [pure_eq_ok_iff, Option.some.injEq, exists_eq_left', exists_and_right]
      exact and_congr_right fun _ => eq_comm

end Gatherings

namespace NdArray

open AxisSelection Outcome

/-- The selectors of an index expression with whole axes for those that are
missing. -/
def completed (a : NdArray) (selectors : List Selector) : List Selector :=
  selectors ++ List.replicate (a.rank - selectors.length) Selector.all

theorem length_completed {a : NdArray} {selectors : List Selector}
    (h : selectors.length ≤ a.rank) : (a.completed selectors).length = a.shape.length := by
  rw [rank] at h
  simp [completed, rank]
  omega

theorem exact_completed {a : NdArray} {selectors : List Selector}
    (h : ∀ s ∈ selectors, s.Exact) : ∀ s ∈ a.completed selectors, s.Exact := by
  intro s hs
  rcases List.mem_append.mp hs with hs | hs
  · exact h s hs
  · rw [(List.mem_replicate.mp hs).2]
    trivial

/-- With enough axes for its selectors, an index expression is resolved axis by axis. -/
theorem locate_eq {a : NdArray} {selectors : List Selector} (hRank : selectors.length ≤ a.rank) :
    a.locate selectors = (Selector.resolveFrom 0 (a.completed selectors) a.shape >>= fun axes =>
      if axes.any isPicked then a.gather axes else return .view (a.view axes)) := by
  rw [locate, if_neg (Nat.not_lt.mpr hRank)]
  rfl

/-- An index expression is located by its resolved selectors: as a gathering if one
of them is an index array or a mask, as a view otherwise. -/
theorem locate_eq_ok_iff {a : NdArray} {selectors : List Selector} {located : Located} :
    a.locate selectors = .ok located ↔ selectors.length ≤ a.rank ∧
      ∃ axes, Selector.resolveFrom 0 (a.completed selectors) a.shape = .ok axes ∧
        ((∃ s ∈ axes, s.isPicked = true) ∧ a.gather axes = .ok located ∨
          (∀ s ∈ axes, s.isPicked = false) ∧ located = .view (a.view axes)) := by
  by_cases hRank : a.rank < selectors.length
  · rw [locate]
    simp only [hRank, if_true]
    exact ⟨fun h => (nomatch h), fun ⟨h, _⟩ => (Nat.not_lt.mpr h hRank).elim⟩
  · rw [locate_eq (Nat.not_lt.mp hRank), bind_eq_ok_iff]
    refine ⟨fun ⟨axes, hAxes, h⟩ => ⟨by omega, axes, hAxes, ?_⟩,
      fun ⟨_, axes, hAxes, h⟩ => ⟨axes, hAxes, ?_⟩⟩
    · split at h
      · rename_i hPicked
        exact .inl ⟨List.any_eq_true.mp hPicked, h⟩
      · rename_i hPlain
        simp only [List.any_eq_true, not_exists, not_and, Bool.not_eq_true] at hPlain
        exact .inr ⟨hPlain, (pure_eq_ok_iff.mp h).symm⟩
    · rcases h with ⟨hPicked, h⟩ | ⟨hPlain, rfl⟩
      · rw [if_pos (List.any_eq_true.mpr hPicked)]
        exact h
      · rw [if_neg (by simpa using hPlain)]
        rfl

section Located

variable {a : NdArray} {store : BufferStore} {selectors : List Selector}

/-- A selector that picks nothing is as exact as it can be. -/
theorem exact_of_resolveFrom {axis : Nat} {selectors : List Selector} {sizes : Shape}
    {axes : List AxisSelection} (hLength : selectors.length = sizes.length)
    (h : Selector.resolveFrom axis selectors sizes = .ok axes)
    (hPlain : ∀ s ∈ axes, s.isPicked = false) : ∀ s ∈ selectors, s.Exact := by
  induction selectors generalizing axis sizes axes with
  | nil => simp
  | cons selector selectors ih =>
      cases sizes with
      | nil => simp at hLength
      | cons n ns =>
          simp only [Selector.resolveFrom, bind_eq_ok_iff, pure_eq_ok_iff] at h
          obtain ⟨first, hFirst, rest, hRest, rfl⟩ := h
          obtain ⟨hHead, hTail⟩ := List.forall_mem_cons.mp hPlain
          refine List.forall_mem_cons.mpr ⟨?_, ih (by simpa using hLength) hRest hTail⟩
          cases selector with
          | indices values shape =>
              obtain ⟨positions, -, h⟩ := bind_eq_ok_iff.mp hFirst
              cases h
              cases hHead
          | _ => trivial

/-- A located view is the one of its resolved axes, none of which is an index array. -/
theorem exists_axes_of_view {v : NdArray} (hLocate : a.locate selectors = .ok (.view v)) :
    selectors.length ≤ a.rank ∧ ∃ axes,
      Selector.resolveFrom 0 (a.completed selectors) a.shape = .ok axes ∧
        List.Forall₂ Valid a.shape axes ∧ (∀ s ∈ axes, s.isPicked = false) ∧ v = a.view axes := by
  obtain ⟨hRank, axes, hAxes, ⟨-, hGather⟩ | ⟨hPlain, hView⟩⟩ := locate_eq_ok_iff.mp hLocate
  · obtain ⟨common, -, -, hEq⟩ := gather_eq_ok_iff.mp hGather
    cases hEq
  · cases hView
    have hLength := length_completed hRank
    have hExact := exact_of_resolveFrom hLength hAxes hPlain
    exact ⟨hRank, axes, hAxes, Selector.valid_of_resolveFrom hExact hLength hAxes, hPlain, rfl⟩

/-- A view that an index expression locates is well-formed and shows the array's
own storage. -/
theorem WellFormed.view_of_locate (h : a.WellFormed store) {v : NdArray}
    (hLocate : a.locate selectors = .ok (.view v)) :
    v.WellFormed store ∧ v.buffer = a.buffer ∧ v.dtype = a.dtype := by
  obtain ⟨-, axes, -, hValid, hPlain, rfl⟩ := exists_axes_of_view hLocate
  exact ⟨h.view hValid hPlain, rfl, rfl⟩

theorem select_of_view {v : NdArray} (hLocate : a.locate selectors = .ok (.view v)) :
    a.select store selectors = .ok (.view v) := by
  rw [NdArray.select, hLocate]
  rfl

theorem select_of_gather {shape : Shape} {offsets : Array Nat}
    (hLocate : a.locate selectors = .ok (.gather shape offsets)) :
    a.select store selectors = shape.checkStrides >>= fun _ =>
      .ok (.fresh ⟨a.dtype, shape, offsets.map (store.get a.buffer)⟩) := by
  rw [NdArray.select, hLocate]
  rfl

/-- What is selected is what was located: a view as it is, a gathering as a copy, if the strides
of the copy are words. -/
theorem select_eq_ok_iff {form : ArrayForm} : a.select store selectors = .ok form ↔
    (∃ v, a.locate selectors = .ok (.view v) ∧ form = .view v) ∨
      ∃ shape offsets, a.locate selectors = .ok (.gather shape offsets) ∧
        shape.checkStrides = .ok () ∧
        form = .fresh ⟨a.dtype, shape, offsets.map (store.get a.buffer)⟩ := by
  constructor
  · intro h
    obtain ⟨located, hLocate, hForm⟩ := bind_eq_ok_iff.mp h
    cases located with
    | view v => exact .inl ⟨v, hLocate, (pure_eq_ok_iff.mp hForm).symm⟩
    | gather shape offsets =>
        obtain ⟨⟨⟩, hStrides, hForm⟩ := bind_eq_ok_iff.mp hForm
        exact .inr ⟨shape, offsets, hLocate, hStrides, (pure_eq_ok_iff.mp hForm).symm⟩
  · rintro (⟨v, hLocate, rfl⟩ | ⟨shape, offsets, hLocate, hStrides, rfl⟩)
    · exact select_of_view hLocate
    · rw [select_of_gather hLocate, hStrides]
      rfl

/-- What is selected from an anchored array is anchored, too. -/
theorem Anchored.select (h : a.Anchored) {form : ArrayForm}
    (hSelect : a.select store selectors = .ok form) : form.Anchored := by
  rcases select_eq_ok_iff.mp hSelect with ⟨v, hLocate, rfl⟩ | ⟨shape, offsets, -, -, rfl⟩
  · obtain ⟨-, axes, -, hValid, hPlain, rfl⟩ := exists_axes_of_view hLocate
    exact h.view hValid hPlain
  · trivial

/-- The number of gathered elements was checked. -/
theorem exists_checkedSize_of_gather {shape : Shape} {offsets : Array Nat}
    (hLocate : a.locate selectors = .ok (.gather shape offsets)) :
    ∃ count, shape.checkedSize = .ok count := by
  obtain ⟨-, axes, -, ⟨-, hGather⟩ | ⟨-, hView⟩⟩ := locate_eq_ok_iff.mp hLocate
  · obtain ⟨common, -, hCount, hEq⟩ := gather_eq_ok_iff.mp hGather
    cases hEq
    exact hCount
  · cases hView

/-- A located selection has one cell for each index of its shape. -/
theorem size_offsets_of_locate {located : Located} (hLocate : a.locate selectors = .ok located) :
    located.offsets.size = located.shape.size := by
  cases located with
  | view v => exact size_offsets v
  | gather shape offsets =>
      obtain ⟨-, axes, -, ⟨-, hGather⟩ | ⟨-, hView⟩⟩ := locate_eq_ok_iff.mp hLocate
      · obtain ⟨common, -, -, hEq⟩ := gather_eq_ok_iff.mp hGather
        cases hEq
        simp [Located.offsets, Located.shape]
      · cases hView

/-- Every selected cell belongs to an element of the array. -/
theorem WellFormed.mem_offsets_of_locate (h : a.WellFormed store)
    (hExact : ∀ s ∈ selectors, s.Exact) {located : Located}
    (hLocate : a.locate selectors = .ok located) : ∀ o ∈ located.offsets, o ∈ a.offsets := by
  intro o ho
  obtain ⟨hRank, axes, hAxes, hKind⟩ := locate_eq_ok_iff.mp hLocate
  have hValid := Selector.valid_of_resolveFrom (exact_completed hExact) (length_completed hRank) hAxes
  rcases hKind with ⟨-, hGather⟩ | ⟨hPlain, rfl⟩
  · obtain ⟨common, hCommon, -, rfl⟩ := gather_eq_ok_iff.mp hGather
    obtain ⟨index, hIndex, rfl⟩ := Array.mem_map.mp ho
    obtain ⟨hBlock, hCoordinates⟩ := contains_gatheredShape (Shape.mem_indices.mp hIndex)
    exact mem_offsets.mpr
      ⟨_, contains_sourceIndex hValid hCommon.upper hBlock hCoordinates, rfl⟩
  · obtain ⟨index, hIndex, rfl⟩ := mem_offsets.mp ho
    rw [h.shape_view hValid hPlain] at hIndex
    refine mem_offsets.mpr ⟨_, contains_sourceIndex_of_plain hValid hPlain hIndex, ?_⟩
    rw [offsetOf_eq, offsetOf_eq, h.cell_view hValid hPlain hIndex]

/-- The array that an index expression selects is sound, as a view and as a copy. -/
theorem WellFormed.sound_select (h : a.WellFormed store) {form : ArrayForm}
    (hSelect : a.select store selectors = .ok form) : form.Sound store := by
  rcases select_eq_ok_iff.mp hSelect with ⟨v, hLocate, rfl⟩ | ⟨shape, offsets, hLocate, -, rfl⟩
  · exact (h.view_of_locate hLocate).1
  · simpa [ArrayForm.Sound, Located.offsets, Located.shape] using size_offsets_of_locate hLocate

end Located

end NdArray

end ArrayBridge
