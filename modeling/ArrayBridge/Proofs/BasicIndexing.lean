import ArrayBridge.Proofs.LocationFaults
import ArrayBridge.Proofs.SlicePositions

/-! The meaning of positions and slices.

An index expression of positions and slices takes one axis after the other. A position leaves out
its axis, a slice keeps its positions, and the axes without a selector stay as they are. The first
axis that its selector does not fit decides the failure. Where all fit, the selection is a view: its
offset and strides lead to the elements that the selectors say. -/

namespace ArrayBridge

open Outcome

namespace Selector

/-- A position that may count from the end of its axis, counted from the front. -/
def counted (index : Int64) (size : Nat) : Int :=
  if index.toInt < 0 then index.toInt + size else index.toInt

/-- What is wrong with a selector on the axis with the given number and length. -/
inductive Offence (axis size : Nat) : Selector → Exception → Prop
  | position {index : Int64} (outside : index.toInt < -size ∨ size ≤ index.toInt) :
      Offence axis size (.at index) (.indexOutOfBounds index axis size)
  | step {bounds : SliceBounds} (still : bounds.step = some 0) :
      Offence axis size (.slice bounds) .zeroSliceStep

/-- The axis at the given place offends in the given way, where the axes are numbered from `first`
on. -/
def OffendsAt (first : Nat) (selectors : List Selector) (shape : Shape) (place : Nat)
    (e : Exception) : Prop :=
  ∃ selector size, selectors[place]? = some selector ∧ shape[place]? = some size ∧
    Offence (first + place) size selector e

/-- The lengths of the slices, followed by the axes without a selector. -/
def resultShape : List Selector → Shape → Shape
  | slice bounds :: selectors, size :: sizes =>
    (bounds.positions size).length :: resultShape selectors sizes
  | _ :: selectors, _ :: sizes => resultShape selectors sizes
  | _, sizes => sizes

/-- The index of the array that an index of the result stands for: a position counted from the
front, the position of a slice that the coordinate says, and the coordinates of the axes without
a selector. -/
inductive Shows : List Selector → Shape → List Nat → List Nat → Prop
  | rest {sizes : Shape} {index : List Nat} : Shows [] sizes index index
  | position {index : Int64} {size position : Nat} {selectors : List Selector} {sizes : Shape}
      {coordinates source : List Nat} (hPosition : (position : Int) = counted index size)
      (hRest : Shows selectors sizes coordinates source) :
      Shows (.at index :: selectors) (size :: sizes) coordinates (position :: source)
  | slice {bounds : SliceBounds} {size coordinate position : Nat} {selectors : List Selector}
      {sizes : Shape} {coordinates source : List Nat}
      (hPosition : (bounds.positions size)[coordinate]? = some (position : Int))
      (hRest : Shows selectors sizes coordinates source) :
      Shows (.slice bounds :: selectors) (size :: sizes) (coordinate :: coordinates)
        (position :: source)

section Offences

variable {selector : Selector} {selectors : List Selector} {axis size : Nat} {sizes : Shape}
  {e : Exception}

theorem Offence.kind (h : Offence axis size selector e) :
    e.kind = .indexError ∨ e.kind = .valueError := by
  cases h with
  | position => exact .inl rfl
  | step => exact .inr rfl

/-- A whole axis does not offend. -/
theorem not_offence_all : ¬ Offence axis size .all e := by
  rintro ⟨⟩
  rename_i still
  cases still

theorem resolvePosition_of_words (index : Int64) (axis : Nat) (hSize : size < Word.signedLimit) :
    resolvePosition index size axis =
      if -size ≤ index.toInt ∧ index.toInt < size then .ok (counted index size).toNat
      else .error (.indexOutOfBounds index axis size) := by
  unfold resolvePosition counted
  dsimp only
  rw [signedLength_of_lt hSize]
  by_cases hFront : index.toInt < 0
  · simp only [hFront, if_true]
    split_ifs <;> first | rfl | omega
  · simp only [hFront, if_false]
    split_ifs <;> first | rfl | omega

/-- A position or a slice is refused exactly for its offence. -/
theorem resolve_eq_error_iff (hBasic : selector.isGathering = false)
    (hSize : size < Word.signedLimit) :
    selector.resolve axis size = .error e ↔ Offence axis size selector e := by
  cases selector with
  | «at» index =>
      rw [resolve, resolvePosition_of_words index axis hSize]
      split
      · rename_i hInside
        constructor
        · intro h
          cases h
        · rintro ⟨outside⟩
          omega
      · rename_i hOutside
        constructor
        · intro h
          cases h
          exact .position (by omega)
        · rintro ⟨outside⟩
          rfl
  | slice bounds =>
      rw [resolve, SliceBounds.resolve]
      dsimp only
      split
      · rename_i hStep
        constructor
        · intro h
          cases h
          exact .step (SliceBounds.step_eq_zero_iff.mp hStep)
        · rintro ⟨⟩
          rfl
      · rename_i hStep
        constructor
        · intro h
          cases h
        · rintro ⟨⟩
          rename_i still
          exact absurd (SliceBounds.step_eq_zero_iff.mpr still) hStep
  | indices values shape => cases hBasic
  | mask flags => cases hBasic

@[simp] theorem offendsAt_zero :
    OffendsAt axis (selector :: selectors) (size :: sizes) 0 e ↔ Offence axis size selector e := by
  simp [OffendsAt]

@[simp] theorem offendsAt_succ {place : Nat} :
    OffendsAt axis (selector :: selectors) (size :: sizes) (place + 1) e ↔
      OffendsAt (axis + 1) selectors sizes place e := by
  simp only [OffendsAt, List.getElem?_cons_succ, Nat.add_assoc, Nat.add_comm 1]

/-- The first axis that offends decides. -/
theorem resolveFrom_eq_error_iff (hBasic : ∀ s ∈ selectors, s.isGathering = false)
    (hSizes : ∀ n ∈ sizes, n < Word.signedLimit) :
    resolveFrom axis selectors sizes = .error e ↔ ∃ place, OffendsAt axis selectors sizes place e ∧
      ∀ before < place, ∀ e', ¬ OffendsAt axis selectors sizes before e' := by
  induction selectors generalizing axis sizes with
  | nil => simp [resolveFrom, OffendsAt, pure, Except.pure]
  | cons selector selectors ih =>
      cases sizes with
      | nil => simp [resolveFrom, OffendsAt, pure, Except.pure]
      | cons size sizes =>
          obtain ⟨hHead, hTail⟩ := List.forall_mem_cons.mp hBasic
          obtain ⟨hSize, hRest⟩ := List.forall_mem_cons.mp hSizes
          have hHere (e' : Exception) : selector.resolve axis size = .error e' ↔
              Offence axis size selector e' := resolve_eq_error_iff hHead hSize
          rw [resolveFrom, bind_eq_error_iff]
          constructor
          · rintro (hFirst | ⟨resolved, hFirst, hLater⟩)
            · refine ⟨0, offendsAt_zero.mpr ((hHere e).mp hFirst), fun before hBefore => ?_⟩
              exact absurd hBefore (Nat.not_lt_zero before)
            · rcases bind_eq_error_iff.mp hLater with hLater | ⟨_, -, hPure⟩
              · obtain ⟨place, hOffends, hNone⟩ := (ih hTail hRest).mp hLater
                refine ⟨place + 1, offendsAt_succ.mpr hOffends, fun before hBefore e' h => ?_⟩
                cases before with
                | zero => cases hFirst.symm.trans ((hHere e').mpr (offendsAt_zero.mp h))
                | succ before => exact hNone before (by omega) e' (offendsAt_succ.mp h)
              · cases hPure
          · rintro ⟨place, hOffends, hNone⟩
            cases place with
            | zero => exact .inl ((hHere e).mpr (offendsAt_zero.mp hOffends))
            | succ place =>
                cases hFirst : selector.resolve axis size with
                | error e' =>
                    exact absurd (offendsAt_zero.mpr ((hHere e').mp hFirst))
                      (hNone 0 (Nat.succ_pos place) e')
                | ok resolved =>
                    have hLater := (ih hTail hRest).mpr ⟨place, offendsAt_succ.mp hOffends,
                      fun before hBefore e' h =>
                        hNone (before + 1) (by omega) e' (offendsAt_succ.mpr h)⟩
                    exact .inr ⟨resolved, rfl, bind_eq_error_iff.mpr (.inl hLater)⟩

/-- Whole axes that are added behind the given ones do not offend. -/
theorem offendsAt_append_all {place missing : Nat} :
    OffendsAt axis (selectors ++ List.replicate missing all) sizes place e ↔
      OffendsAt axis selectors sizes place e := by
  unfold OffendsAt
  by_cases hPlace : place < selectors.length
  · rw [List.getElem?_append_left hPlace]
  · have hNone : selectors[place]? = none := List.getElem?_eq_none (Nat.not_lt.mp hPlace)
    rw [List.getElem?_append_right (Nat.not_lt.mp hPlace), hNone, List.getElem?_replicate]
    constructor
    · rintro ⟨selector, size, hSelector, -, hOffence⟩
      split at hSelector
      · cases hSelector
        exact absurd hOffence not_offence_all
      · cases hSelector
    · rintro ⟨_, _, hSelector, -⟩
      cases hSelector

end Offences

section Views

open AxisSelection

variable {selectors : List Selector} {first missing : Nat} {sizes : Shape}
  {axes : List AxisSelection}

/-- A whole axis is the slice of all its positions. -/
theorem resolve_full {size : Nat} (hSize : size < Word.signedLimit) :
    SliceBounds.full.resolve size = .ok ⟨0, size, 1⟩ := by
  have hCount : SliceBounds.countSteps 0 size 1 = size := by
    unfold SliceBounds.countSteps
    rw [Int.natAbs_one, Nat.div_one]
    split_ifs <;> omega
  have hStep : (if 1 < size then (1 : Int) else Int.sign 1) = 1 := by
    split <;> rfl
  simp only [SliceBounds.resolve, SliceBounds.full, Option.getD_none, Int64.toInt_one,
    SliceBounds.first, SliceBounds.bound, signedLength_of_lt hSize]
  simp [hCount]

/-- Whole axes show every index as itself. -/
theorem sourceIndex_of_whole (hSizes : ∀ n ∈ sizes, n < Word.signedLimit)
    (h : resolveFrom first (List.replicate sizes.length all) sizes = .ok axes) :
    counts axes = sizes ∧ ∀ index, sizes.Contains index → sourceIndex axes [] index = index := by
  induction sizes generalizing first axes with
  | nil =>
      cases h
      refine ⟨rfl, fun index hIn => ?_⟩
      rw [Shape.contains_nil_iff.mp hIn]
      rfl
  | cons size sizes ih =>
      obtain ⟨hSize, hRest⟩ := List.forall_mem_cons.mp hSizes
      rw [List.length_cons, List.replicate_succ, resolveFrom, all, resolve, resolve_full hSize] at h
      obtain ⟨_, hFirst, h⟩ := bind_eq_ok_iff.mp h
      cases hFirst
      obtain ⟨rest, hLater, h⟩ := bind_eq_ok_iff.mp h
      cases h
      obtain ⟨hCounts, hSource⟩ := ih hRest hLater
      refine ⟨by rw [counts_range, hCounts], fun index hIn => ?_⟩
      cases index with
      | nil => exact hIn.elim
      | cons i is => simp [sourceIndex, SliceRange.position, hSource is hIn.2]

/-- The shape and the indices of a view are the documented ones. -/
theorem shows_of_resolveFrom (hBasic : ∀ s ∈ selectors, s.isGathering = false)
    (hSizes : ∀ n ∈ sizes, n < Word.signedLimit) (hLength : selectors.length + missing = sizes.length)
    (h : resolveFrom first (selectors ++ List.replicate missing all) sizes = .ok axes) :
    counts axes = resultShape selectors sizes ∧ ∀ index, (counts axes).Contains index →
      Shows selectors sizes index (sourceIndex axes [] index) := by
  induction selectors generalizing first sizes axes with
  | nil =>
      obtain rfl : missing = sizes.length := by simpa using hLength
      obtain ⟨hCounts, hSource⟩ := sourceIndex_of_whole hSizes h
      refine ⟨hCounts, fun index hIn => ?_⟩
      rw [hSource index (hCounts ▸ hIn)]
      exact .rest
  | cons selector selectors ih =>
      cases sizes with
      | nil => simp at hLength
      | cons size sizes =>
          obtain ⟨hHead, hTail⟩ := List.forall_mem_cons.mp hBasic
          obtain ⟨hSize, hRest⟩ := List.forall_mem_cons.mp hSizes
          simp only [List.cons_append, resolveFrom, bind_eq_ok_iff, pure_eq_ok_iff] at h
          obtain ⟨resolved, hFirst, rest, hLater, rfl⟩ := h
          have hShorter : selectors.length + missing = sizes.length := by
            simp only [List.length_cons] at hLength
            omega
          obtain ⟨hCounts, hShows⟩ := ih hTail hRest hShorter hLater
          cases selector with
          | «at» index =>
              obtain ⟨position, hPosition, hEq⟩ := bind_eq_ok_iff.mp hFirst
              cases hEq
              have hCounted : (position : Int) = counted index size := by
                rw [eq_fromFront hPosition, fromFront, signedLength_of_lt hSize, counted]
              exact ⟨hCounts, fun coordinates hIn => .position hCounted (hShows coordinates hIn)⟩
          | slice bounds =>
              obtain ⟨range, hRange, hEq⟩ := bind_eq_ok_iff.mp hFirst
              cases hEq
              have hPositions := SliceBounds.map_position_eq hSize hRange
              have hCount : (bounds.positions size).length = range.count := by
                rw [← hPositions, List.length_map, List.length_range]
              refine ⟨by rw [counts_range, resultShape, hCount, hCounts], fun coordinates hIn => ?_⟩
              cases coordinates with
              | nil => exact hIn.elim
              | cons coordinate coordinates =>
                  refine .slice ?_ (hShows coordinates hIn.2)
                  have hInside := SliceBounds.position_inside hRange hIn.1
                  rw [← hPositions, List.getElem?_map, List.getElem?_range hIn.1, List.headD_cons,
                    Int.toNat_of_nonneg hInside.1]
                  rfl
          | indices values shape => cases hHead
          | mask flags => cases hHead

/-- An index of the result stands for one index of the array. -/
theorem Shows.unique {index left right : List Nat} (hLeft : Shows selectors sizes index left)
    (hRight : Shows selectors sizes index right) : left = right := by
  induction hLeft generalizing right with
  | rest =>
      cases hRight
      rfl
  | position hPosition _ ih =>
      cases hRight with
      | position hOther hRest =>
          rw [ih hRest, Int.ofNat_inj.mp (hPosition.trans hOther.symm)]
  | slice hPosition _ ih =>
      cases hRight with
      | slice hOther hRest =>
          rw [ih hRest, Int.ofNat_inj.mp (Option.some.inj (hPosition.symm.trans hOther))]

/-- No axis of a result is longer than one of the array. -/
theorem lt_of_mem_resultShape (hSizes : ∀ n ∈ sizes, n < Word.signedLimit) :
    ∀ n ∈ resultShape selectors sizes, n < Word.signedLimit := by
  fun_induction resultShape selectors sizes with
  | case1 bounds selectors size sizes ih =>
      obtain ⟨hSize, hRest⟩ := List.forall_mem_cons.mp hSizes
      have hLength := bounds.length_positions_le hSize
      exact List.forall_mem_cons.mpr ⟨by omega, ih hRest⟩
  | case2 selector selectors size sizes _ ih => exact ih (List.forall_mem_cons.mp hSizes).2
  | case3 => exact hSizes

end Views

end Selector

namespace NdArray

open AxisSelection Selector

variable {a v : NdArray} {store : BufferStore} {selectors : List Selector} {e : Exception}

theorem basic_completed (hBasic : ∀ s ∈ selectors, s.isGathering = false) :
    ∀ s ∈ a.completed selectors, s.isGathering = false := by
  intro s hs
  rcases List.mem_append.mp hs with hGiven | hMissing
  · exact hBasic s hGiven
  · rw [(List.mem_replicate.mp hMissing).2]
    rfl

/-- Positions and slices resolve to axes without index arrays. -/
theorem plain_of_basic (hRank : selectors.length ≤ a.rank)
    (hBasic : ∀ s ∈ selectors, s.isGathering = false) {axes : List AxisSelection}
    (hAxes : resolveFrom 0 (a.completed selectors) a.shape = .ok axes) :
    axes.any AxisSelection.isPicked = false := by
  rw [← Bool.not_eq_true, any_isPicked_iff hRank hAxes]
  rintro ⟨s, hs, hGathering⟩
  rw [hBasic s hs] at hGathering
  cases hGathering

/-- Positions and slices are refused for the first axis that offends. -/
theorem locate_eq_error_iff (hSizes : ∀ n ∈ a.shape, n < Word.signedLimit)
    (hBasic : ∀ s ∈ selectors, s.isGathering = false) (hRank : selectors.length ≤ a.rank) :
    a.locate selectors = .error e ↔ ∃ place, OffendsAt 0 selectors a.shape place e ∧
      ∀ before < place, ∀ e', ¬ OffendsAt 0 selectors a.shape before e' := by
  have hResolve : a.locate selectors = .error e ↔
      resolveFrom 0 (a.completed selectors) a.shape = .error e := by
    rw [locate_eq hRank, bind_eq_error_iff]
    refine or_iff_left ?_
    rintro ⟨axes, hAxes, hError⟩
    rw [plain_of_basic hRank hBasic hAxes] at hError
    cases hError
  rw [hResolve, resolveFrom_eq_error_iff (basic_completed hBasic) hSizes, completed]
  simp only [offendsAt_append_all]

/-- A view shows the elements of an array that an index expression of positions and slices selects:
it stands on the same storage, has the documented shape, and the element at each index is the one
of the array at the index that this index stands for. -/
structure BasicView (a : NdArray) (store : BufferStore) (selectors : List Selector)
    (v : NdArray) : Prop where
  wellFormed : v.WellFormed store
  buffer_eq : v.buffer = a.buffer
  dtype_eq : v.dtype = a.dtype
  shape_eq : v.shape = resultShape selectors a.shape
  elements : ∀ index, v.shape.Contains index → ∃ source, Shows selectors a.shape index source ∧
    a.shape.Contains source ∧ v.offsetOf index = a.offsetOf source ∧
      (v.contents store).element index = (a.contents store).element source

/-- A located view shows the elements that its index expression selects. -/
theorem WellFormed.basicView (h : a.WellFormed store) (hSizes : ∀ n ∈ a.shape, n < Word.signedLimit)
    (hLocate : a.locate selectors = .ok (.view v)) : a.BasicView store selectors v := by
  have hBasic : ∀ s ∈ selectors, s.isGathering = false := (exists_view_iff hLocate).mp ⟨v, rfl⟩
  obtain ⟨hRank, axes, hAxes, hValid, hPlain, rfl⟩ := exists_axes_of_view hLocate
  have hMissing : selectors.length + (a.rank - selectors.length) = a.shape.length := by
    rw [rank] at hRank ⊢
    omega
  have hShape := h.shape_view hValid hPlain
  obtain ⟨hCounts, hShows⟩ := shows_of_resolveFrom hBasic hSizes hMissing hAxes
  refine ⟨h.view hValid hPlain, rfl, rfl, hShape.trans hCounts, fun index hIn => ?_⟩
  rw [hShape] at hIn
  have hSource := contains_sourceIndex_of_plain hValid hPlain hIn
  have hOffset : (a.view axes).offsetOf index = a.offsetOf (sourceIndex axes [] index) := by
    rw [offsetOf_eq, offsetOf_eq, h.cell_view hValid hPlain hIn]
  refine ⟨_, hShows index hIn, hSource, hOffset, ?_⟩
  rw [element_contents store (hShape ▸ hIn), element_contents store hSource, hOffset]
  rfl

/-- Positions and slices are refused exactly if some axis offends. -/
theorem exists_locate_eq_error_iff (hSizes : ∀ n ∈ a.shape, n < Word.signedLimit)
    (hBasic : ∀ s ∈ selectors, s.isGathering = false) (hRank : selectors.length ≤ a.rank) :
    (∃ e, a.locate selectors = .error e) ↔ ∃ axis e, OffendsAt 0 selectors a.shape axis e := by
  simp only [locate_eq_error_iff hSizes hBasic hRank]
  constructor
  · rintro ⟨e, axis, hOffends, -⟩
    exact ⟨axis, e, hOffends⟩
  · intro hSome
    classical
    obtain ⟨e, hOffends⟩ := Nat.find_spec hSome
    exact ⟨e, _, hOffends, fun before hBefore e' h => Nat.find_min hSome hBefore ⟨e', h⟩⟩

end NdArray

end ArrayBridge
