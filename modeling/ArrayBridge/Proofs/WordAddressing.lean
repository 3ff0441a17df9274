import ArrayBridge.Proofs.AdvancedIndexing
import ArrayBridge.Proofs.SlicePositions

/-! Finding cells in machine words.

The offset and the strides of a view, and the cells of elements, are sums of products of positions
with strides. Here they are computed as a machine computes them: axis by axis, where each product
and each sum on the way has to be a signed word. If the cells that the axes of an array span all lie
below a limit which is a word, then so does every one of these numbers, since a sum over the first
axes is the cell of an index that is zero on all others. An empty axis is walked through as if it
had one position, because the axes beside it are resolved all the same. -/

namespace ArrayBridge

/-- A computation in machine words. It has no outcome if a number on the way is not one. -/
abbrev InWords (α : Type) := ExceptT Exception Option α

namespace InWords

variable {α β : Type}

/-- The outcome of a computation all numbers of which are words. -/
def exact (outcome : Except Exception α) : InWords α := ExceptT.mk (some outcome)

/-- A number that has to be a signed word. -/
def signed (n : Int) : InWords Int := ExceptT.mk ((Word.signed? n).map .ok)

/-- A number that has to be a word without a sign. -/
def unsigned (n : Int) : InWords Nat :=
  if 0 ≤ n ∧ n < Word.count then exact (.ok n.toNat) else ExceptT.mk none

theorem signed_of_mem {n : Int} (hLow : -Word.signedLimit ≤ n) (hHigh : n < Word.signedLimit) :
    signed n = pure n := by
  rw [signed, Word.signed?_of_mem hLow hHigh]
  rfl

theorem unsigned_of_mem {n : Int} (hLow : 0 ≤ n) (hHigh : n < Word.signedLimit) :
    unsigned n = pure n.toNat := by
  have hLimits : Word.signedLimit ≤ Word.count := by decide
  exact if_pos ⟨hLow, by omega⟩

theorem unsigned_natCast {n : Nat} (h : n < Word.signedLimit) : unsigned (n : Int) = pure n :=
  unsigned_of_mem (Int.natCast_nonneg n) (Int.ofNat_lt.mpr h)

/-- What follows an outcome has to be computed in words only where there is a result. -/
theorem exact_bind {x : Except Exception α} {f : α → InWords β} {g : α → Except Exception β}
    (h : ∀ a, x = .ok a → f a = exact (g a)) : exact x >>= f = exact (x >>= g) := by
  cases x with
  | ok a => exact h a rfl
  | error e => rfl

theorem mapM_exact {f : α → InWords β} {g : α → Except Exception β} {xs : Array α}
    (h : ∀ x ∈ xs, f x = exact (g x)) : xs.mapM f = exact (xs.mapM g) := by
  have hList (items : List α) (hItems : ∀ x ∈ items, f x = exact (g x)) :
      items.mapM f = exact (items.mapM g) := by
    induction items with
    | nil => rfl
    | cons item items ih =>
        rw [List.mapM_cons, List.mapM_cons, hItems item List.mem_cons_self]
        refine exact_bind fun first _ => ?_
        rw [ih fun x hx => hItems x (List.mem_cons_of_mem item hx)]
        exact exact_bind fun rest _ => rfl
  rw [Array.mapM_eq_mapM_toList, Array.mapM_eq_mapM_toList,
    hList xs.toList fun x hx => h x (Array.mem_toList_iff.mp hx)]
  cases xs.toList.mapM g <;> rfl

end InWords

open InWords Outcome

/-! ### Selectors -/

/-- Resolves a position that may count from the end of its axis. -/
def positionInWords (index : Int64) (size axis : Nat) : InWords Nat := do
  let length ← signed size
  let resolved ← if index.toInt < 0 then signed (index.toInt + length) else pure index.toInt
  if 0 ≤ resolved ∧ resolved < length then return resolved.toNat
  else throw (.indexOutOfBounds index axis size)

namespace Selector

/-- Resolves a selector on the axis with the given number and length. -/
def resolveInWords (selector : Selector) (axis size : Nat) : InWords AxisSelection :=
  match selector with
  | .at index => return .at (← positionInWords index size axis)
  | slice bounds => return .range (← ExceptT.mk (bounds.resolveInWords size))
  | indices values shape => return .picked (← values.mapM (positionInWords · size axis)) shape
  | mask flags => exact ((mask flags).resolve axis size)

/-- Resolves selectors on consecutive axes. -/
def resolveFromInWords : Nat → List Selector → Shape → InWords (List AxisSelection)
  | axis, selector :: selectors, size :: sizes => do
    let first ← selector.resolveInWords axis size
    let rest ← resolveFromInWords (axis + 1) selectors sizes
    return first :: rest
  | _, _, _ => return []

variable {axis size : Nat} {sizes : Shape}

theorem positionInWords_eq (index : Int64) (axis : Nat) (hSize : size < Word.signedLimit) :
    positionInWords index size axis = exact (resolvePosition index size axis) := by
  have hIndex := index.le_toInt
  have hFits : (size : Int) < Word.signedLimit := Int.ofNat_lt.mpr hSize
  have hLength : signed size = pure (size : Int) :=
    signed_of_mem (by rw [Word.signedLimit]; omega) hFits
  have hChecked (counted : Int) : (if 0 ≤ counted ∧ counted < size then return counted.toNat
      else throw (.indexOutOfBounds index axis size) : InWords Nat)
        = exact (if 0 ≤ counted ∧ counted < size then .ok counted.toNat
            else .error (.indexOutOfBounds index axis size)) := by
    split <;> rfl
  rw [positionInWords, resolvePosition, hLength, pure_bind, signedLength_of_lt hSize]
  by_cases hBack : index.toInt < 0
  · rw [if_pos hBack, if_pos hBack,
      signed_of_mem (by rw [Word.signedLimit]; omega) (by omega), pure_bind]
    exact hChecked _
  · rw [if_neg hBack, if_neg hBack, pure_bind]
    exact hChecked _

theorem resolveInWords_eq (selector : Selector) (axis : Nat) (hSize : size < Word.signedLimit) :
    selector.resolveInWords axis size = exact (selector.resolve axis size) := by
  cases selector with
  | «at» index =>
      rw [resolveInWords, positionInWords_eq index axis hSize]
      exact exact_bind fun position _ => rfl
  | slice bounds =>
      rw [resolveInWords, bounds.resolveInWords_eq hSize]
      exact exact_bind fun range _ => rfl
  | indices values shape =>
      rw [resolveInWords, mapM_exact fun index _ => positionInWords_eq index axis hSize]
      exact exact_bind fun positions _ => rfl
  | mask flags => rfl

theorem resolveFromInWords_eq (axis : Nat) (selectors : List Selector)
    (hSizes : ∀ n ∈ sizes, n < Word.signedLimit) :
    resolveFromInWords axis selectors sizes = exact (resolveFrom axis selectors sizes) := by
  induction selectors generalizing axis sizes with
  | nil => rfl
  | cons selector selectors ih =>
      cases sizes with
      | nil => rfl
      | cons n ns =>
          obtain ⟨hHead, hTail⟩ := List.forall_mem_cons.mp hSizes
          rw [resolveFromInWords, resolveFrom, resolveInWords_eq selector axis hHead]
          refine exact_bind fun first _ => ?_
          rw [ih (axis + 1) hTail]
          exact exact_bind fun rest _ => rfl

theorem exact_of_basic {selector : Selector} (h : selector.isGathering = false) :
    selector.Exact := by
  cases selector with
  | indices values shape => cases h
  | _ => trivial

/-- A resolved index expression gathers if one of its selectors does. -/
theorem any_isPicked_eq {selectors : List Selector} {axes : List AxisSelection}
    (hCount : selectors.length = sizes.length) (h : resolveFrom axis selectors sizes = .ok axes) :
    axes.any AxisSelection.isPicked = selectors.any isGathering := by
  have hKinds := (kinds_of_resolveFrom hCount h).2.1
  simpa only [List.any_map, Function.id_comp] using congrArg (List.any · id) hKinds

end Selector

/-- A step that is not taken is one in its direction. -/
def AxisSelection.Steady : AxisSelection → Prop
  | range r => r.count ≤ 1 → r.step = 1 ∨ r.step = -1
  | _ => True

/-- A step is reduced to its sign where it would only make the stride longer. -/
theorem Selector.steady_of_resolve {selector : Selector} {axis size : Nat}
    {resolved : AxisSelection} (h : selector.resolve axis size = .ok resolved) :
    resolved.Steady := by
  cases resolved with
  | range r =>
      intro hFew
      cases selector with
      | slice bounds =>
          obtain ⟨found, hFound, hEq⟩ := bind_eq_ok_iff.mp h
          cases hEq
          have hStep : (bounds.step.getD 1).toInt ≠ 0 :=
            mt SliceBounds.step_eq_zero_iff.mp (SliceBounds.resolve_isOk_iff.mp ⟨_, hFound⟩)
          rw [(SliceBounds.of_resolve hFound).2.2, if_neg (Nat.not_lt.mpr hFew)]
          rcases Int.lt_or_gt_of_ne hStep with hBack | hForward
          · exact .inr (Int.sign_eq_neg_one_of_neg hBack)
          · exact .inl (Int.sign_eq_one_of_pos hForward)
      | _ => simpa [AxisSelection.isRange, isSlice] using (kind_of_resolve h).1
  | _ => trivial

theorem Selector.steady_of_resolveFrom {axis : Nat} {selectors : List Selector} {sizes : Shape}
    {axes : List AxisSelection} (h : resolveFrom axis selectors sizes = .ok axes) :
    ∀ s ∈ axes, s.Steady := by
  induction selectors generalizing axis sizes axes with
  | nil =>
      cases h
      simp
  | cons selector selectors ih =>
      cases sizes with
      | nil =>
          cases h
          simp
      | cons n ns =>
          simp only [resolveFrom, bind_eq_ok_iff, pure_eq_ok_iff] at h
          obtain ⟨first, hFirst, rest, hRest, rfl⟩ := h
          exact List.forall_mem_cons.mpr ⟨steady_of_resolve hFirst, ih hRest⟩

namespace NdArray

/-! ### What the axes span -/

/-- From an offset on, the axes lead to cells below a limit, whichever positions are taken on them.
An empty axis is taken at its first position. All lengths and strides are signed words, also with
the other sign. -/
def Spans (limit : Nat) : Int → Shape → List Int → Prop
  | offset, [], [] => 0 ≤ offset ∧ offset < limit
  | offset, size :: sizes, stride :: strides =>
    size < Word.signedLimit ∧ (-(Word.signedLimit : Int) < stride ∧ stride < Word.signedLimit) ∧
      ∀ i < max size 1, Spans limit (offset + i * stride) sizes strides
  | _, _, _ => False

namespace Spans

variable {limit i size : Nat} {offset stride : Int} {sizes : Shape} {strides : List Int}

theorem length_eq (h : Spans limit offset sizes strides) : strides.length = sizes.length := by
  induction sizes generalizing offset strides with
  | nil =>
      cases strides with
      | nil => rfl
      | cons s ss => exact h.elim
  | cons n ns ih =>
      cases strides with
      | nil => exact h.elim
      | cons s ss => exact congrArg Nat.succ (ih (h.2.2 0 (by omega)))

theorem lt_of_mem (h : Spans limit offset sizes strides) : ∀ n ∈ sizes, n < Word.signedLimit := by
  induction sizes generalizing offset strides with
  | nil => simp
  | cons n ns ih =>
      cases strides with
      | nil => exact h.elim
      | cons s ss => exact List.forall_mem_cons.mpr ⟨h.1, ih (h.2.2 0 (by omega))⟩

/-- The offset is itself a cell, that of the first positions. -/
theorem offset_mem (h : Spans limit offset sizes strides) : 0 ≤ offset ∧ offset < limit := by
  induction sizes generalizing offset strides with
  | nil =>
      cases strides with
      | nil => exact h
      | cons s ss => exact h.elim
  | cons n ns ih =>
      cases strides with
      | nil => exact h.elim
      | cons s ss => simpa using ih (h.2.2 0 (by omega))

/-- Every index inside the shape leads to a cell below the limit. -/
theorem displacement_mem (h : Spans limit offset sizes strides) {index : List Nat}
    (hIn : sizes.Contains index) :
    0 ≤ offset + displacement index strides ∧ offset + displacement index strides < limit := by
  induction sizes generalizing offset strides index with
  | nil =>
      rw [Shape.contains_nil_iff.mp hIn]
      simpa [displacement] using h.offset_mem
  | cons n ns ih =>
      cases index with
      | nil => exact hIn.elim
      | cons i is =>
          cases strides with
          | nil => exact h.elim
          | cons s ss =>
              rw [displacement, ← Int.add_assoc]
              exact ih (h.2.2 i (Nat.lt_of_lt_of_le hIn.1 (Nat.le_max_left n 1))) hIn.2

/-- The positions of a slice lead along the axis. A slice without positions leaves the offset where
it is, as at the first position of the axis. -/
theorem along (h : Spans limit offset (size :: sizes) (stride :: strides)) {r : SliceRange}
    (hInside : ∀ k < r.count, 0 ≤ r.position k ∧ r.position k < size) (hi : i < max r.count 1) :
    Spans limit (offset + (if 0 < r.count then r.start * stride else 0) + i * (stride * r.step))
      sizes strides := by
  by_cases hSome : 0 < r.count
  · have hPosition := hInside i (by omega)
    have hThere := h.2.2 (r.position i).toNat (by omega)
    rw [Int.toNat_of_nonneg hPosition.1] at hThere
    have hCell : offset + r.start * stride + i * (stride * r.step)
        = offset + r.position i * stride := by
      rw [SliceRange.position]
      ring
    rwa [if_pos hSome, hCell]
  · obtain rfl : i = 0 := by omega
    simpa [hSome] using h.2.2 0 (by omega)

section Words

variable (hLimit : limit ≤ Word.signedLimit)
include hLimit

theorem signed_offset (h : Spans limit offset sizes strides) : signed offset = pure offset := by
  have hOffset := h.offset_mem
  exact signed_of_mem (by omega) (by omega)

theorem unsigned_offset (h : Spans limit offset sizes strides) :
    unsigned offset = pure offset.toNat := by
  have hOffset := h.offset_mem
  exact unsigned_of_mem hOffset.1 (by omega)

/-- How far a position moves the offset is the difference of two cells. -/
theorem moved_mem (h : Spans limit offset (size :: sizes) (stride :: strides))
    (hi : i < max size 1) :
    -(Word.signedLimit : Int) < i * stride ∧ i * stride < Word.signedLimit := by
  have hHere := h.offset_mem
  have hThere := (h.2.2 i hi).offset_mem
  omega

/-- The stride between the positions of a slice is the difference of two cells if there are two of
them, and the stride of the axis in one direction otherwise. -/
theorem scaled_mem (h : Spans limit offset (size :: sizes) (stride :: strides)) {r : SliceRange}
    (hInside : ∀ k < r.count, 0 ≤ r.position k ∧ r.position k < size)
    (hStep : r.count ≤ 1 → r.step = 1 ∨ r.step = -1) :
    -(Word.signedLimit : Int) < stride * r.step ∧ stride * r.step < Word.signedLimit := by
  rcases Nat.lt_or_ge 1 r.count with hMany | hFew
  · have hFirst := hInside 0 (by omega)
    have hSecond := hInside 1 hMany
    have hHere := (h.2.2 (r.position 0).toNat (by omega)).offset_mem
    have hThere := (h.2.2 (r.position 1).toNat (by omega)).offset_mem
    rw [Int.toNat_of_nonneg hFirst.1] at hHere
    rw [Int.toNat_of_nonneg hSecond.1] at hThere
    have hScaled : r.position 1 * stride = r.position 0 * stride + stride * r.step := by
      simp only [SliceRange.position]
      ring
    omega
  · have hStride := h.2.1
    rcases hStep hFew with hSign | hSign <;> rw [hSign] <;> omega

/-- A view spans no more than the array. -/
theorem viewAlong {axes : List AxisSelection} (h : Spans limit offset sizes strides)
    (hValid : List.Forall₂ AxisSelection.Valid sizes axes)
    (hPlain : ∀ s ∈ axes, s.isPicked = false) (hSteady : ∀ s ∈ axes, s.Steady) :
    Spans limit (offset + (NdArray.viewAlong (axes.zip strides)).2.2)
      (NdArray.viewAlong (axes.zip strides)).1 (NdArray.viewAlong (axes.zip strides)).2.1 := by
  induction hValid generalizing offset strides with
  | nil => simpa [NdArray.viewAlong, Spans] using h.offset_mem
  | @cons n selection ns axes hHead _ ih =>
      cases strides with
      | nil => exact h.elim
      | cons stride strides =>
          obtain ⟨hFirst, hRest⟩ := List.forall_mem_cons.mp hPlain
          obtain ⟨hStep, hSteps⟩ := List.forall_mem_cons.mp hSteady
          cases selection with
          | «at» position =>
              have hPosition : position < n := hHead
              rw [List.zip_cons_cons, NdArray.viewAlong, ← Int.add_assoc]
              exact ih (h.2.2 position (by omega)) hRest hSteps
          | range r =>
              have hLength := AxisSelection.count_le_of_valid hHead
              have hSize := h.1
              refine ⟨by omega, h.scaled_mem hLimit hHead.1 hStep, fun i hi => ?_⟩
              have hTail := ih (h.along hHead.1 hi) hRest hSteps
              change Spans limit (offset + ((if 0 < r.count then r.start * stride else 0)
                + (NdArray.viewAlong (axes.zip strides)).2.2) + i * (stride * r.step)) _ _
              rwa [← Int.add_assoc, Int.add_right_comm]
          | picked positions shape => cases hFirst

end Words

end Spans

/-! ### Offsets -/

/-- Adds to an offset what the coordinates of an index contribute, one axis after the other. -/
def displaceInWords : Int → List Nat → List Int → InWords Int
  | offset, i :: is, stride :: strides => do
    let coordinate ← signed i
    let moved ← signed (coordinate * stride)
    let offset ← signed (offset + moved)
    displaceInWords offset is strides
  | offset, _, _ => return offset

/-- The cell that holds the element at an index. -/
def offsetInWords (a : NdArray) (index : List Nat) : InWords Nat := do
  let offset ← signed a.offset
  unsigned (← displaceInWords offset index a.strides)

/-- Moves an offset to the first position of a slice on an axis, if there is one. -/
def startInWords (offset stride : Int) (r : SliceRange) : InWords Int :=
  if 0 < r.count then do
    let moved ← signed (r.start * stride)
    signed (offset + moved)
  else return offset

/-- The shape, the strides and the offset of the view that positions and slices select on
consecutive axes. Each selector is resolved when its axis is reached. -/
def viewFromInWords : Nat → List Selector → Shape → List Int → Int →
    InWords (Shape × List Int × Int)
  | axis, selector :: selectors, size :: sizes, stride :: strides, offset => do
    match ← selector.resolveInWords axis size with
    | .at position =>
      let moved ← signed (position * stride)
      let offset ← signed (offset + moved)
      viewFromInWords (axis + 1) selectors sizes strides offset
    | .range r =>
      let offset ← startInWords offset stride r
      let scaled ← signed (stride * r.step)
      let (shape, others, offset) ← viewFromInWords (axis + 1) selectors sizes strides offset
      return (r.count :: shape, scaled :: others, offset)
    | .picked _ _ => viewFromInWords (axis + 1) selectors sizes strides offset
  | _, _, _, _, offset => return ([], [], offset)

/-- The view that positions and slices select. -/
def viewInWords (a : NdArray) (selectors : List Selector) : InWords NdArray := do
  let offset ← signed a.offset
  let (shape, strides, offset) ← viewFromInWords 0 selectors a.shape a.strides offset
  return ⟨a.buffer, a.dtype, shape, strides, ← unsigned offset⟩

section Offsets

variable {limit : Nat} (hLimit : limit ≤ Word.signedLimit) {offset : Int} {sizes : Shape}
  {strides : List Int}
include hLimit

theorem displaceInWords_eq (h : Spans limit offset sizes strides) {index : List Nat}
    (hIn : sizes.Contains index) :
    displaceInWords offset index strides = pure (offset + displacement index strides) := by
  induction sizes generalizing offset strides index with
  | nil =>
      rw [Shape.contains_nil_iff.mp hIn, displacement, Int.add_zero]
      · rfl
      · simp
  | cons n ns ih =>
      cases index with
      | nil => exact hIn.elim
      | cons i is =>
          cases strides with
          | nil => exact h.elim
          | cons s ss =>
              have hi : i < max n 1 := Nat.lt_of_lt_of_le hIn.1 (Nat.le_max_left n 1)
              have hSize := h.1
              have hCoordinate : i < n := hIn.1
              have hMoved := h.moved_mem hLimit hi
              have hNext := h.2.2 i hi
              rw [displaceInWords, signed_of_mem (by omega) (by omega), pure_bind,
                signed_of_mem (by omega) hMoved.2, pure_bind, hNext.signed_offset hLimit, pure_bind,
                ih hNext hIn.2, displacement, Int.add_assoc]

theorem offsetInWords_eq {a : NdArray} (h : Spans limit a.offset a.shape a.strides)
    {index : List Nat} (hIn : a.shape.Contains index) :
    a.offsetInWords index = pure (a.offsetOf index) := by
  have hCell := h.displacement_mem hIn
  rw [offsetInWords, h.signed_offset hLimit, pure_bind, displaceInWords_eq hLimit h hIn, pure_bind,
    unsigned_of_mem hCell.1 (by omega)]
  rfl

/-- The first position of a slice is on the axis, so that the offset is moved to a cell. -/
theorem startInWords_eq {size : Nat} {stride : Int} {r : SliceRange}
    (h : Spans limit offset (size :: sizes) (stride :: strides))
    (hInside : ∀ k < r.count, 0 ≤ r.position k ∧ r.position k < size) :
    startInWords offset stride r = pure (offset + if 0 < r.count then r.start * stride else 0) ∧
      Spans limit (offset + if 0 < r.count then r.start * stride else 0) sizes strides := by
  have hNext := h.along (i := 0) hInside (by omega)
  rw [Int.natCast_zero, Int.zero_mul, Int.add_zero] at hNext
  refine ⟨?_, hNext⟩
  rw [startInWords]
  split
  · rename_i hSome
    rw [if_pos hSome] at hNext
    have hFirst := hInside 0 hSome
    have hMoved := h.moved_mem hLimit (i := (r.position 0).toNat) (by omega)
    rw [Int.toNat_of_nonneg hFirst.1, SliceRange.position, Int.natCast_zero, Int.zero_mul,
      Int.add_zero] at hMoved
    rw [signed_of_mem (by omega) hMoved.2, pure_bind, hNext.signed_offset hLimit]
  · rw [Int.add_zero]

/-- Walking along the axes in words gives the view of the resolved selectors, or the failure of the
first one that cannot be resolved. -/
theorem viewFromInWords_eq (h : Spans limit offset sizes strides) (axis : Nat)
    {selectors : List Selector} (hBasic : ∀ s ∈ selectors, s.isGathering = false)
    (hCount : selectors.length = sizes.length) :
    viewFromInWords axis selectors sizes strides offset
      = exact (Selector.resolveFrom axis selectors sizes >>= fun axes =>
          let (shape, others, moved) := viewAlong (axes.zip strides)
          return (shape, others, offset + moved)) := by
  induction sizes generalizing axis offset strides selectors with
  | nil =>
      obtain rfl := List.length_eq_zero_iff.mp hCount
      obtain rfl := List.length_eq_zero_iff.mp h.length_eq
      have hSame : offset + 0 = offset := Int.add_zero offset
      exact congrArg (fun last => exact (.ok ([], [], last))) hSame.symm
  | cons n ns ih =>
      cases selectors with
      | nil => cases hCount
      | cons selector selectors =>
          cases strides with
          | nil => exact h.elim
          | cons stride strides =>
              obtain ⟨hHead, hTail⟩ := List.forall_mem_cons.mp hBasic
              rw [viewFromInWords, Selector.resolveFrom, selector.resolveInWords_eq axis h.1,
                bind_assoc]
              refine exact_bind fun selection hSelection => ?_
              have hValid := Selector.valid_of_resolve (Selector.exact_of_basic hHead) hSelection
              simp only [bind_assoc, pure_bind]
              cases selection with
              | «at» position =>
                  have hPosition : position < n := hValid
                  have hMoved := h.moved_mem hLimit (i := position) (by omega)
                  have hNext := h.2.2 position (by omega)
                  dsimp only
                  rw [signed_of_mem (by omega) hMoved.2, pure_bind, hNext.signed_offset hLimit,
                    pure_bind, ih hNext (axis + 1) hTail (Nat.succ.inj hCount)]
                  simp only [List.zip_cons_cons, viewAlong, Int.add_assoc]
              | range r =>
                  have hSteady := Selector.steady_of_resolve hSelection
                  have hScaled := h.scaled_mem hLimit hValid.1 hSteady
                  obtain ⟨hStarted, hNext⟩ := startInWords_eq hLimit h hValid.1
                  dsimp only
                  rw [hStarted, pure_bind, signed_of_mem (by omega) hScaled.2, pure_bind,
                    ih hNext (axis + 1) hTail (Nat.succ.inj hCount)]
                  refine (exact_bind fun axes _ => rfl).trans (congrArg exact ?_)
                  simp only [bind_assoc, List.zip_cons_cons, viewAlong, ← Int.add_assoc]
                  rfl
              | picked positions shape =>
                  have hKind := (Selector.kind_of_resolve hSelection).2.1
                  rw [hHead] at hKind
                  cases hKind

/-- The view in words is the view of the resolved selectors. -/
theorem viewInWords_eq {a : NdArray} (h : Spans limit a.offset a.shape a.strides)
    {selectors : List Selector} (hBasic : ∀ s ∈ selectors, s.isGathering = false)
    (hCount : selectors.length = a.shape.length) :
    a.viewInWords selectors = exact (Selector.resolveFrom 0 selectors a.shape >>= fun axes =>
      return a.view axes) := by
  have hExact : ∀ s ∈ selectors, s.Exact := fun s hs => Selector.exact_of_basic (hBasic s hs)
  rw [viewInWords, h.signed_offset hLimit, pure_bind, viewFromInWords_eq hLimit h 0 hBasic hCount]
  cases hResolve : Selector.resolveFrom 0 selectors a.shape with
  | error e => rfl
  | ok axes =>
      have hValid := Selector.valid_of_resolveFrom hExact hCount hResolve
      have hNone : axes.any AxisSelection.isPicked = false :=
        (Selector.any_isPicked_eq hCount hResolve).trans (by simpa using hBasic)
      have hPlain : ∀ s ∈ axes, s.isPicked = false := by simpa using hNone
      have hView := h.viewAlong hLimit hValid hPlain (Selector.steady_of_resolveFrom hResolve)
      change (unsigned _ >>= fun last => _) = _
      rw [hView.unsigned_offset hLimit]
      rfl

end Offsets

end NdArray

/-! ### Gatherings -/

namespace AxisSelection

/-- The element of an index array that a coordinate block selects. -/
def blockPositionInWords (shape : Shape) (block : List Nat) : InWords Nat :=
  (shape.zip (block.drop (block.length - shape.length))).foldlM (fun flat (d, i) => do
    let row ← unsigned (flat * d : Nat)
    unsigned (row + if d = 1 then 0 else i : Nat)) 0

/-- The index in the source of one result element. -/
def sourceIndexInWords : List AxisSelection → (block coordinates : List Nat) → InWords (List Nat)
  | [], _, _ => return []
  | .at position :: axes, block, coordinates => do
    let rest ← sourceIndexInWords axes block coordinates
    return position :: rest
  | picked positions shape :: axes, block, coordinates => do
    let flat ← blockPositionInWords shape block
    let rest ← sourceIndexInWords axes block coordinates
    return positions.getD flat 0 :: rest
  | range r :: axes, block, coordinates => do
    let position ← ExceptT.mk ((r.positionInWords (coordinates.headD 0)).map .ok)
    let first ← unsigned position
    let rest ← sourceIndexInWords axes block coordinates.tail
    return first :: rest

variable {axes : List AxisSelection} {sizes shape common : Shape} {block coordinates : List Nat}

/-- Counting up a position in a shape with elements does not go beyond the position. -/
theorem foldlM_zip_eq (start : Nat) (hAxes : 0 ∉ shape)
    (hLength : coordinates.length = shape.length) (hFits : (shape.zip coordinates).foldl
      (fun flat (d, i) => flat * d + if d = 1 then 0 else i) start < Word.signedLimit) :
    (shape.zip coordinates).foldlM (fun flat (d, i) => do
        let row ← unsigned (flat * d : Nat)
        unsigned (row + if d = 1 then 0 else i : Nat)) start
      = (pure ((shape.zip coordinates).foldl
          (fun flat (d, i) => flat * d + if d = 1 then 0 else i) start) : InWords Nat) := by
  induction shape generalizing coordinates start with
  | nil => rfl
  | cons d ds ih =>
      cases coordinates with
      | nil => simp at hLength
      | cons i is =>
          simp only [List.mem_cons, not_or] at hAxes
          have hTail : is.length = ds.length := by simpa using hLength
          rw [List.zip_cons_cons, List.foldl_cons] at hFits ⊢
          dsimp only at hFits ⊢
          have hNext : start * d + (if d = 1 then 0 else i) < Word.signedLimit := by
            have hSome := Nat.pos_of_ne_zero (mt Shape.size_eq_zero_iff.mp hAxes.2)
            have hScaled := Nat.le_mul_of_pos_right (start * d + if d = 1 then 0 else i) hSome
            rw [foldl_zip_eq _ hAxes.2 hTail] at hFits
            omega
          rw [List.foldlM_cons]
          dsimp only
          rw [unsigned_natCast (by omega), pure_bind, unsigned_natCast hNext, pure_bind]
          exact ih _ hAxes.2 hTail hFits

theorem blockPositionInWords_eq (hAxes : 0 ∉ shape) (hLength : shape.length ≤ block.length)
    (hFits : blockPosition shape block < Word.signedLimit) :
    blockPositionInWords shape block = pure (blockPosition shape block) :=
  foldlM_zip_eq 0 hAxes (by rw [List.length_drop]; omega) hFits

/-- Every index array reads its positions, and every slice walks to them, within the words. -/
theorem sourceIndexInWords_eq (hValid : List.Forall₂ Valid sizes axes)
    (hSizes : ∀ n ∈ sizes, n < Word.signedLimit)
    (hStretch : ∀ shape ∈ axes.filterMap indexShape?, Shape.Stretches shape common)
    (hBlock : common.Contains block) (hFew : common.size < Word.signedLimit)
    (hCoordinates : (counts axes).Contains coordinates) :
    sourceIndexInWords axes block coordinates = pure (sourceIndex axes block coordinates) := by
  induction hValid generalizing coordinates with
  | nil => rfl
  | @cons size selection sizes axes hHead _ ih =>
      obtain ⟨hSize, hRest⟩ := List.forall_mem_cons.mp hSizes
      cases selection with
      | «at» p =>
          rw [sourceIndexInWords,
            ih hRest (fun s hs => hStretch s (by simp [indexShape?, hs])) hCoordinates]
          rfl
      | range r =>
          cases coordinates with
          | nil => exact hCoordinates.elim
          | cons i is =>
              have hInside := hHead.1 i hCoordinates.1
              rw [sourceIndexInWords, List.headD_cons, List.tail_cons,
                SliceRange.positionInWords_of_inside hSize hHead.1 hCoordinates.1]
              change (unsigned (r.position i) >>= fun first => _) = _
              rw [unsigned_of_mem hInside.1 (by omega), pure_bind,
                ih hRest (fun s hs => hStretch s (by simpa [indexShape?] using hs)) hCoordinates.2]
              rfl
      | picked ps shape =>
          have hShape := hStretch shape (by simp [indexShape?])
          have hPulled := hShape.contains_pull hBlock
          have hLength : shape.length ≤ block.length := hBlock.length_eq ▸ hShape.length_le
          have hFits : blockPosition shape block < Word.signedLimit := by
            have hLess := Shape.dot_strides_lt hPulled
            have hSmall := hShape.size_le hBlock.zero_notMem
            rw [blockPosition_eq hPulled.zero_notMem hLength]
            omega
          rw [sourceIndexInWords, blockPositionInWords_eq hPulled.zero_notMem hLength hFits,
            pure_bind, ih hRest (fun s hs => hStretch s (by simp [indexShape?, hs])) hCoordinates]
          rfl

/-- The common index shape has no more elements than the gathering that it is a part of. -/
theorem size_le_gatheredShape (h : 0 ∉ gatheredShape axes common) :
    common.size ≤ (gatheredShape axes common).size := by
  rw [gatheredShape, List.mem_append, List.mem_append, not_or, not_or] at h
  have hFront := Nat.pos_of_ne_zero (mt Shape.size_eq_zero_iff.mp h.1.1)
  have hBack := Nat.pos_of_ne_zero (mt Shape.size_eq_zero_iff.mp h.2)
  rw [gatheredShape, Shape.size_append, Shape.size_append]
  exact Nat.le_trans (Nat.le_mul_of_pos_left _ hFront) (Nat.le_mul_of_pos_right _ hBack)

end AxisSelection

namespace NdArray

open AxisSelection

/-- The cells of the elements that resolved selectors pick. -/
def gatherInWords (a : NdArray) (axes : List AxisSelection) : InWords Located := do
  let indexShapes := axes.filterMap AxisSelection.indexShape?
  let common ← exact <| match Shape.joinAll? indexShapes with
    | some common => .ok common
    | none => .error (.indexShapeMismatch indexShapes)
  let lead := leadingRanges axes
  let shape := gatheredShape axes common
  let _ ← exact shape.checkedSize
  let offsets ← shape.indices.mapM fun index => do
    let block := (index.drop lead).take common.length
    let coordinates := index.take lead ++ index.drop (lead + common.length)
    a.offsetInWords (← sourceIndexInWords axes block coordinates)
  return .gather shape offsets

/-- Resolves an index expression. -/
def locateInWords (a : NdArray) (selectors : List Selector) : InWords Located := do
  if a.rank < selectors.length then throw (.tooManyIndices a.rank selectors.length)
  let selectors := a.completed selectors
  if selectors.any Selector.isGathering then
    a.gatherInWords (← Selector.resolveFromInWords 0 selectors a.shape)
  else return .view (← a.viewInWords selectors)

variable {a : NdArray} {limit : Nat} {axes : List AxisSelection} {selectors : List Selector}

theorem gatherInWords_eq (hLimit : limit ≤ Word.signedLimit)
    (h : Spans limit a.offset a.shape a.strides) (hValid : List.Forall₂ Valid a.shape axes) :
    a.gatherInWords axes = exact (a.gather axes) := by
  rw [gatherInWords, gather]
  cases hJoin : Shape.joinAll? (axes.filterMap AxisSelection.indexShape?) with
  | none => rfl
  | some common =>
      have hCommon := Shape.joinAll?_eq_some_iff.mp hJoin
      refine exact_bind fun _ hFound => ?_
      cases hFound
      refine exact_bind fun size hSize => ?_
      have hElement (index : List Nat) (hIndex : index ∈ (gatheredShape axes common).indices) :
          (sourceIndexInWords axes ((index.drop (leadingRanges axes)).take common.length)
              (index.take (leadingRanges axes) ++ index.drop (leadingRanges axes + common.length))
            >>= a.offsetInWords)
            = exact (pure (a.offsetOf (gatheredSource axes common index))) := by
        have hIn := Shape.mem_indices.mp hIndex
        obtain ⟨hBlock, hCoordinates⟩ := contains_gatheredShape hIn
        have hFew : common.size < Word.signedLimit := by
          obtain ⟨rfl, hSmall⟩ := Shape.size_of_checkedSize hSize
          have hPart := size_le_gatheredShape hIn.zero_notMem
          have hLimits : maxElements < Word.signedLimit := by decide
          omega
        rw [sourceIndexInWords_eq hValid h.lt_of_mem hCommon.upper hBlock hFew hCoordinates,
          pure_bind]
        exact offsetInWords_eq hLimit h
          (contains_sourceIndex hValid hCommon.upper hBlock hCoordinates)
      rw [mapM_exact hElement, Array.mapM_pure]
      rfl

/-- Where the axes of an array span words, an index expression is resolved in words to what it is
resolved to, whether this succeeds or fails. -/
theorem locateInWords_eq (hLimit : limit ≤ Word.signedLimit)
    (h : Spans limit a.offset a.shape a.strides) (hExact : ∀ s ∈ selectors, s.Exact) :
    a.locateInWords selectors = exact (a.locate selectors) := by
  by_cases hRank : a.rank < selectors.length
  · rw [locateInWords, locate, if_pos hRank, if_pos hRank]
    rfl
  · have hCount := length_completed (Nat.not_lt.mp hRank)
    rw [locateInWords, if_neg hRank, locate_eq (Nat.not_lt.mp hRank)]
    change (if (a.completed selectors).any Selector.isGathering then _ else _) = _
    by_cases hGathers : (a.completed selectors).any Selector.isGathering
    · rw [if_pos hGathers, Selector.resolveFromInWords_eq 0 _ h.lt_of_mem]
      refine exact_bind fun axes hAxes => ?_
      rw [Selector.any_isPicked_eq hCount hAxes, if_pos hGathers]
      exact gatherInWords_eq hLimit h
        (Selector.valid_of_resolveFrom (exact_completed hExact) hCount hAxes)
    · have hBasic : ∀ s ∈ a.completed selectors, s.isGathering = false := by simpa using hGathers
      rw [if_neg hGathers, viewInWords_eq hLimit h hBasic hCount]
      cases hAxes : Selector.resolveFrom 0 (a.completed selectors) a.shape with
      | error e => rfl
      | ok axes =>
          change _ = exact (if axes.any isPicked then _ else _)
          rw [Selector.any_isPicked_eq hCount hAxes, if_neg hGathers]
          rfl

end NdArray

end ArrayBridge
