import ArrayBridge.Proofs.Selection
import ArrayBridge.Proofs.StrideProducts
import Mathlib.Data.List.TakeWhile

/-! The meaning of index arrays and masks.

A selector other than a slice stands for an index array: a position for one without
axes, a mask for the positions that it sets. The index arrays are stretched to their
common shape. Its axes stand in the result where the index arrays were if these are
on neighbouring axes, and before the sliced axes otherwise. -/

namespace ArrayBridge

namespace Selector

def isSlice : Selector → Bool
  | slice _ => true
  | _ => false

/-- Whether the selector makes the selection a gathering. -/
def isGathering : Selector → Bool
  | indices _ _ | mask _ => true
  | _ => false

/-- The shape of the index array that a selector stands for. -/
def indexShape? : Selector → Option Shape
  | .at _ => some []
  | indices _ shape => some shape
  | mask flags => some [flags.count true]
  | slice _ => none

/-- The selector can be used on an axis of the given size, on which positions reach
from minus the given length up to below it. -/
def Accepts (size : Nat) (length : Int) : Selector → Prop
  | .at index => -length ≤ index.toInt ∧ index.toInt < length
  | slice bounds => bounds.step ≠ some 0
  | indices values _ => ∀ index ∈ values, -length ≤ index.toInt ∧ index.toInt < length
  | mask flags => flags.size = size

/-- A position counted from the front of an axis. -/
def fromFront (index : Int64) (size : Nat) : Int :=
  if index.toInt < 0 then index.toInt + signedLength size else index.toInt

/-- The position that an index array gives for a block of coordinates on the common
shape. The position of a mask is set and has as many others before it as the
coordinate of the mask says. -/
def Picks (size : Nat) (block : List Nat) (position : Nat) : Selector → Prop
  | .at index => (position : Int) = fromFront index size
  | indices values shape => ∃ index,
      values[Shape.dot (shape.pull block) shape.strides]? = some index ∧
        (position : Int) = fromFront index size
  | mask flags => flags[position]? = some true ∧
      Shape.pull [flags.count true] block = [(flags.toList.take position).count true]
  | slice _ => False

/-- The lengths of the sliced axes. -/
def sliceCounts : List Selector → Shape → Shape
  | slice bounds :: selectors, size :: sizes =>
    match bounds.resolve size with
    | .ok range => range.count :: sliceCounts selectors sizes
    | .error _ => sliceCounts selectors sizes
  | _ :: selectors, _ :: sizes => sliceCounts selectors sizes
  | _, _ => []

/-- The index of the array that one element of the result comes from: `block` holds
its coordinates on the common shape, the others are those on the sliced axes. -/
inductive Addresses (block : List Nat) : List Selector → Shape → List Nat → List Nat → Prop where
  | nil : Addresses block [] [] [] []
  | slice {bounds : SliceBounds} {size coordinate position : Nat} {range : SliceRange}
      {selectors : List Selector} {sizes : Shape} {coordinates source : List Nat}
      (hRange : bounds.resolve size = .ok range)
      (hPosition : (position : Int) = range.position coordinate)
      (hRest : Addresses block selectors sizes coordinates source) :
      Addresses block (.slice bounds :: selectors) (size :: sizes) (coordinate :: coordinates)
        (position :: source)
  | pick {selector : Selector} {size position : Nat} {selectors : List Selector}
      {sizes : Shape} {coordinates source : List Nat}
      (hPosition : selector.Picks size block position)
      (hRest : Addresses block selectors sizes coordinates source) :
      Addresses block (selector :: selectors) (size :: sizes) coordinates (position :: source)

/-- The selectors that are no slices are neighbours, with so many slices before them. -/
def Neighbours (selectors : List Selector) (before : Nat) : Prop :=
  ∃ picked after, selectors.map isSlice
    = List.replicate before true ++ List.replicate picked false ++ List.replicate after true

/-- How many of the sliced axes come before the common shape in the result. -/
def Leads (selectors : List Selector) (lead : Nat) : Prop :=
  Neighbours selectors lead ∨ lead = 0 ∧ ∀ before, ¬ Neighbours selectors before

end Selector

section Masks

/-- The positions with a property, listed in order: each has as many others before it
as its place in the list says. -/
theorem getElem?_filter_range {p : Nat → Bool} {n k i : Nat}
    (h : ((List.range n).filter p)[k]? = some i) :
    p i = true ∧ i < n ∧ ((List.range i).filter p).length = k := by
  induction n with
  | zero => simp at h
  | succ n ih =>
      rw [List.range_succ, List.filter_append] at h
      rcases Nat.lt_or_ge k ((List.range n).filter p).length with hLow | hHigh
      · rw [List.getElem?_append_left hLow] at h
        obtain ⟨hHolds, hBound, hPlace⟩ := ih h
        exact ⟨hHolds, by omega, hPlace⟩
      · rw [List.getElem?_append_right hHigh] at h
        by_cases hLast : p n = true
        · rw [List.filter_cons_of_pos hLast, List.filter_nil, List.getElem?_singleton] at h
          split at h
          · cases h
            exact ⟨hLast, by omega, by omega⟩
          · cases h
        · rw [List.filter_cons_of_neg hLast] at h
          cases h

theorem length_filter_range (flags : List Bool) {n : Nat} (h : n ≤ flags.length) :
    ((List.range n).filter fun i => flags.getD i false).length = (flags.take n).count true := by
  induction n with
  | zero => simp
  | succ n ih =>
      rw [List.range_succ, List.filter_append, List.length_append, ih (by omega), List.take_add_one,
        List.count_append, List.getElem?_eq_getElem (by omega)]
      have hBound : n < flags.length := by omega
      cases hFlag : flags[n] <;>
        simp [List.getD_eq_getElem?_getD, List.getElem?_eq_getElem hBound, hFlag]

theorem toList_maskPositions (flags : Array Bool) : (maskPositions flags).toList
    = (List.range flags.size).filter fun i => flags.toList.getD i false := by
  simp [maskPositions, List.getD_eq_getElem?_getD, Array.getD_eq_getD_getElem?]

theorem size_maskPositions (flags : Array Bool) :
    (maskPositions flags).size = flags.count true := by
  rw [← Array.length_toList, toList_maskPositions, ← Array.length_toList,
    length_filter_range _ (Nat.le_refl _), List.take_length, Array.count_toList]

/-- A mask stands for its positions that are set, in order. -/
theorem getElem?_maskPositions {flags : Array Bool} {k p : Nat}
    (h : (maskPositions flags)[k]? = some p) :
    flags[p]? = some true ∧ (flags.toList.take p).count true = k := by
  refine ⟨mem_maskPositions.mp (Array.mem_of_getElem? h), ?_⟩
  rw [← Array.getElem?_toList, toList_maskPositions] at h
  obtain ⟨-, hBound, hPlace⟩ := getElem?_filter_range h
  rw [← hPlace, length_filter_range _ (by simpa using Nat.le_of_lt hBound)]

end Masks

namespace Selector

open Outcome AxisSelection

section Resolution

/-- A selector is resolved exactly on the axes that it can be used on. -/
theorem resolve_isOk_iff {selector : Selector} (axis : Nat) {size : Nat} :
    (∃ resolved, selector.resolve axis size = .ok resolved) ↔
      selector.Accepts size (signedLength size) := by
  have hPosition (index : Int64) : (∃ position, resolvePosition index size axis = .ok position) ↔
      -signedLength size ≤ index.toInt ∧ index.toInt < signedLength size := by
    simp only [resolvePosition_eq_ok_iff]
    constructor
    · rintro ⟨_, hLow, hHigh, _⟩
      exact ⟨hLow, hHigh⟩
    · rintro ⟨hLow, hHigh⟩
      refine ⟨(fromFront index size).toNat, hLow, hHigh, Int.toNat_of_nonneg ?_⟩
      unfold fromFront
      split_ifs <;> omega
  cases selector with
  | «at» index =>
      simp only [resolve, bind_eq_ok_iff, pure_eq_ok_iff, Accepts, ← hPosition]
      constructor
      · rintro ⟨_, position, h, _⟩
        exact ⟨position, h⟩
      · rintro ⟨position, h⟩
        exact ⟨_, position, h, rfl⟩
  | slice bounds =>
      rw [Accepts, ← SliceBounds.resolve_isOk_iff]
      simp only [resolve, bind_eq_ok_iff, pure_eq_ok_iff]
      constructor
      · rintro ⟨_, found, h, _⟩
        exact ⟨found, h⟩
      · rintro ⟨found, h⟩
        exact ⟨_, found, h, rfl⟩
  | indices values shape =>
      simp only [resolve, bind_eq_ok_iff, pure_eq_ok_iff, Accepts, ← hPosition]
      rw [← exists_mapM_array_eq_ok_iff]
      constructor
      · rintro ⟨_, positions, h, _⟩
        exact ⟨positions, h⟩
      · rintro ⟨positions, h⟩
        exact ⟨_, positions, h, rfl⟩
  | mask flags =>
      simp only [resolve, Accepts]
      by_cases hSize : flags.size = size
      · simp only [hSize, ne_eq, not_true, if_false, iff_true]
        exact ⟨_, rfl⟩
      · simp [hSize]

theorem resolveFrom_isOk_iff (axis : Nat) {selectors : List Selector} {sizes : Shape}
    (hLength : selectors.length = sizes.length) :
    (∃ axes, resolveFrom axis selectors sizes = .ok axes) ↔
      List.Forall₂ (fun s n => s.Accepts n (signedLength n)) selectors sizes := by
  induction selectors generalizing axis sizes with
  | nil =>
      cases sizes with
      | nil => exact ⟨fun _ => .nil, fun _ => ⟨[], rfl⟩⟩
      | cons n ns => simp at hLength
  | cons selector selectors ih =>
      cases sizes with
      | nil => simp at hLength
      | cons n ns =>
          rw [List.forall₂_cons, ← ih (axis + 1) (by simpa using hLength),
            ← resolve_isOk_iff axis]
          simp only [resolveFrom, bind_eq_ok_iff, pure_eq_ok_iff]
          constructor
          · rintro ⟨_, first, hFirst, rest, hRest, -⟩
            exact ⟨⟨first, hFirst⟩, rest, hRest⟩
          · rintro ⟨⟨first, hFirst⟩, rest, hRest⟩
            exact ⟨_, first, hFirst, rest, hRest, rfl⟩

/-- A resolved selector is of the kind of its selector and has its index shape. -/
theorem kind_of_resolve {selector : Selector} {axis size : Nat} {resolved : AxisSelection}
    (h : selector.resolve axis size = .ok resolved) :
    resolved.isRange = selector.isSlice ∧ resolved.isPicked = selector.isGathering ∧
      resolved.indexShape? = selector.indexShape? := by
  cases selector with
  | «at» index =>
      obtain ⟨position, -, h⟩ := bind_eq_ok_iff.mp h
      cases h
      exact ⟨rfl, rfl, rfl⟩
  | slice bounds =>
      obtain ⟨found, -, h⟩ := bind_eq_ok_iff.mp h
      cases h
      exact ⟨rfl, rfl, rfl⟩
  | indices values shape =>
      obtain ⟨positions, -, h⟩ := bind_eq_ok_iff.mp h
      cases h
      exact ⟨rfl, rfl, rfl⟩
  | mask flags =>
      simp only [resolve] at h
      split at h
      · cases h
      · cases h
        refine ⟨rfl, rfl, ?_⟩
        simp [AxisSelection.indexShape?, indexShape?, size_maskPositions]

/-- Resolving keeps the pattern of slices, the index shapes and the slice lengths. -/
theorem kinds_of_resolveFrom {axis : Nat} {selectors : List Selector} {sizes : Shape}
    {axes : List AxisSelection} (hLength : selectors.length = sizes.length)
    (h : resolveFrom axis selectors sizes = .ok axes) :
    axes.map isRange = selectors.map isSlice ∧
      axes.map isPicked = selectors.map isGathering ∧
      axes.filterMap AxisSelection.indexShape? = selectors.filterMap indexShape? ∧
      counts axes = sliceCounts selectors sizes := by
  induction selectors generalizing axis sizes axes with
  | nil =>
      cases sizes with
      | nil =>
          cases h
          exact ⟨rfl, rfl, rfl, rfl⟩
      | cons n ns => simp at hLength
  | cons selector selectors ih =>
      cases sizes with
      | nil => simp at hLength
      | cons n ns =>
          simp only [resolveFrom, bind_eq_ok_iff, pure_eq_ok_iff] at h
          obtain ⟨first, hFirst, rest, hRest, rfl⟩ := h
          obtain ⟨hSlices, hPicked, hShapes, hCounts⟩ := ih (by simpa using hLength) hRest
          obtain ⟨hSlice, hGathering, hShape⟩ := kind_of_resolve hFirst
          refine ⟨by simp [hSlice, hSlices], by simp [hGathering, hPicked],
            by simp [List.filterMap_cons, hShape, hShapes], ?_⟩
          cases selector with
          | «at» index =>
              obtain ⟨position, -, hEq⟩ := bind_eq_ok_iff.mp hFirst
              cases hEq
              exact hCounts
          | slice bounds =>
              obtain ⟨found, hFound, hEq⟩ := bind_eq_ok_iff.mp hFirst
              cases hEq
              simp [sliceCounts, hFound, hCounts]
          | indices values shape =>
              obtain ⟨positions, -, hEq⟩ := bind_eq_ok_iff.mp hFirst
              cases hEq
              exact hCounts
          | mask flags =>
              cases first with
              | «at» position => simp [AxisSelection.isPicked, isGathering] at hGathering
              | range found => simp [AxisSelection.isPicked, isGathering] at hGathering
              | picked positions shape => exact hCounts

theorem eq_fromFront {index : Int64} {size axis position : Nat}
    (h : resolvePosition index size axis = .ok position) :
    (position : Int) = fromFront index size := (resolvePosition_eq_ok_iff.mp h).2.2

theorem picks_of_resolve_at {selector : Selector} {axis size position : Nat} {block : List Nat}
    (h : selector.resolve axis size = .ok (.at position)) : selector.Picks size block position := by
  cases selector with
  | «at» index =>
      obtain ⟨found, hFound, hEq⟩ := bind_eq_ok_iff.mp h
      cases hEq
      exact eq_fromFront hFound
  | slice bounds =>
      obtain ⟨found, -, hEq⟩ := bind_eq_ok_iff.mp h
      cases hEq
  | indices values shape =>
      obtain ⟨positions, -, hEq⟩ := bind_eq_ok_iff.mp h
      cases hEq
  | mask flags =>
      have hKind := (kind_of_resolve h).2.1
      simp [AxisSelection.isPicked, isGathering] at hKind

/-- The position that a resolved index array has for a block is the one that its
selector picks. -/
theorem picks_of_resolve {selector : Selector} {axis size : Nat} {positions : Array Nat}
    {shape common : Shape} {block : List Nat} (hExact : selector.Exact)
    (h : selector.resolve axis size = .ok (.picked positions shape))
    (hStretch : shape.Stretches common) (hBlock : common.Contains block) :
    selector.Picks size block (positions.getD (blockPosition shape block) 0) := by
  have hSize := (valid_of_resolve hExact h).1
  obtain ⟨p, hp, hPosition⟩ := exists_getElem?_blockPosition hSize hStretch hBlock
  rw [Array.getD_eq_getD_getElem?, hp, Option.getD_some]
  rw [hPosition] at hp
  cases selector with
  | «at» index =>
      obtain ⟨position, -, hEq⟩ := bind_eq_ok_iff.mp h
      cases hEq
  | slice bounds =>
      obtain ⟨found, -, hEq⟩ := bind_eq_ok_iff.mp h
      cases hEq
  | indices values _ =>
      obtain ⟨found, hFound, hEq⟩ := bind_eq_ok_iff.mp h
      cases hEq
      rw [mapM_array_eq_ok_iff] at hFound
      obtain ⟨hBound, hEntry⟩ := Array.getElem?_eq_some_iff.mp hp
      have hLength := hFound.length_eq
      simp only [Array.length_toList] at hLength
      have hIndex := hFound.get (by simpa [hLength] using hBound) (by simpa using hBound)
      simp only [List.get_eq_getElem, Array.getElem_toList, hEntry] at hIndex
      exact ⟨_, Array.getElem?_eq_getElem (by omega), eq_fromFront hIndex⟩
  | mask flags =>
      simp only [resolve] at h
      split at h
      · cases h
      · cases h
        obtain ⟨hFlag, hPlace⟩ := getElem?_maskPositions hp
        rw [size_maskPositions] at hPlace hStretch
        refine ⟨hFlag, ?_⟩
        -- The block has a single coordinate on the axis of the mask.
        obtain ⟨coordinate, hCoordinate⟩ :=
          List.length_eq_one_iff.mp (hStretch.contains_pull hBlock).length_eq
        simp [hCoordinate, Shape.dot, Shape.strides, Shape.paddedSize] at hPlace
        rw [hCoordinate, hPlace]

/-- The index that a gathering reads is the one that its selectors address. -/
theorem addresses_sourceIndex {axis : Nat} {selectors : List Selector} {sizes common : Shape}
    {axes : List AxisSelection} {block coordinates : List Nat}
    (hExact : ∀ s ∈ selectors, s.Exact) (hLength : selectors.length = sizes.length)
    (h : resolveFrom axis selectors sizes = .ok axes)
    (hStretch : ∀ shape ∈ axes.filterMap AxisSelection.indexShape?, shape.Stretches common)
    (hBlock : common.Contains block) (hCoordinates : (counts axes).Contains coordinates) :
    Addresses block selectors sizes coordinates (sourceIndex axes block coordinates) := by
  induction selectors generalizing axis sizes axes coordinates with
  | nil =>
      cases sizes with
      | nil =>
          cases h
          rw [Shape.contains_nil_iff.mp hCoordinates]
          exact .nil
      | cons n ns => simp at hLength
  | cons selector selectors ih =>
      cases sizes with
      | nil => simp at hLength
      | cons n ns =>
          simp only [resolveFrom, bind_eq_ok_iff, pure_eq_ok_iff] at h
          obtain ⟨first, hFirst, rest, hRest, rfl⟩ := h
          have hTail {is : List Nat} (hIs : (counts rest).Contains is)
              (hShapes : ∀ shape ∈ rest.filterMap AxisSelection.indexShape?,
                shape.Stretches common) :=
            ih (fun s hs => hExact s (List.mem_cons_of_mem _ hs)) (by simpa using hLength)
              hRest hShapes hIs
          cases first with
          | «at» position =>
              exact .pick (picks_of_resolve_at hFirst) (hTail hCoordinates fun s hs =>
                hStretch s (by simp [AxisSelection.indexShape?, hs]))
          | range found =>
              cases coordinates with
              | nil => exact hCoordinates.elim
              | cons i is =>
                  cases selector with
                  | slice bounds =>
                      obtain ⟨_, hFound, hEq⟩ := bind_eq_ok_iff.mp hFirst
                      cases hEq
                      refine .slice hFound ?_ (hTail hCoordinates.2 fun s hs => hStretch s (by
                        simpa [AxisSelection.indexShape?] using hs))
                      exact Int.toNat_of_nonneg (SliceBounds.position_inside hFound hCoordinates.1).1
                  | _ => simpa [AxisSelection.isRange, isSlice] using (kind_of_resolve hFirst).1
          | picked positions shape =>
              exact .pick
                (picks_of_resolve (hExact _ (by simp)) hFirst
                  (hStretch shape (by simp [AxisSelection.indexShape?])) hBlock)
                (hTail hCoordinates fun s hs => hStretch s (by
                  simp [AxisSelection.indexShape?, hs]))

end Resolution

end Selector

section Placement

theorem dropWhile_replicate_append {α : Type} {p : α → Bool} {x : α} (h : p x = true) (n : Nat)
    (xs : List α) : (List.replicate n x ++ xs).dropWhile p = xs.dropWhile p := by
  induction n with
  | zero => rfl
  | succ n ih => rw [List.replicate_succ, List.cons_append, List.dropWhile_cons_of_pos h, ih]

/-- A pattern whose first marks and then gaps are dropped has only marks left exactly
if its gaps are neighbours. -/
theorem all_dropWhile_iff {pattern : List Bool} :
    ((pattern.dropWhile id).dropWhile (!·)).all id = true ↔ ∃ before gaps after,
      pattern = List.replicate before true ++ List.replicate gaps false
        ++ List.replicate after true := by
  constructor
  · intro h
    have hFront : pattern.takeWhile id = List.replicate (pattern.takeWhile id).length true :=
      List.eq_replicate_of_mem fun _ hb => List.mem_takeWhile_imp hb
    have hMiddle : (pattern.dropWhile id).takeWhile (!·)
        = List.replicate ((pattern.dropWhile id).takeWhile (!·)).length false :=
      List.eq_replicate_of_mem fun _ hb => by simpa using List.mem_takeWhile_imp hb
    have hBack : (pattern.dropWhile id).dropWhile (!·)
        = List.replicate ((pattern.dropWhile id).dropWhile (!·)).length true :=
      List.eq_replicate_of_mem fun b hb => List.all_eq_true.mp h b hb
    refine ⟨(pattern.takeWhile id).length, ((pattern.dropWhile id).takeWhile (!·)).length,
      ((pattern.dropWhile id).dropWhile (!·)).length, ?_⟩
    rw [← hFront, ← hMiddle, ← hBack, List.append_assoc, List.takeWhile_append_dropWhile,
      List.takeWhile_append_dropWhile]
  · rintro ⟨before, gaps, after, rfl⟩
    rw [List.append_assoc, dropWhile_replicate_append rfl]
    have hLeft : List.Sublist (((List.replicate gaps false
        ++ List.replicate after true).dropWhile id).dropWhile (!·)) (List.replicate after true) := by
      cases gaps with
      | zero => exact (List.dropWhile_sublist _).trans (List.dropWhile_sublist _)
      | succ gaps =>
          rw [List.replicate_succ, List.cons_append, List.dropWhile_cons_of_neg (by decide),
            ← List.cons_append, ← List.replicate_succ, dropWhile_replicate_append rfl]
          exact List.dropWhile_sublist _
    exact List.all_eq_true.mpr fun b hb => (List.mem_replicate.mp (hLeft.subset hb)).2

namespace Selector

open AxisSelection

/-- The pattern of slices fixes how many of them come first. -/
theorem Neighbours.length_takeWhile {selectors : List Selector} {before : Nat}
    (h : Neighbours selectors before) (hPicked : ∃ s ∈ selectors, s.isSlice = false) :
    ((selectors.map isSlice).takeWhile id).length = before := by
  obtain ⟨gaps, after, hPattern⟩ := h
  obtain ⟨s, hs, hSlice⟩ := hPicked
  have hMem : false ∈ selectors.map isSlice := List.mem_map.mpr ⟨s, hs, hSlice⟩
  rw [hPattern] at hMem ⊢
  cases gaps with
  | zero => simp at hMem
  | succ gaps =>
      simp [List.replicate_succ, List.append_assoc]

theorem Leads.unique {selectors : List Selector} {m n : Nat} (hLeft : Leads selectors m)
    (hRight : Leads selectors n) (hPicked : ∃ s ∈ selectors, s.isSlice = false) : m = n := by
  rcases hLeft with hLeft | ⟨rfl, hLeft⟩
  · rcases hRight with hRight | ⟨-, hRight⟩
    · rw [← hLeft.length_takeWhile hPicked, ← hRight.length_takeWhile hPicked]
    · exact (hRight m hLeft).elim
  · rcases hRight with hRight | ⟨rfl, -⟩
    · exact (hLeft n hRight).elim
    · rfl

/-- The place of the common shape is the one that the pattern of slices gives. -/
theorem leads_leadingRanges {selectors : List Selector} {axes : List AxisSelection}
    (hKinds : axes.map isRange = selectors.map isSlice)
    (hPicked : ∃ s ∈ selectors, s.isSlice = false) : Leads selectors (leadingRanges axes) := by
  have hAdjacent : pickedAdjacent axes = true ↔ ∃ before, Neighbours selectors before := by
    have hMapped : pickedAdjacent axes
        = (((axes.map isRange).dropWhile id).dropWhile (!·)).all id := by
      simp only [pickedAdjacent, List.dropWhile_map, List.all_map]
      rfl
    rw [hMapped, hKinds, all_dropWhile_iff]
    rfl
  have hFront : (axes.takeWhile isRange).length = ((selectors.map isSlice).takeWhile id).length := by
    rw [← hKinds, List.takeWhile_map, List.length_map]
    rfl
  unfold leadingRanges
  split
  · rename_i h
    obtain ⟨before, hNeighbours⟩ := hAdjacent.mp h
    rw [hFront, hNeighbours.length_takeWhile hPicked]
    exact .inl hNeighbours
  · rename_i h
    exact .inr ⟨rfl, fun before hNeighbours => h (hAdjacent.mpr ⟨before, hNeighbours⟩)⟩

end Selector

end Placement

namespace NdArray

open AxisSelection Outcome Selector

/-- The shape of the result: the common shape of the index arrays with some of the
sliced axes before it and the others after it. -/
def gatheringShape (a : NdArray) (selectors : List Selector) (common : Shape) (lead : Nat) :
    Shape :=
  (sliceCounts (a.completed selectors) a.shape).take lead ++ common
    ++ (sliceCounts (a.completed selectors) a.shape).drop lead

/-- What an index expression with index arrays has to satisfy, where positions reach
as far on an axis as the given length for its size. -/
def Locatable (a : NdArray) (length : Nat → Int) (selectors : List Selector) : Prop :=
  List.Forall₂ (fun s n => s.Accepts n (length n)) (a.completed selectors) a.shape ∧
    ∃ common lead size, Shape.IsCommon ((a.completed selectors).filterMap Selector.indexShape?) common ∧
      Leads (a.completed selectors) lead ∧
      (a.gatheringShape selectors common lead).checkedSize = .ok size

variable {a : NdArray} {selectors : List Selector}

/-- Some axis of a gathering has no slice. -/
theorem exists_notSlice_completed (hGathers : ∃ s ∈ selectors, s.isGathering = true) :
    ∃ s ∈ a.completed selectors, s.isSlice = false := by
  obtain ⟨gathering, hMem, hGathering⟩ := hGathers
  refine ⟨gathering, List.mem_append_left _ hMem, ?_⟩
  cases gathering with
  | slice bounds => cases hGathering
  | _ => rfl

/-- A selection is a view exactly if no selector is an index array or a mask. -/
theorem exists_view_iff {located : Located} (hLocate : a.locate selectors = .ok located) :
    (∃ v, located = .view v) ↔ ∀ s ∈ selectors, s.isGathering = false := by
  obtain ⟨hRank, axes, hAxes, hKind⟩ := locate_eq_ok_iff.mp hLocate
  obtain ⟨-, hPicks, -, -⟩ := Selector.kinds_of_resolveFrom (length_completed hRank) hAxes
  have hPlain : (∀ s ∈ axes, s.isPicked = false) ↔ ∀ s ∈ selectors, s.isGathering = false := by
    have hAxis : (∀ s ∈ axes, s.isPicked = false) ↔ ∀ p ∈ axes.map AxisSelection.isPicked, p = false := by
      simp
    rw [hAxis, hPicks, completed]
    simp [Selector.all, Selector.isGathering]
  rw [← hPlain]
  rcases hKind with ⟨⟨s, hs, hPicked⟩, hGather⟩ | ⟨hNone, rfl⟩
  · obtain ⟨common, -, -, rfl⟩ := gather_eq_ok_iff.mp hGather
    constructor
    · rintro ⟨v, hView⟩
      cases hView
    · intro hNone
      rw [hNone s hs] at hPicked
      cases hPicked
  · exact ⟨fun _ => hNone, fun _ => ⟨_, rfl⟩⟩

/-- The resolved axes of a gathering, seen from its selectors. -/
theorem locate_gathering_iff (hRank : selectors.length ≤ a.rank)
    (hGathers : ∃ s ∈ selectors, s.isGathering = true) {located : Located} :
    a.locate selectors = .ok located ↔ ∃ axes common,
      resolveFrom 0 (a.completed selectors) a.shape = .ok axes ∧
        counts axes = sliceCounts (a.completed selectors) a.shape ∧
        axes.filterMap AxisSelection.indexShape?
          = (a.completed selectors).filterMap Selector.indexShape? ∧
        Shape.IsCommon ((a.completed selectors).filterMap Selector.indexShape?) common ∧
        Leads (a.completed selectors) (leadingRanges axes) ∧
        (∃ size, (a.gatheringShape selectors common (leadingRanges axes)).checkedSize = .ok size) ∧
        located = .gather (gatheredShape axes common)
          ((gatheredShape axes common).indices.map fun index =>
            a.offsetOf (gatheredSource axes common index)) := by
  have hPicked := exists_notSlice_completed (a := a) hGathers
  obtain ⟨gathering, hMem, hGathering⟩ := hGathers
  have hFull : gathering ∈ a.completed selectors := List.mem_append_left _ hMem
  rw [locate_eq_ok_iff]
  constructor
  · rintro ⟨-, axes, hAxes, hKind⟩
    obtain ⟨hSlices, hPicks, hShapes, hCounts⟩ := kinds_of_resolveFrom (length_completed hRank) hAxes
    rcases hKind with ⟨-, hGather⟩ | ⟨hPlain, -⟩
    · obtain ⟨common, hCommon, ⟨size, hSize⟩, rfl⟩ := gather_eq_ok_iff.mp hGather
      rw [gatheredShape, hCounts] at hSize
      rw [hShapes] at hCommon
      exact ⟨axes, common, hAxes, hCounts, hShapes, hCommon, leads_leadingRanges hSlices hPicked,
        ⟨size, hSize⟩, rfl⟩
    · have hTrue : true ∈ axes.map isPicked := by
        rw [hPicks]
        exact List.mem_map.mpr ⟨gathering, hFull, hGathering⟩
      obtain ⟨s, hs, hIs⟩ := List.mem_map.mp hTrue
      rw [hPlain s hs] at hIs
      cases hIs
  · rintro ⟨axes, common, hAxes, hCounts, hShapes, hCommon, -, ⟨size, hSize⟩, rfl⟩
    obtain ⟨-, hPicks, -, -⟩ := kinds_of_resolveFrom (length_completed hRank) hAxes
    have hTrue : true ∈ axes.map isPicked := by
      rw [hPicks]
      exact List.mem_map.mpr ⟨gathering, hFull, hGathering⟩
    refine ⟨hRank, axes, hAxes, .inl ⟨List.mem_map.mp hTrue, gather_eq_ok_iff.mpr ?_⟩⟩
    refine ⟨common, hShapes ▸ hCommon, ⟨size, ?_⟩, rfl⟩
    rw [gatheredShape, hCounts]
    exact hSize

theorem locate_isOk_iff_locatable (hRank : selectors.length ≤ a.rank)
    (hGathers : ∃ s ∈ selectors, s.isGathering = true) :
    (∃ located, a.locate selectors = .ok located) ↔ a.Locatable signedLength selectors := by
  simp only [locate_gathering_iff hRank hGathers, Locatable,
    ← resolveFrom_isOk_iff 0 (length_completed hRank)]
  constructor
  · rintro ⟨located, axes, common, hAxes, -, -, hCommon, hLeads, ⟨size, hSize⟩, -⟩
    exact ⟨⟨axes, hAxes⟩, common, _, size, hCommon, hLeads, hSize⟩
  · rintro ⟨⟨axes, hAxes⟩, common, lead, size, hCommon, hLeads, hSize⟩
    obtain ⟨hSlices, -, hShapes, hCounts⟩ := kinds_of_resolveFrom (length_completed hRank) hAxes
    have hPicked := exists_notSlice_completed (a := a) hGathers
    have hPlace := leads_leadingRanges hSlices hPicked
    obtain rfl := hLeads.unique hPlace hPicked
    exact ⟨_, axes, common, hAxes, hCounts, hShapes, hCommon, hPlace, ⟨size, hSize⟩, rfl⟩

/-- Where all axes have lengths that are signed words, nothing else is read. -/
theorem locatable_signedLength_iff (hSizes : ∀ n ∈ a.shape, n < Word.signedLimit) :
    a.Locatable signedLength selectors ↔ a.Locatable (fun n => n) selectors := by
  have hAccepts : List.Forall₂ (fun s n => s.Accepts n (signedLength n)) (a.completed selectors)
      a.shape ↔ List.Forall₂ (fun s n => s.Accepts n n) (a.completed selectors) a.shape := by
    generalize a.completed selectors = all
    generalize a.shape = sizes at hSizes
    induction sizes generalizing all with
    | nil => simp only [List.forall₂_nil_right_iff]
    | cons n ns ih =>
        obtain ⟨hFirst, hRest⟩ := List.forall_mem_cons.mp hSizes
        cases all with
        | nil => simp only [List.forall₂_nil_left_iff, reduceCtorEq]
        | cons s all =>
            rw [List.forall₂_cons, List.forall₂_cons, signedLength_of_lt hFirst, ih all hRest]
  exact and_congr_left' hAccepts

/-- Advanced indexing, on an array whose axes have signed words as lengths. An index
expression with an index array or a mask is located exactly if its positions are on their
axes, its masks are as long as their axes, its slices do not stand still, its index arrays
have a common shape, and the shape of the result can be addressed. Then the common
shape stands in place of the index arrays among the slice lengths if they are
neighbours, and at the front otherwise. Each element of the result is the one of the
array whose index its coordinates address. What is selected is a copy, if its strides are
words, as they are if there is an element. -/
theorem locate_select_gathering (store : BufferStore) (hSizes : ∀ n ∈ a.shape, n < Word.signedLimit)
    (hRank : selectors.length ≤ a.rank) (hExact : ∀ s ∈ selectors, s.Exact)
    (hGathers : ∃ s ∈ selectors, s.isGathering = true) :
    ((∃ located, a.locate selectors = .ok located) ↔ a.Locatable (fun n => n) selectors) ∧
    ∀ located, a.locate selectors = .ok located → ∃ common lead c,
      Shape.IsCommon ((a.completed selectors).filterMap Selector.indexShape?) common ∧
        Leads (a.completed selectors) lead ∧
        located.shape = a.gatheringShape selectors common lead ∧
        ((located.shape.size = 0 → located.shape.checkStrides = .ok ()) →
          a.select store selectors = .ok (.fresh c)) ∧
        c.dtype = a.dtype ∧ c.shape = located.shape ∧
        ∀ index, located.shape.Contains index → ∃ source,
          Addresses ((index.drop lead).take common.length) (a.completed selectors) a.shape
              (index.take lead ++ index.drop (lead + common.length)) source ∧
            a.shape.Contains source ∧
            located.offsets[Shape.dot index located.shape.strides]? = some (a.offsetOf source) ∧
            c.element index = (a.contents store).element source := by
  refine ⟨(locate_isOk_iff_locatable hRank hGathers).trans (locatable_signedLength_iff hSizes),
    fun located hLocate => ?_⟩
  obtain ⟨axes, common, hAxes, hCounts, hShapes, hCommon, hLeads, ⟨size, hSize⟩, rfl⟩ :=
    (locate_gathering_iff hRank hGathers).mp hLocate
  have hShape : gatheredShape axes common = a.gatheringShape selectors common (leadingRanges axes) := by
    rw [gatheringShape, ← hCounts]
    rfl
  refine ⟨common, leadingRanges axes, ⟨a.dtype, gatheredShape axes common,
    ((gatheredShape axes common).indices.map fun index =>
      a.offsetOf (gatheredSource axes common index)).map (store.get a.buffer)⟩, hCommon, hLeads,
    hShape, fun hStrides => ?_, rfl, rfl, fun index hIndex => ?_⟩
  · have hWords : (gatheredShape axes common).checkStrides = .ok () :=
      Shape.checkStrides_of_checkedSize (hShape ▸ hSize) hStrides
    rw [select_of_gather hLocate, hWords]
    rfl
  · have hIn : (gatheredShape axes common).Contains index := hIndex
    obtain ⟨hBlock, hCoordinates⟩ := contains_gatheredShape hIn
    have hUpper : ∀ shape ∈ axes.filterMap AxisSelection.indexShape?, shape.Stretches common :=
      hShapes ▸ hCommon.upper
    have hValid := valid_of_resolveFrom (exact_completed hExact) (length_completed hRank) hAxes
    have hSource : a.shape.Contains (gatheredSource axes common index) :=
      contains_sourceIndex hValid hUpper hBlock hCoordinates
    have hOffset : ((gatheredShape axes common).indices.map fun index =>
          a.offsetOf (gatheredSource axes common index))[
            Shape.dot index (gatheredShape axes common).strides]?
        = some (a.offsetOf (gatheredSource axes common index)) := by
      rw [Array.getElem?_map, ← Array.getElem?_toList, Shape.toList_indices,
        Shape.listing_getElem?_dot hIn]
      rfl
    refine ⟨gatheredSource axes common index,
      addresses_sourceIndex (exact_completed hExact) (length_completed hRank) hAxes hUpper hBlock
        hCoordinates, hSource, hOffset, ?_⟩
    rw [element_contents store hSource, Contents.element, Contents.get, Array.getD_eq_getD_getElem?]
    simp only [Array.getElem?_map] at hOffset ⊢
    rw [hOffset]
    rfl

/-- The last entries of three rows of a matrix, the second row twice. -/
theorem select_last_column :
    let a : NdArray := ⟨⟨0⟩, .int64, [2, 3], [3, 1], 0⟩
    let store := (allocate .empty ⟨.int64, [2, 3], (Array.range 6).map fun i => .int i.toInt64⟩).2
    let selectors := [.ofIndices [1, 0, 1], .at (-1)]
    a.Locatable (fun n => n) selectors ∧ ∃ located c, a.locate selectors = .ok located ∧
      a.select store selectors = .ok (.fresh c) ∧ c.shape = located.shape := by
  intro a store selectors
  have hExact : ∀ s ∈ selectors, s.Exact := by simp [selectors, ofIndices, Exact, Shape.size]
  have hCommon : Shape.IsCommon ((a.completed selectors).filterMap Selector.indexShape?) [3] :=
    Shape.joinAll?_eq_some_iff.mp (by decide)
  have hLeads : Leads (a.completed selectors) 0 := .inl ⟨2, 0, rfl⟩
  have hLocatable : a.Locatable (fun n => n) selectors := by
    refine ⟨.cons ?_ (.cons ?_ .nil), [3], 0, 3, hCommon, hLeads, rfl⟩
    · simp only [ofIndices, Accepts, List.mem_toArray, List.forall_mem_cons, List.not_mem_nil,
        IsEmpty.forall_iff, implies_true, and_true]
      decide
    · simp only [Accepts]
      decide
  obtain ⟨hLocated, hSelected⟩ := locate_select_gathering (a := a) store (by decide) (by decide)
    hExact
    ⟨.ofIndices [1, 0, 1], by simp [selectors], rfl⟩
  obtain ⟨located, hLocate⟩ := hLocated.mpr hLocatable
  obtain ⟨common, lead, c, hOther, hPlace, hLocated, hSelect, -, hShape, -⟩ :=
    hSelected located hLocate
  obtain rfl := hOther.unique hCommon
  obtain rfl := hPlace.unique hLeads ⟨.at (-1), by simp [selectors, completed], rfl⟩
  refine ⟨hLocatable, located, c, hLocate, hSelect fun hNone => ?_, hShape⟩
  rw [hLocated] at hNone
  exact absurd hNone (by decide)

/-- The length of an axis does matter as a signed word: on an empty array with an axis
of two to the power of 63, the position zero is below the length, but no index
expression with it is located. -/
theorem not_located_of_length_beyond_words :
    let a : NdArray := ⟨⟨0⟩, .int64, [0x8000000000000000, 0], [1, 1], 0⟩
    let store := (allocate .empty ⟨.int64, [0x8000000000000000, 0], #[]⟩).2
    let selectors := [Selector.ofIndices [0]]
    a.WellFormed store ∧ selectors.length ≤ a.rank ∧ (∀ s ∈ selectors, s.Exact) ∧
      a.Locatable (fun n => n) selectors ∧ ∀ located, a.locate selectors ≠ .ok located := by
  intro a store selectors
  refine ⟨wellFormed_allocate .empty (c := ⟨.int64, [0x8000000000000000, 0], #[]⟩) rfl, by decide,
    by simp [selectors, ofIndices, Exact, Shape.size], ?_, fun located h => ?_⟩
  · refine ⟨.cons ?_ (.cons ?_ .nil), [1], 0, 0, ?_, .inl ⟨1, 1, rfl⟩, rfl⟩
    · simp only [ofIndices, Accepts, List.mem_toArray, List.forall_mem_cons, List.not_mem_nil,
        IsEmpty.forall_iff, implies_true, and_true]
      decide
    · simp [all, Accepts, SliceBounds.full]
    · exact Shape.joinAll?_eq_some_iff.mp (by decide)
  · obtain ⟨hAccepts, -⟩ := (locate_isOk_iff_locatable (by decide)
      ⟨.ofIndices [0], by simp [selectors], rfl⟩).mp ⟨located, h⟩
    obtain ⟨hFirst, -⟩ := List.forall₂_cons.mp hAccepts
    have hLength : signedLength 0x8000000000000000 = -0x8000000000000000 := by decide
    have hPosition := (hFirst 0 (by simp)).2
    rw [hLength] at hPosition
    exact absurd hPosition (by decide)

end NdArray

end ArrayBridge
