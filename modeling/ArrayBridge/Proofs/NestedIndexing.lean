import ArrayBridge.Proofs.BasicIndexing

/-! Positions and slices on nests of lists.

The values of an array can be read as a nest of lists. There an index expression has a
meaning that knows of no offsets and strides: a position takes an item of a list, a slice a list of
items, and the rest of the expression is applied to what was taken. Indexing an array is indexing
its nest, and so indexing a view of a view is indexing a nest twice. -/

namespace ArrayBridge

/-- A value, or a list of nests. -/
inductive Nested (α : Type) where
  | leaf (value : α)
  | list (items : List (Nested α))

namespace Nested

open Selector

variable {α : Type}

/-- The nest of lists of a shape that has the given elements. -/
def tabulate : Shape → (List Nat → α) → Nested α
  | [], element => .leaf (element [])
  | size :: sizes, element =>
    .list ((List.range size).map fun i => tabulate sizes fun index => element (i :: index))

/-- The item of a list at a position from its front. -/
def item? (items : List (Nested α)) (position : Int) : Option (Nested α) :=
  if 0 ≤ position then items[position.toNat]? else none

/-- The documented meaning of an index expression for a nest of lists. A position takes one item of
a list, a slice a list of items, and the rest of the expression is applied to each item that is
taken. There is no result if a position is outside of its list or a slice stands still. -/
def index? : List Selector → Nested α → Option (Nested α)
  | [], nest => some nest
  | .at index :: selectors, .list items => do
    let item ← item? items (counted index items.length)
    index? selectors item
  | .slice bounds :: selectors, .list items => do
    if bounds.step = some 0 then none
    let taken ← (bounds.positions items.length).mapM fun position => do
      let item ← item? items position
      index? selectors item
    return .list taken
  | _, _ => none

/-- Only the elements inside the shape are in the nest. -/
theorem tabulate_congr {shape : Shape} {f g : List Nat → α}
    (h : ∀ index, shape.Contains index → f index = g index) : tabulate shape f = tabulate shape g := by
  induction shape generalizing f g with
  | nil => rw [tabulate, tabulate, h [] Shape.contains_nil_nil]
  | cons size sizes ih =>
      rw [tabulate, tabulate]
      refine congrArg list (List.map_congr_left fun i hi => ih fun index hIn => ?_)
      exact h (i :: index) ⟨List.mem_range.mp hi, hIn⟩

theorem item?_tabulate {size : Nat} {items : Nat → Nested α} {position : Nat}
    (h : position < size) : item? ((List.range size).map items) position = some (items position) := by
  rw [item?, if_pos (Int.natCast_nonneg position), Int.toNat_natCast, List.getElem?_map,
    List.getElem?_range h]
  rfl

/-- Each item of a list is mapped to what belongs to its place. -/
theorem mapM_eq_some_of_places {β γ : Type} {xs : List β} {f : β → Option γ} {g : Nat → γ}
    (h : ∀ place x, xs[place]? = some x → f x = some (g place)) :
    xs.mapM f = some ((List.range xs.length).map g) := by
  induction xs generalizing g with
  | nil => rfl
  | cons x xs ih =>
      have hTail : xs.mapM f = some ((List.range xs.length).map fun place => g (place + 1)) :=
        ih fun place y hy => h (place + 1) y hy
      rw [List.mapM_cons, h 0 x rfl, hTail, List.length_cons, List.range_succ_eq_map, List.map_cons,
        List.map_map]
      rfl

/-- Indexing the nest of a shape gives the nest of the result, if each of its elements is the one
that its index stands for. -/
theorem index?_tabulate {selectors : List Selector} {first : Nat} {sizes : Shape}
    {f g : List Nat → α} (hBasic : ∀ s ∈ selectors, s.isGathering = false)
    (hSizes : ∀ n ∈ sizes, n < Word.signedLimit) (hLength : selectors.length ≤ sizes.length)
    (hNone : ∀ place e, ¬ OffendsAt first selectors sizes place e)
    (hShows : ∀ index source, (resultShape selectors sizes).Contains index →
      Shows selectors sizes index source → g index = f source) :
    index? selectors (tabulate sizes f) = some (tabulate (resultShape selectors sizes) g) := by
  induction selectors generalizing first sizes f g with
  | nil =>
      have hWhole : resultShape [] sizes = sizes := by
        cases sizes <;> rfl
      rw [hWhole] at hShows ⊢
      exact congrArg some (tabulate_congr fun index hIn => (hShows index index hIn .rest).symm)
  | cons selector selectors ih =>
      cases sizes with
      | nil => simp at hLength
      | cons size sizes =>
          obtain ⟨hHead, hTail⟩ := List.forall_mem_cons.mp hBasic
          obtain ⟨hSize, hRest⟩ := List.forall_mem_cons.mp hSizes
          have hPasses : ∀ e, ¬ Offence first size selector e :=
            fun e h => hNone 0 e (offendsAt_zero.mpr h)
          have hLater : ∀ place e, ¬ OffendsAt (first + 1) selectors sizes place e :=
            fun place e h => hNone (place + 1) e (offendsAt_succ.mpr h)
          have hShorter : selectors.length ≤ sizes.length := by simpa using hLength
          cases selector with
          | «at» index =>
              have hInside : -size ≤ index.toInt ∧ index.toInt < size := by
                have hOutside := mt Offence.position (hPasses (.indexOutOfBounds index first size))
                omega
              obtain ⟨position, hPosition⟩ : ∃ position : Nat, counted index size = position := by
                refine Int.eq_ofNat_of_zero_le ?_
                unfold counted
                split <;> omega
              have hBound : position < size := by
                unfold counted at hPosition
                split at hPosition <;> omega
              have hItem : index? (.at index :: selectors) (tabulate (size :: sizes) f)
                  = index? selectors (tabulate sizes fun source => f (position :: source)) := by
                rw [tabulate, index?, List.length_map, List.length_range, hPosition,
                  item?_tabulate hBound]
                rfl
              rw [hItem]
              refine ih hTail hRest hShorter hLater fun coordinates source hIn hSource => ?_
              exact hShows coordinates (position :: source) hIn (.position hPosition.symm hSource)
          | slice bounds =>
              -- Each place of the slice is a nest of its own, and the rest is indexed there.
              have hStep : bounds.step ≠ some 0 := mt Offence.step (hPasses .zeroSliceStep)
              rw [tabulate, index?, if_neg hStep, List.length_map, List.length_range]
              rw [mapM_eq_some_of_places (g := fun coordinate =>
                tabulate (resultShape selectors sizes) fun index => g (coordinate :: index))]
              · rfl
              intro coordinate position hPosition
              have hMem := List.mem_of_getElem? hPosition
              have hInside := SliceBounds.inside_of_mem_positions hSize hMem
              obtain ⟨position, rfl⟩ := Int.eq_ofNat_of_zero_le hInside.1
              have hPlace : coordinate < (bounds.positions size).length :=
                (List.getElem?_eq_some_iff.mp hPosition).1
              rw [item?_tabulate (Int.ofNat_lt.mp hInside.2)]
              refine ih hTail hRest hShorter hLater fun coordinates source hIn hSource => ?_
              exact hShows (coordinate :: coordinates) (position :: source) ⟨hPlace, hIn⟩
                (.slice hPosition hSource)
          | indices values shape => cases hHead
          | mask flags => cases hHead

end Nested

namespace NdArray

open Selector

/-- The nest of lists that shows the values of an array. -/
def nested (a : NdArray) (store : BufferStore) : Nested Scalar :=
  .tabulate a.shape (a.contents store).element

/-- One array is reached from another by index expressions, each of which selects a view of the
array before it. -/
inductive Views : NdArray → List (List Selector) → NdArray → Prop
  | nil {a : NdArray} : Views a [] a
  | cons {a v w : NdArray} {selectors : List Selector} {chain : List (List Selector)}
      (hLocate : a.locate selectors = .ok (.view v)) (hRest : Views v chain w) :
      Views a (selectors :: chain) w

variable {a v : NdArray} {store : BufferStore} {selectors : List Selector}

/-- Indexing an array is indexing the nest of its values. -/
theorem WellFormed.nested_view (h : a.WellFormed store)
    (hSizes : ∀ n ∈ a.shape, n < Word.signedLimit) (hLocate : a.locate selectors = .ok (.view v)) :
    Nested.index? selectors (a.nested store) = some (v.nested store) := by
  have hBasic : ∀ s ∈ selectors, s.isGathering = false := (exists_view_iff hLocate).mp ⟨v, rfl⟩
  have hRank := (exists_axes_of_view hLocate).1
  have hShows := h.basicView hSizes hLocate
  have hNone : ∀ axis e, ¬ OffendsAt 0 selectors a.shape axis e := by
    intro axis e hOffends
    obtain ⟨e', hError⟩ :=
      (exists_locate_eq_error_iff hSizes hBasic hRank).mpr ⟨axis, e, hOffends⟩
    cases hLocate.symm.trans hError
  rw [nested, nested, hShows.shape_eq]
  refine Nested.index?_tabulate hBasic hSizes hRank hNone fun index source hIn hSource => ?_
  obtain ⟨found, hFound, -, -, hElement⟩ := hShows.elements index (hShows.shape_eq ▸ hIn)
  rw [hElement, hFound.unique hSource]

/-- The nest of a view that is reached in several steps is reached in the same steps from the nest
of the first array. -/
theorem WellFormed.nested_of_views {chain : List (List Selector)} (h : a.WellFormed store)
    (hSizes : ∀ n ∈ a.shape, n < Word.signedLimit) (hViews : a.Views chain v) :
    chain.foldlM (fun nest selectors => Nested.index? selectors nest) (a.nested store)
      = some (v.nested store) := by
  induction hViews with
  | nil => rfl
  | cons hLocate _ ih =>
      have hShows := h.basicView hSizes hLocate
      rw [List.foldlM_cons, h.nested_view hSizes hLocate]
      exact ih hShows.wellFormed (hShows.shape_eq ▸ lt_of_mem_resultShape hSizes)

/-- Basic indexing. On a well-formed array whose axes are as long as a signed word can say, an index
expression of positions and slices is refused exactly if a position is outside of its axis or a
slice stands still, with the fault of the first such axis. Otherwise it selects a view of the
documented shape and elements. And a view of a view, however often it is taken, shows what the same
index expressions select one after the other from the nest of the values. -/
theorem WellFormed.locate_basic (h : a.WellFormed store)
    (hSizes : ∀ n ∈ a.shape, n < Word.signedLimit)
    (hBasic : ∀ s ∈ selectors, s.isGathering = false) (hRank : selectors.length ≤ a.rank) :
    ((∃ e, a.locate selectors = .error e) ↔ ∃ axis e, OffendsAt 0 selectors a.shape axis e) ∧
    (∀ e, a.locate selectors = .error e → (e.kind = .indexError ∨ e.kind = .valueError) ∧
      ∃ axis, OffendsAt 0 selectors a.shape axis e ∧
        ∀ before < axis, ∀ e', ¬ OffendsAt 0 selectors a.shape before e') ∧
    (∀ located, a.locate selectors = .ok located →
      ∃ v, located = .view v ∧ a.BasicView store selectors v) ∧
    ∀ chain v, a.Views (selectors :: chain) v →
      (selectors :: chain).foldlM (fun nest selectors => Nested.index? selectors nest)
        (a.nested store) = some (v.nested store) := by
  refine ⟨exists_locate_eq_error_iff hSizes hBasic hRank, fun e hError => ?fault,
    fun located hLocate => ?located, fun chain v hViews => h.nested_of_views hSizes hViews⟩
  case fault =>
    obtain ⟨axis, hOffends, hNone⟩ := (locate_eq_error_iff hSizes hBasic hRank).mp hError
    have hKind : e.kind = .indexError ∨ e.kind = .valueError := by
      obtain ⟨selector, size, -, -, hOffence⟩ := hOffends
      exact hOffence.kind
    exact ⟨hKind, axis, hOffends, hNone⟩
  case located =>
    obtain ⟨v, rfl⟩ := (exists_view_iff hLocate).mpr hBasic
    exact ⟨v, rfl, h.basicView hSizes hLocate⟩

/-- The last entries of two rows, with the rows in reverse order. -/
theorem locate_basic_reversed :
    let c : Contents := ⟨.int64, [2, 3], (Array.range 6).map fun i => .int i.toInt64⟩
    let a := (allocate .empty c).1
    let store := (allocate .empty c).2
    let selectors := [.slice ⟨none, none, some (-1)⟩, .at (-1)]
    a.WellFormed store ∧ (∀ n ∈ a.shape, n < Word.signedLimit) ∧
      (∀ s ∈ selectors, s.isGathering = false) ∧ selectors.length ≤ a.rank ∧
      a.BasicView store selectors ⟨⟨0⟩, .int64, [2], [-3], 5⟩ := by
  intro c a store selectors
  have h : a.WellFormed store := wellFormed_allocate .empty (by simp [c, Shape.size])
  have hSizes : ∀ n ∈ a.shape, n < Word.signedLimit := by decide
  have hBasic : ∀ s ∈ selectors, s.isGathering = false := by simp [selectors, isGathering]
  have hRank : selectors.length ≤ a.rank := by decide
  obtain ⟨-, -, hViews, -⟩ := h.locate_basic hSizes hBasic hRank
  obtain ⟨v, hView, hShows⟩ := hViews (.view ⟨⟨0⟩, .int64, [2], [-3], 5⟩) rfl
  cases hView
  exact ⟨h, hSizes, hBasic, hRank, hShows⟩

/-- On a longer axis, which only an array without elements can have, no position is located, also
where none offends: the length is read as a negative number. -/
theorem not_located_first_of_long_axis :
    let c : Contents := ⟨.int64, [0x8000000000000000, 0], #[]⟩
    let a := (allocate .empty c).1
    a.WellFormed (allocate .empty c).2 ∧ [Selector.at 0].length ≤ a.rank ∧
      (∀ axis e, ¬ OffendsAt 0 [Selector.at 0] a.shape axis e) ∧
      a.locate [Selector.at 0] = .error (.indexOutOfBounds 0 0 0x8000000000000000) := by
  intro c a
  refine ⟨wellFormed_allocate .empty rfl, by decide, fun axis e hOffends => ?_, rfl⟩
  cases axis with
  | zero =>
      obtain ⟨outside⟩ := offendsAt_zero.mp hOffends
      exact absurd outside (by decide)
  | succ axis =>
      obtain ⟨_, _, hSelector, -⟩ := hOffends
      cases hSelector

end NdArray

end ArrayBridge
