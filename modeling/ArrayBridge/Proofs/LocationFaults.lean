import ArrayBridge.Bridge.Indexing
import ArrayBridge.Proofs.Addressing
import ArrayBridge.Proofs.AdvancedIndexing

/-! Why an index expression is not located, and how the bridge reports it.

An array looks at its axes first, then at the shapes of the index arrays, and at the size of the
result last. What is wrong with the axes and the shapes is a fault of the index. A result that
is too large is a bad value. The bridge looks for the word for a step in the text of a bad value,
and there is none in the texts that speak of shapes. -/

namespace ArrayBridge

open Outcome

section Texts

/-! A text that is put together has a word in it only if one of its parts begins the word. -/

/-- What has no letter like the first of a word can be left out before the word is looked for. -/
theorem occursIn_append_of_notMem {c : Char} {word text : List Char} (h : c ∉ text)
    (rest : List Char) : occursIn (c :: word) (text ++ rest) = occursIn (c :: word) rest := by
  induction text with
  | nil => rfl
  | cons first text ih =>
      obtain ⟨hFirst, hText⟩ := List.ne_and_not_mem_of_not_mem_cons h
      rw [List.cons_append, occursIn, ih hText, List.isPrefixOf, beq_false_of_ne hFirst,
        Bool.false_and, Bool.false_or]

/-- No letters are needed to write a number. -/
theorem notMem_toString_nat {c : Char} (h : c.isDigit = false) (n : Nat) :
    c ∉ (toString n).toList := by
  intro hMem
  rw [Nat.toString_eq_repr, Nat.toList_repr] at hMem
  rw [Nat.isDigit_of_mem_toDigits (by decide) (by decide) hMem] at h
  cases h

/-- No letters are needed to write a shape. -/
theorem Shape.notMem_text (shape : Shape) : 's' ∉ shape.text.toList := by
  have hList (lengths : List Nat) : 's' ∉ (", ".intercalate (lengths.map toString)).toList := by
    induction lengths with
    | nil => decide
    | cons d ds ih =>
        cases ds with
        | nil =>
            rw [List.map_singleton, String.intercalate_singleton]
            exact notMem_toString_nat (by decide) d
        | cons e es =>
            rw [List.map_cons, List.map_cons, String.intercalate_cons_cons, ← List.map_cons,
              String.toList_append, String.toList_append, List.mem_append, List.mem_append]
            rintro ((hNumber | hComma) | hRest)
            · exact notMem_toString_nat (by decide) d hNumber
            · exact absurd hComma (by decide)
            · exact ih hRest
  unfold Shape.text
  split
  · rename_i d
    rw [String.toList_append, String.toList_append, List.mem_append, List.mem_append]
    rintro ((hOpen | hNumber) | hClose)
    · exact absurd hOpen (by decide)
    · exact notMem_toString_nat (by decide) d hNumber
    · exact absurd hClose (by decide)
  · rw [String.toList_append, String.toList_append, List.mem_append, List.mem_append]
    rintro ((hOpen | hLengths) | hClose)
    · exact absurd hOpen (by decide)
    · exact hList shape hLengths
    · exact absurd hClose (by decide)

/-- The word for a step is not in the text about a shape that is too large. -/
theorem not_mentions_shapeTooBig (shape : Shape) :
    mentions (Exception.shapeTooBig shape).message "step" = false := by
  have hMessage : (Exception.shapeTooBig shape).message
      = "array is too big; shape " ++ shape.text ++ " exceeds the maximum possible size" := rfl
  have hWord : "step".toList = ['s', 't', 'e', 'p'] := by simp
  have hStart (rest : List Char) :
      occursIn ['s', 't', 'e', 'p'] ("array is too big; shape ".toList ++ rest)
        = occursIn ['s', 't', 'e', 'p'] rest := by simp [occursIn, List.isPrefixOf]
  have hEnd : occursIn ['s', 't', 'e', 'p'] " exceeds the maximum possible size".toList = false := by
    simp [occursIn, List.isPrefixOf]
  rw [mentions, hMessage, hWord, String.toList_append, String.toList_append, List.append_assoc,
    hStart, occursIn_append_of_notMem shape.notMem_text, hEnd]

/-- Nor is it in the text about a shape that cannot be stretched. -/
theorem not_mentions_cannotBroadcastInto (source target : Shape) :
    mentions (Exception.cannotBroadcastInto source target).message "step" = false := by
  have hMessage : (Exception.cannotBroadcastInto source target).message
      = "could not broadcast input array from shape " ++ source.text ++ " into shape "
        ++ target.text := rfl
  have hWord : "step".toList = ['s', 't', 'e', 'p'] := by simp
  have hStart (rest : List Char) :
      occursIn ['s', 't', 'e', 'p'] ("could not broadcast input array from shape ".toList ++ rest)
        = occursIn ['s', 't', 'e', 'p'] rest := by simp [occursIn, List.isPrefixOf]
  have hMiddle (rest : List Char) : occursIn ['s', 't', 'e', 'p'] (" into shape ".toList ++ rest)
      = occursIn ['s', 't', 'e', 'p'] rest := by simp [occursIn, List.isPrefixOf]
  have hEnd : occursIn ['s', 't', 'e', 'p'] target.text.toList = false := by
    rw [← List.append_nil target.text.toList, occursIn_append_of_notMem target.notMem_text]
    rfl
  rw [mentions, hMessage, hWord, String.toList_append, String.toList_append, String.toList_append,
    List.append_assoc, List.append_assoc, hStart, occursIn_append_of_notMem source.notMem_text,
    hMiddle, hEnd]

end Texts

namespace Session

variable {path : String} {isWrite : Bool} {e : Exception}

/-! What the bridge makes of an exception depends on its kind. -/

theorem indexError_of_indexError (h : e.kind = .indexError) :
    indexError path isWrite e = .index (.outOfRange e.message) := by
  unfold indexError
  rw [h]

theorem indexError_of_typeError (h : e.kind = .typeError) :
    indexError path isWrite e = .foreignCall path e := by
  unfold indexError
  rw [h]

theorem indexError_of_valueError (h : e.kind = .valueError)
    (hStep : mentions e.message "step" = false) :
    indexError path isWrite e
      = if isWrite = true then .index (.shape e.message) else .foreignCall path e := by
  unfold indexError
  rw [h]
  dsimp only
  rw [hStep, if_neg Bool.false_ne_true]

end Session

namespace Selector

variable {selector : Selector} {axis size : Nat} {e : Exception}

/-- A selector that does not stand still. -/
def Moves : Selector → Prop
  | slice bounds => bounds.step ≠ some 0
  | _ => True

theorem kind_of_resolvePosition {index : Int64}
    (h : resolvePosition index size axis = .error e) : e.kind = .indexError := by
  unfold resolvePosition at h
  dsimp only at h
  generalize (if index.toInt < 0 then _ else _ : Int) = resolved at h
  split at h
  · cases h
  · cases h
    rfl

/-- An axis refuses a selector with a fault of the index, or because it stands still. -/
theorem fault_of_resolve (h : selector.resolve axis size = .error e) :
    e.kind = .indexError ∨ ¬ selector.Moves ∧ e = .zeroSliceStep := by
  cases selector with
  | «at» index =>
      rcases bind_eq_error_iff.mp h with hPosition | ⟨_, _, hPure⟩
      · exact .inl (kind_of_resolvePosition hPosition)
      · cases hPure
  | slice bounds =>
      rcases bind_eq_error_iff.mp h with hRange | ⟨_, _, hPure⟩
      · have hStill : ¬ ∃ range, bounds.resolve size = .ok range := by
          rintro ⟨range, hOk⟩
          cases hOk.symm.trans hRange
        refine .inr ⟨fun hMoves => hStill (SliceBounds.resolve_isOk_iff.mpr hMoves), ?_⟩
        unfold SliceBounds.resolve at hRange
        dsimp only at hRange
        split at hRange
        · cases hRange
          rfl
        · cases hRange
      · cases hPure
  | indices values shape =>
      rcases bind_eq_error_iff.mp h with hPositions | ⟨_, _, hPure⟩
      · obtain ⟨index, -, hPosition⟩ := exists_of_mapM_array_eq_error hPositions
        exact .inl (kind_of_resolvePosition hPosition)
      · cases hPure
  | mask flags =>
      unfold resolve at h
      dsimp only at h
      split at h
      · cases h
        exact .inl rfl
      · cases h

/-- The first axis that refuses its selector decides. -/
theorem fault_of_resolveFrom {selectors : List Selector} {sizes : Shape}
    (h : resolveFrom axis selectors sizes = .error e) :
    e.kind = .indexError ∨ (∃ s ∈ selectors, ¬ s.Moves) ∧ e = .zeroSliceStep := by
  induction selectors generalizing axis sizes with
  | nil => cases h
  | cons selector selectors ih =>
      cases sizes with
      | nil => cases h
      | cons size sizes =>
          rcases bind_eq_error_iff.mp h with hFirst | ⟨_, -, hRest⟩
          · exact (fault_of_resolve hFirst).imp_right fun ⟨hStill, hEq⟩ =>
              ⟨⟨selector, List.mem_cons_self, hStill⟩, hEq⟩
          · rcases bind_eq_error_iff.mp hRest with hLater | ⟨_, -, hPure⟩
            · exact (ih hLater).imp_right fun ⟨⟨s, hs, hStill⟩, hEq⟩ =>
                ⟨⟨s, List.mem_cons_of_mem _ hs, hStill⟩, hEq⟩
            · cases hPure

/-- There is a place for the common shape, also where there is none. -/
theorem exists_leads (selectors : List Selector) : ∃ lead, Leads selectors lead := by
  by_cases h : ∃ before, Neighbours selectors before
  · obtain ⟨before, hNeighbours⟩ := h
    exact ⟨before, .inl hNeighbours⟩
  · exact ⟨0, .inr ⟨rfl, fun before hNeighbours => h ⟨before, hNeighbours⟩⟩⟩

end Selector

/-- Contents that do not fit a shape are a bad value. -/
theorem Contents.broadcastTo_eq_error {c : Contents} {target : Shape} (h : ¬ c.Fits target) :
    c.broadcastTo target = .error (.cannotBroadcastInto c.shape target) := by
  have hNone (values : List Scalar) : c.broadcastTo target ≠ .ok values := fun hOk =>
    h (broadcastTo_eq_ok_iff.mp hOk).1
  unfold broadcastTo at hNone ⊢
  split
  · rfl
  · rename_i source hDrop
    split
    · rename_i hStretches
      rw [hDrop] at hNone
      exact absurd (if_pos hStretches) (hNone _)
    · rfl

namespace NdArray

open AxisSelection Selector

variable {a : NdArray} {selectors : List Selector} {left right : Shape}

section Assigning

variable {located : Located} {c : Contents} (hLocate : a.locate selectors = .ok located)
include hLocate

/-- Contents are assigned if they fit what was located. -/
theorem exists_assignment (hFits : c.Fits located.shape) :
    ∃ writes, a.assignment selectors c = .ok writes := by
  rw [assignment, hLocate]
  change ∃ writes, (c.broadcastTo located.shape >>= _) = _
  rw [Contents.broadcastTo_eq_ok_iff.mpr ⟨hFits, rfl⟩]
  exact ⟨_, rfl⟩

theorem assignment_eq_error (hFits : ¬ c.Fits located.shape) :
    a.assignment selectors c = .error (.cannotBroadcastInto c.shape located.shape) := by
  rw [assignment, hLocate]
  change (c.broadcastTo located.shape >>= _) = _
  rw [Contents.broadcastTo_eq_error hFits]
  rfl

end Assigning

/-- All positions of an index expression are on their axes and its masks are as long as theirs,
and its index arrays have a common shape. The lengths of the axes are read as signed words. -/
def Covers (a : NdArray) (selectors : List Selector) : Prop :=
  List.Forall₂ (fun s n => s.Accepts n (signedLength n)) (a.completed selectors) a.shape ∧
    ∃ common, Shape.IsCommon ((a.completed selectors).filterMap Selector.indexShape?) common

/-- The shape of what an index expression selects: the common shape of its index arrays among
the lengths of its slices. Without index arrays there are only these lengths. -/
def SelectionShape (a : NdArray) (selectors : List Selector) (shape : Shape) : Prop :=
  ∃ common lead, Shape.IsCommon ((a.completed selectors).filterMap Selector.indexShape?) common ∧
    Leads (a.completed selectors) lead ∧ shape = a.gatheringShape selectors common lead

/-- Without index arrays it does not matter where their common shape would be. -/
theorem gatheringShape_nil (lead : Nat) : a.gatheringShape selectors [] lead
    = sliceCounts (a.completed selectors) a.shape := by
  rw [gatheringShape, List.append_nil, List.take_append_drop]

/-- Selectors that are all slices have no index shapes. -/
theorem isCommon_nil_of_slices (h : ∀ s ∈ selectors, s.isSlice = true) :
    Shape.IsCommon (selectors.filterMap Selector.indexShape?) [] := by
  have hNone : selectors.filterMap Selector.indexShape? = [] := by
    refine List.filterMap_eq_nil_iff.mpr fun s hs => ?_
    cases s with
    | slice bounds => rfl
    | _ => cases h _ hs
  rw [hNone]
  exact ⟨fun _ hs => absurd hs List.not_mem_nil, fun _ _ => Shape.nil_stretches _⟩

theorem SelectionShape.unique (hLeft : a.SelectionShape selectors left)
    (hRight : a.SelectionShape selectors right) : left = right := by
  obtain ⟨common, lead, hCommon, hLeads, rfl⟩ := hLeft
  obtain ⟨other, lead', hOther, hLeads', rfl⟩ := hRight
  obtain rfl := hCommon.unique hOther
  by_cases hPicked : ∃ s ∈ a.completed selectors, s.isSlice = false
  · rw [hLeads.unique hLeads' hPicked]
  · have hSlices : ∀ s ∈ a.completed selectors, s.isSlice = true := by simpa using hPicked
    obtain rfl := hCommon.unique (isCommon_nil_of_slices hSlices)
    rw [gatheringShape_nil, gatheringShape_nil]

/-- What becomes of an index expression. -/
inductive LocateOutcome (a : NdArray) (selectors : List Selector) :
    Except Exception Located → Prop
  | uncovered {e : Exception} (h : ¬ a.Covers selectors) (hKind : e.kind = .indexError) :
      LocateOutcome a selectors (.error e)
  | tooLarge {shape : Shape} (hCovers : a.Covers selectors)
      (hGathers : ∃ s ∈ selectors, s.isGathering = true)
      (hShape : a.SelectionShape selectors shape)
      (hLarge : ∀ size, shape.checkedSize ≠ .ok size) :
      LocateOutcome a selectors (.error (.shapeTooBig shape))
  | located {located : Located} (hCovers : a.Covers selectors)
      (hShape : a.SelectionShape selectors located.shape)
      (hSize : (∃ s ∈ selectors, s.isGathering = true) →
        ∃ size, located.shape.checkedSize = .ok size) : LocateOutcome a selectors (.ok located)

section Resolved

variable {axes : List AxisSelection} (hRank : selectors.length ≤ a.rank)
  (hAxes : resolveFrom 0 (a.completed selectors) a.shape = .ok axes)
include hRank hAxes

/-- The axes with index arrays are those of the given selectors; missing ones are slices. -/
theorem any_isPicked_iff :
    axes.any AxisSelection.isPicked = true ↔ ∃ s ∈ selectors, s.isGathering = true := by
  obtain ⟨-, hPicks, -, -⟩ := kinds_of_resolveFrom (length_completed hRank) hAxes
  have hSame : axes.any AxisSelection.isPicked = (a.completed selectors).any isGathering := by
    have hMapped := congrArg (List.any · id) hPicks
    simpa only [List.any_map, Function.id_comp] using hMapped
  rw [hSame, completed, List.any_append, List.any_replicate, List.any_eq_true.symm]
  simp [Selector.all, isGathering]

theorem gather_outcome (hGathers : ∃ s ∈ selectors, s.isGathering = true) :
    a.LocateOutcome selectors (a.gather axes) := by
  have hLength := length_completed hRank
  have hAccepts := (resolveFrom_isOk_iff 0 hLength).mp ⟨axes, hAxes⟩
  obtain ⟨hSlices, -, hShapes, hCounts⟩ := kinds_of_resolveFrom hLength hAxes
  rw [gather]
  cases hJoin : Shape.joinAll? (axes.filterMap AxisSelection.indexShape?) with
  | none =>
      refine .uncovered ?_ rfl
      rintro ⟨-, common, hCommon⟩
      rw [← hShapes, ← Shape.joinAll?_eq_some_iff, hJoin] at hCommon
      cases hCommon
  | some common =>
      have hCommon := hShapes ▸ Shape.joinAll?_eq_some_iff.mp hJoin
      have hShape : a.SelectionShape selectors (gatheredShape axes common) := by
        refine ⟨common, leadingRanges axes, hCommon,
          leads_leadingRanges hSlices (exists_notSlice_completed hGathers), ?_⟩
        rw [gatheredShape, hCounts, gatheringShape]
      change LocateOutcome a selectors
        (Shape.checkedSize (gatheredShape axes common) >>= fun _ => .ok (.gather _ _))
      by_cases hSize : ∃ size, (gatheredShape axes common).checkedSize = .ok size
      · obtain ⟨size, hSize⟩ := hSize
        rw [hSize]
        exact .located ⟨hAccepts, common, hCommon⟩ hShape fun _ => ⟨size, hSize⟩
      · have hLarge := not_exists.mp hSize
        rw [Shape.checkedSize_eq_error hLarge]
        exact .tooLarge ⟨hAccepts, common, hCommon⟩ hGathers hShape hLarge

theorem view_outcome (h : a.Anchored) (hPlain : ¬ ∃ s ∈ selectors, s.isGathering = true) :
    a.LocateOutcome selectors (.ok (.view (a.view axes))) := by
  have hLength := length_completed hRank
  have hAccepts := (resolveFrom_isOk_iff 0 hLength).mp ⟨axes, hAxes⟩
  obtain ⟨-, -, hShapes, hCounts⟩ := kinds_of_resolveFrom hLength hAxes
  have hNone : ∀ s ∈ axes, s.isPicked = false := by
    rw [← any_isPicked_iff hRank hAxes, List.any_eq_true] at hPlain
    simpa using hPlain
  -- A position is an index array without axes, so all index shapes are empty.
  have hCommon : Shape.IsCommon ((a.completed selectors).filterMap Selector.indexShape?) [] := by
    rw [← hShapes]
    refine ⟨fun shape hMem => ?_, fun _ _ => Shape.nil_stretches _⟩
    obtain ⟨s, hs, hShape⟩ := List.mem_filterMap.mp hMem
    cases s with
    | «at» position =>
        cases hShape
        exact Shape.nil_stretches _
    | range found => cases hShape
    | picked positions shape => cases hNone _ hs
  have hValid := valid_of_resolveFrom (exact_of_resolveFrom hLength hAxes hNone) hLength hAxes
  obtain ⟨lead, hLeads⟩ := exists_leads (a.completed selectors)
  refine .located ⟨hAccepts, [], hCommon⟩ ⟨[], lead, hCommon, hLeads, ?_⟩ fun hGathers =>
    (hPlain hGathers).elim
  rw [gatheringShape_nil, ← hCounts]
  exact h.shape_view hValid hNone

end Resolved

/-- An index expression that has no more selectors than there are axes, and none that stands
still, is not located if the array does not cover it, or if it gathers too many elements. -/
theorem locate_outcome (h : a.Anchored) (hRank : selectors.length ≤ a.rank)
    (hMoves : ∀ s ∈ selectors, s.Moves) : a.LocateOutcome selectors (a.locate selectors) := by
  have hLength := length_completed hRank
  rw [locate_eq hRank]
  cases hAxes : resolveFrom 0 (a.completed selectors) a.shape with
  | error e =>
      refine .uncovered (fun hCovers => ?_) ((fault_of_resolveFrom hAxes).resolve_right ?_)
      · obtain ⟨axes, hOk⟩ := (resolveFrom_isOk_iff 0 hLength).mpr hCovers.1
        cases hOk.symm.trans hAxes
      · rintro ⟨⟨s, hs, hStill⟩, -⟩
        rcases List.mem_append.mp hs with hHere | hMissing
        · exact hStill (hMoves s hHere)
        · rw [(List.mem_replicate.mp hMissing).2] at hStill
          exact hStill fun hZero => by cases hZero
  | ok axes =>
      change LocateOutcome a selectors
        (if axes.any AxisSelection.isPicked then a.gather axes else .ok (.view (a.view axes)))
      split
      · rename_i hPicked
        exact gather_outcome hRank hAxes ((any_isPicked_iff hRank hAxes).mp hPicked)
      · rename_i hPicked
        exact view_outcome hRank hAxes h (mt (any_isPicked_iff hRank hAxes).mpr hPicked)

end NdArray

end ArrayBridge
