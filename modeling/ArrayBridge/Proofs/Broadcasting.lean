import ArrayBridge.Contents
import ArrayBridge.Proofs.Odometer
import ArrayBridge.Proofs.Outcome
import Mathlib.Data.List.Forall2

/-! Broadcasting as an order on shapes.

A shape stretches to another one if, aligned at the last axis, each of its axes
has length one or the length of the other. The common shape of several shapes is
the least one that all of them stretch to. An index of the larger shape is pulled
back to the smaller one by dropping the coordinates without a counterpart and
putting zero on the axes of length one. -/

namespace ArrayBridge.Shape

section Order

/-- Stretching of shapes that are listed from the last axis to the first. -/
def StretchesReversed : List Nat → List Nat → Prop
  | [], _ => True
  | s :: ss, t :: ts => (s = 1 ∨ s = t) ∧ StretchesReversed ss ts
  | _ :: _, [] => False

/-- Each axis of the source has length one or that of the target's axis which is
as far from the last one. The source has no more axes than the target. -/
def Stretches (source target : Shape) : Prop := StretchesReversed source.reverse target.reverse

/-- The least shape to which all listed shapes stretch. -/
structure IsCommon (shapes : List Shape) (common : Shape) : Prop where
  upper : ∀ shape ∈ shapes, Stretches shape common
  least : ∀ target, (∀ shape ∈ shapes, Stretches shape target) → Stretches common target

@[simp] theorem stretchesReversed_nil (target : List Nat) : StretchesReversed [] target := by
  cases target <;> trivial

@[simp] theorem nil_stretches (target : Shape) : Stretches [] target := stretchesReversed_nil _

theorem stretchesReversed_refl (shape : List Nat) : StretchesReversed shape shape := by
  induction shape with
  | nil => trivial
  | cons d ds ih => exact ⟨Or.inr rfl, ih⟩

theorem StretchesReversed.trans {first second third : List Nat}
    (hLeft : StretchesReversed first second) (hRight : StretchesReversed second third) :
    StretchesReversed first third := by
  induction first generalizing second third with
  | nil => simp
  | cons a as ih =>
      cases second with
      | nil => exact hLeft.elim
      | cons b bs =>
          cases third with
          | nil => exact hRight.elim
          | cons c cs =>
              have hHead := hLeft.1
              have hNext := hRight.1
              exact ⟨by omega, ih hLeft.2 hRight.2⟩

theorem StretchesReversed.antisymm {left right : List Nat}
    (hLeft : StretchesReversed left right) (hRight : StretchesReversed right left) :
    left = right := by
  induction left generalizing right with
  | nil =>
      cases right with
      | nil => rfl
      | cons b bs => exact hRight.elim
  | cons a as ih =>
      cases right with
      | nil => exact hLeft.elim
      | cons b bs =>
          have hHead := hLeft.1
          have hBack := hRight.1
          rw [ih hLeft.2 hRight.2, show a = b by omega]

theorem Stretches.antisymm {left right : Shape} (hLeft : left.Stretches right)
    (hRight : right.Stretches left) : left = right :=
  List.reverse_injective (StretchesReversed.antisymm hLeft hRight)

theorem IsCommon.unique {shapes : List Shape} {left right : Shape}
    (hLeft : IsCommon shapes left) (hRight : IsCommon shapes right) : left = right :=
  (hLeft.least right hRight.upper).antisymm (hRight.least left hLeft.upper)

end Order

section Join

/-- Two axes have a common length exactly if some length suits both. -/
theorem joinAxis_cases (left right : Nat) :
    (∃ common, joinAxis left right = some common ∧ (left = 1 ∨ left = common) ∧
      (right = 1 ∨ right = common) ∧
      ∀ target, left = 1 ∨ left = target → right = 1 ∨ right = target →
        common = 1 ∨ common = target) ∨
    (joinAxis left right = none ∧
      ∀ target, ¬((left = 1 ∨ left = target) ∧ (right = 1 ∨ right = target))) := by
  unfold joinAxis
  split_ifs with hEq hLeft hRight
  · exact .inl ⟨left, rfl, by omega, by omega, fun target _ _ => by omega⟩
  · exact .inl ⟨right, rfl, by omega, by omega, fun target _ _ => by omega⟩
  · exact .inl ⟨left, rfl, by omega, by omega, fun target _ _ => by omega⟩
  · exact .inr ⟨rfl, fun target => by omega⟩

theorem joinReversed_upper {left right common : List Nat}
    (h : joinReversed left right = some common) :
    StretchesReversed left common ∧ StretchesReversed right common := by
  fun_induction joinReversed left right generalizing common with
  | case1 right =>
      cases h
      exact ⟨by simp, stretchesReversed_refl _⟩
  | case2 left =>
      cases h
      exact ⟨stretchesReversed_refl _, by simp⟩
  | case3 a as b bs ih =>
      obtain ⟨d, hAxis, h⟩ := Option.bind_eq_some_iff.mp h
      obtain ⟨ds, hRest, h⟩ := Option.bind_eq_some_iff.mp h
      cases h
      obtain ⟨hLeft, hRight⟩ := ih hRest
      rcases joinAxis_cases a b with ⟨c, hc, hFirst, hSecond, -⟩ | ⟨hNone, -⟩
      · rw [hAxis] at hc
        cases hc
        exact ⟨⟨hFirst, hLeft⟩, ⟨hSecond, hRight⟩⟩
      · rw [hAxis] at hNone
        cases hNone

theorem joinReversed_least {left right target : List Nat}
    (hLeft : StretchesReversed left target) (hRight : StretchesReversed right target) :
    ∃ common, joinReversed left right = some common ∧ StretchesReversed common target := by
  fun_induction joinReversed left right generalizing target with
  | case1 right => exact ⟨right, rfl, hRight⟩
  | case2 left => exact ⟨left, rfl, hLeft⟩
  | case3 a as b bs ih =>
      cases target with
      | nil => exact hLeft.elim
      | cons t ts =>
          obtain ⟨ds, hRest, hTail⟩ := ih hLeft.2 hRight.2
          rcases joinAxis_cases a b with ⟨d, hAxis, -, -, hLeast⟩ | ⟨-, hNone⟩
          · exact ⟨d :: ds, by simp [hAxis, hRest], hLeast t hLeft.1 hRight.1, hTail⟩
          · exact (hNone t ⟨hLeft.1, hRight.1⟩).elim

/-- The join of two shapes is the least shape that both stretch to. -/
theorem join?_eq_some_iff {left right common : Shape} :
    join? left right = some common ↔ IsCommon [left, right] common := by
  constructor
  · intro h
    obtain ⟨reversed, hJoin, rfl⟩ := Option.map_eq_some_iff.mp h
    obtain ⟨hLeft, hRight⟩ := joinReversed_upper hJoin
    refine ⟨?_, ?_⟩
    · simpa [Stretches] using ⟨hLeft, hRight⟩
    · intro target hAll
      simp only [List.mem_cons, List.not_mem_nil, or_false, forall_eq_or_imp, forall_eq] at hAll
      obtain ⟨found, hFound, hLeast⟩ := joinReversed_least hAll.1 hAll.2
      rw [hJoin] at hFound
      cases hFound
      simpa [Stretches] using hLeast
  · intro h
    have hLeft := h.upper left (by simp)
    have hRight := h.upper right (by simp)
    obtain ⟨reversed, hJoin, hBelow⟩ := joinReversed_least hLeft hRight
    obtain ⟨hFirst, hSecond⟩ := joinReversed_upper hJoin
    have hAbove : StretchesReversed common.reverse reversed := by
      have hLeast := h.least reversed.reverse (by simp [Stretches, hFirst, hSecond])
      simpa [Stretches] using hLeast
    rw [join?, hJoin, Option.map_some, hBelow.antisymm hAbove, List.reverse_reverse]

/-- Adding a shape to a list replaces the first two shapes by their common one. -/
theorem isCommon_cons_cons {first second joined common : Shape} {shapes : List Shape}
    (hJoined : IsCommon [first, second] joined) :
    IsCommon (first :: second :: shapes) common ↔ IsCommon (joined :: shapes) common := by
  have hTargets (target : Shape) :
      (∀ shape ∈ first :: second :: shapes, Stretches shape target) ↔
        ∀ shape ∈ joined :: shapes, Stretches shape target := by
    simp only [List.forall_mem_cons]
    refine ⟨fun ⟨hFirst, hSecond, hRest⟩ => ⟨?_, hRest⟩, fun ⟨hJoin, hRest⟩ => ⟨?_, ?_, hRest⟩⟩
    · exact hJoined.least target (by simp [hFirst, hSecond])
    · exact (hJoined.upper first (by simp)).trans hJoin
    · exact (hJoined.upper second (by simp)).trans hJoin
  exact ⟨fun h => ⟨(hTargets _).mp h.upper, fun t ht => h.least t ((hTargets t).mpr ht)⟩,
    fun h => ⟨(hTargets _).mpr h.upper, fun t ht => h.least t ((hTargets t).mp ht)⟩⟩

theorem foldlM_join?_eq_some_iff {first common : Shape} {shapes : List Shape} :
    shapes.foldlM join? first = some common ↔ IsCommon (first :: shapes) common := by
  induction shapes generalizing first with
  | nil =>
      have hSelf : IsCommon [first] first :=
        ⟨by simpa [Stretches] using stretchesReversed_refl _, fun target h => h first (by simp)⟩
      simp only [List.foldlM_nil, Option.pure_def, Option.some.injEq]
      exact ⟨fun h => h ▸ hSelf, fun h => hSelf.unique h⟩
  | cons second rest ih =>
      rw [List.foldlM_cons]
      constructor
      · intro h
        obtain ⟨joined, hJoin, hRest⟩ := Option.bind_eq_some_iff.mp h
        exact (isCommon_cons_cons (join?_eq_some_iff.mp hJoin)).mpr (ih.mp hRest)
      · intro h
        obtain ⟨reversed, hJoin, -⟩ := joinReversed_least (h.upper first (by simp))
          (h.upper second (by simp))
        have hPair : join? first second = some reversed.reverse := by rw [join?, hJoin]; rfl
        rw [hPair]
        exact ih.mpr ((isCommon_cons_cons (join?_eq_some_iff.mp hPair)).mp h)

/-- Joining shapes from left to right finds their common shape, and fails only if
they have none. -/
theorem joinAll?_eq_some_iff {shapes : List Shape} {common : Shape} :
    joinAll? shapes = some common ↔ IsCommon shapes common := by
  rw [joinAll?, foldlM_join?_eq_some_iff]
  constructor
  · intro h
    exact ⟨fun s hs => h.upper s (List.mem_cons_of_mem _ hs),
      fun t ht => h.least t (by simpa using ht)⟩
  · intro h
    exact ⟨by simpa using h.upper, fun t ht => h.least t fun s hs => ht s (List.mem_cons_of_mem _ hs)⟩

end Join

section Pull

/-- The index of a source that an index of a target reads: the coordinates are
aligned at the last axis, and an axis of length one is read at zero. -/
def pull (source : Shape) (index : List Nat) : List Nat :=
  List.zipWith (fun d i => if d = 1 then 0 else i) source
    (List.replicate (source.length - index.length) 0 ++ index.drop (index.length - source.length))

/-- A stretching shape faces the last axes of its target. -/
theorem stretches_iff_forall₂ {source target : Shape} :
    source.Stretches target ↔ source.length ≤ target.length ∧
      List.Forall₂ (fun s t => s = 1 ∨ s = t) source
        (target.drop (target.length - source.length)) := by
  have hReversed (left right : List Nat) : StretchesReversed left right ↔
      left.length ≤ right.length ∧
        List.Forall₂ (fun s t => s = 1 ∨ s = t) left (right.take left.length) := by
    induction left generalizing right with
    | nil => simp
    | cons s ss ih =>
        cases right with
        | nil => simp [StretchesReversed]
        | cons t ts =>
            simp only [StretchesReversed, ih, List.length_cons, List.take_succ_cons,
              List.forall₂_cons, Nat.add_le_add_iff_right]
            tauto
  rw [Stretches, hReversed, List.length_reverse, List.length_reverse, List.take_reverse,
    List.forall₂_reverse_iff]

theorem Stretches.length_le {source target : Shape} (h : source.Stretches target) :
    source.length ≤ target.length := (stretches_iff_forall₂.mp h).1

theorem contains_append {left right : Shape} {index : List Nat} :
    Contains (left ++ right) index ↔
      left.Contains (index.take left.length) ∧ right.Contains (index.drop left.length) := by
  induction left generalizing index with
  | nil => simp
  | cons d ds ih =>
      cases index with
      | nil => simp
      | cons i is => simp [ih, and_assoc]

theorem contains_zipWith {source aligned : Shape} {index : List Nat}
    (hFits : List.Forall₂ (fun s t => s = 1 ∨ s = t) source aligned)
    (hIn : aligned.Contains index) :
    source.Contains (List.zipWith (fun d i => if d = 1 then 0 else i) source index) := by
  induction hFits generalizing index with
  | nil => simp
  | @cons s t ss ts hHead _ ih =>
      cases index with
      | nil => exact hIn.elim
      | cons i is =>
          have hCoordinate : i < t := hIn.1
          refine ⟨?_, ih hIn.2⟩
          change (if s = 1 then 0 else i) < s
          split <;> omega

theorem size_append (left right : Shape) : size (left ++ right) = size left * size right := by
  induction left with
  | nil => rw [List.nil_append, size, Nat.one_mul]
  | cons d ds ih => rw [List.cons_append, size, size, ih, Nat.mul_assoc]

theorem size_le_of_forall₂ {source aligned : Shape}
    (h : List.Forall₂ (fun s t => s = 1 ∨ s = t) source aligned) (hAxes : 0 ∉ aligned) :
    source.size ≤ aligned.size := by
  induction h with
  | nil => exact Nat.le_refl _
  | @cons s t ss ts hHead _ ih =>
      rw [List.mem_cons, not_or] at hAxes
      exact Nat.mul_le_mul (by omega) (ih hAxes.2)

/-- A shape with elements has at least as many of them as any shape that stretches to it. -/
theorem Stretches.size_le {source target : Shape} (h : source.Stretches target)
    (hAxes : 0 ∉ target) : source.size ≤ target.size := by
  obtain ⟨-, hFits⟩ := stretches_iff_forall₂.mp h
  obtain ⟨leading, aligned, rfl, hAligned⟩ : ∃ leading aligned, target = leading ++ aligned ∧
      aligned = target.drop (target.length - source.length) :=
    ⟨_, _, (List.take_append_drop _ target).symm, rfl⟩
  rw [List.mem_append, not_or] at hAxes
  rw [← hAligned] at hFits
  have hLeading := Nat.pos_of_ne_zero (mt size_eq_zero_iff.mp hAxes.1)
  rw [size_append]
  exact Nat.le_trans (size_le_of_forall₂ hFits hAxes.2) (Nat.le_mul_of_pos_left _ hLeading)

/-- An index inside the target is pulled back to an index inside the source. -/
theorem Stretches.contains_pull {source target : Shape} {index : List Nat}
    (h : source.Stretches target) (hIn : target.Contains index) :
    source.Contains (pull source index) := by
  obtain ⟨hLength, hFits⟩ := stretches_iff_forall₂.mp h
  have hTail : Contains (target.drop (target.length - source.length))
      (index.drop (index.length - source.length)) := by
    have hSplit := hIn
    rw [← List.take_append_drop (target.length - source.length) target, contains_append] at hSplit
    have hCut : (target.take (target.length - source.length)).length
        = index.length - source.length := by simp [hIn.length_eq]
    exact hCut ▸ hSplit.2
  have hNoPad : source.length - index.length = 0 := by rw [hIn.length_eq]; omega
  rw [pull, hNoPad, List.replicate_zero, List.nil_append]
  exact contains_zipWith hFits hTail

/-- Leading axes of length one in excess of the index are read at zero. -/
theorem pull_replicate_append {count : Nat} {rest : Shape} {index : List Nat}
    (h : index.length ≤ rest.length) :
    pull (List.replicate count 1 ++ rest) index = List.replicate count 0 ++ pull rest index := by
  have hPad : List.replicate ((List.replicate count 1 ++ rest).length - index.length) 0
      = List.replicate count 0 ++ List.replicate (rest.length - index.length) 0 := by
    rw [List.replicate_append_replicate, List.length_append, List.length_replicate,
      Nat.add_sub_assoc h]
  have hDrop : index.length - (List.replicate count 1 ++ rest).length = 0 := by simp; omega
  rw [pull, pull, hPad, hDrop, Nat.sub_eq_zero_of_le h, List.drop_zero, List.append_assoc,
    List.zipWith_append (by simp)]
  simp [List.zipWith_replicate']

theorem dot_replicate_append (count : Nat) (rest : Shape) (index : List Nat) :
    dot (List.replicate count 0 ++ index) (strides (List.replicate count 1 ++ rest))
      = dot index rest.strides := by
  induction count with
  | zero => rfl
  | succ count ih => simp [List.replicate_succ, strides, dot, ih]

/-- Axes of length one in excess of the index do not move the position that is read. -/
theorem dot_pull_of_replicate_append {count : Nat} {shape rest : Shape} {index : List Nat}
    (hShape : shape = List.replicate count 1 ++ rest)
    (h : index.length ≤ rest.length ∨ count = 0) :
    dot (pull shape index) shape.strides = dot (pull rest index) rest.strides := by
  subst hShape
  rcases h with hShort | rfl
  · rw [pull_replicate_append hShort, dot_replicate_append]
  · rfl

/-- Reading by stretched strides is reading at the index pulled back. -/
theorem stretchedPosition_eq {source : Shape} {index : List Nat}
    (h : source.length ≤ index.length) :
    source.stretchedPosition index = dot (pull source index) source.strides := by
  have hAligned (shape : Shape) (coordinates : List Nat) :
      dot coordinates shape.stretchedStrides
        = dot (List.zipWith (fun d i => if d = 1 then 0 else i) shape coordinates)
            shape.strides := by
    induction shape generalizing coordinates with
    | nil => cases coordinates <;> rfl
    | cons d ds ih =>
        cases coordinates with
        | nil => rfl
        | cons i is =>
            have hTail := ih is
            rw [stretchedStrides] at hTail ⊢
            simp only [strides, List.zip_cons_cons, List.map_cons, List.zipWith_cons_cons, dot,
              hTail]
            split <;> simp
  rw [stretchedPosition, hAligned, pull, Nat.sub_eq_zero_of_le h, List.replicate_zero,
    List.nil_append]

end Pull

section LeadingOnes

theorem dropLeadingOnes_eq_some_iff {shape rest : Shape} {rank : Nat} :
    shape.dropLeadingOnes rank = some rest ↔
      rest.length = min shape.length rank ∧
        shape = List.replicate (shape.length - rank) 1 ++ rest := by
  fun_induction dropLeadingOnes shape rank with
  | case1 shape hShort =>
      rw [Option.some.injEq, Nat.min_eq_left hShort, Nat.sub_eq_zero_of_le hShort,
        List.replicate_zero, List.nil_append]
      exact ⟨fun h => ⟨h ▸ rfl, h⟩, fun h => h.2⟩
  | case2 tail hLong ih =>
      have hLength : (1 :: tail).length - rank = tail.length - rank + 1 := by
        simp only [List.length_cons] at hLong ⊢
        omega
      have hMin : min (1 :: tail).length rank = min tail.length rank := by
        simp only [List.length_cons] at hLong ⊢
        omega
      rw [ih, hLength, hMin, List.replicate_succ, List.cons_append, List.cons.injEq]
      simp
  | case3 shape hLong hNotOne =>
      refine ⟨fun h => (nomatch h), fun ⟨_, hEq⟩ => ?_⟩
      obtain ⟨n, hn⟩ : ∃ n, shape.length - rank = n + 1 := ⟨shape.length - rank - 1, by omega⟩
      rw [hn, List.replicate_succ, List.cons_append] at hEq
      exact (hNotOne _ hEq).elim

/-- Aligned axes stretch if each of them does. -/
theorem all_zip_iff {left right : List Nat} (hLength : left.length = right.length) :
    ((left.zip right).all fun (s, t) => s = t || s = 1) = true ↔
      List.Forall₂ (fun s t => s = 1 ∨ s = t) left right := by
  induction left generalizing right with
  | nil =>
      cases right with
      | nil => simp
      | cons t ts => simp at hLength
  | cons s ss ih =>
      cases right with
      | nil => simp at hLength
      | cons t ts =>
          have hTail := ih (by simpa using hLength)
          simp only [List.zip_cons_cons, List.all_cons, Bool.and_eq_true, hTail,
            List.forall₂_cons]
          simp [or_comm]

/-- For a source with no more axes than the target, the check of the axes is that
of the order. -/
theorem stretchesTo_iff {source target : Shape} (h : source.length ≤ target.length) :
    source.stretchesTo target = true ↔ source.Stretches target := by
  rw [stretchesTo, all_zip_iff (by simp; omega), stretches_iff_forall₂]
  simp [h]

end LeadingOnes

end ArrayBridge.Shape

namespace ArrayBridge.Contents

/-- The element at an index inside the shape. -/
def element (c : Contents) (index : List Nat) : Scalar := c.get (Shape.dot index c.shape.strides)

/-- Values that are listed for the indices of the shape are found there. -/
theorem element_map_indices (dtype : DType) {shape : Shape} (f : List Nat → Scalar)
    {index : List Nat} (hIn : shape.Contains index) :
    element ⟨dtype, shape, shape.indices.map f⟩ index = f index := by
  have hListed : shape.indices.toList[Shape.dot index shape.strides]? = some index := by
    rw [Shape.toList_indices]
    exact Shape.listing_getElem?_dot hIn
  rw [Array.getElem?_toList] at hListed
  rw [element, get, Array.getD_eq_getD_getElem?, Array.getElem?_map, hListed]
  rfl

/-- Contents fit a target shape if the axes in excess of the target's are leading
ones of length one and the others stretch. -/
def Fits (c : Contents) (target : Shape) : Prop :=
  ∃ rest : Shape, rest.Stretches target ∧
    c.shape = List.replicate (c.shape.length - target.length) 1 ++ rest

theorem fits_iff_dropLeadingOnes {c : Contents} {target : Shape} :
    c.Fits target ↔ ∃ rest : Shape, rest.Stretches target ∧
      c.shape.dropLeadingOnes target.length = some rest := by
  refine exists_congr fun rest => and_congr_right fun hStretch => ?_
  rw [Shape.dropLeadingOnes_eq_some_iff]
  refine ⟨fun h => ⟨?_, h⟩, fun h => h.2⟩
  have hRank := hStretch.length_le
  have hLength := congrArg List.length h
  simp only [List.length_append, List.length_replicate] at hLength
  omega

/-- Broadcasting succeeds exactly on contents that fit, and then reads the element
at the pulled-back index for every index of the target. -/
theorem broadcastTo_eq_ok_iff {c : Contents} {target : Shape} {values : List Scalar} :
    c.broadcastTo target = .ok values ↔
      c.Fits target ∧
        values = target.listing.map fun index => c.element (Shape.pull c.shape index) := by
  rw [fits_iff_dropLeadingOnes, broadcastTo]
  cases hDrop : c.shape.dropLeadingOnes target.length with
  | none => simp
  | some source =>
      obtain ⟨hLength, hShape⟩ := Shape.dropLeadingOnes_eq_some_iff.mp hDrop
      have hRank : source.length ≤ target.length := by omega
      have hValues : (target.indices.toList.map fun index => c.get
            (Shape.dot (index.drop (index.length - source.length)) source.stretchedStrides))
          = target.listing.map fun index => c.element (Shape.pull c.shape index) := by
        rw [Shape.toList_indices]
        refine List.map_congr_left fun index hIndex => ?_
        have hIndexLength := (Shape.mem_listing.mp hIndex).length_eq
        have hPosition := Shape.stretchedPosition_eq (hIndexLength ▸ hRank)
        rw [Shape.stretchedPosition] at hPosition
        rw [element, hPosition, Shape.dot_pull_of_replicate_append hShape (by omega)]
      by_cases hStretch : source.Stretches target
      · have hCheck := (Shape.stretchesTo_iff hRank).mpr hStretch
        simp [hCheck, hValues, hStretch, eq_comm]
      · have hCheck := mt (Shape.stretchesTo_iff hRank).mp hStretch
        simp [hCheck, hStretch]

variable {c left right : Contents}

theorem map_get_range (c : Contents) :
    (List.range c.values.size).map c.get = c.values.toList := by
  refine List.ext_getElem (by simp) fun k hMapped hListed => ?_
  rw [List.getElem_map, List.getElem_range, get, Array.getD_eq_getD_getElem?,
    Array.getElem?_eq_getElem (by simpa using hListed), Option.getD_some, Array.getElem_toList]

end ArrayBridge.Contents
