import ArrayBridge.Proofs.ElementCounts
import ArrayBridge.Proofs.Reshaping

/-! When the check of a size is exact.

The number of elements of a shape does not depend on the order of its axes, and it is zero as soon
as one of them is empty. The check multiplies the lengths from the outermost axis inward, and it
gives up when a product leaves the words. So it tells the number of elements, or that they are too
many, except where an empty axis comes too late: after axes whose lengths have left the words. -/

namespace ArrayBridge.Shape

variable {shape other : Shape} {count : Nat}

/-- The axes before the first empty one. -/
def beforeEmpty (shape : Shape) : Shape := shape.takeWhile (· ≠ 0)

/-- There is an empty axis, and the product of the lengths before it is no word. -/
def EmptyTooLate (shape : Shape) : Prop := 0 ∈ shape ∧ Word.count ≤ shape.beforeEmpty.size

instance (shape : Shape) : Decidable shape.EmptyTooLate := inferInstanceAs (Decidable (_ ∧ _))

theorem beforeEmpty_eq_self (h : 0 ∉ shape) : shape.beforeEmpty = shape :=
  List.takeWhile_eq_self_iff.mpr fun _ hd => decide_eq_true (ne_of_mem_of_not_mem hd h)

theorem zero_notMem_beforeEmpty (shape : Shape) : 0 ∉ shape.beforeEmpty := by
  intro hMem
  have hSome := List.mem_takeWhile_imp hMem
  exact of_decide_eq_true hSome rfl

/-- Outermost axes of which none is empty end before the first empty one. -/
theorem prefix_beforeEmpty {outer : Shape} (hOuter : outer <+: shape) (hAxes : 0 ∉ outer) :
    outer <+: shape.beforeEmpty := by
  obtain ⟨rest, rfl⟩ := hOuter
  have hAll : ∀ d ∈ outer, decide (d ≠ 0) = true := fun _ hd =>
    decide_eq_true (ne_of_mem_of_not_mem hd hAxes)
  rw [beforeEmpty, List.takeWhile_append_of_pos hAll]
  exact List.prefix_append _ _

/-- The products on the way grow up to the first empty axis, and are zero from there on. -/
theorem multiplies_iff : shape.Multiplies ↔ shape.beforeEmpty.size < Word.count := by
  constructor
  · intro h
    exact h _ (List.takeWhile_prefix _)
  · intro hWord outer hOuter
    by_cases hAxes : 0 ∈ outer
    · rw [size_eq_zero_iff.mpr hAxes]
      decide
    · have hLess := size_le_of_prefix (prefix_beforeEmpty hOuter hAxes) shape.zero_notMem_beforeEmpty
      exact Nat.lt_of_le_of_lt hLess hWord

theorem checkedSize_eq_ok_iff : shape.checkedSize = .ok count ↔
    shape.beforeEmpty.size < Word.count ∧ shape.size ≤ maxElements ∧ count = shape.size := by
  rw [← multiplies_iff]
  constructor
  · intro h
    obtain ⟨rfl, hFits⟩ := size_of_checkedSize h
    refine ⟨?_, hFits, rfl⟩
    by_contra hLeaves
    rw [checkedSize, wordProduct?_eq_none_iff.mpr hLeaves] at h
    cases h
  · rintro ⟨hProduct, hFits, rfl⟩
    rw [checkedSize, wordProduct?_eq_some_iff.mpr ⟨hProduct, rfl⟩]
    exact if_pos hFits

theorem not_emptyTooLate (h : 0 ∉ shape) : ¬ shape.EmptyTooLate := fun hLate => h hLate.1

/-- Unless an empty axis comes too late, a number of elements that can be addressed is a word on
the way, too. -/
theorem checkedSize_eq_ok_iff_of_not_emptyTooLate (h : ¬ shape.EmptyTooLate) :
    shape.checkedSize = .ok count ↔ shape.size ≤ maxElements ∧ count = shape.size := by
  rw [checkedSize_eq_ok_iff, and_iff_right_iff_imp]
  rintro ⟨hFits, -⟩
  by_cases hEmpty : 0 ∈ shape
  · exact Nat.not_le.mp fun hLarge => h ⟨hEmpty, hLarge⟩
  · rw [beforeEmpty_eq_self hEmpty]
    exact Nat.lt_of_le_of_lt hFits (by decide)

theorem size_eq_of_perm (h : other.Perm shape) : other.size = shape.size := by
  rw [size_eq_prod, size_eq_prod]
  exact h.prod_eq

/-- The check answers with the exact product of the lengths if that can be addressed, and refuses the
shape as a fault of the value if it cannot, whatever the lengths are and in every order of the axes,
unless an empty axis comes too late. A shape with such an axis has no elements, and is refused. -/
theorem checkedSize_exact (shape : Shape) :
    (¬ shape.EmptyTooLate → shape.checkedSize
      = if shape.size ≤ maxElements then .ok shape.size else .error (.shapeTooBig shape)) ∧
    (shape.EmptyTooLate → shape.size = 0 ∧ shape.checkedSize = .error (.shapeTooBig shape)) ∧
    (0 ∉ shape → ¬ shape.EmptyTooLate) ∧
    (Exception.shapeTooBig shape).kind = .valueError ∧
    ∀ other : Shape, other.Perm shape → ¬ shape.EmptyTooLate → ¬ other.EmptyTooLate →
      ∀ count, other.checkedSize = .ok count ↔ shape.checkedSize = .ok count := by
  refine ⟨fun hEarly => ?_, fun hLate => ⟨size_eq_zero_iff.mpr hLate.1, ?_⟩, not_emptyTooLate, rfl,
    fun other hPerm hEarly hOther count => ?_⟩
  · split
    · rename_i hFits
      exact (checkedSize_eq_ok_iff_of_not_emptyTooLate hEarly).mpr ⟨hFits, rfl⟩
    · rename_i hMany
      exact checkedSize_of_lt_size (Nat.not_le.mp hMany)
  · refine checkedSize_eq_error fun count hCount => ?_
    exact Nat.not_lt.mpr hLate.2 (checkedSize_eq_ok_iff.mp hCount).1
  · rw [checkedSize_eq_ok_iff_of_not_emptyTooLate hEarly,
      checkedSize_eq_ok_iff_of_not_emptyTooLate hOther, size_eq_of_perm hPerm]

/-- The axes of a shape without elements have the product two to the power of 65. The check accepts
the shape while the empty axis comes before the last of them. -/
theorem checkedSize_exact_of_gap : ¬ EmptyTooLate [0x8000000000000000, 0, 4] ∧
    checkedSize [0x8000000000000000, 0, 4] = .ok 0 ∧
    checkedSize [0, 0x8000000000000000, 4] = .ok 0 := by
  obtain ⟨hExact, -, -, -, hOrder⟩ := checkedSize_exact [0x8000000000000000, 0, 4]
  have hEarly : ¬ EmptyTooLate [0x8000000000000000, 0, 4] := by decide
  have hZero := hExact hEarly
  refine ⟨hEarly, hZero, ?_⟩
  exact (hOrder _ (List.Perm.swap _ _ _) hEarly (by decide) 0).mpr hZero

/-- With the empty axis behind all the others the same shape is refused. -/
theorem not_exact_of_late_empty_axis : (∀ d ∈ [0x8000000000000000, 4, 0], d < Word.count) ∧
    size [0x8000000000000000, 4, 0] = 0 ∧
    checkedSize [0x8000000000000000, 4, 0] = .error (.shapeTooBig [0x8000000000000000, 4, 0]) ∧
    checkedSize [0, 0x8000000000000000, 4] = .ok 0 := by
  decide

end ArrayBridge.Shape
