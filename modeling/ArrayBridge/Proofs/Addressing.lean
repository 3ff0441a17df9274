import ArrayBridge.Shape.Basic
import ArrayBridge.Shape.Limits

/-! Which shapes pass the check of their size.

The product is taken in machine words, axis by axis, and there is none once it leaves them.
So a shape that passes has exactly the counted elements, and no shape with more elements than
can be addressed passes. Only an empty axis can make the check stricter than the number of
elements: where the axes before it have too many. -/

namespace ArrayBridge.Shape

variable {shape : Shape} {count start : Nat}

/-- The product in words, if there is one, is the product. -/
theorem foldlM_wordProduct (h : shape.foldlM (fun product d =>
      if product * d < Word.count then some (product * d) else none) start = some count) :
    count = start * shape.size := by
  induction shape generalizing start with
  | nil =>
      cases h
      exact (Nat.mul_one _).symm
  | cons d ds ih =>
      rw [List.foldlM_cons] at h
      split at h
      · rw [size, ← Nat.mul_assoc]
        exact ih h
      · cases h

theorem size_of_wordProduct? (h : shape.wordProduct? = some count) : count = shape.size :=
  (foldlM_wordProduct h).trans (Nat.one_mul _)

/-- A shape that passes has the counted elements, which are not too many. -/
theorem size_of_checkedSize (h : shape.checkedSize = .ok count) :
    count = shape.size ∧ count ≤ maxElements := by
  unfold checkedSize at h
  split at h
  · rename_i size hProduct
    split at h
    · rename_i hFits
      cases h
      exact ⟨size_of_wordProduct? hProduct, hFits⟩
    · cases h
  · cases h

/-- A check fails in one way only. -/
theorem checkedSize_eq_error (h : ∀ count, shape.checkedSize ≠ .ok count) :
    shape.checkedSize = .error (.shapeTooBig shape) := by
  unfold checkedSize at h ⊢
  split
  · split
    · rename_i size hProduct hFits
      exact absurd (by rw [hProduct]; exact if_pos hFits) (h size)
    · rfl
  · rfl

/-- Too many elements are refused. -/
theorem checkedSize_of_lt_size (h : maxElements < shape.size) :
    shape.checkedSize = .error (.shapeTooBig shape) := by
  refine checkedSize_eq_error fun count hCount => ?_
  obtain ⟨rfl, hFits⟩ := size_of_checkedSize hCount
  omega

end ArrayBridge.Shape
