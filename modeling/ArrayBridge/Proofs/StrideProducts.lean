import ArrayBridge.Engine.State
import ArrayBridge.Proofs.Addressing
import ArrayBridge.Proofs.Odometer
import ArrayBridge.Proofs.Outcome

/-! Which strides fit a machine word.

The number of elements is multiplied from the outermost axis inward, the strides from the
innermost axis outward, and an empty axis is zero in the one product and one in the other. Where
no axis is empty both products are the same, and the limit on the elements is far below that on
the strides. An empty axis makes the number of elements zero whatever the other axes are, so
the limit on the elements then says nothing about the strides. -/

namespace ArrayBridge

namespace Shape

variable {shape inner : Shape} {count : Nat}

/-- The product of the innermost axes is a factor of that of all axes. -/
theorem paddedSize_le_of_suffix (h : inner <:+ shape) : inner.paddedSize ≤ shape.paddedSize := by
  induction shape with
  | nil =>
      obtain rfl := List.suffix_nil.mp h
      exact Nat.le_refl _
  | cons d ds ih =>
      rcases List.suffix_cons_iff.mp h with rfl | hInner
      · exact Nat.le_refl _
      · have hStep : paddedSize ds ≤ max d 1 * paddedSize ds :=
          Nat.le_mul_of_pos_left _ (by omega)
        exact Nat.le_trans (ih hInner) hStep

/-- A stride is the product of the axes behind its own. -/
theorem exists_suffix_of_mem_strides {stride : Nat} (h : stride ∈ shape.strides) :
    ∃ inner : Shape, inner <:+ shape ∧ inner.paddedSize = stride := by
  induction shape with
  | nil => cases h
  | cons d ds ih =>
      rcases List.mem_cons.mp h with rfl | hLater
      · exact ⟨ds, List.suffix_cons d ds, rfl⟩
      · obtain ⟨inner, hInner, hProduct⟩ := ih hLater
        exact ⟨inner, hInner.trans (List.suffix_cons d ds), hProduct⟩

/-- The product in signed words is the product, if that is a signed word. The products on the
way are not larger, so none of them leaves the words before the last one does. -/
theorem paddedProduct?_eq (hSigned : ∀ d ∈ shape, d < Word.signedLimit) :
    shape.paddedProduct?
      = if shape.paddedSize < Word.signedLimit then some (shape.paddedSize : Int) else none := by
  induction shape with
  | nil => rfl
  | cons d ds ih =>
      have hLength : signedLength (max d 1) = (max d 1 : Nat) := by
        have hFits : max d 1 < Word.signedLimit :=
          Nat.max_lt.mpr ⟨hSigned d List.mem_cons_self, by decide⟩
        exact signedLength_of_lt hFits
      have hInner : paddedSize ds ≤ paddedSize (d :: ds) :=
        paddedSize_le_of_suffix (List.suffix_cons d ds)
      rw [paddedProduct?, ih fun e he => hSigned e (List.mem_cons_of_mem d he)]
      -- If the tail does not fit, neither does the whole: no factor is zero.
      by_cases hTail : paddedSize ds < Word.signedLimit
      · rw [if_pos hTail, Option.bind_some, hLength, ← Int.natCast_mul, Nat.mul_comm,
          Word.signed?_natCast]
        rfl
      · rw [if_neg hTail, if_neg (by omega)]
        rfl

theorem checkStrides_eq_ok_iff (hSigned : ∀ d ∈ shape, d < Word.signedLimit) :
    shape.checkStrides = .ok () ↔ shape.paddedSize < Word.signedLimit := by
  rw [checkStrides, paddedProduct?_eq hSigned]
  by_cases hFits : shape.paddedSize < Word.signedLimit <;> simp [hFits]

/-- The strides are multiplied up, or one of the products does not fit. -/
theorem checkStrides_eq_ok_or (shape : Shape) :
    shape.checkStrides = .ok () ∨ shape.checkStrides = .error .wordOverflow := by
  rw [checkStrides]
  cases shape.paddedProduct? <;> simp

theorem checkStrides_eq_error_iff (hSigned : ∀ d ∈ shape, d < Word.signedLimit) :
    shape.checkStrides = .error .wordOverflow ↔ Word.signedLimit ≤ shape.paddedSize := by
  rw [← Nat.not_lt, ← checkStrides_eq_ok_iff hSigned]
  rcases checkStrides_eq_ok_or shape with hCheck | hCheck <;> rw [hCheck] <;> simp

section Elements

/-! Without an empty axis the strides are words if the number of elements is one. -/

variable (hSome : 0 < shape.size) (hWord : shape.size < Word.signedLimit)
include hSome hWord

theorem paddedSize_lt_of_size_lt :
    (∀ d ∈ shape, d < Word.signedLimit) ∧ shape.paddedSize < Word.signedLimit := by
  have hAxes : 0 ∉ shape := mt size_eq_zero_iff.mpr (Nat.ne_of_gt hSome)
  exact ⟨fun d hd => Nat.lt_of_le_of_lt (le_size_of_mem hd hAxes) hWord,
    (paddedSize_eq_size hAxes).symm ▸ hWord⟩

theorem checkStrides_of_size_lt : shape.checkStrides = .ok () := by
  obtain ⟨hSigned, hFits⟩ := paddedSize_lt_of_size_lt hSome hWord
  exact (checkStrides_eq_ok_iff hSigned).mpr hFits

end Elements

/-- Only a shape without elements, or with more than can be counted, has strides that are no
words. -/
theorem size_of_checkStrides (h : shape.checkStrides = .error .wordOverflow) :
    shape.size = 0 ∨ Word.signedLimit ≤ shape.size := by
  refine (Nat.eq_zero_or_pos shape.size).imp_right fun hSome => Nat.not_lt.mp fun hWord => ?_
  cases (checkStrides_of_size_lt hSome hWord).symm.trans h

/-- The strides of a shape that can be addressed are words, if those of a shape without elements
are. -/
theorem checkStrides_of_checkedSize (hAccepted : shape.checkedSize = .ok count)
    (hStrides : shape.size = 0 → shape.checkStrides = .ok ()) : shape.checkStrides = .ok () := by
  obtain ⟨rfl, hFew⟩ := size_of_checkedSize hAccepted
  have hLimits : maxElements < Word.signedLimit := by decide
  rcases Nat.eq_zero_or_pos shape.size with hNone | hSome
  · exact hStrides hNone
  · exact checkStrides_of_size_lt hSome (Nat.lt_of_le_of_lt hFew hLimits)

theorem checkStrides_nil : checkStrides [] = .ok () := rfl

/-- A single stride is one. -/
theorem checkStrides_singleton (n : Nat) : checkStrides [n] = .ok () := by
  have hLow := Int64.le_toInt (Int64.ofNat (max n 1))
  have hHigh := Int64.toInt_lt (Int64.ofNat (max n 1))
  rw [checkStrides, paddedProduct?, paddedProduct?, Option.bind_some, Int.one_mul, signedLength,
    Word.signed?_of_mem hLow hHigh]

/-- Without an empty axis the limit on the elements is one on the products of the strides. -/
theorem paddedSize_le_of_checkedSize (hAccepted : shape.checkedSize = .ok count)
    (hAxes : 0 ∉ shape) : shape.paddedSize ≤ maxElements := by
  obtain ⟨rfl, hCount⟩ := size_of_checkedSize hAccepted
  rwa [paddedSize_eq_size hAxes]

end Shape

/-- The shapes that can be asked for by a list of lengths are those of signed words that pass the
check of their size. -/
theorem Engine.exists_checkShape_eq_ok_iff {shape : Shape} :
    (∃ lengths, Engine.checkShape lengths = .ok shape) ↔
      (∃ count, shape.checkedSize = .ok count) ∧ ∀ d ∈ shape, d < Word.signedLimit := by
  constructor
  · rintro ⟨lengths, h⟩
    unfold Engine.checkShape at h
    dsimp only at h
    split at h
    · cases h
    obtain ⟨count, hCount, hShape⟩ := Outcome.bind_eq_ok_iff.mp h
    cases hShape
    refine ⟨⟨count, hCount⟩, fun d hd => ?_⟩
    obtain ⟨length, -, rfl⟩ := List.mem_map.mp hd
    have hWord := length.toInt_lt
    rw [Int64.toNatClampNeg, Word.signedLimit]
    omega
  · rintro ⟨⟨count, hCount⟩, hSigned⟩
    have hLengths : (shape.map Int64.ofNat).map Int64.toNatClampNeg = shape := by
      rw [List.map_map]
      calc shape.map (Int64.toNatClampNeg ∘ Int64.ofNat) = shape.map id :=
            List.map_congr_left fun d hd => Int64.toNatClampNeg_ofNat_of_lt (hSigned d hd)
        _ = shape := List.map_id shape
    have hNonneg : ¬ (shape.map Int64.ofNat).any (· < 0) = true := by
      rw [List.any_map, List.any_eq_true]
      rintro ⟨d, hd, hLess⟩
      have hValue : (Int64.ofNat d).toInt = d := Int64.toInt_ofNat_of_lt (hSigned d hd)
      have hNegative := Int64.lt_iff_toInt_lt.mp (of_decide_eq_true hLess)
      rw [hValue, Int64.toInt_zero] at hNegative
      omega
    refine ⟨shape.map Int64.ofNat, ?_⟩
    unfold Engine.checkShape
    dsimp only
    rw [if_neg hNonneg, hLengths, hCount]
    rfl

namespace Contents

open Outcome

variable {shape : Shape} {count : Nat} {dtype : DType} {value : Scalar}

/-- Filling a shape that passes the check of its size reserves the elements and multiplies up
the strides. -/
theorem filled_of_checkedSize (hAccepted : shape.checkedSize = .ok count) :
    filled dtype shape value = (do
      reserve count
      shape.checkStrides
      return ofValues dtype (Array.replicate count value) shape) := by
  rw [filled, hAccepted]
  rfl

/-- Contents are filled if there is room for their elements and every product of the strides
fits. -/
theorem filled_eq_ok_iff (hAccepted : shape.checkedSize = .ok count)
    (hSigned : ∀ d ∈ shape, d < Word.signedLimit) {c : Contents} :
    filled dtype shape value = .ok c ↔ count < reserveLimit ∧ shape.paddedSize < Word.signedLimit ∧
      c = ofValues dtype (Array.replicate count value) shape := by
  simp only [filled_of_checkedSize hAccepted, bind_eq_ok_iff, pure_eq_ok_iff]
  constructor
  · rintro ⟨⟨⟩, hReserve, ⟨⟩, hStrides, rfl⟩
    have hRoom : count < reserveLimit := by
      by_contra hFull
      rw [reserve, if_neg hFull] at hReserve
      cases hReserve
    exact ⟨hRoom, (Shape.checkStrides_eq_ok_iff hSigned).mp hStrides, rfl⟩
  · rintro ⟨hRoom, hFits, rfl⟩
    exact ⟨(), if_pos hRoom, (), (Shape.checkStrides_eq_ok_iff hSigned).mpr hFits, rfl⟩

/-- The products of the strides leave the words only where the shape has no elements. -/
theorem filled_eq_overflow_iff (hAccepted : shape.checkedSize = .ok count)
    (hSigned : ∀ d ∈ shape, d < Word.signedLimit) :
    filled dtype shape value = .error .wordOverflow ↔
      0 ∈ shape ∧ Word.signedLimit ≤ shape.paddedSize := by
  simp only [filled_of_checkedSize hAccepted, bind_eq_error_iff]
  constructor
  · rintro (hReserve | ⟨⟨⟩, -, hStrides | ⟨⟨⟩, -, hReturn⟩⟩)
    · unfold reserve at hReserve
      split at hReserve <;> cases hReserve
    · have hLarge := (Shape.checkStrides_eq_error_iff hSigned).mp hStrides
      have hEmpty : 0 ∈ shape := by
        by_contra hAxes
        have hSmall := Shape.paddedSize_le_of_checkedSize hAccepted hAxes
        have hLimit : maxElements < Word.signedLimit := by decide
        omega
      exact ⟨hEmpty, hLarge⟩
    · cases hReturn
  · rintro ⟨hEmpty, hLarge⟩
    have hNone : count = 0 :=
      (Shape.size_of_checkedSize hAccepted).1.trans (Shape.size_eq_zero_iff.mpr hEmpty)
    subst hNone
    exact .inr ⟨(), rfl, .inl ((Shape.checkStrides_eq_error_iff hSigned).mpr hLarge)⟩

/-- Where a shape of signed words passes the check of its size and has no empty axis, every
product on the way to its strides is a signed word, and not even near the limit. With an empty
axis the products leave the words exactly if the axes behind some place have too large a product,
and then nothing is built: whatever is built has positive strides that are signed words. -/
theorem strides_of_filled (hAccepted : shape.checkedSize = .ok count)
    (hSigned : ∀ d ∈ shape, d < Word.signedLimit) (dtype : DType) (value : Scalar) :
    (0 ∉ shape → ∀ inner : Shape, inner <:+ shape →
      inner.paddedProduct? = some (inner.paddedSize : Int) ∧ inner.paddedSize ≤ maxElements) ∧
    (∀ c, filled dtype shape value = .ok c →
      (∀ inner : Shape, inner <:+ shape →
        inner.paddedProduct? = some (inner.paddedSize : Int) ∧
          inner.paddedSize < Word.signedLimit) ∧
      ∀ store, ∀ stride ∈ (NdArray.allocate store c).1.strides,
        0 < stride ∧ stride < Word.signedLimit) ∧
    ((∃ c, filled dtype shape value = .ok c) ↔ count < reserveLimit ∧
      ∀ inner : Shape, inner <:+ shape → inner.paddedSize < Word.signedLimit) ∧
    (filled dtype shape value = .error .wordOverflow ↔ 0 ∈ shape ∧
      ∃ inner : Shape, inner <:+ shape ∧ Word.signedLimit ≤ inner.paddedSize) := by
  have hProduct (inner : Shape) (hInner : inner <:+ shape)
      (hFits : shape.paddedSize < Word.signedLimit) :
      inner.paddedProduct? = some (inner.paddedSize : Int) ∧
        inner.paddedSize < Word.signedLimit := by
    have hLess := Nat.lt_of_le_of_lt (Shape.paddedSize_le_of_suffix hInner) hFits
    rw [Shape.paddedProduct?_eq fun d hd => hSigned d (hInner.subset hd), if_pos hLess]
    exact ⟨rfl, hLess⟩
  refine ⟨?noEmptyAxis, ?built, ?succeeds, ?overflows⟩
  case noEmptyAxis =>
    intro hAxes inner hInner
    have hSmall := Shape.paddedSize_le_of_checkedSize hAccepted hAxes
    have hFits : shape.paddedSize < Word.signedLimit := Nat.lt_of_le_of_lt hSmall (by decide)
    exact ⟨(hProduct inner hInner hFits).1,
      Nat.le_trans (Shape.paddedSize_le_of_suffix hInner) hSmall⟩
  case built =>
    intro c hBuilt
    obtain ⟨-, hFits, rfl⟩ := (filled_eq_ok_iff hAccepted hSigned).mp hBuilt
    refine ⟨fun inner hInner => hProduct inner hInner hFits, fun store stride hStride => ?_⟩
    obtain ⟨product, hListed, rfl⟩ := List.mem_map.mp hStride
    obtain ⟨inner, hInner, rfl⟩ := Shape.exists_suffix_of_mem_strides hListed
    have hPositive := Shape.paddedSize_pos inner
    have hLess := (hProduct inner hInner hFits).2
    exact ⟨Int.natCast_pos.mpr hPositive, Int.ofNat_lt.mpr hLess⟩
  case succeeds =>
    simp only [filled_eq_ok_iff hAccepted hSigned]
    constructor
    · rintro ⟨-, hRoom, hFits, -⟩
      exact ⟨hRoom, fun inner hInner => (hProduct inner hInner hFits).2⟩
    · rintro ⟨hRoom, hAll⟩
      exact ⟨_, hRoom, hAll shape List.suffix_rfl, rfl⟩
  case overflows =>
    rw [filled_eq_overflow_iff hAccepted hSigned]
    refine and_congr_right fun _ => ⟨fun hLarge => ⟨shape, List.suffix_rfl, hLarge⟩, ?_⟩
    rintro ⟨inner, hInner, hLarge⟩
    exact Nat.le_trans hLarge (Shape.paddedSize_le_of_suffix hInner)

/-- An empty axis between two others. -/
theorem strides_of_filled_gap :
    Shape.checkedSize [3, 0, 5] = .ok 0 ∧ (∀ d ∈ [3, 0, 5], d < Word.signedLimit) ∧
      ∃ c, filled .int64 [3, 0, 5] (.int 7) = .ok c ∧
        ∀ store, ∀ stride ∈ (NdArray.allocate store c).1.strides,
          0 < stride ∧ stride < Word.signedLimit := by
  have hAccepted : Shape.checkedSize [3, 0, 5] = .ok 0 := by decide
  have hSigned : ∀ d ∈ [3, 0, 5], d < Word.signedLimit := by decide
  obtain ⟨-, hBuilt, hSucceeds, -⟩ := strides_of_filled hAccepted hSigned .int64 (.int 7)
  obtain ⟨c, hFilled⟩ := hSucceeds.mpr ⟨by decide, fun inner hInner =>
    Nat.lt_of_le_of_lt (Shape.paddedSize_le_of_suffix hInner) (by decide)⟩
  exact ⟨hAccepted, hSigned, c, hFilled, (hBuilt c hFilled).2⟩

/-- The check accepts a shape without elements whose first stride is no word: it is two to the
power of 80. -/
theorem not_strides_of_empty_rows :
    Shape.checkedSize [0, 0x10000000000, 0x10000000000] = .ok 0 ∧
      (∀ d ∈ [0, 0x10000000000, 0x10000000000], d < Word.signedLimit) ∧
      (∃ stride ∈ Shape.strides [0, 0x10000000000, 0x10000000000], Word.signedLimit ≤ stride) ∧
      filled .int64 [0, 0x10000000000, 0x10000000000] (.int 0) = .error .wordOverflow := by
  have hAccepted : Shape.checkedSize [0, 0x10000000000, 0x10000000000] = .ok 0 := by decide
  have hSigned : ∀ d ∈ [0, 0x10000000000, 0x10000000000], d < Word.signedLimit := by decide
  refine ⟨hAccepted, hSigned, by decide, ?_⟩
  exact (filled_eq_overflow_iff hAccepted hSigned).mpr ⟨by decide, by decide⟩

end Contents

end ArrayBridge
