import ArrayBridge.Element
import ArrayBridge.Proofs.FloatOperations

/-! Floats as numbers.

Integers of the machine, and all that is computed from a few of them, are far from the largest and the
smallest floats. So each operation gives the float nearest to the result of the operation on the
numbers that the floats denote. Comparisons are those of the numbers, and a conversion to an integer
drops the fraction. -/

namespace ArrayBridge.Rounding

open Float.Model Float.Model.UnpackedFloat

section Moderate

variable {d s n : ℤ}

/-- The quotient of two integers that are not too large is of moderate size. -/
theorem moderate_div (hd : |d| ≤ 2 ^ 200) (hs : |s| ≤ 2 ^ 200) : Moderate (d / s) := by
  intro hNonzero
  obtain ⟨hdNonzero, hsNonzero⟩ := div_ne_zero_iff.mp hNonzero
  have hdOne : (1 : ℚ) ≤ |(d : ℚ)| := by
    rw [← Int.cast_abs]
    exact_mod_cast Int.one_le_abs (Int.cast_ne_zero.mp hdNonzero)
  have hsOne : (1 : ℚ) ≤ |(s : ℚ)| := by
    rw [← Int.cast_abs]
    exact_mod_cast Int.one_le_abs (Int.cast_ne_zero.mp hsNonzero)
  have hdLimit : |(d : ℚ)| ≤ 2 ^ 200 := by
    rw [← Int.cast_abs]
    exact_mod_cast hd
  have hsLimit : |(s : ℚ)| ≤ 2 ^ 200 := by
    rw [← Int.cast_abs]
    exact_mod_cast hs
  have hPositive : (0 : ℚ) < |(d : ℚ) / s| := abs_pos.mpr hNonzero
  have hLow : ((2 : ℕ) : ℚ) ^ (-200 : ℤ) ≤ |(d : ℚ) / s| := by
    have hProduct : |(s : ℚ)| ≤ 2 ^ 200 * |(d : ℚ)| := by linarith
    rw [abs_div, le_div_iff₀ (by linarith), zpow_neg, Nat.cast_ofNat, inv_mul_le_iff₀ (by positivity)]
    exact_mod_cast hProduct
  have hHigh : |(d : ℚ) / s| < ((2 : ℕ) : ℚ) ^ (201 : ℤ) := by
    rw [abs_div, div_lt_iff₀ (by linarith)]
    norm_num at hdLimit ⊢
    linarith
  have hMin := (Int.zpow_le_iff_le_log (by decide) hPositive).mp hLow
  have hMax := (Int.lt_zpow_iff_log_lt (by decide) hPositive).mp hHigh
  rw [scale]
  omega

theorem moderate_int (h : |n| ≤ 2 ^ 200) : Moderate n := by
  have hQuotient := moderate_div (s := 1) h (by decide)
  rwa [Int.cast_one, div_one] at hQuotient

end Moderate

section Order

variable {a b : UnpackedFloat} {v w : ℚ}

theorem lt_of_scale_lt (hw : 0 < w) (h : scale v < scale w) : v < w :=
  calc v < 2 ^ (scale v + 1) := lt_scale_succ v
    _ ≤ 2 ^ scale w := zpow_le_zpow_right₀ (by decide) h
    _ ≤ w := scale_le hw

/-- Where the mantissas have all bits, the exponents are compared first. -/
theorem compare_finite {m₁ m₂ : ℕ} (e₁ e₂ : ℤ) (hLow₁ : 2 ^ 52 ≤ m₁) (hHigh₁ : m₁ < 2 ^ 53)
    (hLow₂ : 2 ^ 52 ≤ m₂) (hHigh₂ : m₂ < 2 ^ 53) :
    (compare e₁ e₂).then (compare m₁ m₂) = compare (m₁ * 2 ^ e₁ : ℚ) (m₂ * 2 ^ e₂) := by
  have hm₁ : (0 : ℚ) < m₁ := by exact_mod_cast (by omega : 0 < m₁)
  have hm₂ : (0 : ℚ) < m₂ := by exact_mod_cast (by omega : 0 < m₂)
  have hScale₁ : scale (m₁ * 2 ^ e₁) = 52 + e₁ := scale_of_bits hLow₁ hHigh₁
  have hScale₂ : scale (m₂ * 2 ^ e₂) = 52 + e₂ := scale_of_bits hLow₂ hHigh₂
  rcases lt_trichotomy e₁ e₂ with hLt | rfl | hGt
  · have hValues : (m₁ * 2 ^ e₁ : ℚ) < m₂ * 2 ^ e₂ := lt_of_scale_lt (by positivity) (by omega)
    rw [compare_lt_iff_lt.mpr hLt, compare_lt_iff_lt.mpr hValues]
    rfl
  · have hPower : (0 : ℚ) < 2 ^ e₁ := by positivity
    rw [compare_eq_iff_eq.mpr rfl]
    rcases lt_trichotomy m₁ m₂ with hLt | rfl | hGt
    · have hValues : (m₁ * 2 ^ e₁ : ℚ) < m₂ * 2 ^ e₁ :=
        mul_lt_mul_of_pos_right (by exact_mod_cast hLt) hPower
      rw [compare_lt_iff_lt.mpr hLt, compare_lt_iff_lt.mpr hValues]
      rfl
    · rw [compare_eq_iff_eq.mpr rfl, compare_eq_iff_eq.mpr rfl]
      rfl
    · have hValues : (m₂ * 2 ^ e₁ : ℚ) < m₁ * 2 ^ e₁ :=
        mul_lt_mul_of_pos_right (by exact_mod_cast hGt) hPower
      rw [compare_gt_iff_gt.mpr hGt, compare_gt_iff_gt.mpr hValues]
      rfl
  · have hValues : (m₂ * 2 ^ e₂ : ℚ) < m₁ * 2 ^ e₁ := lt_of_scale_lt (by positivity) (by omega)
    rw [compare_gt_iff_gt.mpr hGt, compare_gt_iff_gt.mpr hValues]
    rfl

theorem compare_neg (v w : ℚ) : compare (-v) (-w) = (compare v w).swap := by
  rcases lt_trichotomy v w with hLt | rfl | hGt
  · rw [compare_lt_iff_lt.mpr hLt, compare_gt_iff_gt.mpr (neg_lt_neg hLt)]
    rfl
  · rw [compare_eq_iff_eq.mpr rfl, compare_eq_iff_eq.mpr rfl]
    rfl
  · rw [compare_gt_iff_gt.mpr hGt, compare_lt_iff_lt.mpr (neg_lt_neg hGt)]
    rfl

/-- Floats are compared as the numbers that they stand for. -/
theorem compare_spec (ha : Normal a) (hb : Normal b) :
    UnpackedFloat.compare a b = some (compare (value a) (value b)) := by
  cases ha with
  | zero s =>
      cases hb with
      | zero t => exact congrArg some (compare_eq_iff_eq.mpr rfl).symm
      | @finite t m e hm =>
          have hPositive : (0 : ℚ) < m * 2 ^ e := by positivity
          cases t with
          | negative => exact congrArg some (compare_gt_iff_gt.mpr (neg_neg_of_pos hPositive)).symm
          | positive => exact congrArg some (compare_lt_iff_lt.mpr hPositive).symm
  | @finite s m₁ e₁ hm₁ hLow₁ hHigh₁ =>
      have hPositive₁ : (0 : ℚ) < m₁ * 2 ^ e₁ := by positivity
      cases hb with
      | zero t =>
          cases s with
          | negative => exact congrArg some (compare_lt_iff_lt.mpr (neg_neg_of_pos hPositive₁)).symm
          | positive => exact congrArg some (compare_gt_iff_gt.mpr hPositive₁).symm
      | @finite t m₂ e₂ hm₂ hLow₂ hHigh₂ =>
          have hPositive₂ : (0 : ℚ) < m₂ * 2 ^ e₂ := by positivity
          have hFinite := compare_finite e₁ e₂ hLow₁ hHigh₁ hLow₂ hHigh₂
          have hOpposite₁ := (neg_neg_of_pos hPositive₁).trans hPositive₂
          have hOpposite₂ := (neg_neg_of_pos hPositive₂).trans hPositive₁
          cases s with
          | negative =>
              cases t with
              | negative =>
                  have hSwapped := compare_neg (m₁ * 2 ^ e₁) (m₂ * 2 ^ e₂)
                  rw [← hFinite] at hSwapped
                  exact congrArg some hSwapped.symm
              | positive => exact congrArg some (compare_lt_iff_lt.mpr hOpposite₁).symm
          | positive =>
              cases t with
              | negative => exact congrArg some (compare_gt_iff_gt.mpr hOpposite₂).symm
              | positive => exact congrArg some hFinite

end Order

section Truncation

/-- The integer that a number is rounded to, toward zero. -/
def towardZero (q : ℚ) : ℤ := if q < 0 then ⌈q⌉ else ⌊q⌋

theorem towardZero_intCast (n : ℤ) : towardZero n = n := by
  rw [towardZero, Int.ceil_intCast, Int.floor_intCast, ite_self]

theorem towardZero_signed {v : ℚ} (s : Sign) (h : 0 < v) : towardZero (signed s v) = s.apply ⌊v⌋ := by
  cases s with
  | negative => rw [signed, towardZero, if_pos (neg_neg_of_pos h), Int.ceil_neg, Sign.apply]
  | positive => rw [signed, towardZero, if_neg h.not_gt, Sign.apply]

/-- Of the mantissa the part below the point is dropped. -/
theorem roundToInt_eq (s : Sign) (m : ℕ) (e : ℤ) : roundToInt s m e = s.apply ⌊(m * 2 ^ e : ℚ)⌋ := by
  obtain ⟨k, hk⟩ : ∃ k : ℕ, min e 0 = -k := ⟨(-(min e 0)).toNat, by omega⟩
  have hShift : (e - 0).toNat = (e - min e 0).toNat := by omega
  have hRest : e - (e - min e 0).toNat = -k := by omega
  have hAmount : (0 - -(k : ℤ)).toNat = k := by omega
  have hFloor := ((represents_exact (m <<< (e - min e 0).toNat)).shiftRight k).floor
  have hValue : (m * 2 ^ e : ℚ) = (m <<< (e - min e 0).toNat : ℕ) / 2 ^ k := by
    rw [← shiftLeft_mul_zpow (min_le_left e 0), hk, zpow_neg, zpow_natCast, div_eq_mul_inv]
  simp only [roundToInt, decreaseExponent, hShift, hRest, shiftToExponent, hAmount]
  rw [hValue, hFloor]

theorem toInt_spec {u : UnpackedFloat} (h : Normal u) (low high : ℤ) :
    u.toInt low high = towardZero (value u) := by
  cases h with
  | zero s => exact (towardZero_intCast 0).symm
  | @finite s m e hm =>
      rw [UnpackedFloat.toInt, value, roundToInt_eq, towardZero_signed s (by positivity)]

end Truncation

/-- A float denotes a number if it is zero or its mantissa has all bits, and the number is the one that
it stands for. -/
structure Denotes (x : Float) (q : ℚ) : Prop where
  normal : Normal x.toModel.unpack
  value_eq : value x.toModel.unpack = q

namespace Denotes

variable {x y : Float} {p q : ℚ}

theorem of_roundsTo {u : UnpackedFloat} (h : RoundsTo u q) :
    Denotes (.ofModel (.pack u)) (nearest q) := by
  have hUnpack : (Float.Model.pack u).unpack = u := unpack_pack h.normal
  exact ⟨hUnpack.symm ▸ h.normal, hUnpack.symm ▸ h.value_eq⟩

theorem nearest_eq (h : Denotes x q) : nearest q = q := h.value_eq ▸ h.normal.nearest_value

section Arithmetic

theorem add (hx : Denotes x p) (hy : Denotes y q) (hModerate : Moderate (p + q)) :
    Denotes (x + y) (nearest (p + q)) := by
  obtain ⟨hx, rfl⟩ := hx
  obtain ⟨hy, rfl⟩ := hy
  exact of_roundsTo (add_spec hx hy hModerate)

theorem sub (hx : Denotes x p) (hy : Denotes y q) (hModerate : Moderate (p - q)) :
    Denotes (x - y) (nearest (p - q)) := by
  obtain ⟨hx, rfl⟩ := hx
  obtain ⟨hy, rfl⟩ := hy
  exact of_roundsTo (sub_spec hx hy hModerate)

theorem mul (hx : Denotes x p) (hy : Denotes y q) (hModerate : Moderate (p * q)) :
    Denotes (x * y) (nearest (p * q)) := by
  obtain ⟨hx, rfl⟩ := hx
  obtain ⟨hy, rfl⟩ := hy
  exact of_roundsTo (mul_spec hx hy hModerate)

theorem div (hx : Denotes x p) (hy : Denotes y q) (hNonzero : q ≠ 0) (hModerate : Moderate (p / q)) :
    Denotes (x / y) (nearest (p / q)) := by
  obtain ⟨hx, rfl⟩ := hx
  obtain ⟨hy, rfl⟩ := hy
  exact of_roundsTo (div_spec hx hy hNonzero hModerate)

end Arithmetic

section Conversions

theorem roundsTo_ofInt {n : ℤ} (h : |n| ≤ 2 ^ 200) : RoundsTo (ofInt Format.binary64 n) n := by
  have hExponent : (n : ℚ) = n * 2 ^ (0 : ℤ) := by rw [zpow_zero, mul_one]
  have hModerate := moderate_int h
  rw [hExponent] at hModerate ⊢
  exact normalize_spec hModerate

theorem nearestFloat (i : Int64) : Denotes (nearestFloat i) (nearest i.toInt) := by
  have hLow := i.le_toInt
  have hHigh := i.toInt_lt
  have hRounds := roundsTo_ofInt (n := i.toInt) (abs_le.mpr ⟨by omega, by omega⟩)
  exact of_roundsTo hRounds

theorem toFloat (n : UInt64) : Denotes n.toFloat (nearest n.toNat) := by
  have hHigh := n.toNat_lt
  have hRounds := roundsTo_ofInt (n := n.toNat) (abs_le.mpr ⟨by omega, by omega⟩)
  exact of_roundsTo hRounds

theorem truncated_eq (h : Denotes x q) : truncated x = Int64.ofIntClamp (towardZero q) := by
  obtain ⟨hNormal, rfl⟩ := h
  exact congrArg Int64.ofIntClamp (toInt_spec hNormal _ _)

theorem toUInt64_eq (h : Denotes x q) : x.toUInt64 = UInt64.ofNatClamp (towardZero q).toNat := by
  obtain ⟨hNormal, rfl⟩ := h
  exact congrArg (fun n : ℤ => UInt64.ofNatClamp n.toNat) (toInt_spec hNormal _ _)

end Conversions

section Comparisons

theorem lt_iff (hx : Denotes x p) (hy : Denotes y q) : x < y ↔ p < q := by
  obtain ⟨hx, rfl⟩ := hx
  obtain ⟨hy, rfl⟩ := hy
  have hUnfold : x < y ↔ (x.toModel.unpack.compare y.toModel.unpack == some .lt) = true := by
    exact decide_eq_true_iff
  rw [hUnfold, compare_spec hx hy, beq_iff_eq, Option.some_inj, compare_lt_iff_lt]

theorem le_iff (hx : Denotes x p) (hy : Denotes y q) : x ≤ y ↔ p ≤ q := by
  obtain ⟨hx, rfl⟩ := hx
  obtain ⟨hy, rfl⟩ := hy
  have hUnfold : x ≤ y ↔ (x.toModel.unpack.compare y.toModel.unpack).any (·.isLE) = true := by
    exact decide_eq_true_iff
  rw [hUnfold, compare_spec hx hy, Option.any_some, Ordering.isLE_iff_ne_gt, compare_gt_iff_gt,
    not_lt]

theorem beq_iff (hx : Denotes x p) (hy : Denotes y q) : (x == y) = true ↔ p = q := by
  obtain ⟨hx, rfl⟩ := hx
  obtain ⟨hy, rfl⟩ := hy
  have hUnfold : (x == y) = (x.toModel.unpack.compare y.toModel.unpack == some .eq) := rfl
  rw [hUnfold, compare_spec hx hy, beq_iff_eq, Option.some_inj, compare_eq_iff_eq]

theorem isNaN_eq_false (h : Denotes x q) : x.isNaN = false := by
  have hNumber {u : UnpackedFloat} (h : Normal u) : u.isNaN = false := by cases h <;> rfl
  exact hNumber h.normal

end Comparisons

end Denotes

end ArrayBridge.Rounding
