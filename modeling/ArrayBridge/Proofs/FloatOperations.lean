import ArrayBridge.Proofs.NearestFloats
import Mathlib

/-! The numbers that floats stand for.

The operations on floats are given on bits. Each of them finds its exact result as a mantissa with an
exponent, shifts it to 53 bits while two more bits record what was lost, and rounds by these bits. So
the number of the result is the float nearest to the exact result, for all sizes that are far from the
largest and the smallest floats. -/

namespace ArrayBridge.Rounding

open Float.Model Float.Model.UnpackedFloat

section Shifting

variable {em : ExtendedMantissa} {x : ℚ}

/-- A number that a mantissa was cut off from. The first bit that was lost and whether any other was
lost tell where the number lies between the mantissa and the next. -/
def Represents (em : ExtendedMantissa) (x : ℚ) : Prop :=
  let known : ℚ := em.mantissa + if em.roundBit then 1 / 2 else 0
  if em.stickyBit then known < x ∧ x < known + 1 / 2 else x = known

theorem Represents.floor (h : Represents em x) : ⌊x⌋ = em.mantissa := by
  obtain ⟨m, roundBit, stickyBit⟩ := em
  rw [Int.floor_eq_iff, Int.cast_natCast]
  cases roundBit <;> cases stickyBit <;> simp only [Represents, if_true] at h <;> norm_num at h ⊢ <;>
    constructor <;> linarith

/-- The bits suffice to round the number. -/
theorem Represents.roundedMantissa_eq (h : Represents em x) : em.roundedMantissa = roundEven x := by
  have hFloor := h.floor
  obtain ⟨m, roundBit, stickyBit⟩ := em
  rw [roundEven, hFloor]
  cases roundBit with
  | false =>
      have hBelow : x - m < 1 / 2 := by
        cases stickyBit <;> simp only [Represents, if_true] at h <;> norm_num at h <;> linarith
      rw [Int.cast_natCast, if_pos hBelow]
      cases stickyBit <;> rfl
  | true =>
      cases stickyBit with
      | false =>
          have hTie : x - m = 1 / 2 := by
            simp only [Represents, if_true] at h
            norm_num at h
            linarith
          rw [Int.cast_natCast, hTie, if_neg (lt_irrefl _), if_neg (lt_irrefl _)]
          rfl
      | true =>
          have hAbove : 1 / 2 < x - m := by
            simp only [Represents, if_true] at h
            linarith
          rw [Int.cast_natCast, if_neg (by linarith), if_pos hAbove]
          rfl

/-- A shift by one bit halves the number. -/
theorem Represents.shiftRightOne (h : Represents em x) : Represents em.shiftRightOne (x / 2) := by
  obtain ⟨m, roundBit, stickyBit⟩ := em
  have hHalves : (m : ℚ) = 2 * ((m / 2 : ℕ) : ℚ) + ((m % 2 : ℕ) : ℚ) := by
    exact_mod_cast (Nat.div_add_mod m 2).symm
  rcases Nat.mod_two_eq_zero_or_one m with hEven | hOdd
  · rw [hEven] at hHalves
    cases roundBit <;> cases stickyBit <;>
      simp [Represents, ExtendedMantissa.shiftRightOne, hEven] at h ⊢ <;>
      first | (constructor <;> linarith) | linarith
  · rw [hOdd] at hHalves
    cases roundBit <;> cases stickyBit <;>
      simp [Represents, ExtendedMantissa.shiftRightOne, hOdd] at h ⊢ <;>
      first | (constructor <;> linarith) | linarith

theorem Represents.shiftRight (h : Represents em x) (n : ℕ) : Represents (em >>> n) (x / 2 ^ n) := by
  change Represents (n.repeat ExtendedMantissa.shiftRightOne em) _
  induction n with
  | zero => simpa [Nat.repeat] using h
  | succ n ih =>
      rw [pow_succ, ← div_div]
      exact ih.shiftRightOne

end Shifting

section Values

theorem represents_exact (m : ℕ) : Represents (.ofMantissaAndAccuracy m .exact) m := by
  simp [Represents, ExtendedMantissa.ofMantissaAndAccuracy]

/-- The remainder of a division tells where the quotient lies. -/
theorem represents_fraction (n : ℕ) {d : ℕ} (hd : 0 < d) :
    Represents (.ofMantissaAndAccuracy (n / d) (accuracyOfFraction (n % d) d)) (n / d) := by
  have hd' : (0 : ℚ) < d := by exact_mod_cast hd
  have hBelow : ((n % d : ℕ) : ℚ) < d := by exact_mod_cast Nat.mod_lt n hd
  have hQuotient : (n : ℚ) / d = (n / d : ℕ) + ((n % d : ℕ) : ℚ) / d := by
    rw [eq_comm, ← eq_sub_iff_add_eq', div_eq_iff hd'.ne', sub_mul, div_mul_cancel₀ _ hd'.ne',
      eq_sub_iff_add_eq]
    exact_mod_cast Nat.mod_add_div' n d
  rw [hQuotient, accuracyOfFraction]
  by_cases hExact : n % d = 0
  · simpa [hExact] using represents_exact (n / d)
  · have hPositive : (0 : ℚ) < (n % d : ℕ) := by exact_mod_cast Nat.pos_of_ne_zero hExact
    rw [if_neg hExact]
    rcases lt_trichotomy (2 * (n % d)) d with hLow | hTie | hHigh
    · have hHalf : ((n % d : ℕ) : ℚ) / d < 1 / 2 := by
        rw [div_lt_div_iff₀ hd' (by norm_num)]
        exact_mod_cast (by omega : n % d * 2 < 1 * d)
      rw [Nat.compare_eq_lt.mpr hLow]
      simp only [Represents, ExtendedMantissa.ofMantissaAndAccuracy, if_true, Bool.false_eq_true, if_false]
      constructor <;> linarith [div_pos hPositive hd']
    · have hHalf : ((n % d : ℕ) : ℚ) / d = 1 / 2 := by
        rw [div_eq_div_iff hd'.ne' (by norm_num)]
        exact_mod_cast (by omega : n % d * 2 = 1 * d)
      rw [Nat.compare_eq_eq.mpr hTie, hHalf]
      simp [Represents, ExtendedMantissa.ofMantissaAndAccuracy]
    · have hHalf : 1 / 2 < ((n % d : ℕ) : ℚ) / d := by
        rw [div_lt_div_iff₀ (by norm_num) hd']
        exact_mod_cast (by omega : 1 * d < n % d * 2)
      rw [Nat.compare_eq_gt.mpr hHigh]
      simp only [Represents, ExtendedMantissa.ofMantissaAndAccuracy, if_true]
      constructor <;> linarith [(div_lt_one hd').mpr hBelow]

/-- A number with a sign. -/
def signed (s : Sign) (v : ℚ) : ℚ :=
  match s with
  | .negative => -v
  | .positive => v

theorem abs_signed {v : ℚ} (s : Sign) (h : 0 ≤ v) : |signed s v| = v := by
  cases s with
  | negative => rw [signed, abs_neg, abs_of_nonneg h]
  | positive => exact abs_of_nonneg h

theorem apply_eq (s : Sign) (n : ℤ) : ((s.apply n : ℤ) : ℚ) = signed s n := by
  cases s with
  | negative => exact Int.cast_neg n
  | positive => rfl

theorem signed_mul (s : Sign) (v w : ℚ) : signed s v * w = signed s (v * w) := by
  cases s with
  | negative => exact neg_mul v w
  | positive => rfl

theorem signed_mul_signed (s t : Sign) (v w : ℚ) :
    signed (s * t) (v * w) = signed s v * signed t w := by
  cases s <;> cases t <;> simp [signed]

theorem signed_div_signed (s t : Sign) (v w : ℚ) :
    signed (s / t) (v / w) = signed s v / signed t w := by
  cases s <;> cases t <;> simp only [signed, neg_div, div_neg, neg_neg] <;> rfl

theorem nearest_signed {v : ℚ} (s : Sign) (h : 0 ≤ v) : nearest (signed s v) = signed s (magnitude v) := by
  cases s with
  | negative => rw [signed, nearest_neg, nearest_of_nonneg h, signed]
  | positive => exact nearest_of_nonneg h

/-- The number that a float stands for; zero if it is not finite. -/
def value : UnpackedFloat → ℚ
  | .finite s m e _ => signed s (m * 2 ^ e)
  | _ => 0

@[simp] theorem value_zero (s : Sign) : value (.zero s) = 0 := rfl

/-- A float is normal if it is zero, or its mantissa has all bits and its exponent fits. -/
inductive Normal : UnpackedFloat → Prop
  | zero (s : Sign) : Normal (.zero s)
  | finite (s : Sign) {m : ℕ} {e : ℤ} (hPositive : 0 < m) (hLow : 2 ^ 52 ≤ m) (hHigh : m < 2 ^ 53)
      (hMin : -1074 ≤ e) (hMax : e ≤ 971) : Normal (.finite s m e hPositive)

/-- What is packed as bits is found again. -/
theorem unpack_pack {u : UnpackedFloat} (h : Normal u) :
    UnpackedFloat.unpack Format.binary64 (UnpackedFloat.pack Format.binary64 u) = u := by
  cases h with
  | zero s => cases s <;> rfl
  | @finite s m e hPositive hLow hHigh hMin hMax =>
      obtain ⟨b, hb⟩ : ∃ b : ℕ, e + 1023 + 52 = b := Int.eq_ofNat_of_zero_le (by omega)
      have hLog : m.log2 + 1 = Format.binary64.mantissaBits :=
        congrArg (· + 1) ((Nat.log2_eq_iff hPositive.ne').mpr ⟨hLow, hHigh⟩)
      have hBiased : (e + (Format.binary64.exponentBias : ℤ) + (52 : ℕ)).toNat = b := by
        rw [show ((Format.binary64.exponentBias : ℕ) : ℤ) = 1023 from rfl]
        omega
      have hPacked : UnpackedFloat.pack Format.binary64 (.finite s m e hPositive)
          = packComponents Format.binary64 s (BitVec.ofNat 11 b) (BitVec.ofNat 52 m) := by
        rw [UnpackedFloat.pack]
        simp only [hBiased]
        rw [if_neg (by omega), if_pos hLog]
      have hExponent : (BitVec.ofNat 11 b).toNat = b := by
        rw [BitVec.toNat_ofNat, Nat.mod_eq_of_lt (by omega)]
      have hInfinite : BitVec.ofNat 11 b ≠ -1#11 := fun hEq => by
        have hMost : b = 2047 := hExponent.symm.trans (congrArg BitVec.toNat hEq)
        omega
      have hSubnormal : BitVec.ofNat 11 b ≠ 0#11 := fun hEq => by
        have hLeast : b = 0 := hExponent.symm.trans (congrArg BitVec.toNat hEq)
        omega
      have hMantissa : (1#1 ++ BitVec.ofNat 52 m).toNat = m := by
        rw [BitVec.toNat_append, ← Nat.shiftLeft_add_eq_or_of_lt (BitVec.isLt _), BitVec.toNat_ofNat,
          BitVec.toNat_ofNat, Nat.shiftLeft_eq]
        omega
      rw [hPacked, UnpackedFloat.unpack]
      simp only [unpackMantissa_packComponents, unpackExponent_packComponents,
        unpackSign_packComponents, Sign.ofBitVec_toBitVec, if_neg hInfinite, if_neg hSubnormal, hMantissa, hExponent]
      congr 1
      rw [show ((Format.binary64.exponentBias : ℕ) : ℤ) = 1023 from rfl]
      omega

end Values

section Rounding

theorem targetExponent_binary64 {k : ℤ} (h : -1021 ≤ k) :
    Format.binary64.targetExponent k = k - 53 := by
  have hLeast : Format.binary64.minExponent = -1074 := rfl
  have hBits : ((Format.binary64.mantissaBits : ℕ) : ℤ) = 53 := rfl
  rw [Format.targetExponent, hLeast, hBits]
  omega

/-- A mantissa with too many bits is shifted until all 53 are used. -/
theorem shiftToTargetExponent_eq {m k : ℕ} {e : ℤ} (accuracy : Accuracy) (hLog : m.log2 = 52 + k)
    (hMin : -1074 ≤ e + k) : shiftToTargetExponent Format.binary64 m e accuracy
      = (ExtendedMantissa.ofMantissaAndAccuracy m accuracy >>> k, e + k) := by
  have hTotal : totalExponent m e = e + k + 53 := by
    rw [totalExponent, hLog]
    push_cast
    ring
  have hAmount : (e + (k : ℤ) - e).toNat = k := by omega
  rw [shiftToTargetExponent]
  simp only [hTotal, targetExponent_binary64 (by omega : -1021 ≤ e + k + 53), add_sub_cancel_right,
    shiftToExponent, hAmount]

theorem scale_mul_zpow {m : ℕ} {x : ℚ} (e : ℤ) (hPositive : 0 < m) (hLow : m ≤ x) (hHigh : x < m + 1) :
    scale (x * 2 ^ e) = m.log2 + e := by
  have hBelow : ((2 ^ m.log2 : ℕ) : ℚ) ≤ m := by exact_mod_cast Nat.log2_self_le hPositive.ne'
  have hAbove : ((m + 1 : ℕ) : ℚ) ≤ (2 ^ (m.log2 + 1) : ℕ) := by exact_mod_cast Nat.lt_log2_self
  push_cast at hBelow hAbove
  have hPower : (0 : ℚ) < 2 ^ e := by positivity
  refine scale_eq ?_ ?_
  · rw [zpow_add₀ (by decide), zpow_natCast]
    exact mul_le_mul_of_nonneg_right (hBelow.trans hLow) hPower.le
  · rw [show (m.log2 : ℤ) + e + 1 = (m.log2 + 1 : ℕ) + e by push_cast; ring, zpow_add₀ (by decide),
      zpow_natCast]
    exact mul_lt_mul_of_pos_right (hHigh.trans_le hAbove) hPower

theorem mantissa_ofMantissaAndAccuracy (m : ℕ) (accuracy : Accuracy) :
    (ExtendedMantissa.ofMantissaAndAccuracy m accuracy).mantissa = m := by
  cases accuracy with
  | exact => rfl
  | inexact order => cases order <;> rfl

/-- A mantissa is shifted and rounded, and shifted once more where the rounding carried. -/
theorem roundWithAccuracy_eq {s : Sign} {m n : ℕ} {e first last : ℤ} {accuracy : Accuracy}
    {em carried : ExtendedMantissa}
    (hFirst : shiftToTargetExponent Format.binary64 m e accuracy = (em, first))
    (hLast : shiftToTargetExponent Format.binary64 em.roundedMantissa first .exact = (carried, last))
    (hMantissa : carried.mantissa = n) (hPositive : 0 < n) :
    roundWithAccuracy Format.binary64 s m e accuracy = .finite s n last hPositive := by
  subst hMantissa
  simp only [roundWithAccuracy, hFirst, hLast, dif_neg hPositive.ne']

theorem roundWithAccuracy_of_rounded {s : Sign} {m k n : ℕ} {e : ℤ} {accuracy : Accuracy}
    (hLog : m.log2 = 52 + k) (hMin : -1074 ≤ e + k) (hMax : e + k < 971)
    (hRounded : (ExtendedMantissa.ofMantissaAndAccuracy m accuracy >>> k).roundedMantissa = n)
    (hLow : 2 ^ 52 ≤ n) (hHigh : n ≤ 2 ^ 53) :
    Normal (roundWithAccuracy Format.binary64 s m e accuracy) ∧
      value (roundWithAccuracy Format.binary64 s m e accuracy) = signed s (n * 2 ^ (e + k)) := by
  have hPositive : 0 < n := by omega
  have hFirst := shiftToTargetExponent_eq accuracy hLog hMin
  rcases hHigh.lt_or_eq with hFits | hCarry
  · have hBits : n.log2 = 52 + 0 := (Nat.log2_eq_iff hPositive.ne').mpr ⟨hLow, hFits⟩
    have hLast := shiftToTargetExponent_eq (e := e + k) .exact hBits (by simpa using hMin)
    rw [← hRounded, Nat.cast_zero, add_zero] at hLast
    have hResult : roundWithAccuracy Format.binary64 s m e accuracy = .finite s n (e + k) hPositive :=
      roundWithAccuracy_eq hFirst hLast hRounded hPositive
    rw [hResult]
    exact ⟨.finite s hPositive hLow hFits hMin hMax.le, rfl⟩
  · -- The mantissa is a power of two with one bit too many, and loses a zero by the second shift.
    have hBits : n.log2 = 52 + 1 := by rw [hCarry]; decide
    have hLast := shiftToTargetExponent_eq (e := e + k) .exact hBits (by push_cast; omega)
    rw [← hRounded] at hLast
    have hResult : roundWithAccuracy Format.binary64 s m e accuracy
        = .finite s (2 ^ 52) (e + k + 1) (by decide) := by
      refine roundWithAccuracy_eq hFirst hLast ?_ (by decide)
      rw [hRounded, hCarry]
      decide
    rw [hResult]
    refine ⟨.finite s (by decide) le_rfl (by decide) (by omega) (by omega), ?_⟩
    rw [value, hCarry, zpow_add_one₀ (by decide)]
    push_cast
    ring_nf

/-- A number is of moderate size if it is far from the largest and the smallest floats. -/
def Moderate (r : ℚ) : Prop := r ≠ 0 → -1000 ≤ scale |r| ∧ scale |r| ≤ 1000

/-- A float is the one nearest to a number. -/
structure RoundsTo (u : UnpackedFloat) (r : ℚ) : Prop where
  normal : Normal u
  value_eq : value u = nearest r

theorem Moderate.of_signed {s : Sign} {v : ℚ} (h : Moderate (signed s v)) (hv : 0 < v) :
    -1000 ≤ scale v ∧ scale v ≤ 1000 := by
  have hAbs := abs_signed s hv.le
  have hNonzero : signed s v ≠ 0 := abs_pos.mp (hAbs.symm ▸ hv)
  rw [← hAbs]
  exact h hNonzero

/-- Rounding gives the nearest float of the exact number, if the mantissa has bits enough. -/
theorem roundWithAccuracy_spec {s : Sign} {m : ℕ} {e : ℤ} {accuracy : Accuracy} {x : ℚ}
    (h : Represents (.ofMantissaAndAccuracy m accuracy) x) (hBits : 2 ^ 52 ≤ m)
    (hModerate : Moderate (signed s (x * 2 ^ e))) :
    RoundsTo (roundWithAccuracy Format.binary64 s m e accuracy) (signed s (x * 2 ^ e)) := by
  have hm : 0 < m := by omega
  have hFloor := h.floor
  rw [mantissa_ofMantissaAndAccuracy, Int.floor_eq_iff, Int.cast_natCast] at hFloor
  have hx : 0 < x := lt_of_lt_of_le (by exact_mod_cast hm) hFloor.1
  have hv : 0 < x * 2 ^ e := by positivity
  obtain ⟨hMin, hMax⟩ := hModerate.of_signed hv
  obtain ⟨k, hLog⟩ : ∃ k, m.log2 = 52 + k := Nat.exists_eq_add_of_le ((Nat.le_log2 hm.ne').mpr hBits)
  have hScale := scale_mul_zpow e hm hFloor.1 hFloor.2
  have hUnit : unit (x * 2 ^ e) = 2 ^ (e + k) := by
    rw [unit, hScale, hLog]
    congr 1
    push_cast
    ring
  have hShifted : x * 2 ^ e / unit (x * 2 ^ e) = x / 2 ^ k := by
    rw [hUnit, zpow_add₀ (by decide), zpow_natCast, mul_comm ((2 : ℚ) ^ e), mul_div_mul_right]
    positivity
  have hRounded := (h.shiftRight k).roundedMantissa_eq
  rw [← hShifted] at hRounded
  have hBounds := mantissa_bounds hv
  have hLow := le_roundEven hBounds.1
  have hHigh := roundEven_le hBounds.2
  rw [← hRounded] at hLow hHigh
  rw [hScale, hLog] at hMin hMax
  obtain ⟨hNormal, hValue⟩ := roundWithAccuracy_of_rounded (s := s) (e := e) hLog
    (by push_cast at hMin; omega) (by push_cast at hMax; omega) rfl (by exact_mod_cast hLow)
    (by exact_mod_cast hHigh)
  refine ⟨hNormal, hValue.trans ?_⟩
  rw [nearest_signed s hv.le, magnitude, ← hRounded, hUnit, Int.cast_natCast]

/-- A mantissa with too few bits is first extended. -/
theorem round_spec {s : Sign} {m : ℕ} {e : ℤ} (hm : 0 < m) (hModerate : Moderate (signed s (m * 2 ^ e))) :
    RoundsTo (UnpackedFloat.round Format.binary64 s m e) (signed s (m * 2 ^ e)) := by
  have hv : (0 : ℚ) < m * 2 ^ e := mul_pos (by exact_mod_cast hm) (by positivity)
  have hScale : scale (m * 2 ^ e) = m.log2 + e := scale_mul_zpow e hm le_rfl (lt_add_one _)
  obtain ⟨hMin, -⟩ := hModerate.of_signed hv
  rw [hScale] at hMin
  have hAmount : (e - Format.binary64.targetExponent (totalExponent m e)).toNat = 52 - m.log2 := by
    rw [totalExponent, targetExponent_binary64 (by omega)]
    omega
  have hValue : ((m <<< (52 - m.log2) : ℕ) : ℚ) * 2 ^ (e - (52 - m.log2 : ℕ)) = m * 2 ^ e := by
    rw [Nat.shiftLeft_eq, zpow_sub₀ (by decide), zpow_natCast]
    push_cast
    field_simp
  have hBits : 2 ^ 52 ≤ m <<< (52 - m.log2) := by
    rw [Nat.shiftLeft_eq]
    calc 2 ^ 52 ≤ 2 ^ (m.log2 + (52 - m.log2)) := Nat.pow_le_pow_right (by decide) (by omega)
      _ = 2 ^ m.log2 * 2 ^ (52 - m.log2) := pow_add ..
      _ ≤ m * 2 ^ (52 - m.log2) := Nat.mul_le_mul_right _ (Nat.log2_self_le hm.ne')
  rw [← hValue] at hModerate ⊢
  simp only [UnpackedFloat.round, decreaseExponent, hAmount]
  exact roundWithAccuracy_spec (represents_exact _) hBits hModerate

theorem normalize_spec {z e : ℤ} {zeroSign : Sign} (hModerate : Moderate (z * 2 ^ e)) :
    RoundsTo (UnpackedFloat.normalize Format.binary64 z e zeroSign) (z * 2 ^ e) := by
  rcases lt_trichotomy z 0 with hNegative | rfl | hPositive
  · have hSigned : (z : ℚ) * 2 ^ e = signed .negative ((-z).toNat * 2 ^ e) := by
      rw [signed, ← Int.cast_natCast, Int.toNat_of_nonneg (by omega), Int.cast_neg, neg_mul, neg_neg]
    rw [UnpackedFloat.normalize, compare_lt_iff_lt.mpr hNegative]
    rw [hSigned] at hModerate ⊢
    exact round_spec (by omega) hModerate
  · rw [Int.cast_zero, zero_mul]
    exact ⟨.zero zeroSign, nearest_zero.symm⟩
  · have hSigned : (z : ℚ) * 2 ^ e = signed .positive (z.toNat * 2 ^ e) := by
      rw [signed, ← Int.cast_natCast, Int.toNat_of_nonneg hPositive.le]
    rw [UnpackedFloat.normalize, compare_gt_iff_gt.mpr hPositive]
    rw [hSigned] at hModerate ⊢
    exact round_spec (by omega) hModerate

end Rounding

section Operations

variable {a b : UnpackedFloat}

theorem scale_of_bits {m : ℕ} {e : ℤ} (hLow : 2 ^ 52 ≤ m) (hHigh : m < 2 ^ 53) :
    scale (m * 2 ^ e) = 52 + e := by
  have hm : 0 < m := by omega
  rw [scale_mul_zpow e hm le_rfl (lt_add_one _), (Nat.log2_eq_iff hm.ne').mpr ⟨hLow, hHigh⟩]
  rfl

/-- The number of a float is its own nearest float. -/
theorem Normal.nearest_value {u : UnpackedFloat} (h : Normal u) : nearest (value u) = value u := by
  cases h with
  | zero s => exact nearest_zero
  | @finite s m e hPositive hLow hHigh hMin hMax =>
      have hUnit : unit (m * 2 ^ e) = 2 ^ e := by
        rw [unit, scale_of_bits hLow hHigh, add_sub_cancel_left]
      rw [value, nearest_signed s (by positivity)]
      congr 1
      refine magnitude_of_mul_unit (n := m) ?_
      rw [hUnit, Int.cast_natCast]

theorem Normal.roundsTo {u : UnpackedFloat} (h : Normal u) : RoundsTo u (value u) :=
  ⟨h, h.nearest_value.symm⟩

/-- Bits that are appended to the mantissa are taken from the exponent. -/
theorem shiftLeft_mul_zpow {m : ℕ} {e t : ℤ} (h : t ≤ e) :
    ((m <<< (e - t).toNat : ℕ) : ℚ) * 2 ^ t = m * 2 ^ e := by
  have hExponent : e = (e - t).toNat + t := by omega
  rw [Nat.shiftLeft_eq, hExponent, zpow_add₀ (by decide), zpow_natCast, ← hExponent]
  push_cast
  ring

theorem neg_spec (h : Normal a) : RoundsTo a.neg (-value a) := by
  cases h with
  | zero s =>
      rw [value_zero, neg_zero]
      exact (Normal.zero (-s)).roundsTo
  | @finite s m e hPositive hLow hHigh hMin hMax =>
      have hNormal : Normal (.finite (-s) m e hPositive) := .finite (-s) hPositive hLow hHigh hMin hMax
      have hValue : value (.finite (-s) m e hPositive) = -value (.finite s m e hPositive) := by
        cases s with
        | negative => exact (neg_neg _).symm
        | positive => rfl
      rw [← hValue]
      exact hNormal.roundsTo

/-- The result of an operation on two floats is the float nearest to the result of the same operation on
their numbers. -/
theorem add_spec (ha : Normal a) (hb : Normal b) (hModerate : Moderate (value a + value b)) :
    RoundsTo (UnpackedFloat.add Format.binary64 a b) (value a + value b) := by
  cases ha with
  | zero s =>
      rw [value_zero, zero_add]
      cases hb with
      | zero t =>
          cases s <;> cases t <;> exact (Normal.zero _).roundsTo
      | finite t hm hLow hHigh hMin hMax => exact (Normal.finite t hm hLow hHigh hMin hMax).roundsTo
  | @finite s m₁ e₁ hm₁ hLow₁ hHigh₁ hMin₁ hMax₁ =>
      cases hb with
      | zero t =>
          rw [value_zero, add_zero]
          exact (Normal.finite s hm₁ hLow₁ hHigh₁ hMin₁ hMax₁).roundsTo
      | @finite t m₂ e₂ hm₂ hLow₂ hHigh₂ hMin₂ hMax₂ =>
          have hSum : value (.finite s m₁ e₁ hm₁) + value (.finite t m₂ e₂ hm₂)
              = ((s.apply (m₁ <<< (e₁ - min e₁ e₂).toNat : ℕ)
                + t.apply (m₂ <<< (e₂ - min e₁ e₂).toNat : ℕ) : ℤ) : ℚ) * 2 ^ min e₁ e₂ := by
            rw [Int.cast_add, apply_eq, apply_eq, add_mul, signed_mul, signed_mul, Int.cast_natCast,
              Int.cast_natCast, shiftLeft_mul_zpow (min_le_left ..), shiftLeft_mul_zpow (min_le_right ..)]
            rfl
          rw [hSum] at hModerate ⊢
          exact normalize_spec hModerate

theorem sub_eq_add (a b : UnpackedFloat) :
    UnpackedFloat.sub Format.binary64 a b = UnpackedFloat.add Format.binary64 a b.neg := by
  cases a with
  | finite s m₁ e₁ hm₁ =>
      cases b with
      | finite t m₂ e₂ hm₂ =>
          cases t with
          | negative =>
              simp only [UnpackedFloat.sub, UnpackedFloat.add, UnpackedFloat.neg]
              congr 1
              exact sub_neg_eq_add ..
          | positive => rfl
      | _ => rfl
  | _ => cases b <;> rfl

theorem sub_spec (ha : Normal a) (hb : Normal b) (hModerate : Moderate (value a - value b)) :
    RoundsTo (UnpackedFloat.sub Format.binary64 a b) (value a - value b) := by
  obtain ⟨hNormal, hValue⟩ := neg_spec hb
  rw [nearest_neg, hb.nearest_value] at hValue
  rw [sub_eq_add_neg, ← hValue] at hModerate ⊢
  rw [sub_eq_add]
  exact add_spec ha hNormal hModerate

theorem mul_spec (ha : Normal a) (hb : Normal b) (hModerate : Moderate (value a * value b)) :
    RoundsTo (UnpackedFloat.mul Format.binary64 a b) (value a * value b) := by
  cases ha with
  | zero s =>
      rw [value_zero, zero_mul]
      cases hb with
      | zero t => exact (Normal.zero _).roundsTo
      | finite t hm hLow hHigh hMin hMax => exact (Normal.zero _).roundsTo
  | @finite s m₁ e₁ hm₁ hLow₁ hHigh₁ hMin₁ hMax₁ =>
      cases hb with
      | zero t =>
          rw [value_zero, mul_zero]
          exact (Normal.zero _).roundsTo
      | @finite t m₂ e₂ hm₂ hLow₂ hHigh₂ hMin₂ hMax₂ =>
          have hProduct : value (.finite s m₁ e₁ hm₁) * value (.finite t m₂ e₂ hm₂)
              = signed (s * t) ((m₁ * m₂ : ℕ) * 2 ^ (e₁ + e₂)) := by
            rw [value, value, ← signed_mul_signed, zpow_add₀ (by decide)]
            congr 1
            push_cast
            ring
          rw [hProduct] at hModerate ⊢
          exact roundWithAccuracy_spec (represents_exact _) (by nlinarith) hModerate

/-- The dividend is extended by 53 bits, if the quotient is not among the smallest floats. -/
theorem divCore_eq {m₁ m₂ : ℕ} {e₁ e₂ : ℤ} (hLog₁ : m₁.log2 = 52) (hLog₂ : m₂.log2 = 52)
    (hMin : -1000 ≤ e₁ - e₂) : divCore Format.binary64 m₁ e₁ m₂ e₂
      = (m₁ <<< 53 / m₂, e₁ - e₂ - 53, accuracyOfFraction (m₁ <<< 53 % m₂) m₂) := by
  have hTarget : min (e₁ - e₂) (Format.binary64.targetExponent
      (totalExponent m₁ e₁ - totalExponent m₂ e₂)) = e₁ - e₂ - 53 := by
    rw [totalExponent, totalExponent, hLog₁, hLog₂, targetExponent_binary64 (by omega)]
    omega
  have hAmount : (e₁ - e₂ - (e₁ - e₂ - 53)).toNat = 53 := by omega
  simp only [divCore, hTarget, hAmount]

/-- The mantissas of two floats differ by less than a factor of two. -/
theorem scale_div_le {m₁ m₂ : ℕ} {e : ℤ} (hm₁ : 0 < m₁) (hHigh₁ : m₁ < 2 ^ 53) (hLow₂ : 2 ^ 52 ≤ m₂) :
    scale (m₁ / m₂ * 2 ^ e) ≤ e := by
  have hm₁' : (0 : ℚ) < m₁ := by exact_mod_cast hm₁
  have hm₂' : (0 : ℚ) < m₂ := by exact_mod_cast (by omega : 0 < m₂)
  have hPower : (0 : ℚ) < 2 ^ e := by positivity
  have hTwice : (m₁ : ℚ) / m₂ < 2 := by
    rw [div_lt_iff₀ hm₂']
    exact_mod_cast (by omega : m₁ < 2 * m₂)
  refine Int.lt_add_one_iff.mp ((Int.lt_zpow_iff_log_lt (by decide) (by positivity)).mp ?_)
  rw [Nat.cast_ofNat, zpow_add_one₀ (by decide), mul_comm]
  exact mul_lt_mul_of_pos_left hTwice hPower

theorem div_spec (ha : Normal a) (hb : Normal b) (hNonzero : value b ≠ 0)
    (hModerate : Moderate (value a / value b)) :
    RoundsTo (UnpackedFloat.div Format.binary64 a b) (value a / value b) := by
  cases hb with
  | zero t => exact absurd rfl hNonzero
  | @finite t m₂ e₂ hm₂ hLow₂ hHigh₂ hMin₂ hMax₂ =>
      cases ha with
      | zero s =>
          rw [value_zero, zero_div]
          exact (Normal.zero _).roundsTo
      | @finite s m₁ e₁ hm₁ hLow₁ hHigh₁ hMin₁ hMax₁ =>
          have hv : (0 : ℚ) < m₁ / m₂ * 2 ^ (e₁ - e₂) := by positivity
          have hQuotient : value (.finite s m₁ e₁ hm₁) / value (.finite t m₂ e₂ hm₂)
              = signed (s / t) (m₁ / m₂ * 2 ^ (e₁ - e₂)) := by
            rw [value, value, ← signed_div_signed, zpow_sub₀ (by decide)]
            congr 1
            field_simp
          have hExtended : (m₁ / m₂ * 2 ^ (e₁ - e₂) : ℚ)
              = ((m₁ <<< 53 : ℕ) : ℚ) / m₂ * 2 ^ (e₁ - e₂ - 53) := by
            rw [Nat.shiftLeft_eq, zpow_sub₀ (by decide) _ 53]
            push_cast
            field_simp
          rw [hQuotient] at hModerate ⊢
          obtain ⟨hMin, -⟩ := hModerate.of_signed hv
          have hCore := divCore_eq ((Nat.log2_eq_iff hm₁.ne').mpr ⟨hLow₁, hHigh₁⟩)
            ((Nat.log2_eq_iff hm₂.ne').mpr ⟨hLow₂, hHigh₂⟩)
            (hMin.trans (scale_div_le hm₁ hHigh₁ hLow₂))
          have hBits : 2 ^ 52 ≤ m₁ <<< 53 / m₂ := by
            rw [Nat.shiftLeft_eq, Nat.le_div_iff_mul_le hm₂]
            omega
          rw [hExtended] at hModerate ⊢
          simp only [UnpackedFloat.div, hCore]
          generalize m₁ <<< 53 = n at hBits hModerate ⊢
          exact roundWithAccuracy_spec (represents_fraction n hm₂) hBits hModerate

end Operations

end ArrayBridge.Rounding
