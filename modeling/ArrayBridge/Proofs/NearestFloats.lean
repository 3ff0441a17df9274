import Mathlib.Algebra.Order.Field.Power
import Mathlib.Algebra.Order.Floor.Ring
import Mathlib.Data.Int.Log
import Mathlib.Data.Rat.Floor
import Mathlib.Tactic.Linarith
import Mathlib.Tactic.FieldSimp
import Mathlib.Tactic.Positivity
import Mathlib.Tactic.Ring

/-! Rounding to the nearest float.

A float has a mantissa of 53 bits. The number nearest to a rational one with such a mantissa is found
on the grid that fits its size, and of two that are equally near it is the one with the even mantissa.
The exponent has no bounds here. Integers of at most 53 bits, and multiples of a power of two by such
integers, are their own nearest floats. -/

namespace ArrayBridge.Rounding

/-- The integer nearest to a number, and of two the even one. -/
def roundEven (x : ℚ) : ℤ :=
  if x - ⌊x⌋ < 1 / 2 then ⌊x⌋ else if 1 / 2 < x - ⌊x⌋ then ⌊x⌋ + 1 else ⌊x⌋ + ⌊x⌋ % 2

section RoundEven

variable {x : ℚ} {n : ℤ}

theorem roundEven_intCast (n : ℤ) : roundEven n = n := by simp [roundEven]

/-- Rounding does not go past an integer. -/
theorem le_roundEven (h : (n : ℚ) ≤ x) : n ≤ roundEven x := by
  have hFloor : n ≤ ⌊x⌋ := Int.le_floor.mpr h
  have hParity := Int.emod_nonneg ⌊x⌋ (by decide : (2 : ℤ) ≠ 0)
  rw [roundEven]
  split
  · exact hFloor
  · split <;> omega

theorem roundEven_le (h : x ≤ n) : roundEven x ≤ n := by
  have hFloor : ⌊x⌋ ≤ n := Int.cast_le.mp ((Int.floor_le x).trans h)
  rcases hFloor.lt_or_eq with hBelow | hEq
  · have hParity := Int.emod_lt_of_pos ⌊x⌋ (by decide : (0 : ℤ) < 2)
    rw [roundEven]
    split
    · exact hFloor
    · split <;> omega
  · have hx : x = n := le_antisymm h (hEq ▸ Int.floor_le x)
    rw [hx, roundEven_intCast]

theorem abs_roundEven_sub_le (x : ℚ) : |(roundEven x : ℚ) - x| ≤ 1 / 2 := by
  have hLow := Int.floor_le x
  have hHigh := Int.lt_floor_add_one x
  rw [roundEven, abs_le]
  split
  · constructor <;> linarith
  · split
    · push_cast
      constructor <;> linarith
    · have hTie : x - ⌊x⌋ = 1 / 2 := by linarith
      rcases Int.emod_two_eq_zero_or_one ⌊x⌋ with hParity | hParity <;> rw [hParity] <;> push_cast <;>
        constructor <;> linarith

end RoundEven

/-- The exponent of the leading bit of a number. -/
def scale (v : ℚ) : ℤ := Int.log 2 v

/-- The distance of neighbouring floats around a number. -/
def unit (v : ℚ) : ℚ := 2 ^ (scale v - 52)

/-- The float nearest to a number that is not negative. -/
def magnitude (v : ℚ) : ℚ := roundEven (v / unit v) * unit v

/-- The float nearest to a number. -/
def nearest (r : ℚ) : ℚ := if r < 0 then -magnitude (-r) else magnitude r

section Magnitude

variable {v : ℚ}

theorem unit_pos (v : ℚ) : 0 < unit v := by
  rw [unit]
  positivity

theorem scale_le (h : 0 < v) : (2 : ℚ) ^ scale v ≤ v := Int.zpow_log_le_self (by decide) h

theorem lt_scale_succ (v : ℚ) : v < (2 : ℚ) ^ (scale v + 1) := Int.lt_zpow_succ_log_self (by decide) v

theorem scale_eq {k : ℤ} (hLow : (2 : ℚ) ^ k ≤ v) (hHigh : v < 2 ^ (k + 1)) : scale v = k := by
  have hPositive : 0 < v := lt_of_lt_of_le (by positivity) hLow
  refine le_antisymm (Int.lt_add_one_iff.mp ?_) ?_
  · exact (Int.lt_zpow_iff_log_lt (by decide) hPositive).mp (by exact_mod_cast hHigh)
  · exact (Int.zpow_le_iff_le_log (by decide) hPositive).mp (by exact_mod_cast hLow)

theorem zpow_scale (v : ℚ) : (2 : ℚ) ^ scale v = 2 ^ 52 * unit v := by
  rw [unit, ← zpow_natCast, ← zpow_add₀ (by decide)]
  congr 1
  push_cast
  ring

/-- The mantissa of a number has 53 bits. -/
theorem mantissa_bounds (h : 0 < v) :
    ((2 ^ 52 : ℤ) : ℚ) ≤ v / unit v ∧ v / unit v ≤ ((2 ^ 53 : ℤ) : ℚ) := by
  have hUnit := unit_pos v
  have hLow := scale_le h
  have hHigh := lt_scale_succ v
  rw [zpow_add_one₀ (by decide), zpow_scale] at hHigh
  rw [zpow_scale] at hLow
  rw [le_div_iff₀ hUnit, div_le_iff₀ hUnit]
  push_cast
  constructor <;> linarith

theorem magnitude_zero : magnitude 0 = 0 := by
  have hZero : roundEven 0 = 0 := roundEven_intCast 0
  rw [magnitude, zero_div, hZero, Int.cast_zero, zero_mul]

/-- A number and its nearest float have the same leading bit, unless the float is the next power. -/
theorem magnitude_bounds (h : 0 < v) :
    (2 : ℚ) ^ scale v ≤ magnitude v ∧ magnitude v ≤ 2 ^ (scale v + 1) := by
  obtain ⟨hLow, hHigh⟩ := mantissa_bounds h
  have hUnit := (unit_pos v).le
  have hBelow : ((2 ^ 52 : ℤ) : ℚ) ≤ (roundEven (v / unit v) : ℚ) := by
    exact_mod_cast le_roundEven hLow
  have hAbove : (roundEven (v / unit v) : ℚ) ≤ ((2 ^ 53 : ℤ) : ℚ) := by
    exact_mod_cast roundEven_le hHigh
  push_cast at hBelow hAbove
  rw [zpow_add_one₀ (by decide), zpow_scale, magnitude]
  constructor <;> nlinarith

theorem magnitude_pos (h : 0 < v) : 0 < magnitude v :=
  lt_of_lt_of_le (by positivity) (magnitude_bounds h).1

/-- The exponent of a float is free: a power of two as a unit does not change how it is rounded. -/
theorem magnitude_two_pow_mul (n : ℕ) (h : 0 < v) : magnitude (2 ^ n * v) = 2 ^ n * magnitude v := by
  have hPower : (0 : ℚ) < 2 ^ n := by positivity
  have hScale : scale (2 ^ n * v) = n + scale v := by
    refine scale_eq ?_ ?_
    · rw [zpow_add₀ (by decide), zpow_natCast]
      exact mul_le_mul_of_nonneg_left (scale_le h) hPower.le
    · rw [add_assoc, zpow_add₀ (by decide), zpow_natCast]
      exact mul_lt_mul_of_pos_left (lt_scale_succ v) hPower
  have hUnit : unit (2 ^ n * v) = 2 ^ n * unit v := by
    rw [unit, hScale, add_sub_assoc, zpow_add₀ (by decide), zpow_natCast, unit]
  rw [magnitude, magnitude, hUnit, mul_div_mul_left _ _ hPower.ne']
  ring

/-- A number on the grid of its size is its own nearest float. -/
theorem magnitude_of_mul_unit {n : ℤ} (h : v = n * unit v) : magnitude v = v := by
  rw [magnitude, div_eq_iff (unit_pos v).ne' |>.mpr h, roundEven_intCast, ← h]

theorem abs_magnitude_sub_le (v : ℚ) : |magnitude v - v| ≤ unit v / 2 := by
  have hUnit := unit_pos v
  have hError := abs_roundEven_sub_le (v / unit v)
  have hScaled : magnitude v - v = (roundEven (v / unit v) - v / unit v) * unit v := by
    rw [magnitude, sub_mul, div_mul_cancel₀ _ hUnit.ne']
  rw [hScaled, abs_mul, abs_of_pos hUnit]
  linarith [mul_le_mul_of_nonneg_right hError hUnit.le]

end Magnitude

section Integers

variable {v : ℚ} {n : ℤ}

theorem scale_le_of_lt (hPositive : 0 < v) (h : v < 2 ^ 53) : scale v ≤ 52 := by
  have hBelow : v < (2 : ℚ) ^ (53 : ℤ) := by exact_mod_cast h
  exact Int.lt_add_one_iff.mp ((Int.lt_zpow_iff_log_lt (by decide) hPositive).mp hBelow)

/-- All integers lie on the grid of a number below the integers with more than 53 bits. -/
theorem exists_mul_unit (h : scale v ≤ 52) (n : ℤ) : ∃ m : ℤ, (n : ℚ) = m * unit v := by
  refine ⟨n * 2 ^ (52 - scale v).toNat, ?_⟩
  have hExponent : ((52 - scale v).toNat : ℤ) + (scale v - 52) = 0 := by omega
  rw [unit, Int.cast_mul, Int.cast_pow, Int.cast_ofNat, mul_assoc, ← zpow_natCast,
    ← zpow_add₀ (by decide), hExponent, zpow_zero, mul_one]

theorem magnitude_le_int (h : scale v ≤ 52) (hBelow : v ≤ n) : magnitude v ≤ n := by
  obtain ⟨m, hm⟩ := exists_mul_unit h n
  have hUnit := unit_pos v
  rw [hm] at hBelow ⊢
  exact mul_le_mul_of_nonneg_right (Int.cast_le.mpr (roundEven_le ((div_le_iff₀ hUnit).mpr hBelow)))
    hUnit.le

theorem int_le_magnitude (h : scale v ≤ 52) (hAbove : n ≤ v) : n ≤ magnitude v := by
  obtain ⟨m, hm⟩ := exists_mul_unit h n
  have hUnit := unit_pos v
  rw [hm] at hAbove ⊢
  exact mul_le_mul_of_nonneg_right (Int.cast_le.mpr (le_roundEven ((le_div_iff₀ hUnit).mpr hAbove)))
    hUnit.le

theorem scale_two_pow (n : ℕ) : scale (2 ^ n) = n := by
  have hPower : (2 : ℚ) ^ n = ((2 : ℕ) : ℚ) ^ (n : ℤ) := by simp
  rw [scale, hPower]
  exact Int.log_zpow (by decide) n

/-- An integer of at most 53 bits is its own nearest float. -/
theorem magnitude_int (hLow : 0 ≤ n) (hHigh : n ≤ 2 ^ 53) : magnitude n = n := by
  rcases hLow.eq_or_lt with rfl | hPositive
  · exact_mod_cast magnitude_zero
  rcases hHigh.lt_or_eq with hBelow | rfl
  · have hScale : scale n ≤ 52 := scale_le_of_lt (by exact_mod_cast hPositive) (by exact_mod_cast hBelow)
    obtain ⟨m, hm⟩ := exists_mul_unit hScale n
    exact magnitude_of_mul_unit hm
  · have hScale : scale (((2 ^ 53 : ℤ)) : ℚ) = 53 := by exact_mod_cast scale_two_pow 53
    refine magnitude_of_mul_unit (n := 2 ^ 52) ?_
    rw [unit, hScale]
    norm_num

/-- Where the integers have more than 53 bits, all floats are integers. -/
theorem exists_magnitude_eq_int_of_scale (h : 52 ≤ scale v) : ∃ m : ℤ, magnitude v = m := by
  refine ⟨roundEven (v / unit v) * 2 ^ (scale v - 52).toNat, ?_⟩
  have hExponent : ((scale v - 52).toNat : ℤ) = scale v - 52 := Int.toNat_of_nonneg (by omega)
  rw [magnitude, Int.cast_mul, Int.cast_pow, Int.cast_ofNat, ← zpow_natCast, hExponent, unit]

theorem le_scale (h : 2 ^ 53 ≤ v) : 53 ≤ scale v := by
  have hPositive : 0 < v := lt_of_lt_of_le (by norm_num) h
  have hAbove : ((2 : ℕ) : ℚ) ^ (53 : ℤ) ≤ v := by exact_mod_cast h
  exact (Int.zpow_le_iff_le_log (by decide) hPositive).mp hAbove

/-- The nearest float of an integer is an integer. -/
theorem exists_magnitude_eq_int (hLow : 0 ≤ n) : ∃ m : ℤ, magnitude n = m := by
  rcases le_or_gt n (2 ^ 53) with hFew | hMany
  · exact ⟨n, magnitude_int hLow hFew⟩
  · have hScale : 53 ≤ scale n := le_scale (by exact_mod_cast hMany.le)
    exact exists_magnitude_eq_int_of_scale (by omega)

/-- The quotient of an integer of at most 53 bits is too far above an integer to be rounded to it: for
half of the distance of its neighbours the divisor is too small. -/
theorem lt_magnitude_div {d s k : ℤ} (hBits : d ≤ 2 ^ 53) (hs : 0 < s) (hk : 1 ≤ k)
    (hAbove : (k : ℚ) < d / s) (hScale : scale (d / s : ℚ) ≤ 52) : k < magnitude (d / s) := by
  have hs' : (0 : ℚ) < s := by exact_mod_cast hs
  have hk' : (1 : ℚ) ≤ k := by exact_mod_cast hk
  have hq : (0 : ℚ) < d / s := by linarith
  have hProduct : (d : ℚ) / s * s = d := div_mul_cancel₀ _ hs'.ne'
  refine (int_le_magnitude hScale hAbove.le).lt_of_ne fun hEq => ?_
  -- The numerator is above the multiple of the divisor by one at least.
  have hStep : (1 : ℚ) ≤ (d / s - k) * s := by
    have hNumerators : k * s + 1 ≤ d := by
      have hBelow : (k : ℚ) * s < d := hProduct ▸ mul_lt_mul_of_pos_right hAbove hs'
      exact_mod_cast hBelow
    have hCast : (k : ℚ) * s + 1 ≤ d := by exact_mod_cast hNumerators
    rw [sub_mul, hProduct]
    linarith
  have hError := abs_magnitude_sub_le (d / s : ℚ)
  rw [← hEq, abs_sub_comm, abs_of_pos (sub_pos.mpr hAbove)] at hError
  -- So the numerator needs all of its bits, and the quotient is a power of two.
  have hPower := scale_le hq
  have hUnits := zpow_scale (d / s : ℚ)
  have hBits' : (d : ℚ) ≤ 2 ^ 53 := by exact_mod_cast hBits
  have hQuotient : (d : ℚ) / s = 2 ^ scale (d / s : ℚ) := by
    refine le_antisymm ?_ hPower
    rw [hUnits]
    nlinarith
  have hPositive : 0 ≤ scale (d / s : ℚ) := by
    by_contra hNegative
    have hSmall : (2 : ℚ) ^ scale (d / s : ℚ) < 2 ^ (0 : ℤ) :=
      zpow_lt_zpow_right₀ (by norm_num) (by omega)
    rw [← hQuotient, zpow_zero] at hSmall
    linarith
  obtain ⟨n, hn⟩ : ∃ n : ℤ, (d : ℚ) / s = n := by
    refine ⟨2 ^ (scale (d / s : ℚ)).toNat, hQuotient.trans ?_⟩
    rw [Int.cast_pow, Int.cast_ofNat, ← zpow_natCast, Int.toNat_of_nonneg hPositive]
  have hExact : magnitude (d / s) = d / s := by
    obtain ⟨m, hm⟩ := exists_mul_unit hScale n
    exact magnitude_of_mul_unit (hn.trans hm)
  exact absurd (hEq.trans hExact) hAbove.ne

/-- Rounding the quotient of an integer of at most 53 bits by another one does not move it to or past
an integer. -/
theorem ceil_magnitude_div {d s : ℤ} (hd : 0 < d) (hBits : d ≤ 2 ^ 53) (hs : 0 < s) :
    ⌈magnitude (d / s)⌉ = ⌈(d : ℚ) / s⌉ := by
  have hs' : (0 : ℚ) < s := by exact_mod_cast hs
  have hd' : (0 : ℚ) < d := by exact_mod_cast hd
  have hq : (0 : ℚ) < d / s := div_pos hd' hs'
  have hProduct : (d : ℚ) / s * s = d := div_mul_cancel₀ _ hs'.ne'
  have hBits' : (d : ℚ) ≤ 2 ^ 53 := by exact_mod_cast hBits
  have hOne : (1 : ℚ) ≤ s := by exact_mod_cast hs
  rcases lt_or_ge ((d : ℚ) / s) (2 ^ 53) with hFew | hLarge
  · have hScale := scale_le_of_lt hq hFew
    have hCeil := Int.le_ceil ((d : ℚ) / s)
    refine Int.ceil_eq_iff.mpr ⟨?_, magnitude_le_int hScale hCeil⟩
    have hAbove : ((⌈(d : ℚ) / s⌉ - 1 : ℤ) : ℚ) < d / s := by
      have hNext := Int.ceil_lt_add_one ((d : ℚ) / s)
      push_cast
      linarith
    have hCeilPositive : 0 < ⌈(d : ℚ) / s⌉ := Int.ceil_pos.mpr hq
    rcases (by omega : ⌈(d : ℚ) / s⌉ = 1 ∨ 1 ≤ ⌈(d : ℚ) / s⌉ - 1) with hOnly | hMany
    · rw [hOnly, Int.cast_one, sub_self]
      exact magnitude_pos hq
    · exact_mod_cast lt_magnitude_div hBits hs hMany hAbove hScale
  · have hWhole : (d : ℚ) / s = ((2 ^ 53 : ℤ) : ℚ) := by
      push_cast
      refine le_antisymm ?_ hLarge
      exact (div_le_self hd'.le hOne).trans hBits'
    rw [hWhole, magnitude_int (by decide) le_rfl]

end Integers

section Signed

variable {r : ℚ} {n : ℤ}

theorem nearest_of_nonneg (h : 0 ≤ r) : nearest r = magnitude r := if_neg (not_lt.mpr h)

theorem nearest_of_neg (h : r < 0) : nearest r = -magnitude (-r) := if_pos h

theorem nearest_zero : nearest 0 = 0 := (nearest_of_nonneg le_rfl).trans magnitude_zero

theorem nearest_neg (r : ℚ) : nearest (-r) = -nearest r := by
  rcases lt_trichotomy r 0 with h | rfl | h
  · rw [nearest_of_nonneg (by linarith), nearest_of_neg h, neg_neg]
  · rw [neg_zero, nearest_zero, neg_zero]
  · rw [nearest_of_neg (by linarith), nearest_of_nonneg h.le, neg_neg]

theorem nearest_two_pow_mul (n : ℕ) (r : ℚ) : nearest (2 ^ n * r) = 2 ^ n * nearest r := by
  have hPower : (0 : ℚ) < 2 ^ n := by positivity
  rcases lt_trichotomy r 0 with h | rfl | h
  · have hScaled : 2 ^ n * r < 0 := mul_neg_of_pos_of_neg hPower h
    rw [nearest_of_neg hScaled, nearest_of_neg h, ← mul_neg, magnitude_two_pow_mul n (by linarith), mul_neg]
  · rw [mul_zero, nearest_zero, mul_zero]
  · have hScaled : 0 < 2 ^ n * r := mul_pos hPower h
    rw [nearest_of_nonneg hScaled.le, nearest_of_nonneg h.le, magnitude_two_pow_mul n h]

theorem nearest_pos (h : 0 < r) : 0 < nearest r := by
  rw [nearest_of_nonneg h.le]
  exact magnitude_pos h

theorem nearest_neg_of_neg (h : r < 0) : nearest r < 0 := by
  rw [nearest_of_neg h]
  exact neg_neg_of_pos (magnitude_pos (by linarith))

theorem nearest_ne_zero (h : r ≠ 0) : nearest r ≠ 0 := by
  rcases h.lt_or_gt with h | h
  · exact (nearest_neg_of_neg h).ne
  · exact (nearest_pos h).ne'

theorem abs_nearest (r : ℚ) : |nearest r| = magnitude |r| := by
  rcases lt_trichotomy r 0 with h | rfl | h
  · rw [abs_of_neg (nearest_neg_of_neg h), abs_of_neg h, nearest_of_neg h, neg_neg]
  · rw [nearest_zero, abs_zero, magnitude_zero]
  · rw [abs_of_pos (nearest_pos h), abs_of_pos h, nearest_of_nonneg h.le]

/-- Rounding changes a number by less than a factor of two. -/
theorem abs_nearest_le (r : ℚ) : |nearest r| ≤ 2 * |r| := by
  rcases eq_or_ne r 0 with rfl | h
  · rw [nearest_zero, abs_zero, mul_zero]
  · have hBound := (magnitude_bounds (abs_pos.mpr h)).2
    have hScale := scale_le (abs_pos.mpr h)
    rw [zpow_add_one₀ (by decide)] at hBound
    rw [abs_nearest]
    linarith

theorem nearest_int (h : |n| ≤ 2 ^ 53) : nearest n = n := by
  rcases lt_or_ge n 0 with hNegative | hPositive
  · have hMagnitude : magnitude ((-n : ℤ) : ℚ) = (-n : ℤ) :=
      magnitude_int (by omega) (by rwa [abs_of_neg hNegative] at h)
    rw [Int.cast_neg] at hMagnitude
    rw [nearest_of_neg (by exact_mod_cast hNegative), hMagnitude, neg_neg]
  · rw [nearest_of_nonneg (by exact_mod_cast hPositive)]
    exact magnitude_int hPositive (by rwa [abs_of_nonneg hPositive] at h)

/-- Rounding an integer gives an integer, at most twice as large. -/
theorem exists_nearest_eq_int (n : ℤ) : ∃ m : ℤ, nearest n = m ∧ |m| ≤ 2 * |n| := by
  obtain ⟨m, hm⟩ : ∃ m : ℤ, nearest n = m := by
    rcases lt_or_ge n 0 with hNegative | hPositive
    · obtain ⟨m, hm⟩ := exists_magnitude_eq_int (n := -n) (by omega)
      refine ⟨-m, ?_⟩
      rw [nearest_of_neg (by exact_mod_cast hNegative), ← Int.cast_neg, hm, Int.cast_neg]
    · rw [nearest_of_nonneg (by exact_mod_cast hPositive)]
      exact exists_magnitude_eq_int hPositive
  have hBound := abs_nearest_le (n : ℚ)
  rw [hm] at hBound
  exact ⟨m, hm, by exact_mod_cast hBound⟩

/-- The integer part of a positive float is a float. -/
theorem nearest_floor (h : nearest r = r) (hPositive : 0 < r) : nearest ⌊r⌋ = ⌊r⌋ := by
  rcases lt_or_ge r (2 ^ 53) with hFew | hMany
  · have hBelow : ⌊r⌋ < 2 ^ 53 := Int.floor_lt.mpr (by exact_mod_cast hFew)
    have hAbove : 0 ≤ ⌊r⌋ := Int.floor_nonneg.mpr hPositive.le
    exact nearest_int (by rw [abs_of_nonneg hAbove]; exact hBelow.le)
  · have hScale := le_scale hMany
    obtain ⟨m, hm⟩ := exists_magnitude_eq_int_of_scale (v := r) (by omega)
    rw [← nearest_of_nonneg hPositive.le, h] at hm
    rw [hm, Int.floor_intCast, ← hm, h]

/-- The nearest float of an integer with more than 53 bits is not below the integers with fewer. -/
theorem le_abs_nearest_int (h : 2 ^ 53 ≤ |n|) : 2 ^ 53 ≤ |nearest n| := by
  have hPositive : (0 : ℚ) < |(n : ℚ)| := by
    rw [← Int.cast_abs]
    exact_mod_cast (by omega : 0 < |n|)
  have hScale : 53 ≤ scale |(n : ℚ)| := by
    rw [← Int.cast_abs] at hPositive ⊢
    exact le_scale (by exact_mod_cast h)
  have hPower : (2 : ℚ) ^ (53 : ℤ) ≤ 2 ^ scale |(n : ℚ)| := zpow_le_zpow_right₀ (by norm_num) hScale
  rw [abs_nearest]
  exact le_trans (by exact_mod_cast hPower) (magnitude_bounds hPositive).1

/-- A positive number that is at most one is rounded to such a number. -/
theorem ceil_nearest_of_le_one (hPositive : 0 < r) (hOne : r ≤ 1) : ⌈nearest r⌉ = 1 := by
  have hScale : scale r ≤ 52 := scale_le_of_lt hPositive (lt_of_le_of_lt hOne (by norm_num))
  have hBelow : magnitude r ≤ ((1 : ℤ) : ℚ) := magnitude_le_int hScale (by exact_mod_cast hOne)
  rw [nearest_of_nonneg hPositive.le]
  refine Int.ceil_eq_iff.mpr ⟨?_, hBelow⟩
  rw [Int.cast_one, sub_self]
  exact magnitude_pos hPositive

theorem nearest_nonpos (h : r ≤ 0) : nearest r ≤ 0 := by
  rcases h.lt_or_eq with hNegative | rfl
  · exact (nearest_neg_of_neg hNegative).le
  · exact nearest_zero.le

theorem toNat_ceil_nearest_div_of_pos {d s : ℤ} (hBits : |d| ≤ 2 ^ 53) (hs : 0 < s) :
    ⌈nearest (d / nearest s)⌉.toNat = ⌈(d : ℚ) / s⌉.toNat := by
  have hs' : (0 : ℚ) < s := by exact_mod_cast hs
  have hNearest : 0 < nearest s := nearest_pos hs'
  rcases le_or_gt d 0 with hd | hd
  · have hd' : (d : ℚ) ≤ 0 := by exact_mod_cast hd
    have hLeft : ⌈nearest (d / nearest s)⌉ ≤ 0 :=
      Int.ceil_le.mpr (by exact_mod_cast nearest_nonpos (div_nonpos_of_nonpos_of_nonneg hd' hNearest.le))
    have hRight : ⌈(d : ℚ) / s⌉ ≤ 0 :=
      Int.ceil_le.mpr (by exact_mod_cast div_nonpos_of_nonpos_of_nonneg hd' hs'.le)
    rw [Int.toNat_of_nonpos hLeft, Int.toNat_of_nonpos hRight]
  · have hd' : (0 : ℚ) < d := by exact_mod_cast hd
    have hBits' : d ≤ 2 ^ 53 := (le_abs_self d).trans hBits
    rcases le_or_gt s (2 ^ 53) with hFew | hMany
    · rw [nearest_int (by rwa [abs_of_pos hs]), nearest_of_nonneg (div_pos hd' hs').le,
        ceil_magnitude_div hd hBits' hs]
    · have hLarge := le_abs_nearest_int (n := s) (by rw [abs_of_pos hs]; exact hMany.le)
      rw [abs_of_pos hNearest] at hLarge
      have hBelow : (d : ℚ) ≤ 2 ^ 53 := by exact_mod_cast hBits'
      have hStep : (2 : ℚ) ^ 53 ≤ s := by exact_mod_cast hMany.le
      have hRight : ⌈(d : ℚ) / s⌉ = 1 := by
        refine Int.ceil_eq_iff.mpr ⟨?_, ?_⟩
        · rw [Int.cast_one, sub_self]
          exact div_pos hd' hs'
        · exact_mod_cast (div_le_one hs').mpr (hBelow.trans hStep)
      rw [hRight, ceil_nearest_of_le_one (div_pos hd' hNearest)
        ((div_le_one hNearest).mpr (hBelow.trans hLarge))]

/-- The steps in a distance of at most 53 bits can be counted with the floats nearest to the step and
to the quotient. -/
theorem toNat_ceil_nearest_div {d s : ℤ} (hBits : |d| ≤ 2 ^ 53) (hs : s ≠ 0) :
    ⌈nearest (d / nearest s)⌉.toNat = ⌈(d : ℚ) / s⌉.toNat := by
  rcases hs.lt_or_gt with hNegative | hPositive
  · have hTurned := toNat_ceil_nearest_div_of_pos (d := -d) (s := -s) (by rwa [abs_neg]) (by omega)
    rwa [Int.cast_neg, Int.cast_neg, nearest_neg, neg_div_neg_eq, neg_div_neg_eq] at hTurned
  · exact toNat_ceil_nearest_div_of_pos hBits hPositive

end Signed

end ArrayBridge.Rounding
