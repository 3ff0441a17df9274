import ArrayBridge.Proofs.Creation
import ArrayBridge.Proofs.Elementwise
import ArrayBridge.Proofs.FloatNumbers

/-! Ranges of integers.

The bounds and the step of a range are turned into floats, even where they are integers. The length is
the quotient of their rounded difference and the rounded step, and each element is the rounded sum of
the start and a rounded product. So a range of integers is not exact in general. It is where the bounds
and their distance are integers of at most 53 bits, or multiples of a power of two by such integers,
and the step is a multiple of the same power. -/

namespace ArrayBridge

open Operation Outcome Rounding

/-- The number of steps from the start that stay before the stop. -/
def stepCount (start stop step : ℤ) : ℕ := ⌈((stop - start : ℤ) : ℚ) / step⌉.toNat

/-- The distance of the bounds in steps, as it is computed with floats. -/
def roundedQuotient (start stop step : ℤ) : ℚ :=
  nearest (nearest (nearest stop - nearest start) / nearest step)

/-- The element after some steps of a range, as it is computed with floats. -/
def roundedElement (start step : ℤ) (i : ℕ) : ℚ := nearest (nearest start + nearest (i * nearest step))

section Exact

variable {a b c : ℤ} {i : ℕ}

theorem lt_div_of_lt_stepCount (h : i < stepCount a b c) : (i : ℚ) < ((b - a : ℤ) : ℚ) / c := by
  have hCeil : (i : ℤ) < ⌈((b - a : ℤ) : ℚ) / c⌉ := Int.lt_toNat.mp h
  exact_mod_cast Int.lt_ceil.mp hCeil

/-- The elements of a range lie between its bounds. -/
theorem between_of_lt_stepCount (hc : c ≠ 0) (h : i < stepCount a b c) :
    a ≤ a + i * c ∧ a + i * c < b ∨ b < a + i * c ∧ a + i * c ≤ a := by
  have hQuotient := lt_div_of_lt_stepCount h
  have hi : (0 : ℤ) ≤ i := Int.natCast_nonneg i
  rcases hc.lt_or_gt with hNegative | hPositive
  · rw [lt_div_iff_of_neg (by exact_mod_cast hNegative)] at hQuotient
    have hBeyond : b - a < i * c := by exact_mod_cast hQuotient
    have hProduct : (i : ℤ) * c ≤ 0 := mul_nonpos_of_nonneg_of_nonpos hi hNegative.le
    omega
  · rw [lt_div_iff₀ (by exact_mod_cast hPositive)] at hQuotient
    have hBefore : i * c < b - a := by exact_mod_cast hQuotient
    have hProduct : (0 : ℤ) ≤ i * c := mul_nonneg hi hPositive.le
    omega

/-- Between bounds of at most 53 bits the steps are counted exactly. -/
theorem roundedQuotient_of_bits (hc : c ≠ 0) (ha : |a| ≤ 2 ^ 53) (hb : |b| ≤ 2 ^ 53)
    (hDistance : |b - a| ≤ 2 ^ 53) : ⌈roundedQuotient a b c⌉.toNat = stepCount a b c := by
  rw [roundedQuotient, nearest_int ha, nearest_int hb, ← Int.cast_sub, nearest_int hDistance]
  exact toNat_ceil_nearest_div hDistance hc

theorem roundedElement_of_bits (hc : c ≠ 0) (ha : |a| ≤ 2 ^ 53) (hb : |b| ≤ 2 ^ 53)
    (hDistance : |b - a| ≤ 2 ^ 53) (hi : i < stepCount a b c) :
    roundedElement a c i = (a + i * c : ℤ) := by
  have hBetween := between_of_lt_stepCount hc hi
  have hProduct : |i * c| ≤ 2 ^ 53 := by rw [abs_le] at hDistance ⊢; omega
  have hSum : |a + i * c| ≤ 2 ^ 53 := by rw [abs_le] at ha hb ⊢; omega
  have hRounded : nearest (i * nearest c) = (i * c : ℤ) := by
    rcases Nat.eq_zero_or_pos i with rfl | hPositive
    · rw [Nat.cast_zero, zero_mul, nearest_zero, Nat.cast_zero, zero_mul, Int.cast_zero]
    · -- A step that was made is not longer than the distance.
      have hStep : |c| ≤ 2 ^ 53 := by
        refine le_trans ?_ hProduct
        rw [abs_mul, Nat.abs_cast]
        exact le_mul_of_one_le_left (abs_nonneg c) (by exact_mod_cast hPositive)
      have hCast : (i : ℚ) * c = (i * c : ℤ) := by push_cast; rfl
      rw [nearest_int hStep, hCast, nearest_int hProduct]
  rw [roundedElement, hRounded, nearest_int ha, ← Int.cast_add, nearest_int hSum]

variable {t : ℕ}

theorem stepCount_two_pow_mul : stepCount (2 ^ t * a) (2 ^ t * b) (2 ^ t * c) = stepCount a b c := by
  have hPower : ((2 : ℚ) ^ t) ≠ 0 := by positivity
  rw [stepCount, stepCount, ← mul_sub, Int.cast_mul, Int.cast_mul, Int.cast_pow, Int.cast_ofNat,
    mul_div_mul_left _ _ hPower]

theorem nearest_two_pow_mul_int (t : ℕ) (a : ℤ) :
    nearest ((2 ^ t * a : ℤ) : ℚ) = 2 ^ t * nearest a := by
  rw [Int.cast_mul, Int.cast_pow, Int.cast_ofNat, nearest_two_pow_mul]

theorem roundedQuotient_two_pow_mul :
    roundedQuotient (2 ^ t * a) (2 ^ t * b) (2 ^ t * c) = roundedQuotient a b c := by
  have hPower : ((2 : ℚ) ^ t) ≠ 0 := by positivity
  rw [roundedQuotient, nearest_two_pow_mul_int, nearest_two_pow_mul_int, nearest_two_pow_mul_int,
    ← mul_sub, nearest_two_pow_mul, mul_div_mul_left _ _ hPower, roundedQuotient]

theorem roundedElement_two_pow_mul :
    roundedElement (2 ^ t * a) (2 ^ t * c) i = 2 ^ t * roundedElement a c i := by
  rw [roundedElement, nearest_two_pow_mul_int, nearest_two_pow_mul_int, mul_left_comm,
    nearest_two_pow_mul, ← mul_add, nearest_two_pow_mul, roundedElement]

theorem abs_le_of_two_pow_mul (h : |2 ^ t * a| ≤ 2 ^ (53 + t)) : |a| ≤ 2 ^ 53 := by
  have hPower : (0 : ℤ) < 2 ^ t := by positivity
  rw [abs_mul, abs_of_pos hPower, pow_add, mul_comm] at h
  exact le_of_mul_le_mul_right h hPower

/-- A range in multiples of a power of two is computed exactly, where those are of at most 53 bits. -/
theorem exact_of_multiples {start stop step : ℤ} (hStep : step ≠ 0) (hDivStart : 2 ^ t ∣ start)
    (hDivStop : 2 ^ t ∣ stop) (hDivStep : 2 ^ t ∣ step) (hStart : |start| ≤ 2 ^ (53 + t))
    (hStop : |stop| ≤ 2 ^ (53 + t)) (hDistance : |stop - start| ≤ 2 ^ (53 + t)) :
    ⌈roundedQuotient start stop step⌉.toNat = stepCount start stop step ∧
      ∀ i < stepCount start stop step, roundedElement start step i = (start + i * step : ℤ) := by
  obtain ⟨a, rfl⟩ := hDivStart
  obtain ⟨b, rfl⟩ := hDivStop
  obtain ⟨c, rfl⟩ := hDivStep
  have hc : c ≠ 0 := right_ne_zero_of_mul hStep
  have ha := abs_le_of_two_pow_mul hStart
  have hb := abs_le_of_two_pow_mul hStop
  rw [← mul_sub] at hDistance
  have hBits := abs_le_of_two_pow_mul hDistance
  rw [stepCount_two_pow_mul, roundedQuotient_two_pow_mul]
  refine ⟨roundedQuotient_of_bits hc ha hb hBits, fun i hi => ?_⟩
  rw [roundedElement_two_pow_mul, roundedElement_of_bits hc ha hb hBits hi]
  push_cast
  ring

end Exact

namespace Engine

section Lengths

variable {x : Float} {q : ℚ}

/-- The ceiling of a number in the word range is found from its integer part. -/
theorem ceiling_eq (h : Denotes x q) (hBelow : q < 2 ^ 64) : ceiling x = ⌈q⌉.toNat := by
  have hTruncated : (towardZero q).toNat = ⌊q⌋.toNat := by
    rw [towardZero]
    split
    · next hNegative =>
        have hCeil : ⌈q⌉ ≤ 0 := Int.ceil_le.mpr (by exact_mod_cast hNegative.le)
        have hFloor : ⌊q⌋ ≤ 0 := (Int.floor_le_ceil q).trans hCeil
        rw [Int.toNat_of_nonpos hCeil, Int.toNat_of_nonpos hFloor]
    · rfl
  have hWord : ⌊q⌋.toNat < UInt64.size := by
    have hFloor : ⌊q⌋ < 2 ^ 64 := Int.floor_lt.mpr (by exact_mod_cast hBelow)
    have hSize : UInt64.size = 2 ^ 64 := rfl
    omega
  have hWhole : x.toUInt64.toNat = ⌊q⌋.toNat := by
    rw [h.toUInt64_eq, hTruncated, UInt64.ofNatClamp_eq_ofNat _ hWord, UInt64.toNat_ofNat_of_lt' hWord]
  have hCompare := (Denotes.toFloat x.toUInt64).lt_iff h
  rw [hWhole] at hCompare
  simp only [ceiling, hWhole]
  rcases le_or_gt q 0 with hNonpositive | hPositive
  · have hCeil : ⌈q⌉ ≤ 0 := Int.ceil_le.mpr (by exact_mod_cast hNonpositive)
    have hFloor : ⌊q⌋.toNat = 0 := Int.toNat_of_nonpos ((Int.floor_le_ceil q).trans hCeil)
    rw [hFloor, Nat.cast_zero, nearest_zero] at hCompare
    rw [if_neg (hCompare.not.mpr hNonpositive.not_gt), hFloor, Int.toNat_of_nonpos hCeil]
  · have hFloor : ((⌊q⌋.toNat : ℕ) : ℚ) = ⌊q⌋ := by
      exact_mod_cast Int.toNat_of_nonneg (Int.floor_nonneg.mpr hPositive.le)
    rw [hFloor, nearest_floor h.nearest_eq hPositive] at hCompare
    rcases (Int.floor_le q).lt_or_eq with hFraction | hInteger
    · have hCeil : ⌈q⌉ = ⌊q⌋ + 1 :=
        Int.ceil_eq_iff.mpr ⟨by push_cast; linarith, by push_cast; exact (Int.lt_floor_add_one q).le⟩
      have hNonneg : 0 ≤ ⌊q⌋ := Int.floor_nonneg.mpr hPositive.le
      rw [if_pos (hCompare.mpr hFraction), hCeil, Int.toNat_add hNonneg (by decide)]
      rfl
    · have hCeil : ⌈q⌉ = ⌊q⌋ := by rw [← hInteger, Int.ceil_intCast, Int.floor_intCast]
      rw [if_neg (hCompare.not.mpr hInteger.not_lt), hCeil]

end Lengths

section Ranges

variable {start stop step : Int64}

theorem abs_toInt_le (n : Int64) : |n.toInt| ≤ 2 ^ 63 := by
  have hLow := n.le_toInt
  have hHigh := n.toInt_lt
  exact abs_le.mpr ⟨by omega, by omega⟩

theorem denotes_quotient (start stop : Int64) (hStep : step ≠ 0) :
    Denotes ((nearestFloat stop - nearestFloat start) / nearestFloat step)
      (roundedQuotient start.toInt stop.toInt step.toInt) := by
  obtain ⟨p, hp, hpBound⟩ := exists_nearest_eq_int start.toInt
  obtain ⟨q, hq, hqBound⟩ := exists_nearest_eq_int stop.toInt
  obtain ⟨s, hs, hsBound⟩ := exists_nearest_eq_int step.toInt
  obtain ⟨d, hd, hdBound⟩ := exists_nearest_eq_int (q - p)
  have hStart := abs_toInt_le start
  have hStop := abs_toInt_le stop
  have hStepBound := abs_toInt_le step
  have hDistance := abs_sub q p
  have hNonzero : (s : ℚ) ≠ 0 := by
    rw [← hs]
    exact nearest_ne_zero (by exact_mod_cast mt (Int64.toInt_inj (y := 0)).mp hStep)
  have hDifference := (Denotes.nearestFloat stop).sub (Denotes.nearestFloat start) (by
    rw [hp, hq, ← Int.cast_sub]
    exact moderate_int (by omega))
  rw [hp, hq, ← Int.cast_sub, hd] at hDifference
  have hQuotient := hDifference.div (Denotes.nearestFloat step) (by rwa [hs]) (by
    rw [hs]
    exact moderate_div (by omega) (by omega))
  rwa [roundedQuotient, hp, hq, ← Int.cast_sub, hd]

theorem denotes_element (start step : Int64) {i : ℕ} (hi : i < reserveLimit) :
    Denotes (nearestFloat start + i.toUInt64.toFloat * nearestFloat step)
      (roundedElement start.toInt step.toInt i) := by
  obtain ⟨p, hp, hpBound⟩ := exists_nearest_eq_int start.toInt
  obtain ⟨s, hs, hsBound⟩ := exists_nearest_eq_int step.toInt
  obtain ⟨m, hm, hmBound⟩ := exists_nearest_eq_int (i * s)
  have hStart := abs_toInt_le start
  have hStep := abs_toInt_le step
  have hLimit : i < 2 ^ 40 := hi
  have hIndex := Denotes.toFloat i.toUInt64
  have hWord : i.toUInt64.toNat = i := UInt64.toNat_ofNat_of_lt' (by rw [UInt64.size]; omega)
  have hCast : (i : ℚ) = ((i : ℤ) : ℚ) := rfl
  rw [hWord, hCast, nearest_int (by rw [Nat.abs_cast]; omega)] at hIndex
  have hSize : |i * s| ≤ 2 ^ 40 * 2 ^ 64 := by
    rw [abs_mul, Nat.abs_cast]
    exact mul_le_mul (by omega) (by omega) (abs_nonneg s) (by decide)
  have hSum := abs_add_le p m
  have hProduct := hIndex.mul (Denotes.nearestFloat step) (by
    rw [hs, ← Int.cast_mul]
    exact moderate_int (by omega))
  rw [hs, ← Int.cast_mul, hm] at hProduct
  have hElement := (Denotes.nearestFloat start).add hProduct (by
    rw [hp, ← Int.cast_add]
    exact moderate_int (by omega))
  rwa [roundedElement, hs, hCast, ← Int.cast_mul, hm]

/-- An element is a whole number before it is clamped. -/
theorem truncated_element (start step : Int64) {i : ℕ} (hi : i < reserveLimit) :
    truncated (nearestFloat start + i.toUInt64.toFloat * nearestFloat step)
      = .ofIntClamp ⌊roundedElement start.toInt step.toInt i⌋ := by
  obtain ⟨p, hp, -⟩ := exists_nearest_eq_int start.toInt
  obtain ⟨s, hs, -⟩ := exists_nearest_eq_int step.toInt
  obtain ⟨m, hm, -⟩ := exists_nearest_eq_int (i * s)
  obtain ⟨e, he, -⟩ := exists_nearest_eq_int (p + m)
  have hWhole : roundedElement start.toInt step.toInt i = e := by
    rw [roundedElement, hp, hs, ← Int.cast_natCast i, ← Int.cast_mul, hm, ← Int.cast_add, he]
  rw [(denotes_element start step hi).truncated_eq, hWhole, towardZero_intCast, Int.floor_intCast]

/-- The bound that a range is refused at is the number of all words. -/
theorem denotes_wordCount : Denotes (Float.ofBits 0x43f0000000000000) (2 ^ 64) := by
  have hUnpack : (Float.ofBits 0x43f0000000000000).toModel.unpack
      = .finite .positive (2 ^ 52) 12 (by decide) := rfl
  have hNormal : Normal (.finite .positive (2 ^ 52) 12 (by decide)) :=
    .finite .positive (by decide) le_rfl (by decide) (by decide) (by decide)
  refine ⟨hUnpack ▸ hNormal, ?_⟩
  rw [hUnpack, value, signed]
  norm_num

/-- The length of a range is the ceiling of the quotient. -/
theorem rangeLength_eq (start stop : Int64) (hStep : step ≠ 0) :
    rangeLength (nearestFloat start) (nearestFloat stop) (nearestFloat step)
      = if 2 ^ 64 ≤ roundedQuotient start.toInt stop.toInt step.toInt then .error .rangeLengthTooLarge
        else do
          let length ← Shape.checkedSize [⌈roundedQuotient start.toInt stop.toInt step.toInt⌉.toNat]
          reserve length
          return length := by
  have hQuotient := denotes_quotient start stop hStep
  have hZero : Denotes 0 0 := ⟨.zero .positive, rfl⟩
  have hNonzero : (nearestFloat step == 0) = false := by
    have hStep' : nearest step.toInt ≠ 0 :=
      nearest_ne_zero (by exact_mod_cast mt (Int64.toInt_inj (y := 0)).mp hStep)
    exact Bool.eq_false_iff.mpr (mt ((Denotes.nearestFloat step).beq_iff hZero).mp hStep')
  have hBound := denotes_wordCount.le_iff hQuotient
  rw [rangeLength]
  simp only [hNonzero, hQuotient.isNaN_eq_false, hBound, Bool.false_eq_true, if_false]
  split
  · rfl
  · next hBelow =>
      rw [ceiling_eq hQuotient (not_le.mp hBelow)]

theorem checkedSize_single {n : ℕ} (h : n < reserveLimit) : Shape.checkedSize [n] = .ok n := by
  have hWord : 1 * n < Word.count := by
    rw [Nat.one_mul]
    exact h.trans (by decide)
  have hProduct : Shape.wordProduct? [n] = some n := by
    rw [Shape.wordProduct?, List.foldlM_cons, if_pos hWord, Nat.one_mul]
    rfl
  have hFits : n ≤ maxElements := h.le.trans (by decide)
  rw [Shape.checkedSize, hProduct]
  exact if_pos hFits

theorem rangeLength_of_lt (start stop : Int64) (hStep : step ≠ 0)
    (h : ⌈roundedQuotient start.toInt stop.toInt step.toInt⌉.toNat < reserveLimit) :
    rangeLength (nearestFloat start) (nearestFloat stop) (nearestFloat step)
      = .ok ⌈roundedQuotient start.toInt stop.toInt step.toInt⌉.toNat := by
  have hBelow : ¬ 2 ^ 64 ≤ roundedQuotient start.toInt stop.toInt step.toInt := by
    intro hWords
    have hCeil : (2 ^ 64 : ℤ) ≤ ⌈roundedQuotient start.toInt stop.toInt step.toInt⌉ := by
      exact_mod_cast hWords.trans (Int.le_ceil _)
    have hLimit : reserveLimit = 2 ^ 40 := rfl
    omega
  rw [rangeLength_eq start stop hStep, if_neg hBelow, checkedSize_single h, ok_bind, reserve, if_pos h]
  rfl

theorem rangeLength_of_le (start stop : Int64) (hStep : step ≠ 0)
    (h : reserveLimit ≤ ⌈roundedQuotient start.toInt stop.toInt step.toInt⌉.toNat) :
    ∃ e, rangeLength (nearestFloat start) (nearestFloat stop) (nearestFloat step) = .error e := by
  cases hLength : rangeLength (nearestFloat start) (nearestFloat stop) (nearestFloat step) with
  | error e => exact ⟨e, rfl⟩
  | ok length =>
      rw [rangeLength_eq start stop hStep] at hLength
      split at hLength
      · cases hLength
      · obtain ⟨count, hCount, hLength⟩ := bind_eq_ok_iff.mp hLength
        obtain ⟨_, hReserve, -⟩ := bind_eq_ok_iff.mp hLength
        obtain ⟨hSize, -⟩ := Shape.size_of_checkedSize hCount
        rw [Shape.size, Shape.size, Nat.mul_one] at hSize
        rw [hSize, reserve, if_neg h.not_gt] at hReserve
        cases hReserve

end Ranges

variable {engine : Engine} {b : CallBindings} {start stop step : Int64}

/-- A call has integers as its bounds and its step, and leaves the element type out. -/
structure IntegerBounds (engine : Engine) (b : CallBindings) (start stop step : Int64) : Prop where
  start : ∃ id, b.required "start" = .ok id ∧ engine.scalar id = .ok (.int start)
  stop : ∃ id, engine.given (b.get? "stop") = some id ∧ engine.scalar id = .ok (.int stop)
  step : ∃ id, engine.given (b.get? "step") = some id ∧ engine.scalar id = .ok (.int step)
  dtype : engine.dtype? (b.get? "dtype") = .ok none

theorem IntegerBounds.rangeOf_eq (h : engine.IntegerBounds b start stop step) :
    engine.rangeOf b = (liftM (rangeLength (nearestFloat start) (nearestFloat stop) (nearestFloat step))
      >>= fun length => always (createArray (.fresh (.ofValues .int64
        (rangeValues (nearestFloat start) (nearestFloat step) .int64 length) [length])))) := by
  obtain ⟨first, hFirst, hStart⟩ := h.start
  obtain ⟨last, hLast, hStop⟩ := h.stop
  obtain ⟨stride, hStride, hStep⟩ := h.step
  rw [rangeOf, hFirst, bind_ok]
  simp only [hLast, hStride, optional, Option.mapM_some, hStart, hStop, hStep, h.dtype]
  rfl

/-- An operation stores a new array of integers with one axis. -/
def CreatesIntegers (engine : Engine) (op : NativeOp) (n : ℕ) (element : ℕ → ℤ) : Prop :=
  ∃ c object buffers, engine.Creates op object buffers ∧ object.Presents buffers c ∧
    c.shape = [n] ∧ c.dtype = .int64 ∧ ∀ i < n, ∃ v, c.element [i] = .int v ∧ v.toInt = element i

theorem element_rangeValues (x y : Float) {n i : ℕ} (hi : i < n) :
    (Contents.ofValues .int64 (rangeValues x y .int64 n) [n]).element [i]
      = .int (truncated (x + i.toUInt64.toFloat * y)) := by
  have hPlace : Shape.dot [i] (Shape.strides [n]) = i := by simp [Shape.dot, Shape.strides, Shape.paddedSize]
  rw [Contents.element, Contents.get, Contents.ofValues, hPlace, rangeValues, Array.getD_eq_getD_getElem?]
  simp [hi, Scalar.cast, Scalar.toInt64]

/-- What a call stores is known from the length and from the truncated elements. -/
theorem IntegerBounds.creates (h : engine.IntegerBounds b start stop step) {n : ℕ} {element : ℕ → ℤ}
    (hLength : rangeLength (nearestFloat start) (nearestFloat stop) (nearestFloat step) = .ok n)
    (hElements : ∀ i < n,
      (truncated (nearestFloat start + i.toUInt64.toFloat * nearestFloat step)).toInt = element i) :
    engine.CreatesIntegers (engine.numericCall .arange b) n element := by
  let c : Contents :=
    .ofValues .int64 (rangeValues (nearestFloat start) (nearestFloat step) .int64 n) [n]
  have hRegular : c.Regular := Contents.regular_ofValues (by simp [rangeValues, Shape.size])
  obtain ⟨object, buffers, hCreates, hPresents⟩ :=
    exists_creates_array engine hRegular (List.cons_ne_nil n [])
  have hRun : engine.numericCall .arange b = always (createArray (.fresh c)) := by
    rw [numericCall, h.rangeOf_eq, hLength, bind_ok]
  refine ⟨c, object, buffers, hRun ▸ hCreates, hPresents, rfl, rfl,
    fun i hi => ⟨_, ?_, hElements i hi⟩⟩
  exact element_rangeValues _ _ hi

/-- A range of integers is computed with floats: its length is the ceiling of a rounded quotient, and
its elements are rounded sums of rounded products, clamped to the integers of the machine. A length
that cannot be allocated is refused, and changes nothing. The range is exact if its bounds, their
distance and its step are whole multiples of some power of two, the first three by integers of at most
53 bits. -/
theorem arange_of_integers (h : engine.IntegerBounds b start stop step) (hStep : step ≠ 0) :
    let length := ⌈roundedQuotient start.toInt stop.toInt step.toInt⌉.toNat
    (length < reserveLimit → engine.CreatesIntegers (engine.numericCall .arange b) length fun i =>
      (Int64.ofIntClamp ⌊roundedElement start.toInt step.toInt i⌋).toInt) ∧
    (reserveLimit ≤ length →
      ∃ e, (engine.numericCall .arange b).perform engine = (.error e, engine)) ∧
    ∀ t : ℕ, 2 ^ t ∣ start.toInt → 2 ^ t ∣ stop.toInt → 2 ^ t ∣ step.toInt →
      |start.toInt| ≤ 2 ^ (53 + t) → |stop.toInt| ≤ 2 ^ (53 + t) →
      |stop.toInt - start.toInt| ≤ 2 ^ (53 + t) →
      stepCount start.toInt stop.toInt step.toInt < reserveLimit →
      engine.CreatesIntegers (engine.numericCall .arange b)
        (stepCount start.toInt stop.toInt step.toInt) fun i => start.toInt + i * step.toInt := by
  have hNonzero : step.toInt ≠ 0 := mt (Int64.toInt_inj (y := 0)).mp hStep
  refine ⟨fun hFew => h.creates (rangeLength_of_lt start stop hStep hFew) fun i hi => ?_,
    fun hMany => ?_, ?_⟩
  · rw [truncated_element start step (hi.trans hFew)]
  · obtain ⟨e, hError⟩ := rangeLength_of_le start stop hStep hMany
    refine ⟨e, ?_⟩
    rw [numericCall, h.rangeOf_eq, hError]
    rfl
  · intro t hDivStart hDivStop hDivStep hStart hStop hDistance hFew
    obtain ⟨hCount, hElements⟩ :=
      exact_of_multiples hNonzero hDivStart hDivStop hDivStep hStart hStop hDistance
    rw [← hCount] at hFew
    refine h.creates (hCount ▸ rangeLength_of_lt start stop hStep hFew) fun i hi => ?_
    have hBetween := between_of_lt_stepCount hNonzero hi
    have hLow := start.minValue_le_toInt
    have hHigh := start.toInt_le
    have hLow' := stop.minValue_le_toInt
    have hHigh' := stop.toInt_le
    rw [truncated_element start step (hi.trans (hCount ▸ hFew)), hElements i hi, Int.floor_intCast,
      Int64.toInt_ofIntClamp (by omega) (by omega)]

/-- An engine with three integers, for a range from the first to the second in steps of the third. -/
def withBounds (start stop step : Int64) : Engine where
  heap := ⟨#[⟨0, some ⟨1, .int start⟩⟩, ⟨0, some ⟨1, .int stop⟩⟩, ⟨0, some ⟨1, .int step⟩⟩], [], 3⟩
  buffers := .empty
  generator := ⟨7⟩
  entropy := ⟨11⟩
  names := default

/-- The call that names the three integers by the parameters of a range. -/
def rangeBindings : CallBindings :=
  ⟨"arange", [("start", some ⟨0, 0⟩), ("stop", some ⟨1, 0⟩), ("step", some ⟨2, 0⟩)]⟩

theorem integerBounds_withBounds (start stop step : Int64) :
    (withBounds start stop step).IntegerBounds rangeBindings start stop step where
  start := ⟨⟨0, 0⟩, rfl, rfl⟩
  stop := ⟨⟨1, 0⟩, rfl, rfl⟩
  step := ⟨⟨2, 0⟩, rfl, rfl⟩
  dtype := rfl

/-- A range over half of all integers is exact, with steps that are multiples of a large power of two. -/
theorem arange_of_long_steps :
    let engine := withBounds (-0x4000000000000000) 0x4000000000000000 0x3000000000000000
    engine.CreatesIntegers (engine.numericCall .arange rangeBindings) 3 fun i =>
      -0x4000000000000000 + i * 0x3000000000000000 := by
  intro engine
  have hBounds : engine.IntegerBounds rangeBindings _ _ _ := integerBounds_withBounds _ _ _
  obtain ⟨-, -, hExact⟩ := arange_of_integers hBounds (by decide)
  have hCount : stepCount (-0x4000000000000000) 0x4000000000000000 0x3000000000000000 = 3 := by
    have hCeil : ⌈((0x4000000000000000 - -0x4000000000000000 : ℤ) : ℚ) / (0x3000000000000000 : ℤ)⌉ = 3 :=
      Int.ceil_eq_iff.mpr ⟨by norm_num, by norm_num⟩
    rw [stepCount, hCeil]
    rfl
  rw [← hCount]
  exact hExact 60 (by decide) (by decide) (by decide) (by decide) (by decide) (by decide)
    (hCount.trans_lt (by decide))

/-- Between two integers of 54 bits a range has one element. What is stored instead are two elements,
of which neither is the start. -/
theorem not_exact_of_odd_start :
    let engine := withBounds 0x20000000000001 0x20000000000002 1
    engine.IntegerBounds rangeBindings 0x20000000000001 0x20000000000002 1 ∧
    stepCount 0x20000000000001 0x20000000000002 1 = 1 ∧
    engine.CreatesIntegers (engine.numericCall .arange rangeBindings) 2 fun _ => 0x20000000000000 := by
  intro engine
  have hBounds : engine.IntegerBounds rangeBindings _ _ _ := integerBounds_withBounds _ _ _
  have hLength : rangeLength (nearestFloat 0x20000000000001) (nearestFloat 0x20000000000002)
      (nearestFloat 1) = .ok 2 := by decide +kernel
  refine ⟨hBounds, by norm_num [stepCount], hBounds.creates hLength ?_⟩
  decide +kernel

end Engine

end ArrayBridge
