import ArrayBridge.Slice
import Mathlib.Tactic.SplitIfs

/-! Positions and slices stay on their axis.

A resolved position is a cell of the axis, and the positions of a resolved slice
are different cells of the axis. This holds for axes of every length: those that
do not fit a signed word have no positions at all. -/

namespace ArrayBridge

theorem signedLength_le (size : Nat) : signedLength size ≤ size := by
  have hWords : Int64.size = 18446744073709551616 := rfl
  rw [signedLength, Int64.toInt_ofNat', Int.bmod_def, hWords]
  split_ifs <;> omega

theorem resolvePosition_eq_ok_iff {index : Int64} {size axis position : Nat} :
    resolvePosition index size axis = .ok position ↔
      -signedLength size ≤ index.toInt ∧ index.toInt < signedLength size ∧
        (position : Int)
          = if index.toInt < 0 then index.toInt + signedLength size else index.toInt := by
  unfold resolvePosition
  by_cases hSign : index.toInt < 0
  · simp only [hSign, if_true]
    split_ifs with hRange
    · rw [Except.ok.injEq]
      omega
    · simp only [false_iff]
      omega
  · simp only [hSign, if_false]
    split_ifs with hRange
    · rw [Except.ok.injEq]
      omega
    · simp only [false_iff]
      omega

theorem lt_of_resolvePosition {index : Int64} {size axis position : Nat}
    (h : resolvePosition index size axis = .ok position) : position < size := by
  obtain ⟨_, _, hPosition⟩ := resolvePosition_eq_ok_iff.mp h
  have := signedLength_le size
  split_ifs at hPosition <;> omega

namespace SliceBounds

theorem clamp_le (bound : Int64) (length lower upper : Int) :
    clamp bound length lower upper ≤ upper := Int.min_le_right _ _

theorem clamp_eq_or_le (bound : Int64) (length lower upper : Int) :
    clamp bound length lower upper = upper ∨ lower ≤ clamp bound length lower upper := by
  simp only [clamp]
  omega

/-- A slice that runs forward and has a position starts on the axis and ends on
it. -/
theorem forward_inside {bounds : SliceBounds} {length step : Int} (hStep : 0 < step)
    (h : bounds.first length step < bounds.bound length step) :
    0 ≤ bounds.first length step ∧ bounds.bound length step ≤ length := by
  have hBound : bounds.bound length step ≤ length := by
    unfold bound
    split
    · rw [if_pos hStep]
      exact clamp_le _ _ _ _
    · exact Int.le_of_eq (if_pos hStep)
  refine ⟨?_, hBound⟩
  unfold first at h ⊢
  split at h
  · rw [if_pos hStep] at h ⊢
    rename_i start _
    have := clamp_eq_or_le start length 0 length
    omega
  · exact Int.le_of_eq (if_pos hStep).symm

/-- A slice that runs backward and has a position starts on the axis and ends
before it. -/
theorem backward_inside {bounds : SliceBounds} {length step : Int} (hStep : step < 0)
    (h : bounds.bound length step < bounds.first length step) :
    bounds.first length step < length ∧ -1 ≤ bounds.bound length step := by
  have hNotForward : ¬ 0 < step := by omega
  have hFirst : bounds.first length step < length := by
    unfold first
    split
    · rw [if_neg hNotForward]
      rename_i start _
      have := clamp_le start length (-1) (length - 1)
      omega
    · rw [if_neg hNotForward]
      omega
  refine ⟨hFirst, ?_⟩
  unfold bound at h ⊢
  split at h
  · rw [if_neg hNotForward] at h ⊢
    rename_i stop _
    have := clamp_eq_or_le stop length (-1) (length - 1)
    omega
  · exact Int.le_of_eq (if_neg hNotForward).symm

/-- Every step that is counted stays before the bound. -/
theorem countSteps_spec {first bound step : Int} {k : Nat}
    (hk : k < countSteps first bound step) :
    (0 < step ∧ first < bound ∧ 0 ≤ k * step ∧ first + k * step < bound) ∨
      (step < 0 ∧ bound < first ∧ k * step ≤ 0 ∧ bound < first + k * step) := by
  have hDivide (distance : Int) (hSpan : 0 < distance) (hStep : step ≠ 0)
      (h : k < (distance - 1).toNat / step.natAbs + 1) : (k : Int) * step.natAbs < distance := by
    have hScaled := (Nat.le_div_iff_mul_le (Int.natAbs_pos.mpr hStep)).mp (Nat.le_of_lt_succ h)
    have : ((k * step.natAbs : Nat) : Int) < distance := by omega
    simpa using this
  unfold countSteps at hk
  split_ifs at hk with hForward hBackward
  · have hAbs : (step.natAbs : Int) = step := by omega
    have hLess := hDivide (bound - first) (by omega) (by omega) hk
    rw [hAbs] at hLess
    exact .inl ⟨hForward.1, hForward.2, Int.mul_nonneg (by omega) (by omega), by omega⟩
  · have hAbs : (step.natAbs : Int) = -step := by omega
    have hLess := hDivide (first - bound) (by omega) (by omega) hk
    rw [hAbs, Int.mul_neg] at hLess
    have hSign := Int.mul_nonneg (show (0 : Int) ≤ k by omega) (show 0 ≤ -step by omega)
    rw [Int.mul_neg] at hSign
    exact .inr ⟨hBackward.1, hBackward.2, by omega, by omega⟩
  · omega

theorem step_eq_zero_iff {bounds : SliceBounds} :
    (bounds.step.getD 1).toInt = 0 ↔ bounds.step = some 0 := by
  cases bounds.step with
  | none => decide
  | some step =>
      rw [Option.getD_some, Option.some.injEq, ← Int64.toInt_inj]
      rfl

/-- A slice is refused only for a step of zero. -/
theorem resolve_isOk_iff {bounds : SliceBounds} {size : Nat} :
    (∃ range, bounds.resolve size = .ok range) ↔ bounds.step ≠ some 0 := by
  simp only [resolve, step_eq_zero_iff]
  split_ifs with h <;> simp [h]

section Resolved

variable {bounds : SliceBounds} {size k : Nat} {range : SliceRange}

/-- What a slice is resolved to. A step that is never taken is reduced to its sign. -/
theorem of_resolve (h : bounds.resolve size = .ok range) :
    let step := (bounds.step.getD 1).toInt
    range.start = bounds.first (signedLength size) step ∧
      range.count = countSteps (bounds.first (signedLength size) step)
        (bounds.bound (signedLength size) step) step ∧
      range.step = if 1 < range.count then step else step.sign := by
  simp only [resolve] at h
  split at h
  · cases h
  · cases h
    exact ⟨rfl, rfl, rfl⟩

/-- The positions of a resolved slice, without the reduction of a step that is
never taken. -/
theorem position_eq (h : bounds.resolve size = .ok range) (hk : k < range.count) :
    let step := (bounds.step.getD 1).toInt
    k < countSteps (bounds.first (signedLength size) step)
        (bounds.bound (signedLength size) step) step ∧
      range.position k = bounds.first (signedLength size) step + k * step := by
  obtain ⟨hStart, hCount, hStep⟩ := of_resolve h
  refine ⟨hCount ▸ hk, ?_⟩
  rw [SliceRange.position, hStart, hStep]
  split_ifs with hMany
  · rfl
  · obtain rfl : k = 0 := by omega
    simp

/-- The positions of a resolved slice are on the axis. -/
theorem position_inside (h : bounds.resolve size = .ok range) (hk : k < range.count) :
    0 ≤ range.position k ∧ range.position k < size := by
  obtain ⟨hCount, hPosition⟩ := position_eq h hk
  have hLength := signedLength_le size
  rw [hPosition]
  rcases countSteps_spec hCount with ⟨hStep, hSpan, hLow, hHigh⟩ | ⟨hStep, hSpan, hHigh, hLow⟩
  · have := forward_inside hStep hSpan
    omega
  · have := backward_inside hStep hSpan
    omega

/-- The positions of a resolved slice differ from each other. -/
theorem position_injective {j : Nat} (h : bounds.resolve size = .ok range)
    (hj : j < range.count) (hk : k < range.count)
    (hEq : range.position j = range.position k) : j = k := by
  obtain ⟨hCount, hFirst⟩ := position_eq h hj
  obtain ⟨-, hSecond⟩ := position_eq h hk
  have hStep : (bounds.step.getD 1).toInt ≠ 0 := by
    rcases countSteps_spec hCount with ⟨h, -⟩ | ⟨h, -⟩ <;> omega
  have hScaled : (j : Int) * (bounds.step.getD 1).toInt = k * (bounds.step.getD 1).toInt := by
    omega
  exact_mod_cast Int.eq_of_mul_eq_mul_right hStep hScaled

end Resolved

end SliceBounds

end ArrayBridge
