import ArrayBridge.Proofs.Slicing
import ArrayBridge.Word

/-! Which positions a slice selects.

A slice is documented by two steps. Its bounds become indices: a negative bound counts from the
end, a bound outside of the axis is moved to its nearest end, and a bound that is not given is the
end that the direction of the step asks for. The positions are then the numbers from the first
index on, step by step, that do not reach the second one. The code computes how many of them there
are by one division. It gives the documented positions for every axis whose length is a signed
word, and no sum, difference or product on the way leaves the words. -/

namespace ArrayBridge

/-- The numbers from `start` on in steps of `step` that lie before `stop`. -/
def progression (start stop step : Int) : List Int :=
  if 0 < step ∧ start < stop ∨ step < 0 ∧ stop < start then
    start :: progression (start + step) stop step
  else []
termination_by (if 0 < step then stop - start else start - stop).toNat

namespace SliceBounds

/-- An index on an axis of the given length: a negative one counts from the end, and one beyond the
limits is replaced by the limit. -/
def adjust (index length lower upper : Int) : Int :=
  if index < 0 then
    if index + length < lower then lower else index + length
  else if upper < index then upper else index

/-- The start, the stop and the step of a slice on an axis of the given length, as they are
documented. -/
def indices (bounds : SliceBounds) (length : Int) : Int × Int × Int :=
  let step := match bounds.step with
    | none => 1
    | some step => step.toInt
  let lower := if step < 0 then -1 else 0
  let upper := if step < 0 then length - 1 else length
  let start := match bounds.start with
    | none => if step < 0 then upper else lower
    | some index => adjust index.toInt length lower upper
  let stop := match bounds.stop with
    | none => if step < 0 then lower else upper
    | some index => adjust index.toInt length lower upper
  (start, stop, step)

/-- The positions that a slice selects on an axis of the given length. -/
def positions (bounds : SliceBounds) (length : Nat) : List Int :=
  let (start, stop, step) := bounds.indices length
  progression start stop step

section Positions

variable {bounds : SliceBounds} {size : Nat} {first bound step : Int}

/-- Both limits of a clamped index are in order, so it does not matter which is applied first. -/
theorem clamp_eq_adjust (index : Int64) {length lower upper : Int} (hLimits : lower ≤ upper)
    (hEnd : length - 1 ≤ upper) (hFront : lower ≤ 0) :
    clamp index length lower upper = adjust index.toInt length lower upper := by
  simp only [clamp, adjust]
  split_ifs <;> omega

/-- The documented indices are those that the code starts and ends with. -/
theorem indices_eq (bounds : SliceBounds) {length : Int} (hLength : 0 ≤ length)
    (hStep : bounds.step ≠ some 0) :
    let step := (bounds.step.getD 1).toInt
    bounds.indices length = (bounds.first length step, bounds.bound length step, step) := by
  intro step
  have hNonzero : step ≠ 0 := mt step_eq_zero_iff.mp hStep
  have hGiven : (match bounds.step with | none => 1 | some step => step.toInt) = step := by
    cases hCase : bounds.step <;> simp [step, hCase]
  have hClamp (index : Int64) :
      (if 0 < step then clamp index length 0 length else clamp index length (-1) (length - 1)) =
        adjust index.toInt length (if step < 0 then -1 else 0)
          (if step < 0 then length - 1 else length) := by
    by_cases hSign : step < 0
    · rw [if_neg (by omega), if_pos hSign, if_pos hSign]
      exact clamp_eq_adjust index (by omega) (by omega) (by omega)
    · rw [if_pos (by omega), if_neg hSign, if_neg hSign]
      exact clamp_eq_adjust index (by omega) (by omega) (by omega)
  simp only [indices, first, SliceBounds.bound, hGiven, hClamp]
  congr 1
  · cases bounds.start with
    | none => dsimp only; split_ifs <;> omega
    | some index => rfl
  · congr 1
    cases bounds.stop with
    | none => dsimp only; split_ifs <;> omega
    | some index => rfl

/-- One stride less of a distance is one quotient less, rounded up. -/
theorem quotient_succ (distance stride : Nat) (hDistance : 0 < distance) (hStride : 0 < stride) :
    (distance - 1) / stride + 1
      = (if stride < distance then (distance - stride - 1) / stride + 1 else 0) + 1 := by
  split
  · rename_i hMore
    rw [Nat.div_eq_sub_div hStride (by omega), Nat.sub_right_comm]
  · rw [Nat.div_eq_of_lt (by omega)]

/-- Each step of a progression is counted. -/
theorem countSteps_succ (h : 0 < step ∧ first < bound ∨ step < 0 ∧ bound < first) :
    countSteps first bound step = countSteps (first + step) bound step + 1 := by
  rcases h with ⟨hStep, hSpan⟩ | ⟨hStep, hSpan⟩
  · have hCount := quotient_succ (bound - first).toNat step.natAbs (by omega) (by omega)
    simp only [countSteps, hStep, hSpan, true_and, if_true, show ¬ step < 0 by omega, false_and,
      if_false]
    rw [show (bound - first - 1).toNat = (bound - first).toNat - 1 by omega, hCount,
      show (bound - (first + step) - 1).toNat = (bound - first).toNat - step.natAbs - 1 by omega]
    simp only [show step.natAbs < (bound - first).toNat ↔ first + step < bound by omega]
  · have hCount := quotient_succ (first - bound).toNat step.natAbs (by omega) (by omega)
    simp only [countSteps, hStep, hSpan, true_and, if_true, show ¬ 0 < step by omega, false_and,
      if_false]
    rw [show (first - bound - 1).toNat = (first - bound).toNat - 1 by omega, hCount,
      show (first + step - bound - 1).toNat = (first - bound).toNat - step.natAbs - 1 by omega]
    simp only [show step.natAbs < (first - bound).toNat ↔ bound < first + step by omega]

/-- The positions that are counted are those of the progression. -/
theorem progression_eq (first bound step : Int) :
    progression first bound step
      = (List.range (countSteps first bound step)).map fun k : Nat => first + k * step := by
  fun_induction progression first bound step with
  | case1 first h ih =>
      rw [ih, countSteps_succ h, List.range_succ_eq_map, List.map_cons, List.map_map]
      congr 1
      · omega
      · apply List.map_congr_left
        intro k _
        simp only [Function.comp_apply, Nat.succ_eq_add_one]
        push_cast
        rw [Int.add_mul, Int.one_mul]
        omega
  | case2 first h =>
      have hNone : countSteps first bound step = 0 := by
        simp only [not_or] at h
        rw [countSteps, if_neg h.1, if_neg h.2]
      rw [hNone]
      rfl

/-- The positions of a resolved slice are the documented ones. -/
theorem map_position_eq {range : SliceRange} (hSize : size < Word.signedLimit)
    (h : bounds.resolve size = .ok range) :
    (List.range range.count).map range.position = bounds.positions size := by
  have hStep : bounds.step ≠ some 0 := resolve_isOk_iff.mp ⟨range, h⟩
  have hCount := (of_resolve h).2.1
  rw [positions, indices_eq bounds (Int.natCast_nonneg size) hStep, ← signedLength_of_lt hSize]
  dsimp only
  rw [progression_eq, ← hCount]
  refine List.map_congr_left fun k hk => ?_
  exact (position_eq h (List.mem_range.mp hk)).2

/-- A slice that stands still has no positions. -/
theorem positions_of_still (h : bounds.step = some 0) : bounds.positions size = [] := by
  have hStep : (bounds.indices size).2.2 = 0 := by simp [indices, h]
  change progression _ _ (bounds.indices size).2.2 = []
  rw [hStep, progression]
  simp

/-- The documented positions are on the axis. -/
theorem inside_of_mem_positions (hSize : size < Word.signedLimit) {position : Int}
    (h : position ∈ bounds.positions size) : 0 ≤ position ∧ position < size := by
  by_cases hStep : bounds.step = some 0
  · rw [positions_of_still hStep] at h
    cases h
  · obtain ⟨range, hResolve⟩ : ∃ range, bounds.resolve size = .ok range :=
      resolve_isOk_iff.mpr hStep
    rw [← map_position_eq hSize hResolve] at h
    obtain ⟨k, hk, rfl⟩ := List.mem_map.mp h
    exact position_inside hResolve (List.mem_range.mp hk)

/-- A slice has at most as many positions as its axis. -/
theorem length_positions_le (bounds : SliceBounds) (hSize : size < Word.signedLimit) :
    (bounds.positions size).length ≤ size := by
  by_cases hStep : bounds.step = some 0
  · rw [positions_of_still hStep]
    exact Nat.zero_le size
  · obtain ⟨range, hResolve⟩ : ∃ range, bounds.resolve size = .ok range :=
      resolve_isOk_iff.mpr hStep
    rw [← map_position_eq hSize hResolve, List.length_map, List.length_range]
    cases hCount : range.count with
    | zero => exact Nat.zero_le size
    | succ last =>
        -- The last position is at least as far from the first as there are steps between them.
        have hFirst : 0 < range.count := by omega
        have hLast : last < range.count := by omega
        have hStart := (position_eq hResolve hFirst).2
        have hEnd := (position_eq hResolve hLast).2
        have hFirstInside := position_inside hResolve hFirst
        have hLastInside := position_inside hResolve hLast
        have hNonzero := mt step_eq_zero_iff.mp hStep
        have hFar : last ≤ ((last : Int) * (bounds.step.getD 1).toInt).natAbs := by
          rw [Int.natAbs_mul, Int.natAbs_natCast]
          exact Nat.le_mul_of_pos_right last (Int.natAbs_pos.mpr hNonzero)
        simp only [Int.natCast_zero, Int.zero_mul, Int.add_zero] at hStart
        omega

end Positions

/-! ### The same in machine words

Every sum, difference and product is made only if it is a signed word. -/

section Words

/-- A bound that counts from the end is counted from the front, if that is a word. -/
def clampInWords (bound : Int64) (length lower upper : Int) : Option Int := do
  let counted ← if bound.toInt < 0 then Word.signed? (bound.toInt + length) else some bound.toInt
  return min (max counted lower) upper

/-- An end of a slice: a given bound, or the one of the two ends of the axis for its direction. -/
def endInWords (given : Option Int64) (length step forward : Int) (backward : Option Int) :
    Option Int :=
  match given with
  | some bound =>
    if 0 < step then clampInWords bound length 0 length
    else do
      let last ← Word.signed? (length - 1)
      clampInWords bound length (-1) last
  | none => if 0 < step then some forward else backward

/-- The steps over a distance, if it is a word. -/
def stepsInWords (front back step : Int) : Option Nat := do
  let distance ← Word.signed? (back - front)
  let inside ← Word.signed? (distance - 1)
  let count ← Word.ofNat? (inside.toNat / step.natAbs + 1)
  return count.toNat

def countInWords (first bound step : Int) : Option Nat :=
  if 0 < step ∧ first < bound then stepsInWords first bound step
  else if step < 0 ∧ bound < first then stepsInWords bound first step
  else some 0

/-- A slice resolved in machine words; nothing if a number on the way is none. -/
def resolveInWords (bounds : SliceBounds) (size : Nat) : Option (Except Exception SliceRange) :=
  let step := (bounds.step.getD 1).toInt
  if step = 0 then some (.error .zeroSliceStep)
  else do
    let length ← Word.signed? size
    let first ← endInWords bounds.start length step 0 (Word.signed? (length - 1))
    let bound ← endInWords bounds.stop length step length (some (-1))
    let count ← countInWords first bound step
    return .ok ⟨first, count, if 1 < count then step else step.sign⟩

end Words

end SliceBounds

/-- A position of a slice computed in machine words. -/
def SliceRange.positionInWords (range : SliceRange) (k : Nat) : Option Int := do
  let walked ← Word.signed? (k * range.step)
  Word.signed? (range.start + walked)

/-- The way from one position of an axis to another is a word if the length of the axis is. -/
theorem SliceRange.positionInWords_of_inside {range : SliceRange} {size k : Nat}
    (hSize : size < Word.signedLimit)
    (hInside : ∀ k < range.count, 0 ≤ range.position k ∧ range.position k < size)
    (hk : k < range.count) : range.positionInWords k = some (range.position k) := by
  have hFirst := hInside 0 (Nat.zero_lt_of_lt hk)
  have hHere := hInside k hk
  simp only [SliceRange.position, Int.natCast_zero, Int.zero_mul, Int.add_zero] at hFirst hHere
  have hLimit : (size : Int) < Word.signedLimit := Int.ofNat_lt.mpr hSize
  rw [SliceRange.positionInWords, Word.signed?_of_mem (by omega) (by omega)]
  exact Word.signed?_of_mem (by omega) (by omega)

namespace SliceBounds

section Words

variable {bounds : SliceBounds} {size k : Nat} {length first bound step : Int}

theorem clampInWords_eq (index : Int64) (lower upper : Int) (hLength : 0 ≤ length)
    (hFits : length < Word.signedLimit) :
    clampInWords index length lower upper = some (clamp index length lower upper) := by
  have hLow := index.le_toInt
  unfold clampInWords clamp
  dsimp only
  split
  · rw [Word.signed?_of_mem (by rw [Word.signedLimit]; omega) (by omega)]
    rfl
  · rfl

/-- A given end is clamped to the limits for its direction. -/
theorem endInWords_some (index : Int64) (step forward : Int) (backward : Option Int)
    (hLength : 0 ≤ length) (hFits : length < Word.signedLimit) :
    endInWords (some index) length step forward backward =
      some (if 0 < step then clamp index length 0 length
        else clamp index length (-1) (length - 1)) := by
  have hLast : Word.signed? (length - 1) = some (length - 1) :=
    Word.signed?_of_mem (by rw [Word.signedLimit]; omega) (by omega)
  simp only [endInWords, hLast]
  split <;> exact clampInWords_eq index _ _ hLength hFits

theorem endInWords_start (bounds : SliceBounds) (step : Int) (hLength : 0 ≤ length)
    (hFits : length < Word.signedLimit) :
    endInWords bounds.start length step 0 (Word.signed? (length - 1))
      = some (bounds.first length step) := by
  unfold SliceBounds.first
  cases bounds.start with
  | none =>
      rw [endInWords, Word.signed?_of_mem (by rw [Word.signedLimit]; omega) (by omega)]
      split <;> rfl
  | some index => exact endInWords_some index step _ _ hLength hFits

theorem endInWords_stop (bounds : SliceBounds) (step : Int) (hLength : 0 ≤ length)
    (hFits : length < Word.signedLimit) :
    endInWords bounds.stop length step length (some (-1)) = some (bounds.bound length step) := by
  unfold SliceBounds.bound
  cases bounds.stop with
  | none =>
      rw [endInWords]
      split <;> rfl
  | some index => exact endInWords_some index step _ _ hLength hFits

/-- A distance on an axis is a word, and so is its number of steps. -/
theorem stepsInWords_eq {front back : Int} (step : Int) (hSpan : front < back)
    (hFits : back - front < Word.signedLimit) :
    stepsInWords front back step = some ((back - front - 1).toNat / step.natAbs + 1) := by
  have hQuotient : (back - front - 1).toNat / step.natAbs + 1 < Word.count := by
    have hLess := Nat.div_le_self (back - front - 1).toNat step.natAbs
    rw [Word.count]
    rw [Word.signedLimit] at hFits
    omega
  unfold stepsInWords
  rw [Word.signed?_of_mem (by rw [Word.signedLimit]; omega) hFits, Option.bind_eq_bind,
    Option.bind_some, Word.signed?_of_mem (by rw [Word.signedLimit]; omega) (by omega),
    Option.bind_eq_bind, Option.bind_some, Word.ofNat?, if_pos hQuotient]
  exact congrArg some (Nat.mod_eq_of_lt hQuotient)

/-- No number that resolves a slice on an axis of words leaves the words. -/
theorem resolveInWords_eq (bounds : SliceBounds) (hSize : size < Word.signedLimit) :
    bounds.resolveInWords size = some (bounds.resolve size) := by
  have hFits : (size : Int) < Word.signedLimit := Int.ofNat_lt.mpr hSize
  unfold resolveInWords resolve
  dsimp only
  split
  · rfl
  rename_i hStep
  generalize (bounds.step.getD 1).toInt = step at hStep
  rw [Word.signed?_natCast, if_pos hSize, signedLength_of_lt hSize]
  have hCount : countInWords (bounds.first size step) (bounds.bound size step) step
      = some (countSteps (bounds.first size step) (bounds.bound size step) step) := by
    unfold countInWords countSteps
    split
    · rename_i hForward
      have hInside := forward_inside hForward.1 hForward.2
      exact stepsInWords_eq step hForward.2 (by omega)
    · split
      · rename_i hBackward
        have hInside := backward_inside hBackward.1 hBackward.2
        exact stepsInWords_eq step hBackward.2 (by omega)
      · rfl
  simp only [Option.bind_eq_bind, Option.bind_some,
    endInWords_start bounds step (Int.natCast_nonneg size) hFits,
    endInWords_stop bounds step (Int.natCast_nonneg size) hFits, hCount]
  rfl

/-- The steps to a position of a slice do not leave the words, and neither does the position. -/
theorem positionInWords_eq {range : SliceRange} (hSize : size < Word.signedLimit)
    (h : bounds.resolve size = .ok range) (hk : k < range.count) :
    range.positionInWords k = some (range.position k) :=
  SliceRange.positionInWords_of_inside hSize (fun _ hk => position_inside h hk) hk

end Words

/-- Resolving a slice on an axis whose length is a signed word is refused for a step of zero only.
Otherwise the positions that result are the documented ones, all of them are on the axis, the step
is the given one wherever it is taken, and no number on the way leaves the machine words: neither
those that resolve the slice nor those that walk to a position. -/
theorem resolve_positions (bounds : SliceBounds) {size : Nat} (hSize : size < Word.signedLimit) :
    ((∃ e, bounds.resolve size = .error e) ↔ bounds.step = some 0) ∧
    (∀ e, bounds.resolve size = .error e → e.kind = .valueError) ∧
    (bounds.step ≠ some 0 → ∃ range, bounds.resolve size = .ok range ∧
      (List.range range.count).map range.position = bounds.positions size ∧
      (∀ position ∈ bounds.positions size, 0 ≤ position ∧ position < size) ∧
      (1 < range.count → range.step = (bounds.step.getD 1).toInt) ∧
      (∀ k < range.count, range.positionInWords k = some (range.position k))) ∧
    bounds.resolveInWords size = some (bounds.resolve size) := by
  refine ⟨?refused, ?kind, fun hStep => ?positions, resolveInWords_eq bounds hSize⟩
  case refused =>
    constructor
    · rintro ⟨e, hError⟩
      refine Decidable.byContradiction fun hStep => ?_
      obtain ⟨range, hResolve⟩ := resolve_isOk_iff.mpr hStep
      rw [hResolve] at hError
      cases hError
    · intro hZero
      exact ⟨.zeroSliceStep, if_pos (step_eq_zero_iff.mpr hZero)⟩
  case kind =>
    intro e hError
    unfold resolve at hError
    dsimp only at hError
    split at hError <;> cases hError
    rfl
  case positions =>
    obtain ⟨range, hResolve⟩ : ∃ range, bounds.resolve size = .ok range :=
      resolve_isOk_iff.mpr hStep
    have hPositions := map_position_eq hSize hResolve
    have hTaken : 1 < range.count → range.step = (bounds.step.getD 1).toInt :=
      fun hMany => (of_resolve hResolve).2.2.trans (if_pos hMany)
    exact ⟨range, hResolve, hPositions, fun _ => inside_of_mem_positions hSize, hTaken,
      fun k hk => positionInWords_eq hSize hResolve hk⟩

/-- From the last position backward to an end that no axis has. -/
theorem resolve_positions_of_backward :
    5 < Word.signedLimit ∧
      (⟨some (-1), some Int64.minValue, some (-2)⟩ : SliceBounds).positions 5 = [4, 2, 0] := by
  have hSize : 5 < Word.signedLimit := by decide
  obtain ⟨-, -, hRange, -⟩ := resolve_positions ⟨some (-1), some Int64.minValue, some (-2)⟩ hSize
  obtain ⟨range, hResolve, hPositions, -⟩ := hRange (by decide)
  cases hResolve
  exact ⟨hSize, hPositions.symm⟩

end SliceBounds

end ArrayBridge
