import ArrayBridge.Proofs.Choices

/-! Picks by weight.

Nothing in a choice by weight depends on the numbers that the weights are: they are checked, summed and
compared with a share of their sum. So it is one function of weights and shares, which an engine calls
with floats and which can be called with exact numbers as well. With those a running total that is the
first to exceed a share of the sum belongs to a weight above zero, and there is one as long as the sum is
above zero. Without replacement the sum of the weights that remain can come to zero. Then no total
exceeds a share of it, and the position that is picked has no weight. -/

namespace ArrayBridge

namespace Choice

open scoped List

section Numbers

variable {α : Type} [OfNat α 0] [OfNat α 1] [OfScientific α] [Add α] [Sub α] [Mul α] [LT α]
  [DecidableLT α]

/-- The running totals of weights, which must be as many as the positions, must not be negative and have
to add up to one. -/
def checkedTotals (magnitude : α → α) (size : Nat) (weights : List α) : Except Exception (List α) := do
  if weights.length ≠ size then throw .weightCount
  if weights.any (· < 0) then throw .negativeWeight
  let totals := runningTotals 0 weights
  if 1e-8 < magnitude (totals.getLast?.getD 0 - 1) then throw .weightTotal
  return totals

/-- Positions for a list of shares, with or without replacement. -/
def positionsAt (size : Nat) (replace : Bool) (totals shares : List α) : List Nat :=
  if replace then withReplacement totals shares
  else withoutReplacement (differences 0 totals).toArray (Array.range size) shares

/-- A choice of positions by weight: one for each share. -/
def weighted (magnitude : α → α) (size : Nat) (replace : Bool) (weights shares : List α) :
    Except Exception (List Nat) := do
  let totals ← checkedTotals magnitude size weights
  if size = 0 ∧ 0 < shares.length then throw .emptyPopulation
  if replace = false ∧ size < shares.length then throw .sampleTooLarge
  return positionsAt size replace totals shares

end Numbers

section Exact

variable {weights shares : List ℚ} {before target share : ℚ} {position size : Nat}

theorem getLast?_runningTotals (before : ℚ) (weights : List ℚ) :
    (runningTotals before weights).getLast?.getD before = before + weights.sum := by
  induction weights generalizing before with
  | nil => simp [runningTotals]
  | cons weight weights ih =>
      rw [runningTotals, List.getLast?_cons, Option.getD_some, ih, List.sum_cons, add_assoc]

/-- The differences of running totals are what was summed. -/
theorem differences_runningTotals (before : ℚ) (weights : List ℚ) :
    differences before (runningTotals before weights) = weights := by
  induction weights generalizing before with
  | nil => rfl
  | cons weight weights ih => rw [runningTotals, differences, ih, add_sub_cancel_left]

/-- The first total above a number that was not exceeded before belongs to a weight above zero. -/
theorem pos_of_findIdx?_runningTotals (hBefore : before ≤ target)
    (h : (runningTotals before weights).findIdx? (fun total => target < total) = some position) :
    0 < weights.getD position 0 := by
  induction weights generalizing before position with
  | nil => cases h
  | cons weight weights ih =>
      rw [runningTotals, List.findIdx?_cons] at h
      split at h
      case isTrue hExceeds =>
        cases h
        have hTotal : target < before + weight := of_decide_eq_true hExceeds
        rw [List.getD_cons_zero]
        linarith
      case isFalse hNot =>
        obtain ⟨found, hFound, rfl⟩ := Option.map_eq_some_iff.mp h
        have hTotal : ¬ target < before + weight := fun hLess => hNot (decide_eq_true hLess)
        rw [List.getD_cons_succ]
        exact ih (not_lt.mp hTotal) hFound

/-- A share of a sum above zero is exceeded by a total that belongs to a weight above zero. -/
theorem pos_positionAt (hShare : 0 ≤ share ∧ share < 1) (hSum : 0 < weights.sum) :
    0 < weights.getD (positionAt share (runningTotals 0 weights)) 0 := by
  have hLast := getLast?_runningTotals 0 weights
  rw [zero_add] at hLast
  have hTarget : 0 ≤ share * weights.sum := mul_nonneg hShare.1 hSum.le
  have hBelow : share * weights.sum < weights.sum := mul_lt_of_lt_one_left hSum hShare.2
  rw [positionAt, hLast]
  cases hFound : (runningTotals 0 weights).findIdx? (fun total => share * weights.sum < total) with
  | some position => exact pos_of_findIdx?_runningTotals hTarget hFound
  | none =>
      -- The last total is the sum, which exceeds the share.
      obtain ⟨last, hSome⟩ : ∃ last, (runningTotals 0 weights).getLast? = some last := by
        cases hEnd : (runningTotals 0 weights).getLast? with
        | none => simp [hEnd, ← hLast] at hSum
        | some last => exact ⟨last, rfl⟩
      rw [hSome, Option.getD_some] at hLast
      have hNot := List.findIdx?_eq_none_iff.mp hFound last (List.mem_of_getLast? hSome)
      exact absurd (hLast ▸ hBelow) (of_decide_eq_false hNot)

/-- With replacement each pick has a weight above zero. -/
theorem pos_of_mem_withReplacement (hShares : ∀ share ∈ shares, 0 ≤ share ∧ share < 1)
    (hSum : 0 < weights.sum) :
    ∀ i ∈ withReplacement (runningTotals 0 weights) shares, 0 < weights.getD i 0 := by
  intro i hi
  obtain ⟨share, hShare, rfl⟩ := List.mem_map.mp hi
  exact pos_positionAt (hShares share hShare) hSum

end Exact

section Remaining

variable {weights : Array ℚ} {remaining : Array Nat} {share : ℚ} {shares : List ℚ}

/-- The number of positions with a weight above zero. -/
def heavyCount (weights : Array ℚ) (positions : List Nat) : Nat :=
  positions.countP fun i => 0 < weights.getD i 0

/-- The slot for a share of the weights that remain. -/
def slotAt (weights : Array ℚ) (remaining : Array Nat) (share : ℚ) : Nat :=
  positionAt share (runningTotals 0 (remaining.toList.map fun i => weights.getD i 0))

theorem slotAt_lt (hSome : 0 < remaining.size) : slotAt weights remaining share < remaining.size := by
  have hTotals :
      (runningTotals 0 (remaining.toList.map fun i => weights.getD i 0)).length = remaining.size := by
    simp [length_runningTotals]
  exact hTotals ▸ positionAt_lt share (hTotals ▸ hSome)

/-- A pick has a weight above zero exactly if there is such a weight among those that remain. -/
theorem pos_swapRemove_slotAt (hNonneg : ∀ i ∈ remaining, 0 ≤ weights.getD i 0)
    (hShare : 0 ≤ share ∧ share < 1) (hSome : 0 < remaining.size) :
    0 < weights.getD (swapRemove remaining (slotAt weights remaining share)).1 0 ↔
      0 < heavyCount weights remaining.toList := by
  have hSlot : slotAt weights remaining share < remaining.size := slotAt_lt hSome
  have hTaken : (swapRemove remaining (slotAt weights remaining share)).1
      = remaining[slotAt weights remaining share] := by
    simp [swapRemove, Array.getD, hSlot]
  rw [hTaken, heavyCount, List.countP_pos_iff]
  constructor
  · intro hPositive
    exact ⟨_, Array.mem_toList_iff.mpr (Array.getElem_mem hSlot), decide_eq_true hPositive⟩
  · rintro ⟨i, hi, hPositive⟩
    have hSum : 0 < (remaining.toList.map fun i => weights.getD i 0).sum := by
      refine lt_of_lt_of_le (of_decide_eq_true hPositive) ?_
      refine List.single_le_sum (fun weight hWeight => ?_) _ (List.mem_map_of_mem hi)
      obtain ⟨j, hj, rfl⟩ := List.mem_map.mp hWeight
      exact hNonneg j (Array.mem_toList_iff.mp hj)
    have hPicked := pos_positionAt hShare hSum
    change 0 < List.getD _ (slotAt weights remaining share) 0 at hPicked
    simpa [List.getD, hSlot] using hPicked

/-- Without replacement weights above zero are picked until none is left, and only then others. -/
theorem pos_withoutReplacement (hNonneg : ∀ i ∈ remaining, 0 ≤ weights.getD i 0)
    (hShares : ∀ share ∈ shares, 0 ≤ share ∧ share < 1) (hFew : shares.length ≤ remaining.size) {k : Nat}
    (hk : k < (withoutReplacement weights remaining shares).length) :
    0 < weights.getD (withoutReplacement weights remaining shares)[k] 0 ↔
      k < heavyCount weights remaining.toList := by
  induction shares generalizing remaining k with
  | nil => cases hk
  | cons share shares ih =>
      obtain ⟨hShare, hRest⟩ := List.forall_mem_cons.mp hShares
      rw [List.length_cons] at hFew
      have hSome : 0 < remaining.size := by omega
      have hPicked := pos_swapRemove_slotAt hNonneg hShare hSome
      have hSlot : slotAt weights remaining share < remaining.size := slotAt_lt hSome
      have hPerm := perm_swapRemove hSlot
      have hSize := size_swapRemove remaining (slotAt weights remaining share)
      have hStep : withoutReplacement weights remaining (share :: shares)
          = (swapRemove remaining (slotAt weights remaining share)).1 :: withoutReplacement weights
              (swapRemove remaining (slotAt weights remaining share)).2 shares := rfl
      simp only [hStep] at hk ⊢
      generalize swapRemove remaining (slotAt weights remaining share) = taken at *
      obtain ⟨picked, left⟩ := taken
      dsimp only at hk hPicked hPerm hSize ⊢
      have hCount : heavyCount weights remaining.toList
          = heavyCount weights left.toList + if 0 < weights.getD picked 0 then 1 else 0 := by
        rw [heavyCount, ← hPerm.countP_eq, List.countP_cons]
        simp [heavyCount]
      cases k with
      | zero => exact hPicked
      | succ k =>
          have hLeft : ∀ i ∈ left, 0 ≤ weights.getD i 0 := fun i hi =>
            hNonneg i (Array.mem_toList_iff.mp (hPerm.subset (.tail _ (Array.mem_toList_iff.mpr hi))))
          rw [List.getElem_cons_succ, ih hLeft hRest (by omega) (Nat.lt_of_succ_lt_succ hk)]
          -- If what was picked has no weight, then nothing that is left has one.
          split_ifs at hCount with hPositive
          · omega
          · have hNone := mt hPicked.mpr hPositive
            omega

/-- The weights of all positions are the weights. -/
theorem heavyCount_range (weights : List ℚ) :
    heavyCount weights.toArray (List.range weights.length) = weights.countP (0 < ·) := by
  have hAll : (List.range weights.length).map (fun i => weights.toArray.getD i 0) = weights := by
    refine List.ext_getElem (by simp) fun i _ hInside => ?_
    simp [hInside]
  conv_rhs => rw [← hAll]
  rw [List.countP_map]
  rfl

end Remaining

section Law

variable {weights shares totals : List ℚ} {size : Nat} {replace : Bool} {picks : List Nat}

/-- Weights that pass the checks. -/
structure Accepted (size : Nat) (weights : List ℚ) : Prop where
  length_eq : weights.length = size
  nonneg : ∀ weight ∈ weights, 0 ≤ weight
  total : |weights.sum - 1| ≤ 1e-8

theorem Accepted.sum_pos (h : Accepted size weights) : 0 < weights.sum := by
  have hTotal := (abs_le.mp h.total).1
  norm_num at hTotal
  linarith

theorem Accepted.size_pos (h : Accepted size weights) : 0 < size := by
  rw [← h.length_eq, List.length_pos_iff]
  rintro rfl
  exact h.sum_pos.ne rfl

theorem checkedTotals_eq_ok_iff : checkedTotals abs size weights = .ok totals ↔
    Accepted size weights ∧ runningTotals 0 weights = totals := by
  have hSum := getLast?_runningTotals 0 weights
  rw [zero_add] at hSum
  have hAny : weights.any (· < 0) = true ↔ ¬ ∀ weight ∈ weights, 0 ≤ weight := by simp
  unfold checkedTotals
  dsimp only
  rw [hSum]
  by_cases hLength : weights.length = size
  · rw [if_neg (not_not.mpr hLength)]
    by_cases hNonneg : ∀ weight ∈ weights, 0 ≤ weight
    · rw [if_neg fun h => hAny.mp h hNonneg]
      by_cases hTotal : |weights.sum - 1| ≤ 1e-8
      · rw [if_neg (not_lt.mpr hTotal)]
        exact ⟨fun h => ⟨⟨hLength, hNonneg, hTotal⟩, Except.ok.inj h⟩, fun h => congrArg Except.ok h.2⟩
      · rw [if_pos (not_le.mp hTotal)]
        exact ⟨nofun, fun h => absurd h.1.total hTotal⟩
    · rw [if_pos (hAny.mpr hNonneg)]
      exact ⟨nofun, fun h => absurd h.1.nonneg hNonneg⟩
  · rw [if_pos hLength]
    exact ⟨nofun, fun h => absurd h.1.length_eq hLength⟩

/-- Positions are picked by weights that pass the checks, unless there are too few. -/
theorem weighted_eq_ok_iff : weighted abs size replace weights shares = .ok picks ↔
    Accepted size weights ∧ (replace = false → shares.length ≤ size) ∧
      positionsAt size replace (runningTotals 0 weights) shares = picks := by
  unfold weighted
  cases hChecked : checkedTotals abs size weights with
  | error e =>
      refine ⟨nofun, fun h => ?_⟩
      rw [checkedTotals_eq_ok_iff.mpr ⟨h.1, rfl⟩] at hChecked
      cases hChecked
  | ok totals =>
      obtain ⟨hAccepted, rfl⟩ := checkedTotals_eq_ok_iff.mp hChecked
      have hSome := hAccepted.size_pos
      rw [Outcome.ok_bind, if_neg fun h => hSome.ne' h.1]
      split_ifs with hMany
      · exact ⟨nofun, fun h => absurd (h.2.1 hMany.1) (Nat.not_le.mpr hMany.2)⟩
      · have hFew (hReplace : replace = false) : shares.length ≤ size :=
          Nat.not_lt.mp fun hLess => hMany ⟨hReplace, hLess⟩
        exact ⟨fun h => ⟨hAccepted, hFew, Except.ok.inj h⟩, fun h => congrArg Except.ok h.2.2⟩

/-- With replacement all picks have a weight above zero. Without replacement exactly the first of them
have one, as many as there are such weights. -/
theorem pos_of_weighted (hShares : ∀ share ∈ shares, 0 ≤ share ∧ share < 1)
    (h : weighted abs size replace weights shares = .ok picks) :
    Engine.Picks size shares.length replace picks ∧
      (replace = true → ∀ i ∈ picks, 0 < weights.getD i 0) ∧
      (replace = false → ∀ k (hk : k < picks.length),
        0 < weights.getD picks[k] 0 ↔ k < weights.countP (0 < ·)) := by
  obtain ⟨hAccepted, hFew, rfl⟩ := weighted_eq_ok_iff.mp h
  obtain rfl := hAccepted.length_eq
  have hTotals : (runningTotals 0 weights).length = weights.length := length_runningTotals 0 weights
  cases replace with
  | true =>
      have hPicks : Engine.Picks _ shares.length true (withReplacement (runningTotals 0 weights) shares) :=
        Engine.picks_withReplacement fun _ => hTotals ▸ hAccepted.size_pos
      rw [hTotals] at hPicks
      exact ⟨hPicks, fun _ => pos_of_mem_withReplacement hShares hAccepted.sum_pos, nofun⟩
  | false =>
      have hPicks := Engine.picks_withoutReplacement weights.toArray (hFew rfl)
      simp only [positionsAt, differences_runningTotals]
      refine ⟨hPicks, nofun, fun _ k hk => ?_⟩
      have hNonneg : ∀ i ∈ Array.range weights.length, 0 ≤ weights.toArray.getD i 0 := by
        intro i hi
        have hInside := Array.mem_range.mp hi
        simpa [hInside] using hAccepted.nonneg _ (List.getElem_mem hInside)
      have hMost : shares.length ≤ (Array.range weights.length).size := by
        rw [Array.size_range]
        exact hFew rfl
      have hPositive := pos_withoutReplacement hNonneg hShares hMost hk
      rw [Array.toList_range, heavyCount_range] at hPositive
      simpa using hPositive

/-- All picks have a weight above zero if and only if, without replacement, there are as many weights
above zero as picks. -/
theorem forall_pos_iff (hLength : picks.length = shares.length)
    (hWith : replace = true → ∀ i ∈ picks, 0 < weights.getD i 0)
    (hWithout : replace = false → ∀ k (hk : k < picks.length),
      0 < weights.getD picks[k] 0 ↔ k < weights.countP (0 < ·)) :
    (∀ i ∈ picks, 0 < weights.getD i 0) ↔ (replace = false → shares.length ≤ weights.countP (0 < ·)) := by
  cases replace with
  | true => exact ⟨fun _ => nofun, fun _ => hWith rfl⟩
  | false =>
      rw [← hLength]
      constructor
      · intro hAll _
        by_contra hMore
        have hLast : weights.countP (0 < ·) < picks.length := Nat.not_le.mp hMore
        exact absurd ((hWithout rfl _ hLast).mp (hAll _ (List.getElem_mem hLast))) (Nat.lt_irrefl _)
      · intro hFew i hi
        obtain ⟨k, hk, rfl⟩ := List.mem_iff_getElem.mp hi
        exact (hWithout rfl k hk).mpr (Nat.lt_of_lt_of_le hk (hFew rfl))

end Law

end Choice

namespace Engine

open Operation Outcome Generator Choice

variable {engine : Engine} {b : CallBindings} {source : ObjectId} {pool : Contents}
  {weights totals : List Float} {replace : Bool} {shape? : Option Shape} {picks : List Nat}
  {e : Exception}

theorem cumulativeWeights_eq (values : Array Scalar) (size : Nat) : cumulativeWeights values size
    = checkedTotals Float.abs size (values.toList.map Scalar.toFloat) := rfl

theorem drawPicks_eq (size count : Nat) (replace : Bool) (totals : List Float) (g : Generator) :
    drawPicks size count replace (some totals) g =
      (positionsAt size replace totals (replicate unit count g).1.toList,
        (replicate unit count g).2) := by
  cases replace <;> rfl

/-- The arguments of a choice by weight are valid, apart from the weights. -/
structure Weighs (engine : Engine) (b : CallBindings) (source : ObjectId) (pool : Contents)
    (weights : List Float) (replace : Bool) (shape? : Option Shape) : Prop where
  source_eq : b.required "a" = .ok source
  population_eq : engine.population source "choice" = .ok pool
  rank_eq : pool.rank = 1
  replace_eq : ∃ asked, optional engine.truth (engine.given (b.get? "replace")) = .ok asked ∧
    asked.getD true = replace
  weights_eq : ∃ id contents, engine.given (b.get? "p") = some id ∧
    engine.arrayContents id = .ok contents ∧ contents.values.toList.map Scalar.toFloat = weights
  size_eq : engine.size? b = .ok shape?

/-- The positions of a choice by weight, as the engine picks them. -/
def picksByWeight (engine : Engine) (pool : Contents) (weights : List Float) (replace : Bool)
    (shape? : Option Shape) : Except Exception (List Nat) :=
  weighted Float.abs pool.values.size replace weights
    (replicate unit (sampleCount shape?) engine.generator).1.toList

theorem Weighs.weightTotals_eq (h : engine.Weighs b source pool weights replace shape?) :
    optional (engine.weightTotals pool.values.size) (engine.given (b.get? "p"))
      = some <$> checkedTotals Float.abs pool.values.size weights := by
  obtain ⟨id, contents, hGiven, hContents, rfl⟩ := h.weights_eq
  have hTotals : engine.weightTotals pool.values.size id
      = checkedTotals Float.abs pool.values.size (contents.values.toList.map Scalar.toFloat) := by
    rw [weightTotals, hContents, ok_bind, cumulativeWeights_eq]
  rw [hGiven, ← hTotals]
  rfl

/-- Weights that pass the checks complete the arguments of a choice. -/
theorem Weighs.chooses (h : engine.Weighs b source pool weights replace shape?)
    (hTotals : checkedTotals Float.abs pool.values.size weights = .ok totals) :
    engine.Chooses b source pool replace (some totals) shape? := by
  have hWeights := h.weightTotals_eq
  rw [hTotals] at hWeights
  exact ⟨h.source_eq, h.population_eq, h.rank_eq, h.replace_eq, hWeights, h.size_eq⟩

/-- Other weights are refused. -/
theorem Weighs.choiceOf_of_error (h : engine.Weighs b source pool weights replace shape?)
    (hTotals : checkedTotals Float.abs pool.values.size weights = .error e) :
    (engine.choiceOf b).perform engine = (.error e, engine) := by
  obtain ⟨asked, hAsked, -⟩ := h.replace_eq
  rw [choiceOf, h.source_eq, bind_ok, h.population_eq, bind_ok]
  dsimp only
  rw [if_neg (not_not.mpr h.rank_eq), hAsked, bind_ok, h.weightTotals_eq, hTotals]
  rfl

/-- A choice by weight is refused if picking its positions is, and otherwise gives the elements at the
positions that are picked, unless the strides of the result are no words. -/
theorem Weighs.perform_choiceOf (h : engine.Weighs b source pool weights replace shape?)
    (hStored : engine.Stored) :
    (∀ e, engine.picksByWeight pool weights replace shape? = .error e →
      (engine.choiceOf b).perform engine = (.error e, engine)) ∧
    (∀ picks, engine.picksByWeight pool weights replace shape? = .ok picks →
      (¬ Overflows shape? → ∃ object buffers, engine.Draws (engine.choiceOf b) object buffers
          (replicate unit (sampleCount shape?) engine.generator).2 ∧
        object.HoldsDrawn buffers pool.dtype shape? (picks.map pool.get)) ∧
      (Overflows shape? → (engine.choiceOf b).perform engine = (.error .wordOverflow, engine))) := by
  unfold picksByWeight weighted
  have hLength : (replicate unit (sampleCount shape?) engine.generator).1.toList.length
      = sampleCount shape? := (Array.length_toList ..).trans (size_replicate ..)
  cases hTotals : checkedTotals Float.abs pool.values.size weights with
  | error e => exact ⟨fun _ hError => by cases hError; exact h.choiceOf_of_error hTotals, nofun⟩
  | ok totals =>
      have hChooses := h.chooses hTotals
      rw [ok_bind, hLength]
      by_cases hEmpty : pool.values.size = 0 ∧ 0 < sampleCount shape?
      · rw [if_pos hEmpty, hChooses.choiceOf_eq, if_pos hEmpty]
        exact ⟨fun _ hError => by cases hError; rfl, nofun⟩
      · by_cases hMany : replace = false ∧ pool.values.size < sampleCount shape?
        · rw [if_neg hEmpty, if_pos hMany, hChooses.choiceOf_eq, if_neg hEmpty, if_pos hMany]
          exact ⟨fun _ hError => by cases hError; rfl, nofun⟩
        · rw [if_neg hEmpty, if_neg hMany]
          have hFew : ¬ Exceeds pool.values.size (sampleCount shape?) replace :=
            not_or.mpr ⟨hEmpty, hMany⟩
          refine ⟨nofun, fun picks hPicks => ⟨fun hStrides => ?_, hChooses.overflows hFew⟩⟩
          cases hPicks
          have hDrawn := hChooses.exists_draws hStored hFew hStrides
          rwa [drawPicks_eq] at hDrawn

/-- A choice by weight is one function of numbers, which an engine calls with floats. With exact numbers
and shares from zero up to one it picks positions for all weights that are not negative, add up to one
and are as many as the positions, unless more are asked for without replacement than there are. With
replacement each position that is picked has a weight above zero. Without replacement exactly the first
picks have one, as many as there are such weights. So all picks have a weight above zero except where
more are asked for without replacement than there are such weights. -/
theorem weightedChoice_law (engine : Engine) (id : ObjectId) (positional : List ObjectId)
    (keywords : List (String × ObjectId)) (b : CallBindings) (source : ObjectId) (pool : Contents)
    (weights : List Float) (replace : Bool) (shape? : Option Shape) (hStored : engine.Stored)
    (hCalls : engine.Calls id positional keywords (.random .choice) b)
    (hArguments : engine.Weighs b source pool weights replace shape?) :
    ((∀ e, engine.picksByWeight pool weights replace shape? = .error e →
        (call id positional keywords).perform engine = (.error e, engine)) ∧
      (∀ picks, engine.picksByWeight pool weights replace shape? = .ok picks →
        (¬ Overflows shape? → ∃ object buffers, engine.Draws (call id positional keywords) object buffers
            (replicate unit (sampleCount shape?) engine.generator).2 ∧
          object.HoldsDrawn buffers pool.dtype shape? (picks.map pool.get)) ∧
        (Overflows shape? →
          (call id positional keywords).perform engine = (.error .wordOverflow, engine)))) ∧
    ∀ exact shares : List ℚ, (∀ share ∈ shares, 0 ≤ share ∧ share < 1) →
      ((∃ picks, weighted abs pool.values.size replace exact shares = .ok picks) ↔
        Accepted pool.values.size exact ∧ (replace = false → shares.length ≤ pool.values.size)) ∧
      ∀ picks, weighted abs pool.values.size replace exact shares = .ok picks →
        Picks pool.values.size shares.length replace picks ∧
        (replace = true → ∀ i ∈ picks, 0 < exact.getD i 0) ∧
        (replace = false → ∀ k (hk : k < picks.length),
          0 < exact.getD picks[k] 0 ↔ k < exact.countP (0 < ·)) ∧
        ((∀ i ∈ picks, 0 < exact.getD i 0) ↔
          (replace = false → shares.length ≤ exact.countP (0 < ·))) := by
  have hRun : (call id positional keywords).perform engine = (engine.choiceOf b).perform engine :=
    hCalls.perform_call
  obtain ⟨hRefused, hPicked⟩ := hArguments.perform_choiceOf hStored
  refine ⟨⟨fun e hError => hRun.trans (hRefused e hError), fun picks hPicks => ⟨fun hStrides => ?_,
      fun hLarge => hRun.trans ((hPicked picks hPicks).2 hLarge)⟩⟩,
    fun exact shares hShares => ⟨?_, fun picks hPicks => ?_⟩⟩
  · obtain ⟨object, buffers, hDraws, hHolds⟩ := (hPicked picks hPicks).1 hStrides
    exact ⟨object, buffers, hRun.trans hDraws, hHolds⟩
  · constructor
    · rintro ⟨picks, hPicks⟩
      obtain ⟨hAccepted, hFew, -⟩ := weighted_eq_ok_iff.mp hPicks
      exact ⟨hAccepted, hFew⟩
    · rintro ⟨hAccepted, hFew⟩
      exact ⟨_, weighted_eq_ok_iff.mpr ⟨hAccepted, hFew, rfl⟩⟩
  · obtain ⟨hPositions, hWith, hWithout⟩ := pos_of_weighted hShares hPicks
    exact ⟨hPositions, hWith, hWithout, forall_pos_iff hPositions.length_eq hWith hWithout⟩

section Cases

/-- A choice of two out of three numbers by weight, without replacement, where the second number has no
weight. -/
def withWeightless : Engine :=
  ofObjects [.none, .native (.random .choice), .int 3, .int 2, .bool false, .float 0.5, .float 0,
    .tuple [⟨5, 0⟩, ⟨6, 0⟩, ⟨5, 0⟩]] (.ofValues .int64 #[])

/-- The two numbers with a weight are chosen, with floats and with exact numbers. -/
theorem weightedChoice_law_weightless :
    (∃ object buffers generator,
      withWeightless.Draws (call ⟨1, 0⟩ [⟨2, 0⟩, ⟨3, 0⟩, ⟨4, 0⟩, ⟨7, 0⟩] []) object buffers generator ∧
        object.HoldsDrawn buffers .int64 (some [2]) [.int 2, .int 0]) ∧
    ∃ picks, weighted abs 3 false ([1 / 2, 0, 1 / 2] : List ℚ) [0, 1 / 2] = .ok picks ∧
      ∀ i ∈ picks, 0 < ([1 / 2, 0, 1 / 2] : List ℚ).getD i 0 := by
  have hWeights : (do return (← withWeightless.arrayContents ⟨7, 0⟩).values.toList.map Scalar.toFloat)
      = (.ok [0.5, 0, 0.5] : Except Exception (List Float)) := by decide +kernel
  obtain ⟨contents, hContents, hFloats⟩ := bind_eq_ok_iff.mp hWeights
  have hArguments : withWeightless.Weighs
      ⟨"choice", [("a", some ⟨2, 0⟩), ("size", some ⟨3, 0⟩), ("replace", some ⟨4, 0⟩), ("p", some ⟨7, 0⟩)]⟩
      ⟨2, 0⟩ (numbersBelow 3) [0.5, 0, 0.5] false (some [2]) :=
    ⟨rfl, (population_int rfl "choice").trans (if_neg (by decide)), rfl, ⟨some false, rfl, rfl⟩,
      ⟨⟨7, 0⟩, contents, rfl, hContents, Except.ok.inj hFloats⟩, by decide +kernel⟩
  obtain ⟨⟨-, hPicked⟩, hExact⟩ := weightedChoice_law withWeightless ⟨1, 0⟩
    [⟨2, 0⟩, ⟨3, 0⟩, ⟨4, 0⟩, ⟨7, 0⟩] [] _ _ _ _ _ _ (stored_ofObjects (by simp)) ⟨rfl, _, rfl, rfl⟩
    hArguments
  have hStrides : ¬ Overflows (some [2]) := by
    rintro ⟨_, hSome, hLarge⟩
    cases hSome
    exact absurd hLarge (by decide)
  have hCount : (numbersBelow 3).values.size = 3 := (size_numbersBelow 3).trans (by decide)
  have hChosen : [2, 0].map (numbersBelow 3).get = [.int 2, .int 0] := by decide +kernel
  constructor
  · obtain ⟨object, buffers, hDraws, hHolds⟩ := (hPicked [2, 0] (by decide +kernel)).1 hStrides
    exact ⟨object, buffers, _, hDraws, hChosen ▸ hHolds⟩
  · obtain ⟨hSucceeds, hPositive⟩ := hExact [1 / 2, 0, 1 / 2] [0, 1 / 2] (by norm_num)
    rw [hCount] at hSucceeds hPositive
    obtain ⟨picks, hPicks⟩ := hSucceeds.mpr ⟨⟨rfl, by norm_num, by norm_num⟩, fun _ => by decide⟩
    obtain ⟨-, -, -, hAll⟩ := hPositive picks hPicks
    exact ⟨picks, hPicks, hAll.mpr fun _ => by decide +kernel⟩

/-- Two numbers of which the second has no weight are both chosen without replacement, with floats and
with exact numbers. -/
theorem weightless_pick :
    (let engine := ofObjects [.none, .native (.random .choice), .int 2, .bool false, .float 1, .float 0,
        .tuple [⟨4, 0⟩, ⟨5, 0⟩]] (.ofValues .int64 #[])
      let run := (call ⟨1, 0⟩ [⟨2, 0⟩, ⟨2, 0⟩, ⟨3, 0⟩, ⟨6, 0⟩] []).perform engine
      run.1 = .ok ⟨7, 0⟩ ∧
      (run.2.arrayContents ⟨7, 0⟩).map Contents.values = .ok #[.int 0, .int 1]) ∧
    weighted abs 2 false ([1, 0] : List ℚ) [1 / 2, 1 / 2] = .ok [0, 1] ∧
    ([1, 0] : List ℚ).getD 1 0 = 0 :=
  ⟨⟨by decide +kernel, by decide +kernel⟩, by decide +kernel, rfl⟩

end Cases

end Engine

end ArrayBridge
