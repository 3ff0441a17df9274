import ArrayBridge.Engine.Sampling
import ArrayBridge.Proofs.Draws
import Mathlib.Data.List.Perm.Subperm

/-! Which positions are picked.

A position is found by weight as one of the running totals or, if none of them exceeds the share, as the
last one. So it is a position whatever the sums and the comparisons of the weights give. Without
replacement a slot of the remaining positions is emptied and filled with the last of them, which leaves
the others as they are. So what was picked and what remains are together what there was. -/

namespace ArrayBridge.Choice

open scoped List

section Weights

variable {α : Type}

theorem length_runningTotals [Add α] (before : α) (weights : List α) :
    (runningTotals before weights).length = weights.length := by
  induction weights generalizing before with
  | nil => rfl
  | cons weight weights ih => rw [runningTotals, List.length_cons, List.length_cons, ih]

/-- Whatever the comparisons say, a position is found among the totals. -/
theorem positionAt_lt [OfNat α 0] [Mul α] [LT α] [DecidableLT α] (share : α) {totals : List α}
    (hSome : 0 < totals.length) :
    positionAt share totals < totals.length := by
  unfold positionAt
  dsimp only
  cases hFound : totals.findIdx? fun total => share * totals.getLast?.getD 0 < total with
  | none => exact Nat.sub_one_lt_of_lt hSome
  | some position => exact (List.findIdx?_eq_some_iff_findIdx_eq.mp hFound).1

end Weights

/-- Slots that can be taken one after the other from a number of positions. -/
def Fit : Nat → List Nat → Prop
  | _, [] => True
  | size, slot :: slots => slot < size ∧ Fit (size - 1) slots

section Slots

variable {α : Type} {remaining : Array Nat} {slot : Nat} {slots : List Nat}

theorem size_swapRemove (remaining : Array Nat) (slot : Nat) :
    (swapRemove remaining slot).2.size = remaining.size - 1 := by
  simp [swapRemove]

/-- What is taken from a slot and what is left are together what was there. -/
theorem perm_swapRemove (h : slot < remaining.size) :
    (swapRemove remaining slot).1 :: (swapRemove remaining slot).2.toList ~ remaining.toList := by
  obtain ⟨positions⟩ := remaining
  have hSome : positions ≠ [] := List.ne_nil_of_length_pos (Nat.zero_lt_of_lt h)
  obtain ⟨rest, last, rfl⟩ : ∃ rest last, positions = rest ++ [last] :=
    ⟨_, _, (List.dropLast_append_getLast hSome).symm⟩
  have hLast : rest ++ [last] ~ last :: rest := List.perm_append_comm
  have hSize : slot < rest.length + 1 := by simpa using h
  rcases Nat.lt_succ_iff_lt_or_eq.mp hSize with hInside | rfl
  · -- The last position goes to the slot of another one.
    have hTaken : swapRemove ⟨rest ++ [last]⟩ slot = (rest[slot], ⟨rest.set slot last⟩) := by
      simp [swapRemove, hInside, List.getElem?_append_left hInside]
    rw [hTaken]
    calc rest[slot] :: rest.set slot last
      _ ~ rest[slot] :: last :: rest.eraseIdx slot := (List.set_perm_cons_eraseIdx hInside last).cons _
      _ ~ last :: rest[slot] :: rest.eraseIdx slot := .swap _ _ _
      _ ~ last :: rest := (List.getElem_cons_eraseIdx_perm hInside).cons _
      _ ~ rest ++ [last] := hLast.symm
  · have hTaken : swapRemove ⟨rest ++ [last]⟩ rest.length = (last, ⟨rest⟩) := by
      simp [swapRemove]
    rw [hTaken]
    exact hLast.symm

theorem length_takeSlots (remaining : Array Nat) (slots : List Nat) :
    (takeSlots remaining slots).length = slots.length := by
  induction slots generalizing remaining with
  | nil => rfl
  | cons slot slots ih => rw [takeSlots, List.length_cons, List.length_cons, ih]

/-- The positions that were taken are some of those that were there. -/
theorem exists_perm_takeSlots (h : Fit remaining.size slots) :
    ∃ left, takeSlots remaining slots ++ left ~ remaining.toList := by
  induction slots generalizing remaining with
  | nil => exact ⟨remaining.toList, .refl _⟩
  | cons slot slots ih =>
      obtain ⟨hSlot, hRest⟩ := h
      rw [← size_swapRemove remaining slot] at hRest
      obtain ⟨left, hLeft⟩ := ih hRest
      exact ⟨left, (hLeft.cons _).trans (perm_swapRemove hSlot)⟩

/-- Weights only say which slots are taken. -/
theorem exists_withoutReplacement [OfNat α 0] [Add α] [Mul α] [LT α] [DecidableLT α]
    (weights : Array α) {shares : List α} (h : shares.length ≤ remaining.size) :
    ∃ slots, slots.length = shares.length ∧ Fit remaining.size slots ∧
      withoutReplacement weights remaining shares = takeSlots remaining slots := by
  induction shares generalizing remaining with
  | nil => exact ⟨[], rfl, trivial, rfl⟩
  | cons share shares ih =>
      let totals := runningTotals 0 (remaining.toList.map fun i => weights.getD i 0)
      let slot := positionAt share totals
      rw [List.length_cons] at h
      have hTotals : totals.length = remaining.size := by simp [totals, length_runningTotals]
      have hSlot : slot < remaining.size := hTotals ▸ positionAt_lt share (by omega)
      have hFewer : shares.length ≤ (swapRemove remaining slot).2.size := by
        rw [size_swapRemove]
        omega
      obtain ⟨slots, hLength, hFit, hTaken⟩ := ih hFewer
      rw [size_swapRemove] at hFit
      refine ⟨slot :: slots, by rw [List.length_cons, List.length_cons, hLength], ⟨hSlot, hFit⟩, ?_⟩
      exact congrArg (List.cons (swapRemove remaining slot).1) hTaken

end Slots

end ArrayBridge.Choice

namespace ArrayBridge.Generator

theorem slots_succ (size count : Nat) (g : Generator) : slots size (count + 1) g
    = ((g.position size).1 :: (slots (size - 1) count (g.position size).2).1,
        (slots (size - 1) count (g.position size).2).2) := rfl

/-- The slots that are drawn can be taken one after the other. -/
theorem fit_slots {size count : Nat} (h : count ≤ size) (g : Generator) :
    Choice.Fit size (slots size count g).1 ∧ (slots size count g).1.length = count := by
  induction count generalizing size g with
  | zero => exact ⟨trivial, rfl⟩
  | succ count ih =>
      have hFewer : count ≤ size - 1 := by omega
      obtain ⟨hFit, hLength⟩ := ih hFewer (g.position size).2
      rw [slots_succ]
      exact ⟨⟨position_lt (by omega) g, hFit⟩, by rw [List.length_cons, hLength]⟩

end ArrayBridge.Generator

namespace ArrayBridge.Engine

open Choice Generator
open scoped List

/-- Picks of some of a number of positions. -/
structure Picks (size count : Nat) (replace : Bool) (picks : List Nat) : Prop where
  length_eq : picks.length = count
  lt : ∀ i ∈ picks, i < size
  /-- Without replacement no position is picked twice. -/
  nodup : replace = false → picks.Nodup

variable {size count : Nat} {replace : Bool} {picks slots : List Nat} {totals? : Option (List Float)}

/-- As many picks without replacement as there are positions are all of them. -/
theorem Picks.perm_range (h : Picks size size false picks) : picks ~ List.range size := by
  have hSubset : picks ⊆ List.range size := fun i hi => List.mem_range.mpr (h.lt i hi)
  refine (List.subperm_of_subset (h.nodup rfl) hSubset).perm_of_length_le ?_
  rw [List.length_range, h.length_eq]

/-- Positions that are taken from all. -/
theorem picks_takeSlots (hFit : Fit size slots) :
    Picks size slots.length false (takeSlots (Array.range size) slots) := by
  have hAll : Fit (Array.range size).size slots := by rwa [Array.size_range]
  obtain ⟨left, hPerm⟩ := exists_perm_takeSlots hAll
  rw [Array.toList_range] at hPerm
  have hNodup : (takeSlots (Array.range size) slots ++ left).Nodup :=
    hPerm.nodup_iff.mpr List.nodup_range
  refine ⟨length_takeSlots _ _, fun i hi => ?_, fun _ => (List.nodup_append.mp hNodup).1⟩
  exact List.mem_range.mp (hPerm.subset (List.mem_append_left left hi))

theorem picks_takeSlots_slots (h : count ≤ size) (g : Generator) :
    Picks size count false (takeSlots (Array.range size) (g.slots size count).1) := by
  obtain ⟨hFit, hLength⟩ := fit_slots h g
  have hPicks := picks_takeSlots hFit
  rwa [hLength] at hPicks

section Weights

variable {α : Type} [OfNat α 0] [Mul α] [LT α] [DecidableLT α] {totals shares : List α}

theorem picks_withoutReplacement [Add α] (weights : Array α) (h : shares.length ≤ size) :
    Picks size shares.length false (withoutReplacement weights (Array.range size) shares) := by
  have hSize : (Array.range size).size = size := Array.size_range
  obtain ⟨slots, hLength, hFit, hTaken⟩ := exists_withoutReplacement weights (hSize.symm ▸ h)
  have hPicks := picks_takeSlots (hSize ▸ hFit)
  rwa [hLength, ← hTaken] at hPicks

/-- Each pick of all positions by weight is one of them. -/
theorem picks_withReplacement (hSome : 0 < shares.length → 0 < totals.length) :
    Picks totals.length shares.length true (withReplacement totals shares) := by
  refine ⟨List.length_map _, fun i hi => ?_, nofun⟩
  obtain ⟨share, hShare, rfl⟩ := List.mem_map.mp hi
  exact positionAt_lt share (hSome (List.length_pos_of_mem hShare))

end Weights

theorem picks_replicate_position (hSome : 0 < count → 0 < size) (g : Generator) :
    Picks size count true (replicate (position size) count g).1.toList := by
  have hSize := size_replicate (position size) count g
  refine ⟨(Array.length_toList ..).trans hSize, fun i hi => ?_, nofun⟩
  have hDrawn := Array.mem_toList_iff.mp hi
  have hCount : 0 < count := hSize ▸ Array.size_pos_of_mem hDrawn
  exact forall_mem_replicate (p := (· < size)) (fun g => position_lt (hSome hCount) g) count g i hDrawn

/-- Positions are picked within the population, in each of the four ways to pick them. -/
theorem picks_drawPicks (hSome : 0 < count → 0 < size) (hFew : replace = false → count ≤ size)
    (hTotals : ∀ totals, totals? = some totals → totals.length = size) (g : Generator) :
    Picks size count replace (drawPicks size count replace totals? g).1 := by
  have hShares : (replicate unit count g).1.toList.length = count :=
    (Array.length_toList ..).trans (size_replicate unit count g)
  cases totals? with
  | none =>
      cases replace with
      | true => exact picks_replicate_position hSome g
      | false => exact picks_takeSlots_slots (hFew rfl) g
  | some totals =>
      obtain rfl := hTotals totals rfl
      generalize hDrawn : replicate unit count g = drawn at hShares
      obtain ⟨shares, rest⟩ := drawn
      cases replace with
      | true =>
          rw [drawPicks, hDrawn]
          rw [← hShares] at hSome ⊢
          exact picks_withReplacement hSome
      | false =>
          have hFits := hFew rfl
          rw [drawPicks, hDrawn]
          rw [← hShares] at hFits ⊢
          exact picks_withoutReplacement _ hFits

end ArrayBridge.Engine
