import ArrayBridge.Generator
import Mathlib.Data.UInt
import Mathlib.Tactic.Common

/-! What a generator draws.

A value that is drawn until it is accepted is one of the values drawn, whatever the generator does. So
a draw below a bound is the upper half of some product of a word and the bound, which is below the
bound. The width of a range of integers and the sum of its lower bound and a draw are words, too: both
are exact modulo the number of words, and that decides them, as there are no more integers than words.
-/

namespace ArrayBridge

/-- The upper half of a product is below each positive factor. -/
theorem Word.product_fst_le (w bound : UInt64) :
    (Word.product w bound).1.toNat ≤ bound.toNat - 1 := by
  have hWord : w.toNat * bound.toNat / Word.count < UInt64.size := by
    rw [Nat.div_lt_iff_lt_mul (by decide)]
    exact Nat.mul_lt_mul'' w.toNat_lt bound.toNat_lt
  rw [Word.product, Nat.toUInt64, UInt64.toNat_ofNat_of_lt' hWord]
  rcases Nat.eq_zero_or_pos bound.toNat with hZero | hPositive
  · rw [hZero, Nat.mul_zero, Nat.zero_div]
  · apply Nat.le_sub_one_of_lt
    rw [Nat.div_lt_iff_lt_mul (by decide), Nat.mul_comm]
    exact Nat.mul_lt_mul_of_pos_left w.toNat_lt hPositive

theorem Int64.toInt_eq_of_toUInt64 (i : Int64) : i.toInt
    = if i.toUInt64.toNat < Word.signedLimit then (i.toUInt64.toNat : Int)
      else i.toUInt64.toNat - Word.count := by
  have hBits : i.toUInt64.toNat = i.toBitVec.toNat := rfl
  rw [← Int64.toInt_toBitVec, BitVec.toInt_eq_toNat_cond, hBits, Word.count, Word.signedLimit]
  split <;> split <;> omega

namespace Generator

variable {α : Type} {draw : Generator → α × Generator} {p : α → Prop}

section Words

/-- What holds of every draw holds of a draw that is repeated until it is accepted. -/
theorem retry_of_forall (draw : Generator → α × Generator) (h : ∀ g, p (draw g).1)
    (accepts : α → Bool) (limit : Nat) (g : Generator) : p (retry draw accepts limit g).1 := by
  induction limit generalizing g with
  | zero => exact h g
  | succ limit ih =>
      have hFirst := h g
      rw [retry]
      generalize draw g = drawn at hFirst
      obtain ⟨x, rest⟩ := drawn
      dsimp only
      split
      · exact hFirst
      · exact ih rest

theorem below_le (bound : UInt64) (g : Generator) : (g.below bound).1.toNat ≤ bound.toNat - 1 := by
  -- The limit is far too large to be counted down, so it is any number from here on.
  obtain ⟨limit, hLimit⟩ : ∃ limit, period = limit := ⟨period, rfl⟩
  rw [below, hLimit]
  exact retry_of_forall (p := fun halves => halves.1.toNat ≤ bound.toNat - 1)
    (fun g => (Word.product g.word.1 bound, g.word.2)) (fun g => Word.product_fst_le g.word.1 bound)
    (fun halves => (0 - bound) % bound ≤ halves.2) limit g

/-- A position below a count is one, even if the count is no word. -/
theorem position_lt {count : Nat} (hSome : 0 < count) (g : Generator) :
    (g.position count).1 < count := by
  have hBelow := below_le count.toUInt64 g
  have hCount : count.toUInt64.toNat ≤ count := by
    rw [Nat.toUInt64, UInt64.toNat_ofNat']
    exact Nat.mod_le _ _
  have hPosition : (g.position count).1 ≤ count.toUInt64.toNat - 1 := hBelow
  omega

end Words

section Integers

variable {low high : Int64}

/-- The width of a range, counted in words, is the number of its integers, and zero for all words. -/
theorem toNat_width (h : low ≤ high) : (high.toUInt64 - low.toUInt64 + 1).toNat
    = if high.toInt - low.toInt + 1 = Word.count then 0 else (high.toInt - low.toInt + 1).toNat := by
  have hOrder := Int64.le_iff_toInt_le.mp h
  have hLow := Int64.toInt_eq_of_toUInt64 low
  have hHigh := Int64.toInt_eq_of_toUInt64 high
  have hLowWord := low.toUInt64.toNat_lt
  have hHighWord := high.toUInt64.toNat_lt
  rw [UInt64.toNat_add, UInt64.toNat_sub, UInt64.toNat_one]
  rw [Word.count, Word.signedLimit] at *
  generalize low.toUInt64.toNat = l at *
  generalize high.toUInt64.toNat = k at *
  generalize low.toInt = m at *
  generalize high.toInt = n at *
  split_ifs at hLow hHigh ⊢ <;> omega

/-- A draw from a range of integers is in the range, the full one included. -/
theorem integer_mem (h : low ≤ high) (g : Generator) :
    low ≤ (g.integer low high).1 ∧ (g.integer low high).1 ≤ high := by
  have hWidth := toNat_width h
  have hOrder := Int64.le_iff_toInt_le.mp h
  have hLow := low.le_toInt
  have hHigh := high.toInt_lt
  rw [Int64.le_iff_toInt_le, Int64.le_iff_toInt_le, integer]
  generalize high.toUInt64 - low.toUInt64 + 1 = width at hWidth ⊢
  dsimp only
  split
  case isTrue hFull =>
    subst hFull
    dsimp only
    have hAll := g.word.1.toInt64.le_toInt
    have hLast := g.word.1.toInt64.toInt_lt
    have hBounds : low.toInt = -2 ^ 63 ∧ high.toInt = 2 ^ 63 - 1 := by
      rw [UInt64.toNat_zero, Word.count] at hWidth
      split at hWidth <;> omega
    omega
  case isFalse hPart =>
    have hSome : 0 < width.toNat := UInt64.lt_iff_toNat_lt.mp (UInt64.pos_iff_ne_zero.mpr hPart)
    have hOffset := below_le width g
    generalize g.below width = drawn at hOffset ⊢
    obtain ⟨offset, rest⟩ := drawn
    dsimp only at hOffset ⊢
    have hInt : (offset.toNat : Int) ≤ high.toInt - low.toInt := by
      rw [Word.count] at hWidth
      split at hWidth <;> omega
    -- As a word the sum is exact up to the number of words, and the integer between the bounds is
    -- the only one that it can stand for.
    have hSum := Int64.toInt_eq_of_toUInt64 (low + offset.toInt64)
    have hStart := Int64.toInt_eq_of_toUInt64 low
    have hWord := low.toUInt64.toNat_lt
    rw [Int64.toUInt64_add, UInt64.toUInt64_toInt64, UInt64.toNat_add] at hSum
    rw [Word.count, Word.signedLimit] at hSum hStart
    split at hSum <;> split at hStart <;> omega

end Integers

section Successive

theorem replicate_go (draw : Generator → α × Generator) (count : Nat) (drawn : Array α)
    (g : Generator) : replicate.go draw count drawn g
      = (drawn ++ (replicate draw count g).1, (replicate draw count g).2) := by
  induction count generalizing drawn g with
  | zero => simp [replicate, replicate.go]
  | succ count ih =>
      rw [replicate, replicate.go, replicate.go]
      obtain ⟨x, rest⟩ := draw g
      dsimp only
      rw [ih, ih (#[].push x)]
      simp

/-- The first of some draws, and the others after it. -/
theorem replicate_succ (draw : Generator → α × Generator) (count : Nat) (g : Generator) :
    replicate draw (count + 1) g = (#[(draw g).1] ++ (replicate draw count (draw g).2).1,
      (replicate draw count (draw g).2).2) :=
  replicate_go draw count #[(draw g).1] (draw g).2

theorem size_replicate (draw : Generator → α × Generator) (count : Nat) (g : Generator) :
    (replicate draw count g).1.size = count := by
  induction count generalizing g with
  | zero => rfl
  | succ count ih => rw [replicate_succ, Array.size_append, ih, Nat.add_comm]; rfl

/-- What holds of every draw holds of each of some draws. -/
theorem forall_mem_replicate (h : ∀ g, p (draw g).1) (count : Nat) (g : Generator) :
    ∀ x ∈ (replicate draw count g).1, p x := by
  induction count generalizing g with
  | zero => simp [replicate, replicate.go]
  | succ count ih =>
      intro x hx
      rw [replicate_succ, Array.mem_append, Array.mem_singleton] at hx
      rcases hx with rfl | hRest
      · exact h g
      · exact ih _ x hRest

end Successive

end Generator

end ArrayBridge
