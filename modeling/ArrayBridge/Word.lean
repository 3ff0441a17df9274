/-! Machine words of 64 bits, as numbers. -/

namespace ArrayBridge.Word

/-- The number of words: two to the power of 64. -/
def count : Nat := 0x10000000000000000

/-- The first number above the signed words: two to the power of 63. -/
def signedLimit : Nat := 0x8000000000000000

/-- A number as a signed word, unless it is outside of their range. -/
def signed? (n : Int) : Option Int := if -signedLimit ≤ n ∧ n < signedLimit then some n else none

theorem signed?_of_mem {n : Int} (hLow : -signedLimit ≤ n) (hHigh : n < signedLimit) :
    signed? n = some n := if_pos ⟨hLow, hHigh⟩

theorem signed?_natCast (n : Nat) :
    signed? (n : Int) = if n < signedLimit then some (n : Int) else none := by
  have hSame : (-(signedLimit : Int) ≤ n ∧ (n : Int) < signedLimit) ↔ n < signedLimit := by omega
  simp only [signed?, hSame]

/-- The word of a number that fits. -/
def ofNat? (n : Nat) : Option UInt64 := if n < count then some n.toUInt64 else none

/-- The upper and the lower half of the double-width product of two words. -/
def product (a b : UInt64) : UInt64 × UInt64 :=
  let p := a.toNat * b.toNat
  ((p / count).toUInt64, p.toUInt64)

end ArrayBridge.Word
