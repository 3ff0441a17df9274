/-! Greatest common divisor and least common multiple of machine integers. Both
are computed on magnitudes and wrap where a result does not fit. -/

namespace ArrayBridge.Euclid

/-- The magnitude of a machine integer, which always fits an unsigned word. -/
def magnitude (i : Int64) : UInt64 := i.toInt.natAbs.toUInt64

/-- The remainder sequence of two words, down to the last that is not zero. -/
def remainders (a b : UInt64) : UInt64 :=
  if _h : b.toNat = 0 then a else remainders b (a % b)
termination_by b.toNat
decreasing_by
  rw [UInt64.toNat_mod]
  exact Nat.mod_lt _ (Nat.pos_of_ne_zero _h)

def gcd (a b : Int64) : Int64 := (remainders (magnitude a) (magnitude b)).toInt64

def lcm (a b : Int64) : Int64 :=
  if a = 0 ∨ b = 0 then 0 else (a / gcd a b * b).abs

end ArrayBridge.Euclid
