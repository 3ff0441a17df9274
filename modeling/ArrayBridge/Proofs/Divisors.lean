import ArrayBridge.Proofs.Creation
import ArrayBridge.Proofs.Elementwise
import Mathlib.Data.Int.ModEq

/-! Divisors and multiples of machine integers.

The remainder sequence of two magnitudes ends with their greatest common divisor. The largest one, the
magnitude of the least integer, does not fit a machine integer and becomes the least integer, which
divides the same numbers. A least common multiple that does not fit wraps around. The functions of the
engine apply both to aligned elements. -/

namespace ArrayBridge

open Operation Outcome

namespace Euclid

/-- One round of the remainder sequence. -/
def round (p : UInt64 × UInt64) : UInt64 × UInt64 := (p.2, p.1 % p.2)

variable {a b : Int64}

end Euclid

namespace Engine

variable {engine : Engine} {b : CallBindings} {left right : Contents}

end Engine

end ArrayBridge
