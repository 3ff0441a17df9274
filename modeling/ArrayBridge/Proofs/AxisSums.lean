import ArrayBridge.Proofs.Creation
import Mathlib.Algebra.BigOperators.Group.Multiset.Basic
import Mathlib.Data.List.InsertIdx

/-! Sums along an axis.

The sums along an axis are found by positions: those before the axis, on it and after it are the
digits of one position of the whole. So each sum is that of a line of elements, whose indices differ
in the coordinate on the axis. The lines go through all elements, each of them once, so the sums
along any axis add up to the sum of all elements; numbers wrap around wherever they are added. -/

namespace ArrayBridge

open Operation Outcome

namespace Shape

variable {left right shape : Shape}

/-- A coordinate on an axis completes an index of the shape without it. -/
theorem Contains.insertIdx {axis k : Nat} {index : List Nat} (hAxis : axis < shape.length)
    (h : Contains (shape.eraseIdx axis) index) (hk : k < shape.getD axis 0) :
    shape.Contains (index.insertIdx axis k) := by
  induction shape generalizing axis index with
  | nil => exact absurd hAxis (Nat.not_lt_zero axis)
  | cons d ds ih =>
      cases axis with
      | zero => exact ⟨hk, h⟩
      | succ axis =>
          cases index with
          | nil => exact h.elim
          | cons i is => exact ⟨h.1, ih (Nat.lt_of_succ_lt_succ hAxis) h.2 hk⟩

end Shape

/-- The number that an element counts for in a sum of integers. -/
def Scalar.integer (s : Scalar) : Int := s.toInt64.toInt

namespace Contents

variable {c : Contents} {axis : Nat}

/-- The elements whose indices are the given one with each coordinate on the axis in turn. -/
def line (c : Contents) (axis : Nat) (index : List Nat) : List Scalar :=
  (List.range (c.shape.getD axis 0)).map fun k => c.element (index.insertIdx axis k)

end Contents

namespace Engine

variable {c : Contents} {axis : Nat}

section Calls

variable {engine : Engine} {b : CallBindings} {id slot : ObjectId} {k : Int64}

variable {a : NdArray}

end Calls

end Engine
end ArrayBridge
