import ArrayBridge.Exception

/-! Positions and slices along one axis.

Negative positions and bounds count from the end of the axis. The bounds of a
slice are clamped to the axis, a single position is not. -/

namespace ArrayBridge

/-- The bounds of a slice; a bound that was not given is `none`. -/
structure SliceBounds where
  start : Option Int64
  stop : Option Int64
  step : Option Int64
  deriving DecidableEq, Inhabited

/-- The positions `start`, `start + step`, … of a slice on a given axis. -/
structure SliceRange where
  start : Int
  count : Nat
  step : Int
  deriving DecidableEq, Inhabited

/-- The slice of a whole axis. -/
def SliceBounds.full : SliceBounds := ⟨none, none, none⟩

/-- The length of an axis as a signed number of 64 bits, which positions are
compared with. A length that does not fit reads as a negative number, so that such an
axis has no positions. -/
def signedLength (size : Nat) : Int := (Int64.ofNat size).toInt

theorem signedLength_of_lt {size : Nat} (h : size < 0x8000000000000000) :
    signedLength size = size := Int64.toInt_ofNat_of_lt h

/-- Resolves a position that may count from the end of its axis. -/
def resolvePosition (index : Int64) (size axis : Nat) : Except Exception Nat :=
  let i := index.toInt
  let length := signedLength size
  let resolved := if i < 0 then i + length else i
  if 0 ≤ resolved ∧ resolved < length then .ok resolved.toNat
  else .error (.indexOutOfBounds index axis size)

namespace SliceBounds

/-- A bound counted from the front, clamped to the given limits. -/
def clamp (bound : Int64) (length lower upper : Int) : Int :=
  let b := bound.toInt
  min (max (if b < 0 then b + length else b) lower) upper

/-- The first position of a slice, on its way in the direction of the step. -/
def first (bounds : SliceBounds) (length step : Int) : Int :=
  match bounds.start with
  | some b => if 0 < step then clamp b length 0 length else clamp b length (-1) (length - 1)
  | none => if 0 < step then 0 else length - 1

/-- The position before which a slice ends, in the direction of the step. -/
def bound (bounds : SliceBounds) (length step : Int) : Int :=
  match bounds.stop with
  | some b => if 0 < step then clamp b length 0 length else clamp b length (-1) (length - 1)
  | none => if 0 < step then length else -1

/-- How many steps lead from the first position up to the end. -/
def countSteps (first bound step : Int) : Nat :=
  if 0 < step ∧ first < bound then (bound - first - 1).toNat / step.natAbs + 1
  else if step < 0 ∧ bound < first then (first - bound - 1).toNat / step.natAbs + 1
  else 0

/-- Resolves a slice on an axis of the given size. A step that is never taken is
reduced to its sign. -/
def resolve (bounds : SliceBounds) (size : Nat) : Except Exception SliceRange :=
  let step := (bounds.step.getD 1).toInt
  if step = 0 then .error .zeroSliceStep
  else
    let length := signedLength size
    let first := bounds.first length step
    let count := countSteps first (bounds.bound length step) step
    .ok ⟨first, count, if 1 < count then step else step.sign⟩

end SliceBounds

/-- The position that is `k` steps away from the start. -/
def SliceRange.position (range : SliceRange) (k : Nat) : Int := range.start + k * range.step

end ArrayBridge
