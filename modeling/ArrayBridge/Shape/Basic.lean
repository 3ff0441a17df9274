import ArrayBridge.Element

/-! Shapes, row-major strides, and the odometer that visits every index of a
shape. All sizes are exact natural numbers: a shape may denote more elements
than a machine word can count. -/

namespace ArrayBridge

/-- The length of each axis of an array, outermost axis first. -/
abbrev Shape := List Nat

namespace Shape

/-- The number of elements of a shape. The empty shape has one element. -/
def size : Shape → Nat
  | [] => 1
  | d :: ds => d * size ds

/-- The product of the axis lengths in which an empty axis counts as one. -/
def paddedSize : Shape → Nat
  | [] => 1
  | d :: ds => max d 1 * paddedSize ds

/-- The distance between neighbours along each axis of a row-major layout. An
empty axis does not scale the strides of the axes before it. -/
def strides : Shape → List Nat
  | [] => []
  | _ :: ds => paddedSize ds :: strides ds

/-- A shape is written as a tuple of numbers; a single number keeps its comma. -/
def text : Shape → String
  | [d] => "(" ++ toString d ++ ",)"
  | shape => "(" ++ ", ".intercalate (shape.map toString) ++ ")"

/-- The row-major position of an index whose coordinates are weighted by the
given strides. -/
def dot : List Nat → List Nat → Nat
  | i :: is, s :: ss => i * s + dot is ss
  | _, _ => 0

/-- One step of the odometer: the last coordinate that can grow does, and those
after it start again at zero. There is no step from the last index. -/
def advance : Shape → List Nat → Option (List Nat)
  | d :: ds, i :: is =>
    match advance ds is with
    | some js => some (i :: js)
    | none => if i + 1 < d then some ((i + 1) :: is.map fun _ => 0) else none
  | _, _ => none

/-- How far an index is from the end of its shape, in mixed radix. Coordinates
outside of the shape count as the last one. -/
def remaining : Shape → List Nat → Nat
  | d :: ds, i :: is => (d - 1 - i) * paddedSize ds + remaining ds is
  | _, _ => 0

theorem paddedSize_pos (shape : Shape) : 0 < shape.paddedSize := by
  induction shape with
  | nil => exact Nat.one_pos
  | cons d ds ih => exact Nat.mul_pos (by omega) ih

theorem remaining_lt (shape : Shape) (index : List Nat) :
    shape.remaining index < shape.paddedSize := by
  induction shape generalizing index with
  | nil => simp [remaining, paddedSize]
  | cons d ds ih =>
    cases index with
    | nil => simpa [remaining] using paddedSize_pos (d :: ds)
    | cons i is =>
      have hTail := ih is
      have hHead : (d - 1 - i) * paddedSize ds ≤ (max d 1 - 1) * paddedSize ds :=
        Nat.mul_le_mul_right _ (by omega)
      have hSplit : max d 1 * paddedSize ds
          = (max d 1 - 1) * paddedSize ds + paddedSize ds := by
        conv => lhs; rw [show max d 1 = (max d 1 - 1) + 1 by omega]
        rw [Nat.succ_mul]
      simp only [remaining, paddedSize]
      omega

/-- Every step of the odometer comes nearer to the end of the shape. -/
theorem remaining_advance {shape : Shape} {index next : List Nat}
    (h : shape.advance index = some next) : shape.remaining next < shape.remaining index := by
  induction shape generalizing index next with
  | nil => simp [advance] at h
  | cons d ds ih =>
    cases index with
    | nil => simp [advance] at h
    | cons i is =>
      simp only [advance] at h
      split at h
      · rename_i js hStep
        cases h
        simpa [remaining] using ih hStep
      · split at h
        · rename_i hRoom
          cases h
          have hTail := remaining_lt ds (is.map fun _ => 0)
          have hHead : (d - 1 - i) * paddedSize ds
              = (d - 1 - (i + 1)) * paddedSize ds + paddedSize ds := by
            rw [show d - 1 - i = (d - 1 - (i + 1)) + 1 by omega, Nat.succ_mul]
          simp only [remaining]
          omega
        · cases h

/-- Appends the given index and all that follow it in the shape. -/
def visitFrom (shape : Shape) (index : List Nat) (visited : Array (List Nat)) :
    Array (List Nat) :=
  match _h : shape.advance index with
  | none => visited.push index
  | some next => visitFrom shape next (visited.push index)
termination_by shape.remaining index
decreasing_by exact remaining_advance _h

/-- All indices of a shape in row-major order: none if an axis is empty, and the
empty index alone if there are no axes. -/
def indices (shape : Shape) : Array (List Nat) :=
  if 0 ∈ shape then #[] else shape.visitFrom (shape.map fun _ => 0) #[]

end Shape

end ArrayBridge
