import ArrayBridge.Exception

/-! Broadcasting of shapes.

Shapes are aligned at their last axis. An axis of length one stretches to any
length, and a missing axis counts as one of length one. -/

namespace ArrayBridge.Shape

/-- The common length of two aligned axes. -/
def joinAxis (left right : Nat) : Option Nat :=
  if left = right then some left
  else if left = 1 then some right
  else if right = 1 then some left
  else none

/-- The common shape of two shapes that are listed from the last axis to the
first. -/
def joinReversed : List Nat → List Nat → Option (List Nat)
  | [], right => some right
  | left, [] => some left
  | a :: as, b :: bs => do
    let d ← joinAxis a b
    let ds ← joinReversed as bs
    return d :: ds

/-- The common shape of two operands, if there is one. -/
def join? (left right : Shape) : Option Shape :=
  (joinReversed left.reverse right.reverse).map List.reverse

/-- The common shape of two operands. -/
def broadcast (left right : Shape) : Except Exception Shape :=
  match join? left right with
  | some shape => .ok shape
  | none => .error (.notBroadcastable left right)

/-- The common shape of any number of operands, joined from left to right. -/
def joinAll? (shapes : List Shape) : Option Shape := shapes.foldlM join? []

/-- Drops leading axes of length one until at most `rank` axes are left. -/
def dropLeadingOnes (shape : Shape) (rank : Nat) : Option Shape :=
  if shape.length ≤ rank then some shape
  else match shape with
    | 1 :: rest => dropLeadingOnes rest rank
    | _ => none

/-- Whether every axis has length one or that of the aligned target axis. The
source has no more axes than the target. -/
def stretchesTo (source target : Shape) : Bool :=
  (source.zip (target.drop (target.length - source.length))).all fun (s, t) => s = t || s = 1

/-- The strides by which a target index reads a row-major source: those of the
source, and zero where the source is stretched. -/
def stretchedStrides (source : Shape) : List Nat :=
  (source.zip source.strides).map fun (d, stride) => if d = 1 then 0 else stride

/-- The row-major position in the source that an index of the target reads. -/
def stretchedPosition (source : Shape) (index : List Nat) : Nat :=
  dot (index.drop (index.length - source.length)) source.stretchedStrides

end ArrayBridge.Shape
