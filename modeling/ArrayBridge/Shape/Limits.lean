import ArrayBridge.Slice
import ArrayBridge.Word

/-! Which shapes can be addressed, which strides can be represented and which buffers can be
reserved. -/

namespace ArrayBridge

/-- The largest element count whose size in bytes is a signed machine word, at
eight bytes for each element. -/
def maxElements : Nat := (Word.count / 2 - 1) / 8

/-- The first element count for which no buffer can be reserved: two to the power
of 40. -/
def reserveLimit : Nat := 0x10000000000

namespace Shape

/-- The product of the axis lengths, multiplied from the outermost axis inward
in machine words. There is no product if an intermediate one does not fit, even
where a later empty axis would make the whole product zero. -/
def wordProduct? (shape : Shape) : Option Nat :=
  shape.foldlM (fun product d => if product * d < Word.count then some (product * d) else none) 1

/-- The number of elements of a shape, for shapes that can be addressed. -/
def checkedSize (shape : Shape) : Except Exception Nat :=
  match shape.wordProduct? with
  | some size => if size ≤ maxElements then .ok size else .error (.shapeTooBig shape)
  | none => .error (.shapeTooBig shape)

/-- The product of the axis lengths in which an empty axis counts as one, multiplied from the
innermost axis outward in signed words. The products on the way are the row-major strides.
There is no product if one of them does not fit, even where the shape has no elements. -/
def paddedProduct? : Shape → Option Int
  | [] => some 1
  | d :: ds => (paddedProduct? ds).bind fun inner => Word.signed? (inner * signedLength (max d 1))

/-- Multiplies up the row-major strides of a shape. -/
def checkStrides (shape : Shape) : Except Exception Unit :=
  match shape.paddedProduct? with
  | some _ => .ok ()
  | none => .error .wordOverflow

/-- Counts the elements of a shape that nobody has checked before, and multiplies up its
strides. -/
def checkLayout (shape : Shape) : Except Exception Unit :=
  match shape.wordProduct? with
  | some _ => shape.checkStrides
  | none => .error .wordOverflow

end Shape

/-- Checks that a buffer of the given element count can be reserved. -/
def reserve (count : Nat) : Except Exception Unit :=
  if count < reserveLimit then .ok () else .error (.cannotAllocate count)

end ArrayBridge
