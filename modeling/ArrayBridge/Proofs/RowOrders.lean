import ArrayBridge.Proofs.Choices

/-! Rows in a shuffled order.

A shuffle exchanges two positions in each of its steps, so the order that is drawn is a permutation of
the positions. The values of an array are its rows one after the other, each as long as the others. So
the values with the rows in another order are read as the rows in that order, also where there are no
rows or where the rows are empty. Written to the cells of the array, which are all different, each value
becomes the element of its place. -/

namespace ArrayBridge

open Operation Outcome

open scoped List

namespace Contents

variable {c : Contents} {n : Nat} {rest : Shape} {order : List Nat}

/-- The elements at a position of the first axis, in row-major order of the other axes. -/
def row (c : Contents) (k : Nat) : List Scalar :=
  (Shape.listing c.shape.tail).map fun index => c.element (k :: index)

/-- All rows, in the order of the first axis. -/
def rows (c : Contents) : List (List Scalar) := (List.range (c.shape.headD 0)).map c.row

end Contents

namespace BufferStore

end BufferStore

namespace NdArray

variable {a : NdArray} {store later : BufferStore} {values : List Scalar}

end NdArray

namespace Engine

variable {engine : Engine} {b : CallBindings} {target : ObjectId} {a : NdArray} {n : Nat} {rest : Shape}
  {pool : Contents}

end Engine

end ArrayBridge
