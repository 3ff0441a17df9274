import ArrayBridge.Engine.Numeric
import ArrayBridge.Proofs.Assignment
import ArrayBridge.Proofs.BroadcastLaws
import ArrayBridge.Proofs.Commitment
import ArrayBridge.Proofs.StrideProducts

/-! Elementwise operations.

The common shape of two operands is found by joining their axes, and each operand is then read for
every index of it by a rule of its own. Both rules agree: an operand is never refused by the common
shape, and is read at the index pulled back to its own axes. What an operation does at one index
thus depends on two elements only. The elements of the common shape are counted in machine words
without a check of their number, which fails for some shapes that have no elements. -/

namespace ArrayBridge

open Operation Outcome

namespace DType

theorem join_comm (left right : DType) : left.join right = right.join left := by
  cases left <;> cases right <;> rfl

end DType

namespace Contents

variable {c left right : Contents} {dtype : DType} {shape target : Shape}
  {op : Scalar → Scalar → Except Exception Scalar}

/-- The element of an operand that an index of the common shape reads. -/
def aligned (c : Contents) (index : List Nat) : Scalar := c.element (Shape.pull c.shape index)

end Contents

namespace Engine

variable {engine : Engine} {b b' : CallBindings} {left right : Contents}

/-- Whether an operation on integers or truth values does not mind the order of its operands. -/
structure Arithmetic.Commutes (op : Arithmetic) : Prop where
  ints : ∀ x y, op.ints x y = op.ints y x
  bools : ∀ f ∈ op.bools?, ∀ x y, f x y = f y x

theorem Arithmetic.Commutes.on? {op : Arithmetic} (h : op.Commutes) {dtype : DType}
    (hType : dtype ≠ .float64) {f : Scalar → Scalar → Scalar} (hOn : op.on? dtype = some f)
    (x y : Scalar) : f x y = f y x := by
  cases dtype with
  | bool =>
      obtain ⟨g, hg, rfl⟩ := Option.map_eq_some_iff.mp hOn
      exact congrArg Scalar.bool (h.bools g hg _ _)
  | int64 =>
      cases hOn
      exact congrArg Scalar.int (h.ints _ _)
  | float64 => exact absurd rfl hType

theorem operands_eq_ok_iff : engine.operands b = .ok (left, right) ↔
    (∃ x, b.required "x1" = .ok x ∧ engine.arrayContents x = .ok left) ∧
      ∃ y, b.required "x2" = .ok y ∧ engine.arrayContents y = .ok right := by
  simp only [operands, bind_eq_ok_iff, pure_eq_ok_iff, Prod.mk.injEq]
  constructor
  · rintro ⟨x, hX, _, hLeft, y, hY, _, hRight, rfl, rfl⟩
    exact ⟨⟨x, hX, hLeft⟩, y, hY, hRight⟩
  · rintro ⟨⟨x, hX, hLeft⟩, y, hY, hRight⟩
    exact ⟨x, hX, _, hLeft, y, hY, _, hRight, rfl, rfl⟩

/-- Two calls have the same two objects for operands, in different orders. -/
structure Swapped (b b' : CallBindings) : Prop where
  first : b'.get? "x1" = b.get? "x2"
  second : b'.get? "x2" = b.get? "x1"

theorem Swapped.operands_eq (h : Swapped b b') (hOperands : engine.operands b = .ok (left, right)) :
    engine.operands b' = .ok (right, left) := by
  have hRequired {name other : String} (hSame : b'.get? other = b.get? name) {x : ObjectId}
      (hX : b.required name = .ok x) : b'.required other = .ok x := by
    rw [Bindings.required] at hX ⊢
    rw [hSame]
    cases hGet : b.get? name with
    | some value => rwa [hGet] at hX
    | none => rw [hGet] at hX; cases hX
  obtain ⟨⟨x, hX, hLeft⟩, y, hY, hRight⟩ := operands_eq_ok_iff.mp hOperands
  exact operands_eq_ok_iff.mpr
    ⟨⟨y, hRequired h.first hY, hRight⟩, x, hRequired h.second hX, hLeft⟩

end Engine

namespace NdArray

variable {a b : NdArray} {shape : Shape}

end NdArray

end ArrayBridge
