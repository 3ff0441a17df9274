import ArrayBridge.Proofs.Building
import ArrayBridge.Proofs.Effects

/-! Arguments that look alike.

A function reads its arguments from the engine, and never looks at their names. So where two
engines have the same buffers, objects that look alike are read alike, and a function that
gets such arguments does the same in both. -/

namespace ArrayBridge

open Operation Outcome

/-- Whether an object has no items. -/
def Object.isPlain : Object → Bool
  | tuple _ | list _ => false
  | _ => true

namespace Engine

/-- Objects of two engines that no function can tell apart: they are the same object without
items, or tuples of the same numbers. -/
inductive Alike (left right : Engine) (x y : ObjectId) : Prop
  | plain (object : Object) (hPlain : object.isPlain = true)
      (hLeft : left.object x = .ok object) (hRight : right.object y = .ok object)
  | numbers (values : List Scalar) (hLeft : left.HoldsNumbers values x)
      (hRight : right.HoldsNumbers values y)

variable {left right : Engine} {x y : ObjectId} {s t : Option ObjectId}

section Reading

/-! Reading a single argument. -/

theorem get?_of_object {engine : Engine} {id : ObjectId} {object : Object}
    (h : engine.object id = .ok object) : engine.heap.get? id = some object :=
  Heap.get?_eq_some_iff.mpr (object_eq_ok_iff.mp h)

theorem Alike.typeName_eq (h : Alike left right x y) : left.typeName x = right.typeName y := by
  cases h with
  | plain object _ hLeft hRight =>
      rw [typeName, typeName, get?_of_object hLeft, get?_of_object hRight]
  | numbers values hLeft hRight =>
      obtain ⟨items, hLeft, -⟩ := hLeft
      obtain ⟨others, hRight, -⟩ := hRight
      rw [typeName, typeName, get?_of_object hLeft, get?_of_object hRight]
      rfl

theorem Alike.isNone_eq (h : Alike left right x y) : left.isNone x = right.isNone y := by
  cases h with
  | plain object _ hLeft hRight =>
      rw [isNone, isNone, get?_of_object hLeft, get?_of_object hRight]
  | numbers values hLeft hRight =>
      obtain ⟨items, hLeft, -⟩ := hLeft
      obtain ⟨others, hRight, -⟩ := hRight
      rw [isNone, isNone, get?_of_object hLeft, get?_of_object hRight]
      rfl

/-- What looks alike is no list. -/
theorem Alike.not_list (h : Alike left right x y) {items : List ObjectId} :
    left.object x ≠ .ok (.list items) := by
  intro hList
  cases h with
  | plain object hPlain hLeft =>
      cases hLeft.symm.trans hList
      cases hPlain
  | numbers values hLeft =>
      obtain ⟨found, hTuple, -⟩ := hLeft
      cases hTuple.symm.trans hList

variable (hBuffers : left.buffers = right.buffers)
include hBuffers

theorem scalarOf_eq : left.scalarOf = right.scalarOf := by
  funext object
  cases object with
  | array a => exact congrArg a.scalar? hBuffers
  | _ => rfl

theorem Alike.scalar?_eq (h : Alike left right x y) : left.scalar? x = right.scalar? y := by
  cases h with
  | plain object _ hLeft hRight => rw [scalar?, scalar?, hLeft, hRight, scalarOf_eq hBuffers]
  | numbers values hLeft hRight =>
      obtain ⟨items, hLeft, -⟩ := hLeft
      obtain ⟨others, hRight, -⟩ := hRight
      rw [scalar?, scalar?, hLeft, hRight]
      rfl

theorem Alike.scalar_eq (h : Alike left right x y) : left.scalar x = right.scalar y := by
  rw [scalar, scalar, h.scalar?_eq hBuffers, h.typeName_eq]

theorem Alike.integer_eq (h : Alike left right x y) : left.integer x = right.integer y := by
  rw [integer, integer, h.scalar?_eq hBuffers, h.typeName_eq]

theorem Alike.float_eq (h : Alike left right x y) : left.float x = right.float y := by
  rw [float, float, h.scalar?_eq hBuffers, h.typeName_eq]

theorem Alike.truth_eq (h : Alike left right x y) : left.truth x = right.truth y := by
  have hName := h.typeName_eq
  cases h with
  | plain object _ hLeft hRight =>
      rw [truth, truth, hLeft, hRight, hName, scalarOf_eq hBuffers]
  | numbers values hLeft hRight =>
      obtain ⟨items, hLeft, -⟩ := hLeft
      obtain ⟨others, hRight, -⟩ := hRight
      rw [truth, truth, hLeft, hRight, hName]
      rfl

/-- The same numbers are read as the same integers. -/
theorem mapM_integer_eq {values : List Scalar} {items others : List ObjectId}
    (hLeft : List.Forall₂ (fun item value => left.object item = .ok (.ofScalar value)) items values)
    (hRight : List.Forall₂ (fun item value => right.object item = .ok (.ofScalar value)) others
      values) : items.mapM left.integer = others.mapM right.integer := by
  induction hLeft generalizing others with
  | nil =>
      cases hRight
      rfl
  | @cons item value items values hItem _ ih =>
      obtain _ | ⟨hOther, hOthers⟩ := hRight
      have hAlike : Alike left right item _ :=
        .plain (.ofScalar value) (by cases value <;> rfl) hItem hOther
      rw [List.mapM_cons, List.mapM_cons, hAlike.integer_eq hBuffers, ih hOthers]

theorem Alike.shapeLengths_eq (h : Alike left right x y) :
    left.shapeLengths x = right.shapeLengths y := by
  have hInteger := h.integer_eq hBuffers
  cases h with
  | plain object hPlain hLeft hRight =>
      rw [shapeLengths, shapeLengths, hLeft, hRight, hInteger, hBuffers]
      cases object with
      | tuple | list => cases hPlain
      | _ => rfl
  | numbers values hLeft hRight =>
      obtain ⟨items, hLeft, hItems⟩ := hLeft
      obtain ⟨others, hRight, hOthers⟩ := hRight
      rw [shapeLengths, shapeLengths, hLeft, hRight]
      exact mapM_integer_eq hBuffers hItems hOthers

theorem Alike.shape_eq (h : Alike left right x y) : left.shape x = right.shape y := by
  rw [shape, shape, h.shapeLengths_eq hBuffers]

theorem Alike.dimensions_eq (h : Alike left right x y) :
    left.dimensions x = right.dimensions y := by
  have hInteger := h.integer_eq hBuffers
  cases h with
  | plain object hPlain hLeft hRight =>
      rw [dimensions, dimensions, hLeft, hRight, hInteger]
      cases object with
      | tuple | list => cases hPlain
      | _ => rfl
  | numbers values hLeft hRight =>
      obtain ⟨items, hLeft, hItems⟩ := hLeft
      obtain ⟨others, hRight, hOthers⟩ := hRight
      rw [dimensions, dimensions, hLeft, hRight]
      exact mapM_integer_eq hBuffers hItems hOthers

/-- An object without items is read at once, however deep the walk may go. -/
theorem flattenInto_plain_eq {object : Object} (hPlain : object.isPlain = true)
    (hLeft : left.object x = .ok object) (hRight : right.object y = .ok object)
    (bound wider : Nat) (f : Flattening) :
    left.flattenInto (bound + 1) 0 x f = right.flattenInto (wider + 1) 0 y f := by
  rw [flattenInto, flattenInto, hLeft, hRight, hBuffers]
  dsimp only [bind, Except.bind]
  cases object with
  | tuple | list => cases hPlain
  | _ => dsimp only

theorem Alike.arrayForm_eq (h : Alike left right x y) :
    left.arrayForm x = right.arrayForm y := by
  cases h with
  | plain object hPlain hLeft hRight =>
      have hNest : left.nestContents x = right.nestContents y := by
        rw [nestContents, nestContents, flattenInto_plain_eq hBuffers hPlain hLeft hRight]
      rw [arrayForm, arrayForm, hLeft, hRight, hNest]
  | numbers values hLeft hRight => rw [hLeft.arrayForm_eq, hRight.arrayForm_eq]

theorem Alike.arrayContents_eq (h : Alike left right x y) :
    left.arrayContents x = right.arrayContents y := by
  rw [arrayContents, arrayContents, h.arrayForm_eq hBuffers, hBuffers]

theorem Alike.population_eq (h : Alike left right x y) (function : String) :
    left.population x function = right.population y function := by
  have hContents := h.arrayContents_eq hBuffers
  cases h with
  | plain object hPlain hLeft hRight =>
      rw [population, population, hLeft, hRight, hContents]
  | numbers values hLeft hRight =>
      obtain ⟨items, hLeft, -⟩ := hLeft
      obtain ⟨others, hRight, -⟩ := hRight
      rw [population, population, hLeft, hRight, hContents]
      rfl

theorem Alike.weightTotals_eq (h : Alike left right x y) (count : Nat) :
    left.weightTotals count x = right.weightTotals count y := by
  rw [weightTotals, weightTotals, h.arrayContents_eq hBuffers]

end Reading

section Slots

/-! Reading an argument that may be left out. -/

theorem dtype?_eq (h : Option.Rel (Alike left right) s t) : left.dtype? s = right.dtype? t := by
  cases h with
  | none => rfl
  | some h =>
      cases h with
      | plain object _ hLeft hRight => rw [dtype?, dtype?, hLeft, hRight]
      | numbers values hLeft hRight =>
          obtain ⟨items, hLeft, -⟩ := hLeft
          obtain ⟨others, hRight, -⟩ := hRight
          rw [dtype?, dtype?, hLeft, hRight]
          rfl

theorem rel_given (h : Option.Rel (Alike left right) s t) :
    Option.Rel (Alike left right) (left.given s) (right.given t) := by
  cases h with
  | none => exact .none
  | @some x y h =>
      rw [given, given, Option.filter_some, Option.filter_some, h.isNone_eq]
      split
      · exact .some h
      · exact .none

theorem optional_eq {α : Type} {f g : ObjectId → Except Exception α}
    (h : Option.Rel (Alike left right) s t) (hRead : ∀ x y, Alike left right x y → f x = g y) :
    optional f s = optional g t := by
  cases h with
  | none => rfl
  | @some x y h => rw [optional, optional, Option.mapM_some, Option.mapM_some, hRead x y h]

end Slots

section Calls

/-! Reading all arguments of a call. -/

variable {b b' : CallBindings} {α : Type}

/-- The parameters of two calls of one function got arguments that look alike. -/
structure BoundAlike (left right : Engine) (b b' : CallBindings) : Prop where
  function_eq : b.function = b'.function
  rel_get? : ∀ name, Option.Rel (Alike left right) (b.get? name) (b'.get? name)

theorem BoundAlike.required (h : BoundAlike left right b b') (name : String) :
    Agree (Alike left right) (b.required name) (b'.required name) := by
  rw [Bindings.required, Bindings.required, h.function_eq]
  have hSlot := h.rel_get? name
  generalize b.get? name = slot at hSlot
  generalize b'.get? name = slot' at hSlot
  cases hSlot with
  | none => exact .error _
  | some hAlike => exact .ok hAlike

/-- A step that reads a required argument is the same if it does the same with arguments that
look alike. -/
theorem BoundAlike.check (h : BoundAlike left right b b') (name : String)
    {f g : ObjectId → Except Exception α} (hRead : ∀ x y, Alike left right x y → f x = g y) :
    (b.required name >>= f) = (b'.required name >>= g) := by
  have hRequired := h.required name
  generalize b.required name = slot at hRequired
  generalize b'.required name = slot' at hRequired
  cases hRequired with
  | ok hAlike => exact hRead _ _ hAlike
  | error e => rfl

theorem BoundAlike.step (h : BoundAlike left right b b') (name : String)
    {f g : ObjectId → NativeOp} (hNext : ∀ x y, Alike left right x y → f x = g y) :
    (liftM (b.required name) >>= f) = (liftM (b'.required name) >>= g) := by
  have hRequired := h.required name
  generalize b.required name = slot at hRequired
  generalize b'.required name = slot' at hRequired
  cases hRequired with
  | ok hAlike => exact hNext _ _ hAlike
  | error e => rfl

/-- An argument that was given and is not the object for no value. -/
theorem BoundAlike.given (h : BoundAlike left right b b') (name : String) :
    Option.Rel (Alike left right) (left.given (b.get? name)) (right.given (b'.get? name)) :=
  rel_given (h.rel_get? name)

variable (hBuffers : left.buffers = right.buffers) (h : BoundAlike left right b b')
include hBuffers h

theorem arrayOf_eq : left.arrayOf b = right.arrayOf b' :=
  h.step "object" fun x y hAlike => by
    rw [hAlike.arrayContents_eq hBuffers, dtype?_eq (h.rel_get? "dtype")]

theorem rangeOf_eq : left.rangeOf b = right.rangeOf b' := by
  refine h.step "start" fun x y hAlike => ?_
  have hStop := h.given "stop"
  have hScalar (s t : Option ObjectId) (hSlot : Option.Rel (Alike left right) s t) :
      optional left.scalar s = optional right.scalar t :=
    optional_eq hSlot fun x y hAlike => hAlike.scalar_eq hBuffers
  rw [hScalar _ _ (h.given "step"), dtype?_eq (h.rel_get? "dtype")]
  generalize left.given (b.get? "stop") = stop at hStop
  generalize right.given (b'.get? "stop") = stop' at hStop
  cases hStop with
  | none =>
      dsimp only
      rw [hScalar _ _ .none, hAlike.scalar_eq hBuffers]
  | some hOther =>
      dsimp only
      rw [hScalar _ _ (.some hAlike), hOther.scalar_eq hBuffers]

theorem constantOf_eq (value : Scalar) : left.constantOf b value = right.constantOf b' value :=
  h.step "shape" fun x y hAlike => by
    rw [hAlike.shape_eq hBuffers, dtype?_eq (h.rel_get? "dtype")]

theorem fullOf_eq : left.fullOf b = right.fullOf b' :=
  h.step "fill_value" fun x y hAlike => by
    rw [hAlike.scalar_eq hBuffers, dtype?_eq (h.rel_get? "dtype")]
    exact bind_congr fun value => h.step "shape" fun x y hAlike => by
      rw [hAlike.shape_eq hBuffers]

theorem reshapeOf_eq : left.reshapeOf b = right.reshapeOf b' :=
  h.step "a" fun x y hAlike => by
    rw [hAlike.arrayForm_eq hBuffers, hBuffers]
    exact bind_congr fun form => h.step "newshape" fun x y hAlike => by
      rw [hAlike.dimensions_eq hBuffers]

theorem copyOf_eq : left.copyOf b = right.copyOf b' :=
  h.step "a" fun x y hAlike => by rw [hAlike.arrayContents_eq hBuffers]

theorem sumOf_eq : left.sumOf b = right.sumOf b' := by
  refine h.step "a" fun x y hAlike => ?_
  rw [hAlike.arrayContents_eq hBuffers]
  refine bind_congr fun contents => ?_
  have hAxis := h.given "axis"
  generalize left.given (b.get? "axis") = axis at hAxis
  generalize right.given (b'.get? "axis") = axis' at hAxis
  cases hAxis with
  | none => rfl
  | some hAlike =>
      dsimp only
      rw [hAlike.integer_eq hBuffers]

theorem operands_eq : left.operands b = right.operands b' :=
  h.check "x1" fun x y hAlike => by
    rw [hAlike.arrayContents_eq hBuffers]
    exact bind_congr fun contents => h.check "x2" fun x y hAlike => by
      rw [hAlike.arrayContents_eq hBuffers]

theorem arithmeticOf_eq (op : Arithmetic) : left.arithmeticOf b op = right.arithmeticOf b' op := by
  rw [arithmeticOf, arithmeticOf, operands_eq hBuffers h, h.function_eq]

theorem integerArithmeticOf_eq (f : Int64 → Int64 → Int64) :
    left.integerArithmeticOf b f = right.integerArithmeticOf b' f := by
  rw [integerArithmeticOf, integerArithmeticOf, operands_eq hBuffers h, h.function_eq]

theorem size?_eq : left.size? b = right.size? b' :=
  optional_eq (h.given "size") fun _ _ hAlike => hAlike.shape_eq hBuffers

theorem floatOr_eq (name : String) (fallback : Float) :
    left.floatOr (b.get? name) fallback = right.floatOr (b'.get? name) fallback := by
  have hSlot := h.given name
  rw [floatOr, floatOr]
  generalize left.given (b.get? name) = slot at hSlot
  generalize right.given (b'.get? name) = slot' at hSlot
  cases hSlot with
  | none => rfl
  | some hAlike => exact hAlike.float_eq hBuffers

theorem seedOf_eq : left.seedOf b = right.seedOf b' := by
  have hSeed := h.given "seed"
  rw [seedOf, seedOf]
  generalize left.given (b.get? "seed") = slot at hSeed
  generalize right.given (b'.get? "seed") = slot' at hSeed
  cases hSeed with
  | none => rfl
  | some hAlike =>
      dsimp only
      rw [hAlike.integer_eq hBuffers]

theorem integerBounds_eq (implicitLow : Int64) :
    left.integerBounds b implicitLow = right.integerBounds b' implicitLow := by
  refine h.check "low" fun x y hAlike => ?_
  rw [hAlike.integer_eq hBuffers]
  refine bind_congr fun low => ?_
  have hHigh := h.given "high"
  generalize left.given (b.get? "high") = slot at hHigh
  generalize right.given (b'.get? "high") = slot' at hHigh
  cases hHigh with
  | none => rfl
  | some hAlike =>
      dsimp only
      rw [hAlike.integer_eq hBuffers]

theorem randintOf_eq : left.randintOf b = right.randintOf b' := by
  rw [randintOf, randintOf, integerBounds_eq hBuffers h, dtype?_eq (h.rel_get? "dtype"),
    size?_eq hBuffers h]

theorem randomIntegersOf_eq : left.randomIntegersOf b = right.randomIntegersOf b' := by
  rw [randomIntegersOf, randomIntegersOf, integerBounds_eq hBuffers h, size?_eq hBuffers h]

theorem randomSampleOf_eq : left.randomSampleOf b = right.randomSampleOf b' := by
  rw [randomSampleOf, randomSampleOf, size?_eq hBuffers h]

theorem uniformOf_eq : left.uniformOf b = right.uniformOf b' := by
  rw [uniformOf, uniformOf, floatOr_eq hBuffers h, floatOr_eq hBuffers h, size?_eq hBuffers h]

theorem normalOf_eq : left.normalOf b = right.normalOf b' := by
  rw [normalOf, normalOf, floatOr_eq hBuffers h, floatOr_eq hBuffers h, size?_eq hBuffers h]

theorem choiceOf_eq : left.choiceOf b = right.choiceOf b' :=
  h.step "a" fun x y hAlike => by
    have hReplace : optional left.truth (left.given (b.get? "replace"))
        = optional right.truth (right.given (b'.get? "replace")) :=
      optional_eq (h.given "replace") fun x y hAlike => hAlike.truth_eq hBuffers
    have hWeights (n : Nat) : optional (left.weightTotals n) (left.given (b.get? "p"))
        = optional (right.weightTotals n) (right.given (b'.get? "p")) :=
      optional_eq (h.given "p") fun x y hAlike => hAlike.weightTotals_eq hBuffers n
    rw [hAlike.population_eq hBuffers]
    refine bind_congr fun pool => ?_
    rw [hReplace, size?_eq hBuffers h]
    simp only [hWeights]

theorem bytesOf_eq : left.bytesOf b = right.bytesOf b' :=
  h.step "length" fun x y hAlike => by rw [hAlike.integer_eq hBuffers]

theorem permutationOf_eq : left.permutationOf b = right.permutationOf b' :=
  h.step "x" fun x y hAlike => by rw [hAlike.population_eq hBuffers]

theorem shuffleOf_eq : left.shuffleOf b = right.shuffleOf b' := by
  refine h.step "x" fun x y hAlike => ?_
  have hName := hAlike.typeName_eq
  cases hAlike with
  | plain object hPlain hLeft hRight =>
      rw [hLeft, hRight, hName, hBuffers, bind_ok, bind_ok]
      cases object with
      | list => cases hPlain
      | _ => rfl
  | numbers values hLeft hRight =>
      obtain ⟨items, hLeft, -⟩ := hLeft
      obtain ⟨others, hRight, -⟩ := hRight
      rw [hLeft, hRight, bind_ok, bind_ok]
      rfl

end Calls

end Engine

end ArrayBridge
