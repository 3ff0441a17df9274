import ArrayBridge.Engine.State

/-! Array-like objects.

An array-like object is a number, an array, or a sequence of array-like objects.
Flattening walks through such a nest and collects the contents of one array. All
items of a sequence must have the same shape; the shape is found on the way, from
the first items inward. The first fault on the way ends the walk, so what comes
after it is never looked at. -/

namespace ArrayBridge

/-- The shape and the values that were found so far. -/
structure Flattening where
  shape : Shape
  values : Array Scalar
  deriving Inhabited

namespace Flattening

def empty : Flattening := ⟨[], #[]⟩

/-- Meets an axis of the given length at a depth. An axis that is not known yet
can only be added before the first value. -/
def meetAxis (f : Flattening) (depth length : Nat) : Except Exception Flattening :=
  match f.shape[depth]? with
  | some known => if known = length then .ok f else .error .raggedNest
  | none =>
    if depth = f.shape.length ∧ f.values.isEmpty then .ok { f with shape := f.shape ++ [length] }
    else .error .raggedNest

/-- Meets the axes of an array, the first of them at the given depth. -/
def meetShape (f : Flattening) : (depth : Nat) → Shape → Except Exception Flattening
  | _, [] => .ok f
  | depth, length :: rest => do (← f.meetAxis depth length).meetShape (depth + 1) rest

/-- Meets a number at a depth, where all axes must be known. -/
def meetNumber (f : Flattening) (depth : Nat) (value : Scalar) : Except Exception Flattening :=
  if depth = f.shape.length then .ok { f with values := f.values.push value }
  else .error .raggedNest

/-- The contents of the array that was found. The element type is the smallest
that holds all values; without values it is that of floats. -/
def contents (f : Flattening) : Contents :=
  let dtype := if f.values.isEmpty then .float64
    else f.values.foldl (fun dtype value => dtype.join value.dtype) .bool
  .ofValues dtype f.values f.shape

end Flattening

namespace Engine

/-- Appends the values of an object that lies at the given depth. The bound limits
how deep the walk goes from here. -/
def flattenInto (engine : Engine) :
    (bound depth : Nat) → ObjectId → Flattening → Except Exception Flattening
  | 0, _, _, _ => .error .nestTooDeep
  | bound + 1, depth, id, f => do
    match ← engine.object id with
    | .tuple items | .list items =>
      let f ← f.meetAxis depth items.length
      items.foldlM (fun f item => engine.flattenInto bound (depth + 1) item f) f
    | .array a =>
      let f ← f.meetShape depth a.shape
      return { f with values := f.values ++ a.values engine.buffers }
    | object =>
      match object.number? with
      | some value => f.meetNumber depth value
      | none => throw (.notArrayLike object.typeName)

/-- The contents of the array that an array-like object denotes. A chain of distinct
objects is not longer than there are slots, so only an object that contains itself
is too deep. -/
def nestContents (engine : Engine) (id : ObjectId) : Except Exception Contents := do
  let found ← engine.flattenInto (engine.heap.slots.size + 1) 0 id .empty
  found.shape.checkStrides
  return found.contents

/-- The array that an object denotes: the array itself, or fresh contents for any
other array-like object. -/
def arrayForm (engine : Engine) (id : ObjectId) : Except Exception ArrayForm := do
  match ← engine.object id with
  | .array a => return .view a
  | _ => return .fresh (← engine.nestContents id)

/-- The contents of the array that an object denotes. -/
def arrayContents (engine : Engine) (id : ObjectId) : Except Exception Contents := do
  return (← engine.arrayForm id).contents engine.buffers

/-- One selector of an index expression. A sequence is read as an array; an array
of truth values is a mask, one of integers an index array. -/
def selector (engine : Engine) (id : ObjectId) : Except Exception Selector := do
  match ← engine.object id with
  | .int i => return .at i
  | .slice bounds => return .slice bounds
  | .array a =>
    match a.dtype, a.scalar? engine.buffers with
    | .int64, some value => return .at value.toInt64
    | _, _ => ofContents (a.contents engine.buffers)
  | .list _ | .tuple _ => ofContents (← engine.arrayContents id)
  | object => throw (.notAnIndex object.typeName)
where
  ofContents (c : Contents) : Except Exception Selector :=
    match c.dtype with
    | .bool =>
      if c.rank = 1 then .ok (.mask (c.values.map Scalar.toBool)) else .error .maskRank
    | .int64 => .ok (.indices (c.values.map Scalar.toInt64) c.shape)
    | .float64 =>
      -- An empty sequence holds floats and still indexes nothing.
      if c.shape.size = 0 then .ok (.indices #[] c.shape) else .error .floatIndex

/-- The selectors of an index expression: those of a tuple's items, or the only
one. -/
def selectors (engine : Engine) (key : ObjectId) : Except Exception (List Selector) := do
  match ← engine.object key with
  | .tuple items => items.mapM engine.selector
  | _ => return [← engine.selector key]

/-- The position in a sequence that an integer key names. -/
def sequencePosition (engine : Engine) (length : Nat) (key : ObjectId) : Except Exception Nat := do
  let index := (← engine.integer key).toInt
  let resolved := if index < 0 then index + length else index
  if 0 ≤ resolved ∧ resolved < length then return resolved.toNat
  else throw .sequenceIndexOutOfRange

end Engine

end ArrayBridge
