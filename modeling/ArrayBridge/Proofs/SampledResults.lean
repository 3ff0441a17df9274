import ArrayBridge.Proofs.Draws
import ArrayBridge.Proofs.ShapeArguments
import ArrayBridge.Proofs.StrideProducts

/-! What a sampler makes of its draws.

Without a size a sampler gives one number. With a size it draws as many values as the shape has
elements, and gives an array that holds them in row-major order. All it does to the engine is to draw
and to store the result, unless the shape has more elements than can be allocated, or products of
strides that are no words. Both are found before anything is drawn. -/

namespace ArrayBridge

open Operation Outcome Generator

/-- The shape can be asked for, its elements can be allocated and its strides are words. -/
structure Shape.Allocatable (shape : Shape) : Prop where
  checked : shape.checkedSize = .ok shape.size
  reserved : reserve shape.size = .ok ()
  strides : shape.checkStrides = .ok ()

/-- An object holds values that were drawn for a size: a number if there is no size, and otherwise an
array of that shape, with the values in row-major order. -/
inductive Object.HoldsDrawn (store : BufferStore) (dtype : DType) :
    Option Shape → List Scalar → Object → Prop
  | number (value : Scalar) : HoldsDrawn store dtype Option.none [value] (.ofScalar value)
  | array {a : NdArray} {c : Contents} (formed : a.WellFormed store) (hContents : a.contents store = c)
      (hType : c.dtype = dtype) : HoldsDrawn store dtype (some c.shape) c.values.toList (.array a)

namespace Engine

variable {engine : Engine} {op : NativeOp} {dtype : DType} {sampler : Sampler} {shape : Shape}
  {shape? : Option Shape} {p : Scalar → Prop}

/-- An operation draws an object: it stores the object under a new name, which it returns. The buffers
and the generator are then the given ones, and all else is as it was. -/
def Draws (engine : Engine) (op : NativeOp) (object : Object) (buffers : BufferStore)
    (generator : Generator) : Prop :=
  op.perform engine = (.ok (engine.heap.allocate object).1,
    { engine with heap := (engine.heap.allocate object).2, buffers, generator })

theorem run_draw {α : Type} (f : Generator → α × Generator) (engine : Engine) :
    (draw f).run engine
      = ((f engine.generator).1, { engine with generator := (f engine.generator).2 }) := rfl

/-- The number of values for a size. -/
def sampleCount (shape? : Option Shape) : Nat := (shape?.map Shape.size).getD 1

/-- The values that a sampler gives for a size. -/
def sampled (dtype : DType) (sampler : Sampler) : Option Shape → Generator → List Scalar × Generator
  | none, g => ([(sampler g).1], (sampler g).2)
  | some shape, g => (((replicate sampler shape.size g).1.map (·.cast dtype)).toList,
      (replicate sampler shape.size g).2)

theorem length_sampled (dtype : DType) (sampler : Sampler) (shape? : Option Shape) (g : Generator) :
    (sampled dtype sampler shape? g).1.length = sampleCount shape? := by
  cases shape? with
  | none => rfl
  | some shape => simp [sampled, sampleCount, size_replicate]

/-- What holds of every draw, also as an element of the type, holds of all values. -/
theorem forall_mem_sampled (hDraw : ∀ g, p (sampler g).1) (hCast : ∀ value, p value → p (value.cast dtype))
    (shape? : Option Shape) (g : Generator) : ∀ value ∈ (sampled dtype sampler shape? g).1, p value := by
  cases shape? with
  | none => simpa [sampled] using hDraw g
  | some shape =>
      intro value hValue
      obtain ⟨drawn, hDrawn, rfl⟩ := Array.mem_map.mp (Array.mem_toList_iff.mp hValue)
      exact hCast drawn (forall_mem_replicate hDraw shape.size g drawn hDrawn)

/-- A size of which every shape can be allocated. -/
def AllocatableSize (shape? : Option Shape) : Prop := ∀ shape, shape? = some shape → shape.Allocatable

/-- Contents that are stored are an array that holds them. -/
theorem holdsDrawn_allocate (dtype : DType) (store : BufferStore) {values : Array Scalar}
    (h : values.size = shape.size) :
    (Object.array (NdArray.allocate store (.ofValues dtype values shape)).1).HoldsDrawn
      (NdArray.allocate store (.ofValues dtype values shape)).2 dtype (some shape)
      (values.map (·.cast dtype)).toList :=
  .array (NdArray.wellFormed_allocate store (Contents.regular_ofValues h).size_eq)
    (NdArray.contents_allocate store (Contents.regular_ofValues h)) rfl

/-- A sampler draws its values for every size that can be allocated. -/
theorem exists_draws_sample (engine : Engine) (dtype : DType) (sampler : Sampler)
    (h : AllocatableSize shape?) :
    ∃ object buffers, engine.Draws (sample dtype sampler shape?) object buffers
        (sampled dtype sampler shape? engine.generator).2 ∧
      object.HoldsDrawn buffers dtype shape? (sampled dtype sampler shape? engine.generator).1 := by
  cases shape? with
  | none => exact ⟨_, engine.buffers, rfl, .number _⟩
  | some shape =>
      obtain ⟨hChecked, hReserved, hStrides⟩ := h shape rfl
      have hSize := size_replicate sampler shape.size engine.generator
      refine ⟨_, _, ?_, holdsDrawn_allocate dtype engine.buffers hSize⟩
      rw [Draws, sample, hChecked, bind_ok, hReserved, bind_ok, hStrides, bind_ok]
      rfl

/-- A size that cannot be allocated is refused, but never for its value if the shape was checked. -/
theorem sample_refuses (hChecked : ∀ shape, shape? = some shape → ∃ count, shape.checkedSize = .ok count)
    (h : ¬ AllocatableSize shape?) :
    ∃ e, (sample dtype sampler shape?).perform engine = (.error e, engine) ∧ e.kind ≠ .valueError := by
  cases shape? with
  | none => exact (h fun _ hNone => by cases hNone).elim
  | some shape =>
      obtain ⟨count, hCount⟩ := hChecked shape rfl
      obtain ⟨rfl, -⟩ := Shape.size_of_checkedSize hCount
      rw [sample, hCount, bind_ok]
      by_cases hFits : shape.size < reserveLimit
      · have hReserved : reserve shape.size = .ok () := if_pos hFits
        rw [hReserved, bind_ok]
        rcases shape.checkStrides_eq_ok_or with hStrides | hStrides
        · exact (h fun other hOther => by cases hOther; exact ⟨hCount, hReserved, hStrides⟩).elim
        · rw [hStrides, bind_error]
          exact ⟨.wordOverflow, rfl, nofun⟩
      · have hRefused : reserve shape.size = .error (.cannotAllocate shape.size) := if_neg hFits
        rw [hRefused, bind_error]
        exact ⟨_, rfl, nofun⟩

end Engine

end ArrayBridge
