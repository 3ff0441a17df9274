import ArrayBridge.Proofs.Assignment
import ArrayBridge.Proofs.Building

/-! Results that are stored.

A function that computes an array does one thing to the engine: it stores the result, as a new
array with cells of its own, or as a number where there are no axes. From the object that it stored
the contents can be read again, by this engine or a later one, as long as nobody has written to
the cells. -/

namespace ArrayBridge

open Operation Outcome

namespace Contents

variable {c : Contents}

/-- Contents with a value of their element type for each element of their shape. -/
structure Regular (c : Contents) : Prop where
  size_eq : c.values.size = c.shape.size
  dtype_eq : ∀ value ∈ c.values, value.dtype = c.dtype

theorem regular_ofValues {dtype : DType} {values : Array Scalar} {shape : Shape}
    (h : values.size = shape.size) : (ofValues dtype values shape).Regular where
  size_eq := (Array.size_map ..).trans h
  dtype_eq value hValue := by
    obtain ⟨source, -, rfl⟩ := Array.mem_map.mp hValue
    exact source.dtype_cast dtype

/-- Contents are known by their elements. -/
theorem ext_element {c d : Contents} (hType : c.dtype = d.dtype) (hShape : c.shape = d.shape)
    (hLeft : c.values.size = c.shape.size) (hRight : d.values.size = d.shape.size)
    (hElements : ∀ index, c.shape.Contains index → c.element index = d.element index) : c = d := by
  have hValues : c.values = d.values := by
    rw [← Array.toList_inj, ← Contents.map_element_listing hLeft,
      ← Contents.map_element_listing hRight, ← hShape]
    exact List.map_congr_left fun index hIndex => hElements index (Shape.mem_listing.mp hIndex)
  cases c
  cases d
  simp_all

end Contents

namespace NdArray

variable {a : NdArray} {store : BufferStore} {c : Contents}

theorem WellFormed.regular_contents (h : a.WellFormed store) : (a.contents store).Regular :=
  ⟨size_values a store, fun _ hValue => dtype_of_mem_values h.stored hValue⟩

/-- What is stored as a new array is read from it. -/
theorem contents_allocate (store : BufferStore) (h : c.Regular) :
    (allocate store c).1.contents (allocate store c).2 = c := by
  rw [contents, values_allocate store h.size_eq h.dtype_eq]
  rfl

end NdArray

/-- Contents can be read from an object: a number, or an array with axes. -/
inductive Object.Presents (store : BufferStore) : Contents → Object → Prop
  | number (value : Scalar) : Presents store (.ofScalar value) (.ofScalar value)
  | array {a : NdArray} (formed : a.WellFormed store) (hAxes : a.shape ≠ []) :
      Presents store (a.contents store) (.array a)

namespace Engine

variable {engine : Engine} {id : ObjectId} {a : NdArray} {c : Contents} {object : Object}

/-- An operation stores an object under a new name, which it returns. The buffers are then the given
ones, and all else is as it was. -/
def Creates (engine : Engine) (op : NativeOp) (object : Object) (buffers : BufferStore) : Prop :=
  op.perform engine = (.ok (engine.heap.allocate object).1,
    { engine with heap := (engine.heap.allocate object).2, buffers })

theorem creates_array (c : Contents) :
    engine.Creates (always (createArray (.fresh c))) (.array (NdArray.allocate engine.buffers c).1)
      (NdArray.allocate engine.buffers c).2 := rfl

/-- Contents with axes are stored as an array that presents them. -/
theorem exists_creates_array (engine : Engine) (h : c.Regular) (hAxes : c.shape ≠ []) :
    ∃ object buffers, engine.Creates (always (createArray (.fresh c))) object buffers ∧
      object.Presents buffers c := by
  refine ⟨_, _, creates_array c, ?_⟩
  have hPresents := Object.Presents.array (NdArray.wellFormed_allocate engine.buffers h.size_eq) hAxes
  rwa [NdArray.contents_allocate engine.buffers h] at hPresents

end Engine

end ArrayBridge
