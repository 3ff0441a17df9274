import ArrayBridge.Proofs.Assignment
import ArrayBridge.Proofs.Effects

/-! What an action leaves of the storage.

Buffers are never removed and no array ever moves to another buffer. So what an action does
to the storage is told by the cells that it writes and by the arrays that it makes; all
else stays. -/

namespace ArrayBridge

namespace Heap

variable {heap : Heap} {id other : ObjectId} {object found : Object}

/-- What is there after an object was made was there before, or is that object. This holds in
every heap, in order or not. -/
theorem eq_of_get?_allocate (h : (heap.allocate object).2.get? id = some found) :
    heap.get? id = some found ∨ found = object := by
  obtain ⟨references, h⟩ := get?_eq_some_iff.mp h
  have hSlot := occupant?_eq_some_iff.mp h
  obtain ⟨slots, free, live⟩ := heap
  cases free with
  | nil =>
      simp only [allocate, Array.getElem?_push] at hSlot
      split at hSlot
      · simp only [Option.some.injEq, Slot.mk.injEq, Occupant.mk.injEq] at hSlot
        exact .inr hSlot.2.2.symm
      · exact .inl (get?_eq_some_iff.mpr ⟨references, occupant?_eq_some_iff.mpr hSlot⟩)
  | cons index free =>
      simp only [allocate, Array.getElem?_setIfInBounds] at hSlot
      split at hSlot
      · split at hSlot
        · simp only [Option.some.injEq, Slot.mk.injEq, Occupant.mk.injEq] at hSlot
          exact .inr hSlot.2.2.symm
        · cases hSlot
      · exact .inl (get?_eq_some_iff.mpr ⟨references, occupant?_eq_some_iff.mpr hSlot⟩)

/-- What is there after one object took the place of another was there before, or is that
object. -/
theorem eq_of_get?_replace (h : (heap.replace id object).get? other = some found) :
    heap.get? other = some found ∨ found = object := by
  by_cases hHere : other = id
  · subst hHere
    cases hOccupant : heap.occupant? other with
    | none =>
        rw [replace, hOccupant] at h
        exact .inl h
    | some occupant =>
        rw [get?_replace object hOccupant] at h
        cases h
        exact .inr rfl
  · rw [get?_replace_of_ne object hHere] at h
    exact .inl h

end Heap

section Storage

open AxisSelection Outcome

namespace NdArray

variable {a v : NdArray} {store later : BufferStore} {selectors : List Selector}

/-- An array has one stride for each axis, and a buffer of its element type. -/
structure StoredIn (a : NdArray) (store : BufferStore) : Prop where
  strides_length : a.strides.length = a.shape.length
  stored : ∃ buffer, store.buffer? a.buffer = some buffer ∧ buffer.dtype = a.dtype

namespace StoredIn

theorem mono (h : a.StoredIn store) (hKeeps : store.Keeps later) : a.StoredIn later := by
  obtain ⟨buffer, hBuffer, hType⟩ := h.stored
  obtain ⟨now, hNow, hSame, -⟩ := hKeeps _ _ hBuffer
  exact ⟨h.strides_length, now, hNow, hSame.trans hType⟩

/-- New contents stand on a buffer of their own. -/
theorem allocate (store : BufferStore) (c : Contents) :
    (NdArray.allocate store c).1.StoredIn (NdArray.allocate store c).2 where
  strides_length := by simp [NdArray.allocate, ofBuffer, rowMajorStrides]
  stored := ⟨_, BufferStore.buffer?_allocate_fst _ _, Buffer.dtype_ofValues _ _⟩

/-- A view that is located in an array has no more elements and stands on the same buffer. -/
theorem view_of_locate (h : a.StoredIn store) (hLocate : a.locate selectors = .ok (.view v)) :
    v.StoredIn store ∧ v.buffer = a.buffer ∧ v.size ≤ a.size := by
  obtain ⟨-, axes, -, hValid, hPlain, rfl⟩ := exists_axes_of_view hLocate
  obtain ⟨hShape, hStrides, -⟩ := displacement_viewAlong hValid
    (h.strides_length.trans hValid.length_eq) hPlain
  refine ⟨⟨hStrides.trans (congrArg List.length hShape).symm, h.stored⟩, rfl, ?_⟩
  exact (congrArg Shape.size hShape).trans_le (size_counts_le hValid hPlain)

end StoredIn

end NdArray

end Storage

namespace BufferStore

variable {store : BufferStore} {id : BufferId}

/-- A new buffer changes no cell of another one. -/
theorem get_allocate (buffer : Buffer) (h : id.index < store.stored.size) (i : Nat) :
    (store.allocate buffer).2.get id i = store.get id i := by
  simp [allocate, get, buffer?, Array.getElem?_push_lt h, Array.getElem?_eq_getElem h]

/-- Writes change only the cells that they name. -/
theorem get_setAll_of_notMem (other : BufferId) {writes : List (Nat × Scalar)} {i : Nat}
    (h : id = other → i ∉ writes.map Prod.fst) : (store.setAll other writes).get id i = store.get id i := by
  rw [get, get, buffer?_setAll]
  cases store.buffer? id with
  | none => rfl
  | some buffer =>
      rw [Option.map_some, Option.map_some, Option.map_some, Option.getD_some, Option.getD_some]
      split_ifs with hHere
      · rcases buffer.get_setAll writes i with ⟨-, hSame⟩ | ⟨k, value, hWrite, -⟩
        · exact hSame
        · exact absurd (List.mem_map_of_mem (List.mem_of_getElem? hWrite)) (h hHere)
      · rfl

end BufferStore

namespace Engine

open Heap Operation

/-- Every array stands on a buffer of its element type. -/
def Stored (engine : Engine) : Prop :=
  ∀ id a, engine.heap.get? id = some (.array a) → a.StoredIn engine.buffers

/-- What changed from one state to a later one: cells that were written, and arrays that were
made. -/
structure Footprint (written : BufferId → Nat → Prop) (made : NdArray → Prop)
    (engine next : Engine) : Prop where
  keeps : engine.buffers.Keeps next.buffers
  size_le : engine.buffers.stored.size ≤ next.buffers.stored.size
  cells : ∀ id i, id.index < engine.buffers.stored.size →
    next.buffers.get id i = engine.buffers.get id i ∨ written id i
  arrays : ∀ id a, next.heap.get? id = some (.array a) →
    engine.heap.get? id = some (.array a) ∨ made a ∧ a.StoredIn next.buffers

/-- An action that leaves no more than a footprint. -/
def Confined {α : Type} (written : BufferId → Nat → Prop) (made : NdArray → Prop) (engine : Engine)
    (action : StateM Engine α) : Prop :=
  Footprint written made engine (action.run engine).2

variable {written : BufferId → Nat → Prop} {made : NdArray → Prop} {engine middle next : Engine}
  {α β : Type}

namespace Footprint

/-- A change of the heap that makes no array. -/
theorem of_heap (hBuffers : next.buffers = engine.buffers)
    (hArrays : ∀ id a, next.heap.get? id = some (.array a) →
      engine.heap.get? id = some (.array a)) : Footprint written made engine next where
  keeps := hBuffers ▸ .refl _
  size_le := hBuffers ▸ Nat.le_refl _
  cells _ _ _ := .inl (by rw [hBuffers])
  arrays id a h := .inl (hArrays id a h)

theorem refl (engine : Engine) : Footprint written made engine engine :=
  of_heap rfl fun _ _ h => h

theorem trans (h : Footprint written made engine middle)
    (hNext : Footprint written made middle next) : Footprint written made engine next where
  keeps id buffer hBuffer := by
    obtain ⟨between, hBetween, hType, hSize⟩ := h.keeps id buffer hBuffer
    obtain ⟨now, hNow, hNowType, hNowSize⟩ := hNext.keeps id between hBetween
    exact ⟨now, hNow, hNowType.trans hType, hNowSize.trans hSize⟩
  size_le := Nat.le_trans h.size_le hNext.size_le
  cells id i hId := by
    rcases hNext.cells id i (Nat.lt_of_lt_of_le hId h.size_le) with hSame | hWritten
    · exact (h.cells id i hId).imp_left hSame.trans
    · exact .inr hWritten
  arrays id a hNow := by
    rcases hNext.arrays id a hNow with hBetween | hMade
    · exact (h.arrays id a hBetween).imp_right fun ⟨hMade, hStored⟩ =>
        ⟨hMade, hStored.mono hNext.keeps⟩
    · exact .inr hMade

/-- Arrays stay on buffers of their type. -/
theorem stored (h : Footprint written made engine next) (hStored : engine.Stored) : next.Stored := by
  intro id a hNow
  rcases h.arrays id a hNow with hBefore | ⟨-, hMade⟩
  · exact (hStored id a hBefore).mono h.keeps
  · exact hMade

end Footprint

section Actions

theorem Confined.bind {action : StateM Engine α} {rest : α → StateM Engine β}
    (h : Confined written made engine action)
    (hRest : Confined written made (action.run engine).2 (rest (action.run engine).1)) :
    Confined written made engine (action >>= rest) := h.trans hRest

/-- An action besides the heap and the buffers. -/
theorem confined_of_eq {action : StateM Engine α}
    (hHeap : (action.run engine).2.heap = engine.heap)
    (hBuffers : (action.run engine).2.buffers = engine.buffers) :
    Confined written made engine action := .of_heap hBuffers fun _ _ h => hHeap ▸ h

/-- A change of the heap alone. -/
theorem confined_onHeap {f : Heap → α × Heap} (hArrays : ∀ id a,
      (f engine.heap).2.get? id = some (.array a) → engine.heap.get? id = some (.array a)) :
    Confined written made engine (onHeap f) := .of_heap rfl hArrays

theorem confined_draw (f : Generator → α × Generator) : Confined written made engine (draw f) :=
  confined_of_eq rfl rfl

theorem buffers_drawSeed : (drawSeed.run engine).2.buffers = engine.buffers := by
  obtain ⟨heap, buffers, generator, entropy, names⟩ := engine
  simp only [StateT.run, drawSeed]

theorem confined_drawSeed : Confined written made engine drawSeed := by
  refine confined_of_eq ?_ buffers_drawSeed
  obtain ⟨heap, buffers, generator, entropy, names⟩ := engine
  simp only [StateT.run, drawSeed]

theorem confined_retain (id : ObjectId) : Confined written made engine (retain id) :=
  confined_onHeap fun other _ h => (get?_retain engine.heap id other) ▸ h

theorem confined_release (id : ObjectId) : Confined written made engine (release id) :=
  confined_onHeap fun _ _ h => get?_releaseAll h

theorem confined_share (id : ObjectId) : Confined written made engine (share id) := confined_retain id

theorem confined_createNone : Confined written made engine createNone := confined_retain _

/-- An object other than an array takes the place of another one. -/
theorem confined_replace {id : ObjectId} {object : Object} (hPlain : ∀ a, object ≠ .array a) :
    Confined written made engine (onHeap fun heap => ((), heap.replace id object)) :=
  confined_onHeap fun _ a h => (eq_of_get?_replace h).resolve_right fun hEq => hPlain a hEq.symm

/-- An object other than an array is made. -/
theorem confined_create {object : Object} (hPlain : ∀ a, object ≠ .array a) :
    Confined written made engine (create object) :=
  confined_onHeap fun _ a h => (eq_of_get?_allocate h).resolve_right fun hEq => hPlain a hEq.symm

theorem confined_number (value : Scalar) : Confined written made engine (create (.ofScalar value)) :=
  confined_create fun _ h => by cases value <;> cases h

/-- Objects other than arrays are made one after the other. -/
theorem confined_mapM_create {objects : List Object} (hPlain : ∀ o ∈ objects, ∀ a, o ≠ .array a) :
    Confined written made engine (objects.mapM create) := by
  induction objects generalizing engine with
  | nil => exact .refl engine
  | cons object objects ih =>
      rw [List.mapM_cons]
      refine .bind (confined_create (hPlain object List.mem_cons_self)) (.bind ?_ (.refl _))
      exact ih fun o ho => hPlain o (List.mem_cons_of_mem _ ho)

/-- Contents get an array on a buffer of its own. -/
theorem confined_createFresh {c : Contents} (hMade : ∀ a : NdArray,
      engine.buffers.stored.size ≤ a.buffer.index → a.shape = c.shape → made a) :
    Confined written made engine (createArray (.fresh c)) where
  keeps := NdArray.keeps_allocate engine.buffers c
  size_le := by
    change _ ≤ (NdArray.allocate engine.buffers c).2.stored.size
    simp [NdArray.allocate, BufferStore.allocate]
  cells id i hId := .inl (BufferStore.get_allocate _ hId i)
  arrays id a h := by
    refine (eq_of_get?_allocate h).imp_right fun hEq => ?_
    cases hEq
    exact ⟨hMade _ (Nat.le_refl _) rfl, .allocate engine.buffers c⟩

/-- A view is another array on a buffer that exists. -/
theorem confined_createView {v : NdArray} (hStored : v.StoredIn engine.buffers) (hMade : made v) :
    Confined written made engine (createArray (.view v)) where
  keeps := .refl _
  size_le := Nat.le_refl _
  cells _ _ _ := .inl rfl
  arrays id a h := by
    refine (eq_of_get?_allocate h).imp_right fun hEq => ?_
    cases hEq
    exact ⟨hMade, hStored⟩

/-- A result without axes is a number and no array. -/
theorem confined_createResult {form : ArrayForm}
    (h : Confined written made engine (createArray form)) :
    Confined written made engine (createResult form) := by
  unfold Confined
  rw [run_createResult]
  split
  · exact confined_number _
  · exact h

theorem confined_write {id : BufferId} {writes : List (Nat × Scalar)}
    (h : ∀ i ∈ writes.map Prod.fst, written id i) :
    Confined written made engine (write id writes) where
  keeps := engine.buffers.keeps_setAll id writes
  size_le := by
    change _ ≤ (engine.buffers.setAll id writes).stored.size
    simp [BufferStore.setAll]
  cells other i _ := by
    by_cases hWritten : written other i
    · exact .inr hWritten
    · refine .inl (BufferStore.get_setAll_of_notMem id ?_)
      rintro rfl hMem
      exact hWritten (h i hMem)
  arrays _ _ hNow := .inl hNow

end Actions

section Effects

variable {allowed : Contents → Prop} {effect : Effect}

/-- What makes something new leaves all cells alone, and its arrays have buffers of their
own. -/
theorem Originates.confined (h : Originates allowed effect) (hMade : ∀ (c : Contents) (a : NdArray),
      allowed c → engine.buffers.stored.size ≤ a.buffer.index → a.shape = c.shape → made a) :
    Confined written made engine effect := by
  induction h generalizing engine with
  | array c hAllowed => exact confined_createFresh fun a => hMade c a hAllowed
  | result c hAllowed =>
      exact confined_createResult (confined_createFresh fun a => hMade c a hAllowed)
  | object object hFixed => exact confined_create fun a hEq => by cases hEq; cases hFixed
  | none => exact confined_createNone
  | drawn f rest _ ih => exact .bind (confined_draw f) (ih _ hMade)
  | seeded rest _ ih =>
      refine .bind confined_drawSeed (ih _ ?_)
      rw [buffers_drawSeed]
      exact hMade

/-- A shuffle of an array writes its cells. -/
theorem confined_shuffleRows {a : NdArray} (h : ∀ i ∈ a.offsets, written a.buffer i) :
    Confined written made engine (shuffleRows engine a) := by
  refine .bind (.bind (confined_draw _) (.refl _)) (.bind (confined_write fun i hi => ?_)
    confined_createNone)
  obtain ⟨entry, hEntry, rfl⟩ := List.mem_map.mp hi
  exact h _ (Array.mem_toList_iff.mp (List.of_mem_zip hEntry).1)

theorem confined_shuffleList (id : ObjectId) (items : List ObjectId) :
    Confined written made engine (shuffleList id items) :=
  .bind (confined_draw _) (.bind (confined_replace (by simp)) confined_createNone)

end Effects

/-- An operation that commits to a confined action leaves no more than the footprint, also if
it refuses. -/
theorem footprint_of_commits {op : RuntimeOp Engine α}
    (h : Commits (Confined written made engine) op engine) :
    Footprint written made engine (op.perform engine).2 := by
  cases h with
  | refuses e hRun =>
      rw [hRun]
      exact .refl engine
  | acts action hConfined hRun =>
      rw [hRun]
      exact hConfined

end Engine

end ArrayBridge
