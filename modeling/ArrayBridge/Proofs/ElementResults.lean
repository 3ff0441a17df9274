import ArrayBridge.Proofs.KeyReading
import ArrayBridge.Proofs.RowDelivery

/-! What an access to elements gives once they are located.

The engine makes a number or an array of what is read. The bridge holds this object while it
releases the key, and then makes an item of it for the host. -/

namespace ArrayBridge

open Operation Engine Outcome

/-- An object that becomes an item for the host. -/
inductive Object.IsItem : Object → Prop
  | number (value : Scalar) : IsItem (.ofScalar value)
  | array (a : NdArray) : IsItem (.array a)

namespace Engine

variable {engine : Engine} {id key value : ObjectId} {a : NdArray} {selectors : List Selector}
  {located : Located} {c : Contents} {count : Nat}

/-- A new array takes room for one object, whatever room its elements take. -/
theorem HasRoom.createArray (h : engine.HasRoom (count + 1)) (form : ArrayForm) :
    ∃ id next, (Engine.createArray form).run engine = (id, next) ∧
      Extends { engine with buffers := (form.realize engine.buffers).2 } next ∧
      next.HasRoom count ∧ next.object id = .ok (.array (form.realize engine.buffers).1) := by
  have hStored : HasRoom { engine with buffers := (form.realize engine.buffers).2 } (count + 1) :=
    ⟨h.consistent, h.fits⟩
  exact hStored.create (.array (form.realize engine.buffers).1)

theorem HasRoom.createResult (h : engine.HasRoom (count + 1)) (form : ArrayForm) :
    ∃ id next object, (Engine.createResult form).run engine = (id, next) ∧ next.HasRoom count ∧
      next.object id = .ok object ∧ object.IsItem := by
  cases hScalar : form.scalar? engine.buffers with
  | some value =>
      obtain ⟨id, next, hRun, -, hSpare, hObject⟩ := h.create (.ofScalar value)
      refine ⟨id, next, _, ?_, hSpare, hObject, .number value⟩
      rw [run_createResult, hScalar]
      exact hRun
  | none =>
      obtain ⟨id, next, hRun, -, hSpare, hObject⟩ := h.createArray form
      refine ⟨id, next, _, ?_, hSpare, hObject, .array _⟩
      rw [run_createResult, hScalar]
      exact hRun

/-- With room for it, there is a result for each index expression that is located, if the strides
of what it gathers are words. -/
theorem perform_getItem_ok (hArray : engine.object id = .ok (.array a))
    (hKey : engine.selectors key = .ok selectors) (hLocate : a.locate selectors = .ok located)
    (hStrides : ∀ shape offsets, located = .gather shape offsets → shape.checkStrides = .ok ())
    (hRoom : engine.HasRoom (count + 1)) :
    ∃ item next object, (getItem id key).perform engine = (.ok item, next) ∧ next.HasRoom count ∧
      next.object item = .ok object ∧ object.IsItem := by
  rw [getItem, perform_get, perform_check, hArray]
  dsimp only
  rw [perform_check, hKey]
  dsimp only
  cases located with
  | view v =>
      rw [perform_check, NdArray.select_of_view hLocate]
      obtain ⟨item, next, object, hRun, hSpare, hObject, hItem⟩ := hRoom.createResult (.view v)
      refine ⟨item, next, object, ?_, hSpare, hObject, hItem⟩
      dsimp only
      rw [perform_always, hRun]
  | gather shape offsets =>
      have hSelect : a.select engine.buffers selectors
          = .ok (.fresh ⟨a.dtype, shape, offsets.map (engine.buffers.get a.buffer)⟩) := by
        rw [NdArray.select_of_gather hLocate, hStrides _ _ rfl]
        rfl
      rw [perform_check, hSelect]
      obtain ⟨item, next, hRun, -, hSpare, hObject⟩ := hRoom.createArray
        (.fresh ⟨a.dtype, shape, offsets.map (engine.buffers.get a.buffer)⟩)
      refine ⟨item, next, _, ?_, hSpare, hObject, .array _⟩
      dsimp only
      rw [perform_always, hRun]

theorem perform_setItem_ok (hArray : engine.object id = .ok (.array a))
    (hKey : engine.selectors key = .ok selectors) (hValue : engine.arrayContents value = .ok c)
    (hLocate : a.locate selectors = .ok located) (hFits : c.Fits located.shape) :
    ∃ next, (setItem id key value).perform engine = (.ok (), next) := by
  obtain ⟨writes, hAssign⟩ := NdArray.exists_assignment hLocate hFits
  rw [setItem, perform_get, perform_check, hArray]
  dsimp only
  rw [perform_check, hKey]
  dsimp only
  rw [perform_check, hValue]
  dsimp only
  rw [perform_check, hAssign]
  exact ⟨_, rfl⟩

end Engine

namespace Session

variable {runtime : Engine} {handles : HandleTable} {root : String} {id : ObjectId}
  {object : Object} {references : Nat}

/-- An array or a number becomes an item. -/
theorem exists_toItem (hOccupant : runtime.heap.occupant? id = some ⟨references, object⟩)
    (hPositive : 0 < references) (hItem : object.IsItem) (path : String) :
    ∃ item after, (toItem id path).perform ⟨runtime, handles, root⟩ = (.ok item, after) := by
  have hGet := Heap.get?_eq_some_iff.mpr ⟨references, hOccupant⟩
  cases hItem with
  | number value => exact ⟨_, _, perform_toItem_number hGet path⟩
  | array a =>
      by_cases hAxes : a.shape = []
      · have hScalar : ∃ value, a.scalar? runtime.buffers = some value := ⟨_, if_pos hAxes⟩
        obtain ⟨value, hScalar⟩ := hScalar
        rw [toItem, perform_bind, arrayInfo, perform_onRuntime, Engine.run_arrayInfo,
          arrayInfo?_of_array hGet]
        dsimp only
        rw [if_neg (by simp [hAxes]), perform_bind, perform_tryRuntime,
          perform_extract (primitive_of_scalar hGet hScalar)]
        cases value <;> exact ⟨_, _, rfl⟩
      · exact ⟨_, _, perform_toItem_array hOccupant hPositive hAxes path⟩

variable {base : Heap} {session now : Session Engine} {h : Handle} {index : Index}
  {key item : ObjectId} {next : Engine}

/-- A result that the engine gives for a key becomes an item. -/
theorem exists_getItem (hOrder : Registers base 0 session)
    (hTarget : (target h index : BridgeOp Engine ObjectId).perform session = (.ok id, session))
    (hKey : (Session.key index : BridgeOp Engine ObjectId).perform session = (.ok key, now))
    (hItem : (ForeignRuntime.getItem id key : RuntimeOp Engine ObjectId).perform now.runtime
      = (.ok item, next))
    (hRoom : next.heap.slots.size ≤ Heap.slotLimit) (hObject : next.object item = .ok object)
    (hKind : object.IsItem) :
    ∃ result after, (Session.getItem h index).perform session = (.ok result, after) := by
  obtain ⟨runtime, handles, root⟩ := now
  have hFound : (getObject h index).perform session
      = (.ok item, ⟨{ next with heap := next.heap.release key }, handles, root⟩) := by
    rw [getObject, perform_bind, hTarget]
    dsimp only
    rw [perform_bind, hKey]
    dsimp only
    rw [perform_bind, perform_tryRuntime, hItem]
    rfl
  have hSheds := sheds_release ⟨next, handles, root⟩ key
  -- The result is held, so it outlives the key.
  have hAfter := conserves_getObject (carrying_registers base) h index 0 session hOrder
  rw [hFound] at hAfter
  obtain ⟨-, hBalanced⟩ := hAfter.1.2 (hSheds.size_eq ▸ hRoom)
  have hHeld : item ∈ outcomeReferences ({·}) 0 (.ok item : Except BridgeError ObjectId) + 0
      + (handles.objects : Multiset ObjectId) := by
    simp [outcomeReferences]
  have hKept := hSheds.object_eq hObject (hBalanced.held_live item hHeld)
  obtain ⟨references, hOccupant⟩ := object_eq_ok_iff.mp hKept
  have hPositive := hBalanced.positive item _ hOccupant
  rw [Session.getItem, perform_bind, hFound]
  exact exists_toItem hOccupant hPositive hKind readPath

end Session
end ArrayBridge
