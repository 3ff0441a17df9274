import ArrayBridge.Proofs.EngineLedger
import ArrayBridge.Proofs.Outcome

/-! An engine that gets more objects.

What is built for a request leaves all objects as they are. So whatever could be read from
the engine before can be read from it afterwards, with the same result. A new object takes
a name, of which there are only so many, so building needs room for what is built. -/

namespace ArrayBridge.Engine

open Heap Outcome

/-- The heap is consistent, and has names for a number of further objects. -/
structure HasRoom (engine : Engine) (count : Nat) : Prop where
  consistent : engine.heap.Consistent
  fits : engine.heap.slots.size + count ≤ slotLimit

/-- A later state of an engine, in which every object is as it was, and all else but the
heap. -/
structure Extends (earlier later : Engine) : Prop where
  size_le : earlier.heap.slots.size ≤ later.heap.slots.size
  object_eq : ∀ {id object}, earlier.object id = .ok object → later.object id = .ok object
  buffers_eq : later.buffers = earlier.buffers
  generator_eq : later.generator = earlier.generator
  entropy_eq : later.entropy = earlier.entropy
  names_eq : later.names = earlier.names

/-- A later state of an engine, in which every object and every buffer is as it was. -/
structure Recalls (earlier later : Engine) : Prop where
  size_le : earlier.heap.slots.size ≤ later.heap.slots.size
  object_eq : ∀ {id object}, earlier.object id = .ok object → later.object id = .ok object
  buffers_eq : later.buffers = earlier.buffers

variable {engine earlier middle later : Engine} {id : ObjectId} {object : Object} {count : Nat}

theorem Extends.recalls (h : earlier.Extends later) : earlier.Recalls later :=
  ⟨h.size_le, h.object_eq, h.buffers_eq⟩

theorem Recalls.refl (engine : Engine) : engine.Recalls engine := ⟨Nat.le_refl _, id, rfl⟩

theorem Recalls.trans (hFirst : earlier.Recalls middle) (hSecond : middle.Recalls later) :
    earlier.Recalls later where
  size_le := hFirst.size_le.trans hSecond.size_le
  object_eq h := hSecond.object_eq (hFirst.object_eq h)
  buffers_eq := hSecond.buffers_eq.trans hFirst.buffers_eq

theorem Extends.refl (engine : Engine) : engine.Extends engine :=
  ⟨Nat.le_refl _, id, rfl, rfl, rfl, rfl⟩

theorem Extends.trans (hFirst : earlier.Extends middle) (hSecond : middle.Extends later) :
    earlier.Extends later where
  size_le := hFirst.size_le.trans hSecond.size_le
  object_eq h := hSecond.object_eq (hFirst.object_eq h)
  buffers_eq := hSecond.buffers_eq.trans hFirst.buffers_eq
  generator_eq := hSecond.generator_eq.trans hFirst.generator_eq
  entropy_eq := hSecond.entropy_eq.trans hFirst.entropy_eq
  names_eq := hSecond.names_eq.trans hFirst.names_eq

section Steps

/-- A new object leaves the others as they are, also when it finds no new name. -/
theorem extends_allocate (h : engine.heap.Consistent) (object : Object) :
    engine.Extends { engine with heap := (engine.heap.allocate object).2 } where
  size_le := size_le_size_allocate engine.heap object
  object_eq hOther := by
    have hSame := h.get?_allocate object (isLive_of_object hOther)
    unfold Engine.object at hOther ⊢
    rwa [hSame]
  buffers_eq := rfl
  generator_eq := rfl
  entropy_eq := rfl
  names_eq := rfl

/-- A new object takes room for one. -/
theorem HasRoom.create (h : engine.HasRoom (count + 1)) (object : Object) :
    ∃ id next, (Engine.create object).run engine = (id, next) ∧ engine.Extends next ∧
      next.HasRoom count ∧ next.object id = .ok object := by
  have hExtends := extends_allocate h.consistent object
  have hOne := size_allocate_le engine.heap object
  have hFits := h.fits
  have hNames : (engine.heap.allocate object).2.slots.size ≤ slotLimit := by omega
  have hMap := (occupant?_allocate object h.consistent.vacant hNames).2
  have hConsistent := h.consistent.allocate object
  have hRun : (Engine.create object).run engine = ((engine.heap.allocate object).1,
      { engine with heap := (engine.heap.allocate object).2 }) := rfl
  -- From here on the new heap is any one with these properties.
  generalize engine.heap.allocate object = allocated at *
  obtain ⟨id, heap⟩ := allocated
  refine ⟨id, { engine with heap }, hRun, hExtends, ⟨hConsistent, ?_⟩, ?_⟩
  · dsimp only at hOne ⊢
    omega
  · exact object_eq_ok_iff.mpr ⟨1, by rw [hMap, if_pos rfl]⟩

/-- Another reference to an object that there is takes no room. -/
theorem HasRoom.retain (h : engine.HasRoom count) (hObject : engine.object id = .ok object) :
    ∃ next, (Engine.retain id).run engine = ((), next) ∧ engine.Extends next ∧
      next.HasRoom count := by
  obtain ⟨references, hOccupant⟩ := object_eq_ok_iff.mp hObject
  have hSize := size_retain engine.heap id
  refine ⟨{ engine with heap := engine.heap.retain id }, rfl,
    ⟨hSize.ge, fun hOther => ?_, rfl, rfl, rfl, rfl⟩, ⟨?_, ?_⟩⟩
  · unfold Engine.object at hOther ⊢
    rwa [get?_retain]
  · rw [retain_eq_put hOccupant]
    exact h.consistent.put hOccupant _
  · rw [hSize]
    exact h.fits

end Steps

section Reading

/-! What was read without a failure is read again. The walk through a nest is bounded by the
number of slots, which only grows. -/

theorem foldlM_of_forall {α β ε : Type} {f g : β → α → Except ε β} {items : List α} {start stop : β}
    (hStep : ∀ item ∈ items, ∀ b c, f b item = .ok c → g b item = .ok c)
    (h : items.foldlM f start = .ok stop) : items.foldlM g start = .ok stop := by
  induction items generalizing start with
  | nil => exact h
  | cons item items ih =>
      rw [List.foldlM_cons] at h ⊢
      obtain ⟨next, hFirst, hRest⟩ := bind_eq_ok_iff.mp h
      rw [List.forall_mem_cons] at hStep
      exact bind_eq_ok_iff.mpr ⟨next, hStep.1 start next hFirst, ih hStep.2 hRest⟩

variable {bound wider depth : Nat} {f g : Flattening}

theorem Recalls.flattenInto (h : earlier.Recalls later) (hBound : bound ≤ wider)
    (hRead : earlier.flattenInto bound depth id f = .ok g) :
    later.flattenInto wider depth id f = .ok g := by
  induction bound generalizing wider depth id f g with
  | zero => cases hRead
  | succ bound ih =>
      obtain ⟨wider, rfl⟩ : ∃ lower, wider = lower + 1 := ⟨wider - 1, by omega⟩
      rw [Engine.flattenInto] at hRead ⊢
      obtain ⟨object, hObject, hRest⟩ := bind_eq_ok_iff.mp hRead
      refine bind_eq_ok_iff.mpr ⟨object, h.object_eq hObject, ?_⟩
      cases object with
      | tuple items | list items =>
          obtain ⟨met, hMet, hItems⟩ := bind_eq_ok_iff.mp hRest
          refine bind_eq_ok_iff.mpr ⟨met, hMet, foldlM_of_forall (fun item _ _ _ => ?_) hItems⟩
          exact ih (by omega)
      | array a =>
          dsimp only at hRest ⊢
          rwa [h.buffers_eq]
      | _ => exact hRest

theorem Recalls.arrayContents (h : earlier.Recalls later) {c : Contents}
    (hRead : earlier.arrayContents id = .ok c) : later.arrayContents id = .ok c := by
  obtain ⟨form, hForm, hContents⟩ := bind_eq_ok_iff.mp hRead
  obtain ⟨object, hObject, hRest⟩ := bind_eq_ok_iff.mp hForm
  refine bind_eq_ok_iff.mpr ⟨form, bind_eq_ok_iff.mpr ⟨object, h.object_eq hObject, ?_⟩, ?_⟩
  · cases object with
    | array a => exact hRest
    | _ =>
        obtain ⟨found, hFound, hFresh⟩ := bind_eq_ok_iff.mp hRest
        obtain ⟨last, hWalk, hLast⟩ := bind_eq_ok_iff.mp hFound
        refine bind_eq_ok_iff.mpr ⟨found, bind_eq_ok_iff.mpr ⟨last, ?_, hLast⟩, hFresh⟩
        exact h.flattenInto (Nat.add_le_add_right h.size_le 1) hWalk
  · rwa [h.buffers_eq]

theorem Recalls.scalar? (h : earlier.Recalls later) {value? : Option Scalar}
    (hRead : earlier.scalar? id = .ok value?) : later.scalar? id = .ok value? := by
  obtain ⟨object, hObject, hRest⟩ := bind_eq_ok_iff.mp hRead
  refine bind_eq_ok_iff.mpr ⟨object, h.object_eq hObject, ?_⟩
  cases object with
  | array a =>
      rw [scalarOf] at hRest ⊢
      rwa [h.buffers_eq]
  | _ => exact hRest

theorem Recalls.integer (h : earlier.Recalls later) {i : Int64}
    (hRead : earlier.integer id = .ok i) : later.integer id = .ok i := by
  obtain ⟨value, hValue, hRest⟩ := bind_eq_ok_iff.mp hRead
  refine bind_eq_ok_iff.mpr ⟨value, h.scalar? hValue, ?_⟩
  split at hRest
  · exact hRest
  · exact hRest
  · cases hRest

theorem Recalls.float (h : earlier.Recalls later) {x : Float}
    (hRead : earlier.float id = .ok x) : later.float id = .ok x := by
  obtain ⟨value, hValue, hRest⟩ := bind_eq_ok_iff.mp hRead
  refine bind_eq_ok_iff.mpr ⟨value, h.scalar? hValue, ?_⟩
  split at hRest
  · exact hRest
  · cases hRest

theorem Recalls.truth (h : earlier.Recalls later) {answer : Bool}
    (hRead : earlier.truth id = .ok answer) : later.truth id = .ok answer := by
  obtain ⟨object, hObject, hRest⟩ := bind_eq_ok_iff.mp hRead
  refine bind_eq_ok_iff.mpr ⟨object, h.object_eq hObject, ?_⟩
  cases object with
  | array a =>
      dsimp only [scalarOf] at hRest ⊢
      rw [h.buffers_eq]
      split at hRest
      · exact hRest
      · cases hRest
  | none => exact hRest
  | _ =>
      dsimp only [scalarOf] at hRest ⊢
      split at hRest
      · exact hRest
      · cases hRest

theorem Extends.selector (h : earlier.Extends later) {selector : Selector}
    (hRead : earlier.selector id = .ok selector) : later.selector id = .ok selector := by
  obtain ⟨object, hObject, hRest⟩ := bind_eq_ok_iff.mp hRead
  refine bind_eq_ok_iff.mpr ⟨object, h.object_eq hObject, ?_⟩
  cases object with
  | tuple items | list items =>
      obtain ⟨c, hContents, hSelector⟩ := bind_eq_ok_iff.mp hRest
      exact bind_eq_ok_iff.mpr ⟨c, h.recalls.arrayContents hContents, hSelector⟩
  | array a =>
      dsimp only at hRest ⊢
      rwa [h.buffers_eq]
  | _ => exact hRest

theorem Extends.selectors (h : earlier.Extends later) {selectors : List Selector}
    (hRead : earlier.selectors id = .ok selectors) : later.selectors id = .ok selectors := by
  obtain ⟨object, hObject, hRest⟩ := bind_eq_ok_iff.mp hRead
  refine bind_eq_ok_iff.mpr ⟨object, h.object_eq hObject, ?_⟩
  cases object with
  | tuple items =>
      rw [mapM_eq_ok_iff] at hRest ⊢
      exact hRest.imp fun _ _ => h.selector
  | _ =>
      obtain ⟨selector, hOnly, hPure⟩ := bind_eq_ok_iff.mp hRest
      exact bind_eq_ok_iff.mpr ⟨selector, h.selector hOnly, hPure⟩

end Reading

end ArrayBridge.Engine
