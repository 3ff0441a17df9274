import ArrayBridge.Engine.Protocol
import ArrayBridge.Proofs.Conservation
import ArrayBridge.Proofs.Guarding

/-! The ledger of the engine.

The engine is in order as long as its heap is balanced over the heap it started with
and all that it knows by name is there. The heap has names for so many slots only;
nothing is claimed once they are used up. -/

namespace ArrayBridge

/-- The objects that are known by name. -/
def Namespace.objects (names : Namespace) : List ObjectId :=
  names.noneId :: names.noValueId :: names.modules.map Prod.snd

/-- All objects that are known by name are in a heap. Two of them stand for no value and
for an argument that was not supplied. -/
structure Namespace.KnownIn (names : Namespace) (heap : Heap) : Prop where
  live : ∀ id ∈ names.objects, heap.isLive id = true
  none : heap.get? names.noneId = some .none
  noValue : heap.get? names.noValueId = some .noValue

/-- What is known by name goes on to be known while the objects stay. -/
theorem Namespace.KnownIn.mono {names : Namespace} {heap next : Heap} (h : names.KnownIn heap)
    (hSame : ∀ id, heap.isLive id = true → next.get? id = heap.get? id) : names.KnownIn next := by
  have hLive (id : ObjectId) (hName : id ∈ names.objects) : next.isLive id = true := by
    obtain ⟨occupant, hOccupant⟩ := Heap.isLive_iff.mp (h.live id hName)
    have hFound := Heap.get?_eq_some_iff.mpr ⟨occupant.references, hOccupant⟩
    rw [← hSame id (h.live id hName)] at hFound
    obtain ⟨references, hNext⟩ := Heap.get?_eq_some_iff.mp hFound
    exact Heap.isLive_iff.mpr ⟨_, hNext⟩
  refine ⟨hLive, ?_, ?_⟩
  · rw [hSame _ (h.live _ (by simp [Namespace.objects])), h.none]
  · rw [hSame _ (h.live _ (by simp [Namespace.objects])), h.noValue]

namespace Engine

open Heap

/-- A condition on the names and the heap of an engine, as long as there are slots. -/
def WithRoom (condition : Namespace → Ledger Heap) : Ledger Engine := fun held engine =>
  engine.heap.slots.size ≤ slotLimit → condition engine.names held engine.heap

/-- What is known by name is in the base, and the heap is balanced over it. -/
def InOrder (base : Heap) : Ledger Engine := WithRoom fun names held heap =>
  names.KnownIn base ∧ base.Balanced held heap

/-- What is known by name is in the base, and the heap holds what is guarded. -/
def Guards (guard : Guard) : Ledger Engine := WithRoom fun names held heap =>
  names.KnownIn guard.base ∧ guard.Holds held heap

/-- An engine in order is one that guards nothing. -/
theorem guards_nothing (base origin : Heap) : Guards ⟨base, 0, origin⟩ = InOrder base := by
  funext held engine
  simp only [Guards, InOrder, WithRoom, Guard.holds_nothing_iff]

/-- What remains to be done for a call gives a new reference. -/
def Yields (guard : Guard) (engine : Engine) (effect : Effect) : Prop :=
  Moves (Guards guard) 0 effect ({·}) engine

section Rooms

variable {condition : Namespace → Ledger Heap} {engine : Engine} {taken : Multiset ObjectId}
  {α : Type}

/-- An action besides the heap moves no references. -/
theorem moves_of_heap_eq {action : StateM Engine α}
    (hHeap : (action.run engine).2.heap = engine.heap)
    (hNames : (action.run engine).2.names = engine.names) :
    Moves (WithRoom condition) taken action (fun _ => taken) engine := by
  intro frame h
  unfold WithRoom
  rw [hHeap, hNames]
  exact h

/-- A change of the heap alone. -/
theorem moves_onHeap {f : Heap → α × Heap} {given : α → Multiset ObjectId}
    (hGrows : engine.heap.slots.size ≤ (f engine.heap).2.slots.size)
    (hMoves : ∀ frame, (f engine.heap).2.slots.size ≤ slotLimit →
      condition engine.names (taken + frame) engine.heap →
        condition engine.names (given (f engine.heap).1 + frame) (f engine.heap).2) :
    Moves (WithRoom condition) taken (onHeap f) given engine :=
  fun frame h hRoom => hMoves frame hRoom (h (Nat.le_trans hGrows hRoom))

end Rooms

variable {base : Heap} {guard : Guard} {engine : Engine} {taken : Multiset ObjectId} {α : Type}

section Actions

theorem moves_onBuffers (f : BufferStore → α × BufferStore) :
    Moves (Guards guard) taken (onBuffers f) (fun _ => taken) engine := moves_of_heap_eq rfl rfl

theorem moves_draw (f : Generator → α × Generator) :
    Moves (Guards guard) taken (draw f) (fun _ => taken) engine := moves_of_heap_eq rfl rfl

theorem moves_drawSeed : Moves (Guards guard) taken drawSeed (fun _ => taken) engine := by
  obtain ⟨heap, buffers, generator, entropy, names⟩ := engine
  refine moves_of_heap_eq ?_ ?_
  · simp only [StateT.run, drawSeed]
  · simp only [StateT.run, drawSeed]

/-- A new object takes the references that it owns. -/
theorem moves_create (object : Object)
    (hAdmits : ∀ held, guard.base.Balanced held engine.heap → engine.heap.Admits object) :
    Moves (Guards guard) ↑object.children (create object) ({·}) engine := by
  refine moves_onHeap (size_le_size_allocate _ _) fun frame hRoom ⟨hKnown, hHolds⟩ =>
    ⟨hKnown, ?_⟩
  rw [Multiset.singleton_add]
  exact hHolds.allocate (hAdmits _ hHolds.balanced) hRoom

theorem moves_retain {id : ObjectId}
    (hLive : ∀ held, guard.base.Balanced held engine.heap → engine.heap.isLive id = true) :
    Moves (Guards guard) taken (retain id) (fun _ => id ::ₘ taken) engine := by
  refine moves_onHeap (size_retain _ _).ge fun frame _ ⟨hKnown, hHolds⟩ => ⟨hKnown, ?_⟩
  rw [Multiset.cons_add]
  exact hHolds.retain (hLive _ hHolds.balanced)

theorem moves_release {id : ObjectId} :
    Moves (Guards guard) (id ::ₘ taken) (release id) (fun _ => taken) engine := by
  refine moves_onHeap (size_releaseAll _ _).ge fun frame _ ⟨hKnown, hHolds⟩ => ⟨hKnown, ?_⟩
  rw [Multiset.cons_add] at hHolds
  exact hHolds.release

/-- Another reference to a live object. -/
theorem yields_share {id : ObjectId}
    (hLive : ∀ held, guard.base.Balanced held engine.heap → engine.heap.isLive id = true) :
    Yields guard engine (share id) := moves_retain hLive

/-- An object without children. -/
theorem yields_create_of_admits {object : Object} (hChildren : object.children = [])
    (hAdmits : ∀ held, guard.base.Balanced held engine.heap → engine.heap.Admits object) :
    Yields guard engine (create object) := by
  have hCreate := moves_create object hAdmits
  rwa [hChildren] at hCreate

theorem yields_create {object : Object} (hFixed : object.isFixed = true)
    (hChildren : object.children = []) : Yields guard engine (create object) :=
  yields_create_of_admits hChildren fun _ _ => admits_of_isFixed hFixed

/-- Another reference to an object that is known by name. -/
theorem yields_share_known {id : ObjectId} (hName : id ∈ engine.names.objects) :
    Yields guard engine (share id) := by
  intro frame h hRoom
  have hBase := (h (size_retain engine.heap id ▸ hRoom)).1.live id hName
  exact yields_share (fun _ hBalanced => hBalanced.isLive_of_base hBase) frame h hRoom

theorem yields_createNone : Yields guard engine createNone :=
  Moves.of_run_eq rfl (yields_share_known (by simp [Namespace.objects]))

theorem yields_ofScalar (value : Scalar) : Yields guard engine (create (.ofScalar value)) := by
  cases value <;> exact yields_create rfl rfl

/-- An array can be made of a form if it is anchored then. -/
theorem yields_createArray {form : ArrayForm}
    (hForm : ∀ held, guard.base.Balanced held engine.heap → form.Anchored) :
    Yields guard engine (createArray form) := by
  refine Moves.bind (moves_onBuffers _) (yields_create_of_admits rfl fun held hBalanced => ?_)
  exact (hForm held hBalanced).realize engine.buffers

/-- Contents get an array of their own. -/
theorem yields_createFresh (c : Contents) : Yields guard engine (createArray (.fresh c)) :=
  yields_createArray fun _ _ => trivial

theorem run_createResult (form : ArrayForm) :
    (createResult form).run engine = match form.scalar? engine.buffers with
      | some value => (create (.ofScalar value)).run engine
      | none => (createArray form).run engine := rfl

theorem yields_createResult {form : ArrayForm}
    (hForm : ∀ held, guard.base.Balanced held engine.heap → form.Anchored) :
    Yields guard engine (createResult form) := by
  unfold Yields Moves
  rw [run_createResult]
  split
  · exact yields_ofScalar _
  · exact yields_createArray hForm

end Actions

section Objects

variable {id : ObjectId} {object : Object}

theorem object_eq_ok_iff : engine.object id = .ok object ↔
    ∃ references, engine.heap.occupant? id = some ⟨references, object⟩ := by
  rw [← get?_eq_some_iff, Engine.object]
  cases engine.heap.get? id <;> simp

/-- An object that was read is live. -/
theorem isLive_of_object (h : engine.object id = .ok object) : engine.heap.isLive id = true := by
  obtain ⟨references, hOccupant⟩ := object_eq_ok_iff.mp h
  exact isLive_iff.mpr ⟨_, hOccupant⟩

theorem isLive_of_child {held : Multiset ObjectId} {c : ObjectId}
    (h : base.Balanced held engine.heap) (hObject : engine.object id = .ok object)
    (hChild : c ∈ object.children) : engine.heap.isLive c = true := by
  obtain ⟨references, hOccupant⟩ := object_eq_ok_iff.mp hObject
  exact h.isLive_of_child hOccupant hChild

/-- An array that was read is anchored. -/
theorem anchored_of_object {held : Multiset ObjectId} {a : NdArray}
    (h : base.Balanced held engine.heap) (hObject : engine.object id = .ok (.array a)) :
    a.Anchored := by
  obtain ⟨references, hOccupant⟩ := object_eq_ok_iff.mp hObject
  exact h.admitted id _ hOccupant

/-- There are no lists in a balanced heap. -/
theorem not_object_list {held : Multiset ObjectId} {items : List ObjectId}
    (h : base.Balanced held engine.heap) : engine.object id ≠ .ok (.list items) := by
  intro hObject
  obtain ⟨references, hOccupant⟩ := object_eq_ok_iff.mp hObject
  exact h.admitted id _ hOccupant

/-- A change that only a list can see moves no references. -/
theorem moves_of_list {action : StateM Engine α} {given : α → Multiset ObjectId}
    {items : List ObjectId} (hObject : engine.object id = .ok (.list items))
    (hSize : (action.run engine).2.heap.slots.size = engine.heap.slots.size) :
    Moves (Guards guard) taken action given engine :=
  fun _ h hRoom => (not_object_list (h (hSize ▸ hRoom)).2.balanced hObject).elim

end Objects

end Engine

end ArrayBridge
