import ArrayBridge.Object

/-! The object heap.

Objects live in slots and are named by slot and generation. Each object has a
count of the references to it. When the last one is released the object is
removed, its slot becomes free, and the references that it owned are released in
turn. A free slot is used again for a later object under the next generation;
the slot that was freed last is used first. -/

namespace ArrayBridge

/-- An object and the number of references to it. -/
structure Occupant where
  references : Nat
  object : Object
  deriving DecidableEq, Inhabited

/-- A place for an object. Its generation is that of the last object in it. -/
structure Slot where
  generation : UInt32
  occupant : Option Occupant
  deriving DecidableEq, Inhabited

structure Heap where
  slots : Array Slot
  /-- The free slots, the one that is used next first. -/
  free : List UInt32
  /-- The number of live objects. -/
  live : Nat
  deriving DecidableEq, Inhabited

namespace Heap

def empty : Heap := ⟨#[], [], 0⟩

/-- The live object of the given name with its reference count. -/
def occupant? (heap : Heap) (id : ObjectId) : Option Occupant :=
  match heap.slots[id.index.toNat]? with
  | some slot => if slot.generation = id.generation then slot.occupant else none
  | none => none

def get? (heap : Heap) (id : ObjectId) : Option Object :=
  (heap.occupant? id).map Occupant.object

def isLive (heap : Heap) (id : ObjectId) : Bool := (heap.occupant? id).isSome

/-- The number of references to an object; zero if it is not live. -/
def references (heap : Heap) (id : ObjectId) : Nat :=
  match heap.occupant? id with
  | some occupant => occupant.references
  | none => 0

/-- Stores an object with one reference. -/
def allocate (heap : Heap) (object : Object) : ObjectId × Heap :=
  match heap with
  | ⟨slots, [], live⟩ =>
    (⟨slots.size.toUInt32, 0⟩, ⟨slots.push ⟨0, some ⟨1, object⟩⟩, [], live + 1⟩)
  | ⟨slots, index :: free, live⟩ =>
    let generation := (slots.getD index.toNat default).generation + 1
    (⟨index, generation⟩,
      ⟨slots.setIfInBounds index.toNat ⟨generation, some ⟨1, object⟩⟩, free, live + 1⟩)

/-- Replaces the occupant of the slot that a live name denotes. -/
def put (heap : Heap) (id : ObjectId) (occupant : Option Occupant) : Heap :=
  match heap with
  | ⟨slots, free, live⟩ =>
    ⟨slots.setIfInBounds id.index.toNat ⟨id.generation, occupant⟩, free, live⟩

@[simp] theorem slots_put (heap : Heap) (id : ObjectId) (occupant : Option Occupant) :
    (heap.put id occupant).slots
      = heap.slots.setIfInBounds id.index.toNat ⟨id.generation, occupant⟩ := rfl

@[simp] theorem free_put (heap : Heap) (id : ObjectId) (occupant : Option Occupant) :
    (heap.put id occupant).free = heap.free := rfl

@[simp] theorem live_put (heap : Heap) (id : ObjectId) (occupant : Option Occupant) :
    (heap.put id occupant).live = heap.live := rfl

/-- Overwrites a live object in place; its reference count stays. -/
def replace (heap : Heap) (id : ObjectId) (object : Object) : Heap :=
  match heap.occupant? id with
  | some occupant => heap.put id (some ⟨occupant.references, object⟩)
  | none => heap

/-- Adds a reference to a live object. -/
def retain (heap : Heap) (id : ObjectId) : Heap :=
  match heap.occupant? id with
  | some occupant => heap.put id (some ⟨occupant.references + 1, occupant.object⟩)
  | none => heap

/-- Removes a live object and frees its slot. -/
def remove (heap : Heap) (id : ObjectId) : Heap :=
  match heap.put id none with
  | ⟨slots, free, live⟩ => ⟨slots, id.index :: free, live - 1⟩

@[simp] theorem slots_remove (heap : Heap) (id : ObjectId) :
    (heap.remove id).slots = heap.slots.setIfInBounds id.index.toNat ⟨id.generation, none⟩ := rfl

/-- The number of slots that hold an object. -/
def occupied (heap : Heap) : Nat := heap.slots.countP fun slot => slot.occupant.isSome

theorem lt_size_of_occupant? {heap : Heap} {id : ObjectId} {occupant : Occupant}
    (h : heap.occupant? id = some occupant) :
    ∃ hIndex : id.index.toNat < heap.slots.size,
      heap.slots[id.index.toNat] = ⟨id.generation, some occupant⟩ := by
  unfold occupant? at h
  split at h
  · rename_i slot hSlot
    split at h
    · rename_i hGeneration
      obtain ⟨hIndex, hEq⟩ := Array.getElem?_eq_some_iff.mp hSlot
      refine ⟨hIndex, ?_⟩
      rw [hEq]
      cases slot
      simp_all
    · cases h
  · cases h

theorem occupied_pos {heap : Heap} {id : ObjectId} {occupant : Occupant}
    (h : heap.occupant? id = some occupant) : 0 < heap.occupied := by
  obtain ⟨hIndex, hSlot⟩ := lt_size_of_occupant? h
  exact Array.countP_pos_iff.mpr ⟨_, Array.getElem_mem hIndex, by rw [hSlot]; rfl⟩

/-- Replacing an occupant by another one keeps the number of occupied slots. -/
theorem occupied_put_some {heap : Heap} {id : ObjectId} {occupant : Occupant}
    (h : heap.occupant? id = some occupant) (next : Occupant) :
    (heap.put id (some next)).occupied = heap.occupied := by
  have hPos := occupied_pos h
  obtain ⟨hIndex, hSlot⟩ := lt_size_of_occupant? h
  unfold occupied at hPos ⊢
  rw [slots_put, Array.setIfInBounds_def, dif_pos hIndex, Array.countP_set, hSlot]
  simp only [Option.isSome_some, if_true]
  omega

/-- Removing an occupant lowers the number of occupied slots. -/
theorem occupied_remove_lt {heap : Heap} {id : ObjectId} {occupant : Occupant}
    (h : heap.occupant? id = some occupant) : (heap.remove id).occupied < heap.occupied := by
  have hPos := occupied_pos h
  obtain ⟨hIndex, hSlot⟩ := lt_size_of_occupant? h
  unfold occupied at hPos ⊢
  rw [slots_remove, Array.setIfInBounds_def, dif_pos hIndex, Array.countP_set, hSlot]
  simp only [Option.isSome_some, Option.isSome_none, if_true]
  simp only [Bool.false_eq_true, if_false]
  omega

/-- Releases the listed references from first to last. The references that a
removed object owned are released before those that are still listed, the last
one first. -/
def releaseAll (heap : Heap) (pending : List ObjectId) : Heap :=
  match pending with
  | [] => heap
  | id :: rest =>
    match _h : heap.occupant? id with
    | none => heap.releaseAll rest
    | some ⟨references, object⟩ =>
      if 1 < references then (heap.put id (some ⟨references - 1, object⟩)).releaseAll rest
      else (heap.remove id).releaseAll (object.children.reverse ++ rest)
termination_by (heap.occupied, pending.length)
decreasing_by
  · exact Prod.Lex.right _ (Nat.lt_succ_self _)
  · rw [occupied_put_some _h]
    exact Prod.Lex.right _ (Nat.lt_succ_self _)
  · exact Prod.Lex.left _ _ (occupied_remove_lt _h)

/-- Releases one reference. An object without references is removed together
with all that only it kept alive. -/
def release (heap : Heap) (id : ObjectId) : Heap := heap.releaseAll [id]

/-- Removes every object at once. -/
def clear (_ : Heap) : Heap := empty

end Heap

end ArrayBridge
