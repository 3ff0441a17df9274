import ArrayBridge.Proofs.Balance

/-! What a heap stores.

A heap is known by the objects it stores under their names, by their number and by how many
more it has places for. Each operation of the heap is an update of one name, so that what takes
an object and gives it back leads to the same objects again, under whatever name and in
whatever slot the object was in between. -/

namespace ArrayBridge.Heap

/-- How many objects a heap can take: one in each free slot and in each slot that it does not
have yet. -/
def places (heap : Heap) : Nat := heap.free.length + (slotLimit - heap.slots.size)

/-- A heap stores the given objects, which are so many, and has places for more. -/
structure Stores (heap : Heap) (objects : ObjectId → Option Occupant) (live places : Nat) : Prop
    extends heap.Consistent where
  small : heap.slots.size ≤ slotLimit
  occupant?_eq : heap.occupant? = objects
  number_eq : heap.live = live
  places_eq : heap.places = places

variable {heap : Heap} {objects : ObjectId → Option Occupant} {live places references : Nat}
  {id : ObjectId} {object : Object}

theorem Consistent.stores (h : heap.Consistent) (hSmall : heap.slots.size ≤ slotLimit) :
    heap.Stores heap.occupant? heap.live heap.places := ⟨h, hSmall, rfl, rfl, rfl⟩

/-- What is stored under a name that nothing had and removed again leaves nothing behind. -/
theorem update_none_of_fresh (hFresh : objects id = none) (occupant : Option Occupant) :
    Function.update (Function.update objects id occupant) id none = objects := by
  rw [Function.update_idem, ← hFresh, Function.update_eq_self]

section Release

theorem release_of_many (hOccupant : heap.occupant? id = some ⟨references + 2, object⟩) :
    heap.release id = heap.put id (some ⟨references + 1, object⟩) := by
  rw [release, releaseAll]
  split
  · rename_i hNone
    cases hOccupant.symm.trans hNone
  · rename_i found other hFound
    cases hOccupant.symm.trans hFound
    rw [if_pos (by omega), releaseAll]
    rfl

/-- The last reference to an object that is not one of its owners. -/
theorem release_of_last (hOccupant : heap.occupant? id = some ⟨1, object⟩) :
    heap.release id = (heap.remove id).releaseAll object.children.reverse := by
  rw [release, releaseAll]
  split
  · rename_i hNone
    cases hOccupant.symm.trans hNone
  · rename_i found other hFound
    cases hOccupant.symm.trans hFound
    rw [if_neg (Nat.lt_irrefl 1), List.append_nil]

end Release

namespace Stores

theorem get?_eq (h : heap.Stores objects live places) (hId : objects id = some ⟨references, object⟩) :
    heap.get? id = some object := get?_eq_some_iff.mpr ⟨references, h.occupant?_eq ▸ hId⟩

/-- A new object gets a name that nothing had. -/
theorem allocate (h : heap.Stores objects live (places + 1)) (object : Object) :
    objects (heap.allocate object).1 = none ∧ (heap.allocate object).2.Stores
      (Function.update objects (heap.allocate object).1 (some ⟨1, object⟩)) (live + 1) places := by
  have hCounts : (heap.allocate object).2.slots.size ≤ slotLimit ∧
      (heap.allocate object).2.live = heap.live + 1 ∧
      (heap.allocate object).2.places + 1 = heap.places := by
    have hSmall := h.small
    have hPlaces := h.places_eq
    obtain ⟨slots, free, _⟩ := heap
    cases free with
    | nil =>
        simp only [Heap.places, Heap.allocate, List.length_nil, Array.size_push] at *
        exact ⟨by omega, trivial, by omega⟩
    | cons index free =>
        simp only [Heap.places, Heap.allocate, List.length_cons, Array.size_setIfInBounds] at *
        exact ⟨hSmall, trivial, by omega⟩
  obtain ⟨hRoom, hLive, hPlaces⟩ := hCounts
  obtain ⟨hNew, hMap⟩ := occupant?_allocate object h.vacant hRoom
  refine ⟨?_, h.toConsistent.allocate object, hRoom, ?_, ?_, ?_⟩
  · rw [← h.occupant?_eq]
    exact Option.not_isSome_iff_eq_none.mp (Bool.not_eq_true _ ▸ hNew)
  · funext other
    rw [hMap, Function.update_apply, h.occupant?_eq]
  · rw [hLive, h.number_eq]
  · have hBefore := h.places_eq
    omega

theorem put {occupant : Occupant} (h : heap.Stores objects live places)
    (hId : objects id = some occupant) (next : Occupant) :
    (heap.put id (some next)).Stores (Function.update objects id (some next)) live places := by
  rw [← h.occupant?_eq] at hId
  refine ⟨h.toConsistent.put hId next, (size_put heap id _).trans_le h.small, ?_, h.number_eq, ?_⟩
  · funext other
    rw [occupant?_put hId, Function.update_apply, h.occupant?_eq]
  · rw [Heap.places, size_put]
    exact h.places_eq

theorem retain {occupant : Occupant} (h : heap.Stores objects live places)
    (hId : objects id = some occupant) : (heap.retain id).Stores
      (Function.update objects id (some ⟨occupant.references + 1, occupant.object⟩)) live places := by
  rw [retain_eq_put (h.occupant?_eq ▸ hId)]
  exact h.put hId _

theorem replace {occupant : Occupant} (h : heap.Stores objects live places)
    (hId : objects id = some occupant) (next : Object) : (heap.replace id next).Stores
      (Function.update objects id (some ⟨occupant.references, next⟩)) live places := by
  rw [replace_eq_put (h.occupant?_eq ▸ hId)]
  exact h.put hId _

theorem remove {occupant : Occupant} (h : heap.Stores objects (live + 1) places)
    (hId : objects id = some occupant) :
    (heap.remove id).Stores (Function.update objects id none) live (places + 1) := by
  have hNumber := h.number_eq
  have hPlaces := h.places_eq
  rw [← h.occupant?_eq] at hId
  have hSize : (heap.remove id).slots.size = heap.slots.size := by
    rw [slots_remove, Array.size_setIfInBounds]
  refine ⟨h.toConsistent.remove hId, hSize.trans_le h.small, ?_, ?_, ?_⟩
  · funext other
    rw [occupant?_remove hId, Function.update_apply, h.occupant?_eq]
  · change heap.live - 1 = live
    omega
  · change heap.free.length + 1 + (slotLimit - (heap.remove id).slots.size) = places + 1
    rw [hSize]
    simp only [Heap.places] at hPlaces
    omega

/-- The last reference to an object that owns nothing takes it away. -/
theorem release_plain (h : heap.Stores objects (live + 1) places)
    (hId : objects id = some ⟨1, object⟩) (hPlain : object.children = []) :
    (heap.release id).Stores (Function.update objects id none) live (places + 1) := by
  rw [release_of_last (h.occupant?_eq ▸ hId), hPlain, List.reverse_nil, releaseAll]
  exact h.remove hId

/-- The last reference to an object that owns another one takes it away, and the reference to
the other one with it. -/
theorem release_owner {child : ObjectId} {owned : Object}
    (h : heap.Stores objects (live + 1) places) (hId : objects id = some ⟨1, object⟩)
    (hChild : object.children = [child]) (hDistinct : child ≠ id)
    (hOwned : objects child = some ⟨references + 2, owned⟩) :
    (heap.release id).Stores
      (Function.update (Function.update objects id none) child (some ⟨references + 1, owned⟩))
      live (places + 1) := by
  have hRemoved := h.remove hId
  have hThere : Function.update objects id none child = some ⟨references + 2, owned⟩ := by
    rw [Function.update_of_ne hDistinct, hOwned]
  rw [release_of_last (h.occupant?_eq ▸ hId), hChild]
  change ((heap.remove id).release child).Stores _ _ _
  rw [release_of_many (hRemoved.occupant?_eq ▸ hThere)]
  exact hRemoved.put hThere _

end Stores

end ArrayBridge.Heap
