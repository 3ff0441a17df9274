import ArrayBridge.Proofs.Balance

/-! Objects that stay as they are.

While references are kept aside, all objects that can be reached from them stay: nobody
else's release removes one, and only a cursor could change. What an operation does to the
objects that it works on is no matter to them. -/

namespace ArrayBridge

/-- References that are kept aside while others are held, and the heap in which they were
put aside. -/
structure Guard where
  base : Heap
  kept : Multiset ObjectId
  origin : Heap

namespace Guard

open Heap

variable {guard : Guard} {heap next : Heap} {held given : Multiset ObjectId} {id : ObjectId}
  {object : Object}

/-- The objects that can be reached from the kept references. -/
def Watches (guard : Guard) (id : ObjectId) : Prop :=
  ∃ root ∈ guard.kept, Relation.ReflTransGen guard.origin.Owns root id

/-- The object is not a cursor that is watched, so it may move. -/
def Frees (guard : Guard) (id : ObjectId) : Prop :=
  guard.Watches id → ∀ cursor, guard.origin.get? id ≠ some (.iterator cursor)

/-- Every reference has an owner, and all watched objects are as they were. -/
structure Holds (guard : Guard) (held : Multiset ObjectId) (heap : Heap) : Prop where
  balanced : guard.base.Balanced (guard.kept + held) heap
  same : ∀ id, guard.Watches id → heap.get? id = guard.origin.get? id

/-- Objects that are as they were own what they owned, so whatever they lead to is live. -/
theorem isLive_of_path {root : ObjectId} (hBalanced : guard.base.Balanced (guard.kept + held) heap)
    (hRoot : root ∈ guard.kept) (hPath : Relation.ReflTransGen guard.origin.Owns root id)
    (hSame : ∀ other, guard.Watches other → heap.isLive other = true →
      heap.get? other = guard.origin.get? other) : heap.isLive id = true := by
  induction hPath with
  | refl => exact hBalanced.held_live root (Multiset.mem_add.mpr (.inl hRoot))
  | tail hPrior hOwns ih =>
      obtain ⟨object, hObject, hChild⟩ := hOwns
      rw [← hSame _ ⟨root, hRoot, hPrior⟩ ih] at hObject
      obtain ⟨references, hOccupant⟩ := get?_eq_some_iff.mp hObject
      exact hBalanced.isLive_of_child hOccupant hChild

theorem Holds.isLive (h : guard.Holds held heap) (hWatched : guard.Watches id) :
    heap.isLive id = true := by
  obtain ⟨root, hRoot, hPath⟩ := hWatched
  exact isLive_of_path h.balanced hRoot hPath fun other hOther _ => h.same other hOther

/-- A heap without kept references is one that is balanced. -/
theorem holds_nothing_iff {base origin : Heap} :
    Holds ⟨base, 0, origin⟩ held heap ↔ base.Balanced held heap := by
  constructor
  · intro h
    simpa using h.balanced
  · intro h
    refine ⟨by simpa using h, ?_⟩
    rintro id ⟨root, hRoot, -⟩
    exact absurd hRoot (Multiset.notMem_zero root)

/-- A change that leaves alone what stays live keeps the watched objects. -/
theorem Holds.change (h : guard.Holds held heap)
    (hBalanced : guard.base.Balanced (guard.kept + given) next)
    (hSame : ∀ other, heap.isLive other = true → next.isLive other = true →
      next.get? other = heap.get? other) : guard.Holds given next := by
  have hWatched (other : ObjectId) (hOther : guard.Watches other) (hLive : next.isLive other = true) :
      next.get? other = guard.origin.get? other :=
    (hSame other (h.isLive hOther) hLive).trans (h.same other hOther)
  refine ⟨hBalanced, fun id hId => hWatched id hId ?_⟩
  obtain ⟨root, hRoot, hPath⟩ := hId
  exact isLive_of_path hBalanced hRoot hPath hWatched

theorem Holds.retain (h : guard.Holds held heap) (hLive : heap.isLive id = true) :
    guard.Holds (id ::ₘ held) (heap.retain id) := by
  refine h.change ?_ fun other _ _ => get?_retain heap id other
  rw [Multiset.add_cons]
  exact h.balanced.retain hLive

theorem Holds.release (h : guard.Holds (id ::ₘ held) heap) : guard.Holds held (heap.release id) := by
  have hBalanced := h.balanced
  rw [Multiset.add_cons] at hBalanced
  refine h.change hBalanced.release fun other _ hLive => ?_
  obtain ⟨occupant, hOccupant⟩ := isLive_iff.mp hLive
  have hAfter := get?_eq_some_iff.mpr ⟨occupant.references, hOccupant⟩
  exact hAfter.trans (get?_releaseAll hAfter).symm

theorem Holds.allocate (h : guard.Holds (↑object.children + held) heap) (hAdmits : heap.Admits object)
    (hRoom : (heap.allocate object).2.slots.size ≤ slotLimit) :
    guard.Holds ((heap.allocate object).1 ::ₘ held) (heap.allocate object).2 := by
  have hBalanced := h.balanced
  rw [← Multiset.add_assoc, Multiset.add_comm guard.kept, Multiset.add_assoc] at hBalanced
  refine h.change ?_ fun other hLive _ => hBalanced.get?_allocate object hLive
  rw [Multiset.add_cons]
  exact hBalanced.allocate hAdmits hRoom

/-- A cursor that is not watched can move. -/
theorem Holds.advance {cursor : Cursor} (h : guard.Holds held heap)
    (hCursor : heap.get? id = some (.iterator cursor)) (position : Nat) (hFree : guard.Frees id) :
    guard.Holds held (heap.replace id (.iterator { cursor with position := position })) := by
  obtain ⟨references, hOccupant⟩ := get?_eq_some_iff.mp hCursor
  refine ⟨h.balanced.replace hOccupant (.moved cursor position), fun other hOther => ?_⟩
  have hDistinct : other ≠ id := by
    rintro rfl
    exact hFree hOther cursor ((h.same other hOther).symm.trans hCursor)
  rw [get?_replace_of_ne _ hDistinct]
  exact h.same other hOther

/-- Without kept references every cursor may move. -/
theorem frees_nothing (base origin : Heap) (id : ObjectId) : Frees ⟨base, 0, origin⟩ id := by
  rintro ⟨root, hRoot, -⟩
  exact absurd hRoot (Multiset.notMem_zero root)

end Guard

end ArrayBridge
