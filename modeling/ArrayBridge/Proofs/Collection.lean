import ArrayBridge.Proofs.Balance

/-! The heap collects exactly what nobody can reach.

A caller starts from the empty heap, and holds the references that it was given and has
not given away. The law of counts is kept by each call, and by each turn of the loop in
a release: references that wait in the loop count as held. So a release always finds a
count that it can lower, and what is left in the heap after it are the objects that can
be reached from held references. -/

namespace ArrayBridge.Heap

/-- The references that the objects of a heap own, once for each occurrence. -/
def ownedReferences (heap : Heap) : List ObjectId := heap.slots.toList.flatMap Slot.children

/-- What a caller can have after a number of calls: references that it holds, and a heap.
A reference can be added to one that is held, a new object takes one held reference for
each of its children, and a release takes the reference away. -/
inductive Runs : Nat → Multiset ObjectId → Heap → Prop
  | start : Runs 0 0 empty
  | allocate {calls : Nat} {held : Multiset ObjectId} {heap : Heap} (object : Object)
      (prior : Runs calls (↑object.children + held) heap) :
      Runs (calls + 1) ((heap.allocate object).1 ::ₘ held) (heap.allocate object).2
  | retain {calls : Nat} {held : Multiset ObjectId} {heap : Heap} {id : ObjectId}
      (prior : Runs calls held heap) (hHeld : id ∈ held) :
      Runs (calls + 1) (id ::ₘ held) (heap.retain id)
  | release {calls : Nat} {held : Multiset ObjectId} {heap : Heap} {id : ObjectId}
      (prior : Runs calls (id ::ₘ held) heap) : Runs (calls + 1) held (heap.release id)

/-- One turn of the loop in a release, with the references that are still to be released.
No turn lowers the count of an object that has no references. -/
inductive Turn : Heap × List ObjectId → Heap × List ObjectId → Prop
  | skip {heap : Heap} {id : ObjectId} {pending : List ObjectId}
      (hNone : heap.occupant? id = none) : Turn (heap, id :: pending) (heap, pending)
  | lower {heap : Heap} {id : ObjectId} {pending : List ObjectId} {occupant : Occupant}
      (hOccupant : heap.occupant? id = some occupant) (hMany : 1 < occupant.references) :
      Turn (heap, id :: pending)
        (heap.put id (some ⟨occupant.references - 1, occupant.object⟩), pending)
  | collect {heap : Heap} {id : ObjectId} {pending : List ObjectId} {occupant : Occupant}
      (hOccupant : heap.occupant? id = some occupant) (hLast : occupant.references = 1) :
      Turn (heap, id :: pending) (heap.remove id, occupant.object.children.reverse ++ pending)

variable {base heap : Heap} {held rest : Multiset ObjectId} {id : ObjectId} {calls : Nat}

section Loop

/-- There is one way for the loop to go on. -/
theorem Turn.rightUnique : Relator.RightUnique Turn := by
  intro start first second hFirst hSecond
  cases hFirst with
  | skip hNone =>
      cases hSecond with
      | skip => rfl
      | lower hOccupant | collect hOccupant => rw [hNone] at hOccupant; cases hOccupant
  | lower hOccupant hMany =>
      cases hSecond with
      | skip hNone => rw [hOccupant] at hNone; cases hNone
      | lower hSame => rw [hOccupant] at hSame; cases hSame; rfl
      | collect hSame hLast => rw [hOccupant] at hSame; cases hSame; omega
  | collect hOccupant hLast =>
      cases hSecond with
      | skip hNone => rw [hOccupant] at hNone; cases hNone
      | lower hSame hMany => rw [hOccupant] at hSame; cases hSame; omega
      | collect hSame => rw [hOccupant] at hSame; cases hSame; rfl

/-- A turn takes a held reference, and holds those that the object owned if it was the
last one. -/
theorem Accounted.turn {pending later : List ObjectId} {next : Heap}
    (h : Accounted base (↑pending + rest) heap) (hTurn : Turn (heap, pending) (next, later)) :
    Accounted base (↑later + rest) next := by
  cases hTurn with
  | @skip _ id _ hNone =>
      have hLive := h.held_live id (by simp)
      rw [isLive, hNone] at hLive
      cases hLive
  | lower hOccupant hMany =>
      rw [← Multiset.cons_coe, Multiset.cons_add] at h
      exact h.releaseOne hOccupant hMany
  | collect hOccupant hLast =>
      rw [← Multiset.cons_coe, Multiset.cons_add] at h
      rw [← Multiset.coe_add, Multiset.coe_reverse, Multiset.add_assoc]
      exact h.remove hOccupant (by omega)

/-- While references are pending the loop goes on, and it ends with the heap in which all
of them are released. -/
theorem Accounted.turns {pending : List ObjectId} (h : Accounted base (↑pending + rest) heap) :
    Relation.ReflTransGen Turn (heap, pending) (heap.releaseAll pending, []) := by
  fun_induction Heap.releaseAll heap pending with
  | case1 heap => exact .refl
  | case2 heap id tail hNone ih => exact .head (.skip hNone) (ih (h.turn (.skip hNone)))
  | case3 heap id tail references object hOccupant hMany ih =>
      exact .head (.lower hOccupant hMany) (ih (h.turn (.lower hOccupant hMany)))
  | case4 heap id tail references object hOccupant hLast ih =>
      have hPositive := h.positive id _ hOccupant
      have hOne : references = 1 := by
        dsimp only at hPositive
        omega
      exact .head (.collect hOccupant hOne) (ih (h.turn (.collect hOccupant hOne)))

end Loop

section Sizes

theorem length_ownedReferences_allocate (h : heap.Consistent) (object : Object) :
    (heap.allocate object).2.ownedReferences.length
      = heap.ownedReferences.length + object.children.length := by
  rw [← List.length_append]
  refine List.Perm.length_eq (List.perm_iff_count.mpr fun c => ?_)
  rw [List.count_append]
  exact count_owned_allocate object (Nat.zero_le _)
    (fun index hIndex => ⟨Nat.zero_le _, h.vacant index hIndex⟩) c

/-- An occupant with the same object owns as much. -/
theorem length_ownedReferences_put {occupant : Occupant}
    (hOccupant : heap.occupant? id = some occupant) (references : Nat) :
    (heap.put id (some ⟨references, occupant.object⟩)).ownedReferences.length
      = heap.ownedReferences.length := by
  have hSame : (Occupant.mk references occupant.object).object.children
      = occupant.object.children := rfl
  refine List.Perm.length_eq (List.perm_iff_count.mpr fun c => ?_)
  exact count_owned_put_of_children_eq 0 hOccupant hSame c

theorem length_ownedReferences_remove {occupant : Occupant}
    (hOccupant : heap.occupant? id = some occupant) :
    (heap.remove id).ownedReferences.length + occupant.object.children.length
      = heap.ownedReferences.length := by
  rw [← List.length_append]
  refine List.Perm.length_eq (List.perm_iff_count.mpr fun c => ?_)
  rw [List.count_append]
  exact count_owned_put hOccupant (Nat.zero_le _) none c

theorem length_ownedReferences_retain (hLive : heap.isLive id = true) :
    (heap.retain id).ownedReferences.length = heap.ownedReferences.length := by
  obtain ⟨occupant, hOccupant⟩ := isLive_iff.mp hLive
  rw [retain_eq_put hOccupant]
  exact length_ownedReferences_put hOccupant _

/-- A release makes no references. -/
theorem length_ownedReferences_releaseAll_le (heap : Heap) (pending : List ObjectId) :
    (heap.releaseAll pending).ownedReferences.length ≤ heap.ownedReferences.length := by
  fun_induction Heap.releaseAll heap pending with
  | case1 heap => exact Nat.le_refl _
  | case2 heap id tail hNone ih => exact ih
  | case3 heap id tail references object hOccupant hMany ih =>
      exact ih.trans (length_ownedReferences_put hOccupant _).le
  | case4 heap id tail references object hOccupant hLast ih =>
      have hRemoved := length_ownedReferences_remove hOccupant
      omega

end Sizes

namespace Runs

/-- A run is accounted for, and there are at most as many slots and references as
calls. -/
theorem accounted (h : Runs calls held heap) (hShort : calls < slotLimit) :
    Accounted empty held heap ∧ heap.slots.size ≤ calls ∧
      held.card + heap.ownedReferences.length ≤ calls := by
  induction h with
  | start =>
      have hBalanced := settled_empty.balanced (Nat.zero_le _)
      exact ⟨hBalanced.toAccounted, Nat.le_refl _, Nat.le_refl _⟩
  | @allocate calls held heap object prior ih =>
      obtain ⟨hAccounted, hSlots, hReferences⟩ := ih (by omega)
      have hSize := size_allocate_le heap object
      refine ⟨hAccounted.allocate (by omega), by omega, ?_⟩
      rw [length_ownedReferences_allocate hAccounted.toConsistent, Multiset.card_cons]
      rw [Multiset.card_add, Multiset.coe_card] at hReferences
      omega
  | @retain calls held heap id prior hHeld ih =>
      obtain ⟨hAccounted, hSlots, hReferences⟩ := ih (by omega)
      have hLive := hAccounted.held_live id hHeld
      refine ⟨hAccounted.retain hLive, ?_, ?_⟩
      · rw [size_retain]
        omega
      · rw [length_ownedReferences_retain hLive, Multiset.card_cons]
        omega
  | @release calls held heap id prior ih =>
      obtain ⟨hAccounted, hSlots, hReferences⟩ := ih (by omega)
      have hFewer := length_ownedReferences_releaseAll_le heap [id]
      refine ⟨hAccounted.release, ?_, ?_⟩
      · rw [Heap.release, size_releaseAll]
        omega
      · rw [Multiset.card_cons] at hReferences
        rw [Heap.release]
        omega

/-- After fewer calls than there are words of 32 bits: the release of a held reference
runs to its end and never lowers a count of zero; each live object counts the references
to it that are held and those that live objects own, at least one and fewer than a word
can count; and the live objects are those that can be reached from held references. -/
theorem collects_unreachable (h : Runs calls held heap) (hShort : calls < 2 ^ 32) :
    (∀ id ∈ held, Relation.ReflTransGen Turn (heap, [id]) (heap.release id, [])) ∧
    (∀ id occupant, heap.occupant? id = some occupant →
      occupant.references = held.count id + heap.ownedReferences.count id ∧
        0 < occupant.references ∧ occupant.references < 2 ^ 32) ∧
    ∀ id, heap.isLive id = true ↔ ∃ root ∈ held, Relation.ReflTransGen heap.Owns root id := by
  obtain ⟨hAccounted, -, hReferences⟩ := h.accounted hShort
  refine ⟨fun id hHeld => ?_, fun id occupant hOccupant => ?_, fun id => ⟨fun hLive => ?_, ?_⟩⟩
  · obtain ⟨rest, rfl⟩ := Multiset.exists_cons_of_mem hHeld
    exact Accounted.turns (by simpa using hAccounted)
  · have hLaw := hAccounted.counted id occupant hOccupant
    have hNoBase : empty.references id = 0 :=
      references_eq_zero (isLive_eq_false_of_le (Nat.zero_le _))
    rw [hNoBase, Nat.zero_add] at hLaw
    have hHeldCount := Multiset.count_le_card id held
    have hOwnedCount : heap.ownedReferences.count id ≤ heap.ownedReferences.length :=
      List.count_le_length
    refine ⟨hLaw, hAccounted.positive id occupant hOccupant, ?_⟩
    rw [hLaw]
    change held.count id + heap.ownedReferences.count id < _
    omega
  · exact hAccounted.exists_root hLive (isLive_eq_false_of_le (Nat.zero_le _))
  · rintro ⟨root, hRoot, hPath⟩
    exact hAccounted.isLive_of_reachable hRoot hPath

/-- A tuple of a list that has the same number twice: all of it is reachable from the
tuple, the number counts two references, and one release collects everything. -/
theorem collects_unreachable_nest :
    let list := ((empty.allocate (.int 1)).2.retain ⟨0, 0⟩).allocate (.list [⟨0, 0⟩, ⟨0, 0⟩])
    let tuple := list.2.allocate (.tuple [⟨1, 0⟩])
    Runs 4 {⟨2, 0⟩} tuple.2 ∧ tuple.2.references ⟨0, 0⟩ = 2 ∧
      Relation.ReflTransGen Turn (tuple.2, [⟨2, 0⟩]) (tuple.2.release ⟨2, 0⟩, []) ∧
      ∀ id, (tuple.2.release ⟨2, 0⟩).isLive id = false := by
  intro list tuple
  have hNumber : Runs 1 {⟨0, 0⟩} (empty.allocate (.int 1)).2 :=
    @Runs.allocate 0 0 empty (.int 1) .start
  have hTwice := Runs.retain hNumber (Multiset.mem_singleton_self _)
  have hList : Runs 3 {⟨1, 0⟩} list.2 :=
    @Runs.allocate 2 0 _ (.list [⟨0, 0⟩, ⟨0, 0⟩]) hTwice
  have hTuple : Runs 4 {⟨2, 0⟩} tuple.2 :=
    @Runs.allocate 3 0 _ (.tuple [⟨1, 0⟩]) hList
  obtain ⟨hRelease, -, -⟩ := collects_unreachable hTuple (by decide)
  obtain ⟨-, -, hLive⟩ := collects_unreachable (Runs.release hTuple) (by decide)
  refine ⟨hTuple, rfl, hRelease _ (Multiset.mem_singleton_self _), fun id => ?_⟩
  rw [← Bool.not_eq_true, hLive]
  simp

end Runs

end ArrayBridge.Heap
