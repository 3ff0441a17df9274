import ArrayBridge.Proofs.Layout
import ArrayBridge.Proofs.References
import Mathlib.Algebra.Order.BigOperators.Group.List
import Mathlib.Algebra.Order.Group.Nat
import Mathlib.Logic.Relation

/-! The balance of references.

A heap is balanced over an earlier one, its base, if every reference has an owner: the
references to an object are those it had in the base, those that somebody holds, and
those that later objects own. Each operation of the heap moves references between
owners or makes one together with its owner, so it keeps the balance. The objects of
the base stay, since nobody holds the references that the base counts. -/

namespace ArrayBridge

namespace Object

/-- Whether an object stays as it was made and can stand anywhere. -/
def isFixed : Object → Bool
  | list _ | iterator _ | array _ => false
  | _ => true

/-- What an object can become: a cursor can move, and all else stays. -/
inductive Becomes : Object → Object → Prop
  | same (object : Object) : Becomes object object
  | moved (cursor : Cursor) (position : Nat) :
      Becomes (iterator cursor) (iterator { cursor with position := position })

variable {object next : Object}

theorem Becomes.children_eq (h : object.Becomes next) : next.children = object.children := by
  cases h <;> rfl

theorem Becomes.eq_of_isFixed (h : object.Becomes next) (hFixed : object.isFixed = true) :
    next = object := by
  cases h with
  | same => rfl
  | moved => cases hFixed

theorem Becomes.eq_tuple {items : List ObjectId} (h : object.Becomes (.tuple items)) :
    object = .tuple items := by
  cases h
  rfl

end Object

namespace Heap

/-- The object of one name owns a reference to another one. -/
def Owns (heap : Heap) (parent child : ObjectId) : Prop :=
  ∃ object, heap.get? parent = some object ∧ child ∈ object.children

/-- Whether an object can stand in a heap: there are no lists, arrays are anchored, and a
cursor covers no more items than its source has. -/
def Admits (heap : Heap) : Object → Prop
  | .list _ => False
  | .array a => a.Anchored
  | .iterator cursor =>
    ∀ items, heap.get? cursor.source = some (.tuple items) → cursor.length ≤ items.length
  | _ => True

/-- A heap from which nothing was removed so far: every slot has an object with a
reference, all children are live, and no object is one that changes its contents. -/
structure Settled (base : Heap) : Prop where
  occupied : ∀ slot ∈ base.slots, slot.occupant.isSome = true
  free_eq : base.free = []
  live_eq : base.live = base.slots.size
  positive : ∀ id occupant, base.occupant? id = some occupant → 0 < occupant.references
  children_live : ∀ id occupant, base.occupant? id = some occupant →
    ∀ c ∈ occupant.object.children, base.isLive c = true
  fixed : ∀ id occupant, base.occupant? id = some occupant → occupant.object.isFixed = true

/-- The free slots are vacant and stand in their list once, and the number of live
objects is that of the occupied slots. -/
structure Consistent (heap : Heap) : Prop where
  vacant : ∀ index ∈ heap.free, ∃ generation, heap.slots[index.toNat]? = some ⟨generation, none⟩
  free_nodup : heap.free.Nodup
  live_eq : heap.live = heap.occupied

/-- Every object of a heap can stand in it. -/
def Admitting (heap : Heap) : Prop :=
  ∀ id occupant, heap.occupant? id = some occupant → heap.Admits occupant.object

/-- Every reference to an object has an owner: the base, a holder, or an object that
is not in the base. -/
structure Accounted (base : Heap) (held : Multiset ObjectId) (heap : Heap) : Prop
    extends heap.Consistent where
  settled : base.Settled
  small : heap.slots.size ≤ slotLimit
  grown : base.slots.size ≤ heap.slots.size
  kept : ∀ id occupant, base.occupant? id = some occupant →
    ∃ references, heap.occupant? id = some ⟨references, occupant.object⟩
  counted : ∀ id occupant, heap.occupant? id = some occupant →
    occupant.references
      = base.references id + held.count id + (heap.owned base.slots.size).count id
  positive : ∀ id occupant, heap.occupant? id = some occupant → 0 < occupant.references
  held_live : ∀ id ∈ held, heap.isLive id = true
  owned_live : ∀ id ∈ heap.owned base.slots.size, heap.isLive id = true
  /-- Later objects own only objects that were made before them. -/
  ranked : ∃ rank : ObjectId → Nat, ∀ id occupant, base.slots.size ≤ id.index.toNat →
    heap.occupant? id = some occupant → ∀ c ∈ occupant.object.children, rank c < rank id

/-- Every reference has an owner, and every object can stand where it is. -/
structure Balanced (base : Heap) (held : Multiset ObjectId) (heap : Heap) : Prop
    extends Accounted base held heap where
  admitted : heap.Admitting

variable {base heap : Heap} {held rest : Multiset ObjectId} {id other : ObjectId}
  {occupant : Occupant}

theorem get?_eq_some_iff {object : Object} :
    heap.get? id = some object ↔ ∃ references, heap.occupant? id = some ⟨references, object⟩ := by
  unfold get?
  cases heap.occupant? id with
  | none => simp
  | some occupant =>
      obtain ⟨references, found⟩ := occupant
      simp

theorem admits_of_isFixed {object : Object} (h : object.isFixed = true) : heap.Admits object := by
  cases object with
  | list | iterator | array => cases h
  | _ => trivial

/-- An object can stand in each heap in which its children are what they were. -/
theorem Admits.of_children {next : Heap} {object : Object} (h : heap.Admits object)
    (hChildren : ∀ c ∈ object.children, ∀ items,
      next.get? c = some (.tuple items) → heap.get? c = some (.tuple items)) :
    next.Admits object := by
  cases object with
  | list | array => exact h
  | iterator cursor =>
      intro items hItems
      exact h items (hChildren cursor.source (by simp [Object.children]) items hItems)
  | _ => trivial

theorem Admits.becomes {object next : Object} (h : heap.Admits object)
    (hNext : object.Becomes next) : heap.Admits next := by
  cases hNext <;> exact h

theorem references_eq_zero (h : base.isLive id = false) : base.references id = 0 := by
  rw [isLive] at h
  cases hOccupant : base.occupant? id with
  | none => simp [references, hOccupant]
  | some occupant => simp [hOccupant] at h

theorem isLive_eq_false_of_le (h : base.slots.size ≤ id.index.toNat) : base.isLive id = false := by
  by_contra hLive
  have := lt_of_isLive (Bool.not_eq_false _ ▸ hLive)
  omega

theorem settled_empty : Settled empty where
  occupied := by simp [empty]
  free_eq := rfl
  live_eq := rfl
  positive := by simp [empty, occupant?]
  children_live := by simp [empty, occupant?]
  fixed := by simp [empty, occupant?]

/-- A slot of a settled heap has a live name. -/
theorem Settled.exists_isLive (h : base.Settled) {index : UInt32}
    (hIndex : index.toNat < base.slots.size) : ∃ generation, base.isLive ⟨index, generation⟩ = true := by
  have hOccupied := h.occupied _ (Array.getElem_mem hIndex)
  obtain ⟨occupant, hOccupant⟩ := Option.isSome_iff_exists.mp hOccupied
  refine ⟨base.slots[index.toNat].generation, isLive_iff.mpr ⟨occupant, ?_⟩⟩
  rw [occupant?_eq_some_iff, Array.getElem?_eq_getElem hIndex, ← hOccupant]

namespace Accounted

theorem isLive_of_base (h : Accounted base held heap) (hBase : base.isLive id = true) :
    heap.isLive id = true := by
  obtain ⟨occupant, hOccupant⟩ := isLive_iff.mp hBase
  obtain ⟨references, hKept⟩ := h.kept id occupant hOccupant
  exact isLive_iff.mpr ⟨_, hKept⟩

/-- A live object is one of the base or lies beyond its slots. -/
theorem le_index (h : Accounted base held heap) (hLive : heap.isLive id = true)
    (hBase : base.isLive id = false) : base.slots.size ≤ id.index.toNat := by
  by_contra hLess
  obtain ⟨generation, hOld⟩ := h.settled.exists_isLive (Nat.lt_of_not_le hLess)
  have hSame := eq_of_index_eq (h.isLive_of_base hOld) hLive rfl
  rw [hSame, hBase] at hOld
  cases hOld

/-- What a live object owns is live. -/
theorem isLive_of_child (h : Accounted base held heap) (hOccupant : heap.occupant? id = some occupant)
    (hChild : other ∈ occupant.object.children) : heap.isLive other = true := by
  cases hBase : base.isLive id with
  | false =>
      have hBeyond := h.le_index (isLive_iff.mpr ⟨occupant, hOccupant⟩) hBase
      exact h.owned_live other ((mem_owned h.small).mpr ⟨id, occupant, hBeyond, hOccupant, hChild⟩)
  | true =>
      obtain ⟨old, hOld⟩ := isLive_iff.mp hBase
      obtain ⟨references, hKept⟩ := h.kept id old hOld
      rw [hOccupant] at hKept
      cases hKept
      exact h.isLive_of_base (h.settled.children_live id old hOld other hChild)

/-- The free slots come after those of the base. -/
theorem free_beyond (h : Accounted base held heap) {index : UInt32} (hIndex : index ∈ heap.free) :
    base.slots.size ≤ index.toNat := by
  by_contra hLess
  obtain ⟨generation, hOld⟩ := h.settled.exists_isLive (Nat.lt_of_not_le hLess)
  obtain ⟨occupant, hOccupant⟩ := isLive_iff.mp (h.isLive_of_base hOld)
  obtain ⟨_, hVacant⟩ := h.vacant index hIndex
  rw [occupant?_eq_some_iff, hVacant] at hOccupant
  cases hOccupant

/-- The law of counts, for the references of a live object. -/
theorem references_eq (h : Accounted base held heap) (hLive : heap.isLive id = true) :
    heap.references id
      = base.references id + held.count id + (heap.owned base.slots.size).count id := by
  obtain ⟨occupant, hOccupant⟩ := isLive_iff.mp hLive
  rw [← h.counted id occupant hOccupant, references, hOccupant]

end Accounted

/-- A settled heap is balanced over itself while nobody holds a reference. -/
theorem Settled.balanced (h : base.Settled) (hSmall : base.slots.size ≤ slotLimit) :
    Balanced base 0 base where
  settled := h
  small := hSmall
  grown := Nat.le_refl _
  kept _ occupant hOccupant := ⟨occupant.references, hOccupant⟩
  counted id occupant hOccupant := by
    simp [owned, List.drop_of_length_le, references, hOccupant]
  positive := h.positive
  held_live _ hHeld := absurd hHeld (Multiset.notMem_zero _)
  owned_live := by simp [owned, List.drop_of_length_le]
  vacant := by simp [h.free_eq]
  free_nodup := by simp [h.free_eq]
  live_eq := by
    rw [h.live_eq, Heap.occupied, Array.countP_eq_size.mpr h.occupied]
  admitted id occupant hOccupant := admits_of_isFixed (h.fixed id occupant hOccupant)
  ranked := ⟨fun _ => 0, fun id occupant hBound hOccupant => by
    have hNone := isLive_eq_false_of_le hBound
    rw [isLive, hOccupant] at hNone
    cases hNone⟩

section Steps

theorem retain_eq_put (hOccupant : heap.occupant? id = some occupant) :
    heap.retain id = heap.put id (some ⟨occupant.references + 1, occupant.object⟩) := by
  rw [Heap.retain, hOccupant]

theorem replace_eq_put {object : Object} (hOccupant : heap.occupant? id = some occupant) :
    heap.replace id object = heap.put id (some ⟨occupant.references, object⟩) := by
  rw [Heap.replace, hOccupant]

theorem index_ne_of_vacant {index : UInt32} {generation : UInt32}
    (hOccupant : heap.occupant? id = some occupant)
    (hVacant : heap.slots[index.toNat]? = some ⟨generation, none⟩) :
    id.index.toNat ≠ index.toNat := by
  intro hSame
  rw [occupant?_eq_some_iff, hSame, hVacant] at hOccupant
  cases hOccupant

/-- Removing an object leaves one slot less occupied. -/
theorem occupied_remove (h : heap.occupant? id = some occupant) :
    (heap.remove id).occupied + 1 = heap.occupied := by
  have hPositive := occupied_pos h
  obtain ⟨hIndex, hSlot⟩ := lt_size_of_occupant? h
  unfold occupied at hPositive ⊢
  rw [slots_remove, Array.setIfInBounds_def, dif_pos hIndex, Array.countP_set, hSlot]
  simp only [Option.isSome_some, Option.isSome_none, if_true, Bool.false_eq_true, if_false]
  omega

namespace Consistent

theorem put (h : heap.Consistent) (hOccupant : heap.occupant? id = some occupant)
    (next : Occupant) : (heap.put id (some next)).Consistent where
  vacant index hIndex := by
    obtain ⟨generation, hVacant⟩ := h.vacant index hIndex
    rw [slots_put, Array.getElem?_setIfInBounds,
      if_neg (index_ne_of_vacant hOccupant hVacant), hVacant]
    exact ⟨generation, rfl⟩
  free_nodup := h.free_nodup
  live_eq := by rw [live_put, h.live_eq, occupied_put_some hOccupant]

theorem remove (h : heap.Consistent) (hOccupant : heap.occupant? id = some occupant) :
    (heap.remove id).Consistent where
  vacant index hIndex := by
    rw [slots_remove, Array.getElem?_setIfInBounds]
    rcases List.mem_cons.mp hIndex with rfl | hFree
    · rw [if_pos rfl, if_pos (lt_size_of_occupant? hOccupant).1]
      exact ⟨id.generation, rfl⟩
    · obtain ⟨generation, hVacant⟩ := h.vacant index hFree
      rw [if_neg (index_ne_of_vacant hOccupant hVacant), hVacant]
      exact ⟨generation, rfl⟩
  free_nodup := by
    refine List.nodup_cons.mpr ⟨fun hFree => ?_, h.free_nodup⟩
    obtain ⟨generation, hVacant⟩ := h.vacant id.index hFree
    exact index_ne_of_vacant hOccupant hVacant rfl
  live_eq := by
    have hOccupied := occupied_remove hOccupant
    have hBefore := h.live_eq
    change heap.live - 1 = _
    omega

/-- An allocation takes one free slot at most and leaves the others free. -/
theorem allocate (h : heap.Consistent) (object : Object) :
    (heap.allocate object).2.Consistent := by
  obtain ⟨slots, free, live⟩ := heap
  obtain ⟨hVacant, hNodup, hLive⟩ := h
  dsimp only at hLive
  cases free with
  | nil =>
      refine ⟨fun _ h => (nomatch h), List.nodup_nil, ?_⟩
      simp [Heap.allocate, occupied, hLive]
  | cons index free =>
      obtain ⟨hFirst, hRest⟩ := List.nodup_cons.mp hNodup
      obtain ⟨generation, hSlot⟩ := hVacant index (by simp)
      refine ⟨fun next hNext => ?_, hRest, ?_⟩
      · have hOther : index.toNat ≠ next.toNat := fun hSame =>
          ne_of_mem_of_not_mem hNext hFirst (UInt32.toNat_inj.mp hSame.symm)
        simp only [Heap.allocate, Array.getElem?_setIfInBounds, if_neg hOther]
        exact hVacant next (List.mem_cons_of_mem _ hNext)
      · obtain ⟨hBound, hEntry⟩ := Array.getElem?_eq_some_iff.mp hSlot
        dsimp only at hBound hEntry
        simp [Heap.allocate, occupied, Array.setIfInBounds_def, hBound, Array.countP_set, hEntry,
          hLive]

end Consistent

/-- A new occupant for a name that owns the same references. -/
theorem Accounted.put {next : Occupant} (h : Accounted base held heap)
    (hOccupant : heap.occupant? id = some occupant)
    (hNext : occupant.object.Becomes next.object)
    (hPositive : 0 < next.references)
    (hHeld : ∀ c ∈ rest, c ∈ held ∨ c = id)
    (hCount : next.references + held.count id = occupant.references + rest.count id)
    (hOther : ∀ c, c ≠ id → rest.count c = held.count c) :
    Accounted base rest (heap.put id (some next)) := by
  have hOwned := count_owned_put_of_children_eq base.slots.size hOccupant
    hNext.children_eq
  have hLive {c : ObjectId} (hc : heap.isLive c = true) :
      (heap.put id (some next)).isLive c = true := by
    rw [isLive, occupant?_put hOccupant]
    split_ifs
    · rfl
    · exact hc
  exact {
    toConsistent := h.toConsistent.put hOccupant next
    settled := h.settled
    small := by simpa using h.small
    grown := by simpa using h.grown
    kept := fun c old hOld => by
      obtain ⟨references, hFound⟩ := h.kept c old hOld
      rw [occupant?_put hOccupant]
      split_ifs with hHere
      · subst hHere
        rw [hOccupant] at hFound
        cases hFound
        exact ⟨next.references, by rw [← hNext.eq_of_isFixed (h.settled.fixed c old hOld)]⟩
      · exact ⟨references, hFound⟩
    counted := fun c now hNow => by
      rw [occupant?_put hOccupant] at hNow
      split_ifs at hNow with hHere
      · cases hNow
        subst hHere
        have hLaw := h.counted c occupant hOccupant
        rw [hOwned c]
        omega
      · rw [hOwned c, hOther c hHere]
        exact h.counted c now hNow
    positive := fun c now hNow => by
      rw [occupant?_put hOccupant] at hNow
      split_ifs at hNow
      · cases hNow
        exact hPositive
      · exact h.positive c now hNow
    held_live := fun c hc => by
      rcases hHeld c hc with hOld | rfl
      · exact hLive (h.held_live c hOld)
      · exact hLive (isLive_iff.mpr ⟨occupant, hOccupant⟩)
    owned_live := fun c hc => by
      have hBefore : c ∈ heap.owned base.slots.size := by
        rw [← List.count_pos_iff, ← hOwned c]
        exact List.count_pos_iff.mpr hc
      exact hLive (h.owned_live c hBefore)
    ranked := by
      obtain ⟨rank, hRank⟩ := h.ranked
      refine ⟨rank, fun c now hBound hNow => ?_⟩
      rw [occupant?_put hOccupant] at hNow
      split_ifs at hNow with hHere
      · cases hNow
        subst hHere
        rw [hNext.children_eq]
        exact hRank c occupant hBound hOccupant
      · exact hRank c now hBound hNow }

/-- Another reference to a live object, held by whoever asked for it. -/
theorem Accounted.retain (h : Accounted base held heap) (hLive : heap.isLive id = true) :
    Accounted base (id ::ₘ held) (heap.retain id) := by
  obtain ⟨occupant, hOccupant⟩ := isLive_iff.mp hLive
  rw [retain_eq_put hOccupant]
  refine h.put hOccupant (.same _) (Nat.succ_pos _)
    (fun c hc => (Multiset.mem_cons.mp hc).symm) ?_ fun c hc => ?_
  · rw [Multiset.count_cons_self]
    dsimp only
    omega
  · exact Multiset.count_cons_of_ne hc held

/-- A cursor can move. -/
theorem Accounted.replace {object : Object} (h : Accounted base held heap)
    (hOccupant : heap.occupant? id = some occupant) (hNext : occupant.object.Becomes object) :
    Accounted base held (heap.replace id object) := by
  rw [replace_eq_put hOccupant]
  exact h.put hOccupant hNext (h.positive id occupant hOccupant) (fun c hc => .inl hc) rfl
    fun _ _ => rfl

/-- One of several references to an object is released. -/
theorem Accounted.releaseOne (h : Accounted base (id ::ₘ rest) heap)
    (hOccupant : heap.occupant? id = some occupant) (hMany : 1 < occupant.references) :
    Accounted base rest (heap.put id (some ⟨occupant.references - 1, occupant.object⟩)) := by
  refine h.put hOccupant (.same _) (Nat.sub_pos_of_lt hMany)
    (fun c hc => .inl (Multiset.mem_cons_of_mem hc)) ?_ fun c hc => ?_
  · rw [Multiset.count_cons_self]
    dsimp only
    omega
  · rw [Multiset.count_cons_of_ne hc]

/-- The last reference to an object is released: nothing refers to the object any
more, and what it owned is held by whoever removed it. -/
theorem Accounted.remove (h : Accounted base (id ::ₘ rest) heap)
    (hOccupant : heap.occupant? id = some occupant) (hLast : ¬ 1 < occupant.references) :
    Accounted base (↑occupant.object.children + rest) (heap.remove id) := by
  have hLaw := h.counted id occupant hOccupant
  rw [Multiset.count_cons_self] at hLaw
  have hNotHeld : id ∉ rest := by
    rw [← Multiset.count_eq_zero]
    omega
  have hNotOwned : id ∉ heap.owned base.slots.size := by
    rw [← List.count_eq_zero]
    omega
  have hNotBase : base.isLive id = false := by
    by_contra hLive
    obtain ⟨old, hOld⟩ := isLive_iff.mp (Bool.not_eq_false _ ▸ hLive)
    have hPositive := h.settled.positive id old hOld
    rw [references, hOld] at hLaw
    dsimp only at hLaw
    omega
  have hBeyond := h.le_index (isLive_iff.mpr ⟨occupant, hOccupant⟩) hNotBase
  have hOwned (c : ObjectId) : ((heap.remove id).owned base.slots.size).count c
      + occupant.object.children.count c = (heap.owned base.slots.size).count c := by
    rw [owned_remove, count_owned_put hOccupant hBeyond none c]
    simp [Slot.children]
  have hLive {c : ObjectId} (hc : heap.isLive c = true) (hOther : c ≠ id) :
      (heap.remove id).isLive c = true := by
    rw [isLive, occupant?_remove hOccupant, if_neg hOther]
    exact hc
  have hOwnedLive {c : ObjectId} (hc : c ∈ heap.owned base.slots.size) :
      (heap.remove id).isLive c = true :=
    hLive (h.owned_live c hc) (ne_of_mem_of_not_mem hc hNotOwned)
  exact {
    toConsistent := h.toConsistent.remove hOccupant
    settled := h.settled
    small := by simpa using h.small
    grown := by simpa using h.grown
    kept := fun c old hOld => by
      have hOther : c ≠ id := by
        rintro rfl
        rw [isLive, hOld] at hNotBase
        cases hNotBase
      rw [occupant?_remove hOccupant, if_neg hOther]
      exact h.kept c old hOld
    counted := fun c now hNow => by
      rw [occupant?_remove hOccupant] at hNow
      split_ifs at hNow with hOther
      have hBefore := h.counted c now hNow
      have hMoved := hOwned c
      rw [Multiset.count_cons_of_ne hOther] at hBefore
      rw [Multiset.count_add, Multiset.coe_count]
      omega
    positive := fun c now hNow => by
      rw [occupant?_remove hOccupant] at hNow
      split_ifs at hNow
      exact h.positive c now hNow
    held_live := fun c hc => by
      rcases Multiset.mem_add.mp hc with hChild | hRest
      · refine hOwnedLive (List.count_pos_iff.mp ?_)
        have hChildCount := List.count_pos_iff.mpr (Multiset.mem_coe.mp hChild)
        have := hOwned c
        omega
      · exact hLive (h.held_live c (Multiset.mem_cons_of_mem hRest))
          (ne_of_mem_of_not_mem hRest hNotHeld)
    owned_live := fun c hc => by
      refine hOwnedLive (List.count_pos_iff.mp ?_)
      have hCount := List.count_pos_iff.mpr hc
      have := hOwned c
      omega
    ranked := by
      obtain ⟨rank, hRank⟩ := h.ranked
      refine ⟨rank, fun c now hBound hNow => ?_⟩
      rw [occupant?_remove hOccupant] at hNow
      split_ifs at hNow
      exact hRank c now hBound hNow }

/-- Releasing held references, and all that was kept alive only by them, leaves the
others held. -/
theorem Accounted.releaseAll {pending : List ObjectId}
    (h : Accounted base (↑pending + rest) heap) :
    Accounted base rest (heap.releaseAll pending) := by
  fun_induction Heap.releaseAll heap pending with
  | case1 heap => simpa using h
  | case2 heap id tail hNone ih =>
      have hLive := h.held_live id (by simp)
      rw [isLive, hNone] at hLive
      cases hLive
  | case3 heap id tail references object hOccupant hMany ih =>
      rw [← Multiset.cons_coe, Multiset.cons_add] at h
      exact ih (h.releaseOne hOccupant hMany)
  | case4 heap id tail references object hOccupant hLast ih =>
      rw [← Multiset.cons_coe, Multiset.cons_add] at h
      refine ih ?_
      rw [← Multiset.coe_add, Multiset.coe_reverse, Multiset.add_assoc]
      exact h.remove hOccupant hLast

/-- Releasing a held reference. -/
theorem Accounted.release (h : Accounted base (id ::ₘ rest) heap) :
    Accounted base rest (heap.release id) :=
  Accounted.releaseAll (by simpa using h)

end Steps

section Allocation

/-- A new object takes the references that it owns from their holder, who gets the one
reference to the object for them. -/
theorem Accounted.allocate {object : Object} (h : Accounted base (↑object.children + rest) heap)
    (hRoom : (heap.allocate object).2.slots.size ≤ slotLimit) :
    Accounted base ((heap.allocate object).1 ::ₘ rest) (heap.allocate object).2 := by
  obtain ⟨hNew, hMap⟩ := occupant?_allocate object h.vacant hRoom
  have hOwned := count_owned_allocate object h.grown fun index hIndex =>
    ⟨h.free_beyond hIndex, h.vacant index hIndex⟩
  generalize (heap.allocate object).1 = new at hNew hMap ⊢
  have hOld {c : ObjectId} (hc : heap.isLive c = true) : c ≠ new := by
    rintro rfl
    rw [hc] at hNew
    cases hNew
  have hLive {c : ObjectId} (hc : heap.isLive c = true) :
      (heap.allocate object).2.isLive c = true := by
    rw [isLive, hMap, if_neg (hOld hc)]
    exact hc
  have hChild {c : ObjectId} (hc : c ∈ object.children) : heap.isLive c = true :=
    h.held_live c (Multiset.mem_add.mpr (.inl (Multiset.mem_coe.mpr hc)))
  have hRest {c : ObjectId} (hc : c ∈ rest) : heap.isLive c = true :=
    h.held_live c (Multiset.mem_add.mpr (.inr hc))
  exact {
    toConsistent := h.toConsistent.allocate object
    settled := h.settled
    small := hRoom
    grown := Nat.le_trans h.grown (size_le_size_allocate heap object)
    kept := fun c old hBase => by
      obtain ⟨references, hFound⟩ := h.kept c old hBase
      rw [hMap, if_neg (hOld (isLive_iff.mpr ⟨_, hFound⟩))]
      exact ⟨references, hFound⟩
    counted := fun c now hNow => by
      rw [hMap] at hNow
      rw [hOwned c]
      split_ifs at hNow with hHere
      · cases hNow
        subst hHere
        have hBase : base.references c = 0 := by
          refine references_eq_zero ?_
          by_contra hLive
          rw [h.isLive_of_base (Bool.not_eq_false _ ▸ hLive)] at hNew
          cases hNew
        have hNotHeld : rest.count c = 0 := Multiset.count_eq_zero.mpr fun hc => hOld (hRest hc) rfl
        have hNotOwned : (heap.owned base.slots.size).count c = 0 :=
          List.count_eq_zero.mpr fun hc => hOld (h.owned_live c hc) rfl
        have hNotChild : object.children.count c = 0 :=
          List.count_eq_zero.mpr fun hc => hOld (hChild hc) rfl
        rw [Multiset.count_cons_self]
        dsimp only
        omega
      · have hLaw := h.counted c now hNow
        rw [Multiset.count_add, Multiset.coe_count] at hLaw
        rw [Multiset.count_cons_of_ne hHere]
        omega
    positive := fun c now hNow => by
      rw [hMap] at hNow
      split_ifs at hNow
      · cases hNow
        exact Nat.one_pos
      · exact h.positive c now hNow
    held_live := fun c hc => by
      rcases Multiset.mem_cons.mp hc with rfl | hc
      · rw [isLive, hMap, if_pos rfl]
        rfl
      · exact hLive (hRest hc)
    owned_live := fun c hc => by
      have hCount := List.count_pos_iff.mpr hc
      rw [hOwned c] at hCount
      by_cases hInside : c ∈ object.children
      · exact hLive (hChild hInside)
      · rw [List.count_eq_zero.mpr hInside] at hCount
        exact hLive (h.owned_live c (List.count_pos_iff.mp hCount))
    ranked := by
      obtain ⟨rank, hRank⟩ := h.ranked
      -- The new object comes after all that it owns.
      refine ⟨fun c => if c = new then (object.children.map rank).sum + 1 else rank c,
        fun c now hBound hNow d hd => ?_⟩
      rw [hMap] at hNow
      split_ifs at hNow with hHere
      · cases hNow
        beta_reduce
        rw [if_pos hHere, if_neg (hOld (hChild hd))]
        exact Nat.lt_succ_of_le (List.le_sum_of_mem (List.mem_map_of_mem hd))
      · have hOwnedBefore : d ∈ heap.owned base.slots.size :=
          (mem_owned h.small).mpr ⟨c, now, hBound, hNow, hd⟩
        beta_reduce
        rw [if_neg hHere, if_neg (hOld (h.owned_live d hOwnedBefore))]
        exact hRank c now hBound hNow d hd }

/-- An allocation leaves the live objects as they are, also when it finds no new name. -/
theorem Consistent.get?_allocate (h : heap.Consistent) (object : Object)
    (hLive : heap.isLive id = true) : (heap.allocate object).2.get? id = heap.get? id := by
  obtain ⟨occupant, hOccupant⟩ := isLive_iff.mp hLive
  obtain ⟨hIndex, -⟩ := lt_size_of_occupant? hOccupant
  have hSlot : (heap.allocate object).2.slots[id.index.toNat]? = heap.slots[id.index.toNat]? := by
    obtain ⟨slots, free, live⟩ := heap
    cases free with
    | nil => exact Array.getElem?_push_lt hIndex |>.trans (Array.getElem?_eq_getElem hIndex).symm
    | cons index free =>
        obtain ⟨generation, hVacant⟩ := h.vacant index List.mem_cons_self
        exact Array.getElem?_setIfInBounds_ne (index_ne_of_vacant hOccupant hVacant).symm
  rw [get?, get?, Heap.occupant?, Heap.occupant?, hSlot]

end Allocation

section Admission

/-- A new occupant for a name is one that the object can become. -/
theorem Admitting.put {next : Occupant} (h : heap.Admitting)
    (hOccupant : heap.occupant? id = some occupant)
    (hNext : occupant.object.Becomes next.object) : (heap.put id (some next)).Admitting := by
  intro c now hNow
  have hBefore : heap.Admits now.object := by
    rw [occupant?_put hOccupant] at hNow
    split_ifs at hNow
    · cases hNow
      exact (h id occupant hOccupant).becomes hNext
    · exact h c now hNow
  refine hBefore.of_children fun d _ items hItems => ?_
  obtain ⟨references, hFound⟩ := get?_eq_some_iff.mp hItems
  rw [occupant?_put hOccupant] at hFound
  split_ifs at hFound with hHere
  · cases hFound
    rw [get?_eq_some_iff, hHere, hOccupant]
    exact ⟨occupant.references, by rw [← hNext.eq_tuple]⟩
  · exact get?_eq_some_iff.mpr ⟨references, hFound⟩

theorem Admitting.remove (h : heap.Admitting) (hOccupant : heap.occupant? id = some occupant) :
    (heap.remove id).Admitting := by
  intro c now hNow
  rw [occupant?_remove hOccupant] at hNow
  split_ifs at hNow
  refine (h c now hNow).of_children fun d _ items hItems => ?_
  obtain ⟨references, hFound⟩ := get?_eq_some_iff.mp hItems
  rw [occupant?_remove hOccupant] at hFound
  split_ifs at hFound
  exact get?_eq_some_iff.mpr ⟨references, hFound⟩

theorem Admitting.releaseAll {pending : List ObjectId} (h : heap.Admitting) :
    (heap.releaseAll pending).Admitting := by
  fun_induction Heap.releaseAll heap pending with
  | case1 heap => exact h
  | case2 heap id tail hNone ih => exact ih h
  | case3 heap id tail references object hOccupant hMany ih => exact ih (h.put hOccupant (.same _))
  | case4 heap id tail references object hOccupant hLast ih => exact ih (h.remove hOccupant)

end Admission

/-! A balanced heap stays balanced: its references stay accounted for, and its objects can
stand where they are. -/

namespace Balanced

theorem retain (h : Balanced base held heap) (hLive : heap.isLive id = true) :
    Balanced base (id ::ₘ held) (heap.retain id) := by
  obtain ⟨occupant, hOccupant⟩ := isLive_iff.mp hLive
  refine ⟨h.toAccounted.retain hLive, ?_⟩
  rw [retain_eq_put hOccupant]
  exact h.admitted.put hOccupant (.same _)

theorem replace {object : Object} (h : Balanced base held heap)
    (hOccupant : heap.occupant? id = some occupant) (hNext : occupant.object.Becomes object) :
    Balanced base held (heap.replace id object) := by
  refine ⟨h.toAccounted.replace hOccupant hNext, ?_⟩
  rw [replace_eq_put hOccupant]
  exact h.admitted.put hOccupant hNext

theorem release (h : Balanced base (id ::ₘ rest) heap) : Balanced base rest (heap.release id) :=
  ⟨h.toAccounted.release, h.admitted.releaseAll⟩

theorem allocate {object : Object} (h : Balanced base (↑object.children + rest) heap)
    (hAdmits : heap.Admits object) (hRoom : (heap.allocate object).2.slots.size ≤ slotLimit) :
    Balanced base ((heap.allocate object).1 ::ₘ rest) (heap.allocate object).2 := by
  refine ⟨h.toAccounted.allocate hRoom, fun c now hNow => ?_⟩
  obtain ⟨hNew, hMap⟩ := occupant?_allocate object h.vacant hRoom
  have hBefore : heap.Admits now.object ∧ ∀ d ∈ now.object.children, heap.isLive d = true := by
    rw [hMap] at hNow
    split_ifs at hNow
    · cases hNow
      exact ⟨hAdmits, fun d hd => h.held_live d (Multiset.mem_add.mpr (.inl hd))⟩
    · exact ⟨h.admitted c now hNow, fun d hd => h.isLive_of_child hNow hd⟩
  refine hBefore.1.of_children fun d hd items hItems => ?_
  have hOld : d ≠ (heap.allocate object).1 := by
    rintro rfl
    rw [hBefore.2 _ hd] at hNew
    cases hNew
  rwa [Heap.get?, hMap, if_neg hOld] at hItems

end Balanced

section Reachability

/-- A live object that is not in the base is reachable from a held reference. -/
theorem Accounted.exists_root (h : Accounted base held heap) (hLive : heap.isLive id = true)
    (hLater : base.isLive id = false) :
    ∃ root ∈ held, Relation.ReflTransGen heap.Owns root id := by
  obtain ⟨rank, hRank⟩ := h.ranked
  -- An object that nobody holds has an owner of a higher rank, and ranks have a bound.
  generalize hBound : ((heap.owned base.slots.size).map rank).sum = bound
  induction hDistance : bound + 1 - rank id using Nat.strong_induction_on generalizing id with
  | _ distance ih =>
      by_cases hHeld : id ∈ held
      · exact ⟨id, hHeld, .refl⟩
      · obtain ⟨occupant, hOccupant⟩ := isLive_iff.mp hLive
        have hLaw := h.counted id occupant hOccupant
        have hPositive := h.positive id occupant hOccupant
        rw [references_eq_zero hLater, Multiset.count_eq_zero.mpr hHeld] at hLaw
        have hOwned : id ∈ heap.owned base.slots.size := List.count_pos_iff.mp (by omega)
        obtain ⟨owner, parent, hBeyond, hOwner, hChild⟩ := (mem_owned h.small).mp hOwned
        have hHigher := hRank owner parent hBeyond hOwner id hChild
        have hLow : rank id ≤ bound := hBound ▸ List.le_sum_of_mem (List.mem_map_of_mem hOwned)
        obtain ⟨root, hRoot, hPath⟩ := ih (bound + 1 - rank owner) (by omega)
          (isLive_iff.mpr ⟨parent, hOwner⟩) (isLive_eq_false_of_le hBeyond) rfl
        refine ⟨root, hRoot, hPath.tail ⟨parent.object, ?_, hChild⟩⟩
        exact get?_eq_some_iff.mpr ⟨parent.references, hOwner⟩

/-- What is reachable from a held reference is live. -/
theorem Accounted.isLive_of_reachable {root : ObjectId} (h : Accounted base held heap)
    (hRoot : root ∈ held) (hPath : Relation.ReflTransGen heap.Owns root id) :
    heap.isLive id = true := by
  induction hPath with
  | refl => exact h.held_live root hRoot
  | tail _ hOwns ih =>
      obtain ⟨object, hObject, hChild⟩ := hOwns
      obtain ⟨references, hOccupant⟩ := get?_eq_some_iff.mp hObject
      exact h.isLive_of_child hOccupant hChild

/-- While nobody holds a reference, only the objects of the base are live. -/
theorem Accounted.isLive_base (h : Accounted base 0 heap) (hLive : heap.isLive id = true) :
    base.isLive id = true := by
  by_contra hLater
  obtain ⟨root, hRoot, -⟩ := h.exists_root hLive (Bool.not_eq_true _ ▸ hLater)
  exact Multiset.notMem_zero root hRoot

/-- While nobody holds a reference, there are as many live objects as in the base. -/
theorem Accounted.live_eq_base (h : Accounted base 0 heap) : heap.live = base.live := by
  have hSlot {i : Nat} (hi : i < heap.slots.size) :
      heap.slots[i].occupant.isSome = true ↔ i < base.slots.size := by
    have hIndex : i.toUInt32.toNat = i :=
      UInt32.toNat_ofNat_of_lt' (Nat.lt_of_lt_of_le hi h.small)
    constructor
    · intro hSome
      obtain ⟨occupant, hOccupant⟩ := Option.isSome_iff_exists.mp hSome
      have hLive : heap.isLive ⟨i.toUInt32, heap.slots[i].generation⟩ = true := by
        refine isLive_iff.mpr ⟨occupant, occupant?_eq_some_iff.mpr ?_⟩
        simp only [hIndex, Array.getElem?_eq_getElem hi, ← hOccupant]
      have hBound := lt_of_isLive (h.isLive_base hLive)
      simpa only [hIndex] using hBound
    · intro hLow
      obtain ⟨generation, hBase⟩ := h.settled.exists_isLive (hIndex.symm ▸ hLow)
      obtain ⟨occupant, hOccupant⟩ := isLive_iff.mp (h.isLive_of_base hBase)
      rw [occupant?_eq_some_iff] at hOccupant
      simp only [hIndex, Array.getElem?_eq_getElem hi, Option.some.injEq] at hOccupant
      rw [hOccupant]
      rfl
  have hFirst : (heap.slots.toList.take base.slots.size).countP (fun slot => slot.occupant.isSome)
      = base.slots.size := by
    rw [List.countP_eq_length.mpr fun slot hMem => ?_, List.length_take, Array.length_toList,
      Nat.min_eq_left h.grown]
    obtain ⟨i, hi, rfl⟩ := List.mem_take_iff_getElem.mp hMem
    rw [Array.length_toList] at hi
    exact (hSlot (by omega)).mpr (by omega)
  have hOthers : (heap.slots.toList.drop base.slots.size).countP (fun slot => slot.occupant.isSome)
      = 0 := by
    refine List.countP_eq_zero.mpr fun slot hMem => ?_
    obtain ⟨i, hi, rfl⟩ := List.mem_drop_iff_getElem.mp hMem
    rw [Array.length_toList] at hi
    exact fun hSome => absurd ((hSlot (i := base.slots.size + i) (by omega)).mp hSome) (by omega)
  rw [h.live_eq, h.settled.live_eq, Heap.occupied, ← Array.countP_toList,
    ← List.take_append_drop base.slots.size heap.slots.toList, List.countP_append, hFirst, hOthers,
    Nat.add_zero]

end Reachability

end Heap

end ArrayBridge
