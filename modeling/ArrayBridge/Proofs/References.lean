import ArrayBridge.Heap
import Mathlib.Data.Multiset.AddSub
import Mathlib.Data.Multiset.Count
import Mathlib.Tactic.SplitIfs

/-! The heap as a map from names to objects.

Names are compared as wholes here: a slot and a generation together denote one
object. Seen so, each operation of the heap changes the object of one name and
leaves all other names alone. The references that objects own are counted slot by
slot. -/

namespace ArrayBridge

/-- The references that the object of a slot owns. -/
def Slot.children (slot : Slot) : List ObjectId :=
  match slot.occupant with
  | some occupant => occupant.object.children
  | none => []

namespace Heap

/-- The number of slots that have a name of their own. -/
def slotLimit : Nat := 0x100000000

variable {heap : Heap} {id other : ObjectId} {occupant : Occupant}

section Names

theorem isLive_iff : heap.isLive id = true ↔ ∃ occupant, heap.occupant? id = some occupant := by
  rw [isLive, Option.isSome_iff_exists]

theorem occupant?_eq_some_iff : heap.occupant? id = some occupant ↔
    heap.slots[id.index.toNat]? = some ⟨id.generation, some occupant⟩ := by
  constructor
  · intro h
    obtain ⟨hIndex, hSlot⟩ := lt_size_of_occupant? h
    exact Array.getElem?_eq_some_iff.mpr ⟨hIndex, hSlot⟩
  · intro h
    simp [occupant?, h]

theorem lt_of_isLive (h : heap.isLive id = true) : id.index.toNat < heap.slots.size := by
  obtain ⟨occupant, hOccupant⟩ := isLive_iff.mp h
  exact (lt_size_of_occupant? hOccupant).1

/-- Two names of one slot are not live together. -/
theorem eq_of_index_eq {left right : ObjectId} (hLeft : heap.isLive left = true)
    (hRight : heap.isLive right = true) (hIndex : left.index = right.index) : left = right := by
  obtain ⟨first, hFirst⟩ := isLive_iff.mp hLeft
  obtain ⟨second, hSecond⟩ := isLive_iff.mp hRight
  rw [occupant?_eq_some_iff] at hFirst hSecond
  rw [hIndex, hSecond] at hFirst
  have hGeneration := (Slot.mk.inj (Option.some.inj hFirst)).1
  cases left
  cases right
  simp_all

theorem occupant?_put (h : heap.occupant? id = some occupant) (next : Option Occupant) :
    (heap.put id next).occupant? other = if other = id then next else heap.occupant? other := by
  have hSlot := occupant?_eq_some_iff.mp h
  have hBound := (Array.getElem?_eq_some_iff.mp hSlot).1
  unfold occupant?
  rw [slots_put, Array.getElem?_setIfInBounds]
  by_cases hIndex : id.index.toNat = other.index.toNat
  · rw [if_pos hIndex, if_pos hBound, ← hIndex, hSlot]
    by_cases hGeneration : id.generation = other.generation
    · have hSame : other = id := by
        have hWords := UInt32.toNat_inj.mp hIndex
        cases id
        cases other
        simp_all
      simp [hSame]
    · have hOther : other ≠ id := by
        rintro rfl
        exact hGeneration rfl
      simp [hGeneration, hOther]
  · have hOther : other ≠ id := by
      rintro rfl
      exact hIndex rfl
    simp [hIndex, hOther]

theorem occupant?_remove (h : heap.occupant? id = some occupant) :
    (heap.remove id).occupant? other = if other = id then none else heap.occupant? other := by
  rw [← occupant?_put h none]
  unfold occupant?
  rw [slots_remove, slots_put]

/-- Another reference changes no object. -/
theorem get?_retain (heap : Heap) (id other : ObjectId) :
    (heap.retain id).get? other = heap.get? other := by
  unfold retain
  split
  · rename_i occupant hOccupant
    rw [get?, occupant?_put hOccupant]
    split_ifs with hHere
    · rw [get?, hHere, hOccupant]
      rfl
    · rfl
  · rfl

theorem isLive_retain (heap : Heap) (id other : ObjectId) :
    (heap.retain id).isLive other = heap.isLive other := by
  have hSame := congrArg Option.isSome (get?_retain heap id other)
  rwa [get?, get?, Option.isSome_map, Option.isSome_map] at hSame

/-- Another object in the place of one changes no other object. -/
theorem get?_replace_of_ne (object : Object) (h : other ≠ id) :
    (heap.replace id object).get? other = heap.get? other := by
  unfold replace
  split
  · rename_i occupant hOccupant
    rw [get?, occupant?_put hOccupant, if_neg h, get?]
  · rfl

theorem get?_replace (object : Object) (h : heap.occupant? id = some occupant) :
    (heap.replace id object).get? id = some object := by
  simp only [replace, h, get?, occupant?_put h, if_pos, Option.map_some]

/-- Objects that are still there when references were released are what they were. -/
theorem get?_releaseAll {pending : List ObjectId} {object : Object}
    (h : (heap.releaseAll pending).get? other = some object) : heap.get? other = some object := by
  fun_induction releaseAll heap pending with
  | case1 heap => exact h
  | case2 heap id tail hNone ih => exact ih h
  | case3 heap id tail references found hOccupant hMany ih =>
      have hBefore := ih h
      rw [get?, occupant?_put hOccupant] at hBefore
      split_ifs at hBefore with hHere
      · rw [get?, hHere, hOccupant]
        exact hBefore
      · exact hBefore
  | case4 heap id tail references found hOccupant hLast ih =>
      have hBefore := ih h
      rw [get?, occupant?_remove hOccupant] at hBefore
      split_ifs at hBefore
      · cases hBefore
      · exact hBefore

/-- A new object gets a name that nothing had, and no other name changes. -/
theorem occupant?_allocate (object : Object) (hFree : ∀ index ∈ heap.free, ∃ generation,
      heap.slots[index.toNat]? = some ⟨generation, none⟩)
    (hRoom : (heap.allocate object).2.slots.size ≤ slotLimit) :
    heap.isLive (heap.allocate object).1 = false ∧
      ∀ other, (heap.allocate object).2.occupant? other
        = if other = (heap.allocate object).1 then some ⟨1, object⟩ else heap.occupant? other := by
  obtain ⟨slots, free, live⟩ := heap
  cases free with
  | nil =>
      simp only [allocate, Array.size_push, slotLimit] at hRoom
      have hIndex : slots.size.toUInt32.toNat = slots.size :=
        UInt32.toNat_ofNat_of_lt' (Nat.lt_of_succ_le hRoom)
      refine ⟨?_, fun other => ?_⟩
      · simp [isLive, occupant?, allocate, hIndex]
      · simp only [allocate, occupant?, Array.getElem?_push]
        by_cases hSlot : other.index.toNat = slots.size
        · have hWord : other.index = slots.size.toUInt32 := by
            rw [← UInt32.toNat_inj, hIndex, hSlot]
          have hOld : slots[other.index.toNat]? = none := by simp [hSlot]
          rw [if_pos hSlot, hOld]
          obtain ⟨index, generation⟩ := other
          obtain rfl : index = slots.size.toUInt32 := hWord
          simp [eq_comm]
        · have hName : other ≠ ⟨slots.size.toUInt32, 0⟩ := by
            rintro rfl
            exact hSlot hIndex
          simp only [hSlot, hName, if_false]
  | cons index free =>
      obtain ⟨generation, hVacant⟩ := hFree index (by simp)
      simp only at hVacant
      have hBound := (Array.getElem?_eq_some_iff.mp hVacant).1
      have hEntry : slots.getD index.toNat default = ⟨generation, none⟩ := by
        rw [Array.getD_eq_getD_getElem?, hVacant, Option.getD_some]
      refine ⟨?_, fun other => ?_⟩
      · simp [isLive, occupant?, allocate, hVacant]
      · simp only [allocate, occupant?, Array.getElem?_setIfInBounds, hEntry]
        by_cases hSlot : index.toNat = other.index.toNat
        · rw [if_pos hSlot, if_pos hBound, ← hSlot, hVacant]
          obtain ⟨otherIndex, otherGeneration⟩ := other
          obtain rfl : otherIndex = index := UInt32.toNat_inj.mp hSlot.symm
          simp [eq_comm]
        · have hName : other ≠ ⟨index, generation + 1⟩ := by
            rintro rfl
            exact hSlot rfl
          simp only [hSlot, hName, if_false]

end Names

section Sizes

theorem size_put (heap : Heap) (id : ObjectId) (next : Option Occupant) :
    (heap.put id next).slots.size = heap.slots.size := by
  rw [slots_put, Array.size_setIfInBounds]

theorem size_retain (heap : Heap) (id : ObjectId) :
    (heap.retain id).slots.size = heap.slots.size := by
  unfold retain
  split
  · exact size_put heap id _
  · rfl

theorem size_replace (heap : Heap) (id : ObjectId) (object : Object) :
    (heap.replace id object).slots.size = heap.slots.size := by
  unfold replace
  split
  · exact size_put heap id _
  · rfl

theorem size_releaseAll (heap : Heap) (pending : List ObjectId) :
    (heap.releaseAll pending).slots.size = heap.slots.size := by
  fun_induction releaseAll heap pending with
  | case1 heap => rfl
  | case2 heap id tail hNone ih => exact ih
  | case3 heap id tail references object hOccupant hMany ih => exact ih.trans (size_put heap id _)
  | case4 heap id tail references object hOccupant hLast ih =>
      rw [ih, slots_remove, Array.size_setIfInBounds]

theorem size_le_size_allocate (heap : Heap) (object : Object) :
    heap.slots.size ≤ (heap.allocate object).2.slots.size := by
  obtain ⟨slots, free, live⟩ := heap
  cases free <;> simp [allocate]

theorem size_allocate_le (heap : Heap) (object : Object) :
    (heap.allocate object).2.slots.size ≤ heap.slots.size + 1 := by
  obtain ⟨slots, free, live⟩ := heap
  cases free <;> simp [allocate]

end Sizes

section Owned

/-- The references that the objects own whose slots come after the first ones. -/
def owned (heap : Heap) (bound : Nat) : List ObjectId :=
  (heap.slots.toList.drop bound).flatMap Slot.children

/-- Another entry of a list brings its references for those of the old one. -/
theorem count_flatMap_set {α : Type} (f : α → List ObjectId) {entries : List α} {i : Nat} {old : α}
    (h : entries[i]? = some old) (new : α) (c : ObjectId) :
    ((entries.set i new).flatMap f).count c + (f old).count c
      = (entries.flatMap f).count c + (f new).count c := by
  induction entries generalizing i with
  | nil => simp at h
  | cons entry entries ih =>
      cases i with
      | zero =>
          cases h
          simp only [List.set_cons_zero, List.flatMap_cons, List.count_append]
          omega
      | succ i =>
          have hTail := ih (by simpa using h)
          simp only [List.set_cons_succ, List.flatMap_cons, List.count_append]
          omega

theorem count_owned_set {bound i : Nat} {old : Slot} (h : heap.slots[i]? = some old)
    (hBound : bound ≤ i) (new : Slot) (c : ObjectId) :
    (((heap.slots.setIfInBounds i new).toList.drop bound).flatMap Slot.children).count c
        + old.children.count c
      = (heap.owned bound).count c + new.children.count c := by
  have hDropped : (heap.slots.toList.drop bound)[i - bound]? = some old := by
    rw [List.getElem?_drop, Nat.add_sub_cancel' hBound, Array.getElem?_toList, h]
  rw [Array.toList_setIfInBounds, List.drop_set, if_neg (Nat.not_lt.mpr hBound)]
  exact count_flatMap_set Slot.children hDropped new c

theorem count_owned_put {bound : Nat} (h : heap.occupant? id = some occupant)
    (hBound : bound ≤ id.index.toNat) (next : Option Occupant) (c : ObjectId) :
    ((heap.put id next).owned bound).count c + occupant.object.children.count c
      = (heap.owned bound).count c + (Slot.children ⟨id.generation, next⟩).count c :=
  count_owned_set (occupant?_eq_some_iff.mp h) hBound ⟨id.generation, next⟩ c

theorem owned_put_of_lt {bound : Nat} (hBound : id.index.toNat < bound)
    (next : Option Occupant) : (heap.put id next).owned bound = heap.owned bound := by
  rw [owned, slots_put, Array.toList_setIfInBounds, List.drop_set, if_pos hBound, owned]

/-- A new occupant with the same references leaves all counts as they are. -/
theorem count_owned_put_of_children_eq (bound : Nat) (h : heap.occupant? id = some occupant)
    {next : Occupant} (hChildren : next.object.children = occupant.object.children)
    (c : ObjectId) : ((heap.put id (some next)).owned bound).count c = (heap.owned bound).count c := by
  rcases Nat.lt_or_ge id.index.toNat bound with hLow | hHigh
  · rw [owned_put_of_lt hLow]
  · have hCount := count_owned_put h hHigh (some next) c
    simp only [Slot.children, hChildren] at hCount
    omega

theorem owned_remove (bound : Nat) : (heap.remove id).owned bound = (heap.put id none).owned bound := rfl

theorem count_owned_allocate {bound : Nat} (object : Object) (hGrown : bound ≤ heap.slots.size)
    (hFree : ∀ index ∈ heap.free, bound ≤ index.toNat ∧
      ∃ generation, heap.slots[index.toNat]? = some ⟨generation, none⟩) (c : ObjectId) :
    ((heap.allocate object).2.owned bound).count c
      = (heap.owned bound).count c + object.children.count c := by
  obtain ⟨slots, free, live⟩ := heap
  cases free with
  | nil =>
      simp only [allocate, owned, Array.toList_push]
      rw [List.drop_append_of_le_length (by simpa using hGrown), List.flatMap_append,
        List.count_append]
      simp [Slot.children]
  | cons index free =>
      obtain ⟨hBound, generation, hVacant⟩ := hFree index (by simp)
      have hCount := count_owned_set hVacant hBound
        ⟨(slots.getD index.toNat default).generation + 1, some ⟨1, object⟩⟩ c
      simpa [Slot.children, owned, allocate] using hCount

/-- The owned references are those of the live objects. -/
theorem mem_owned {bound : Nat} {c : ObjectId} (hRoom : heap.slots.size ≤ slotLimit) :
    c ∈ heap.owned bound ↔ ∃ id occupant, bound ≤ id.index.toNat ∧
      heap.occupant? id = some occupant ∧ c ∈ occupant.object.children := by
  rw [owned, List.mem_flatMap]
  constructor
  · rintro ⟨slot, hSlot, hChild⟩
    obtain ⟨i, hFound⟩ := List.mem_iff_getElem?.mp hSlot
    rw [List.getElem?_drop, Array.getElem?_toList] at hFound
    obtain ⟨generation, content⟩ := slot
    cases content with
    | none => simp [Slot.children] at hChild
    | some occupant =>
        have hBound := (Array.getElem?_eq_some_iff.mp hFound).1
        have hIndex : (bound + i).toUInt32.toNat = bound + i :=
          UInt32.toNat_ofNat_of_lt' (Nat.lt_of_lt_of_le hBound hRoom)
        refine ⟨⟨(bound + i).toUInt32, generation⟩, occupant, ?_, ?_, hChild⟩
        · rw [hIndex]
          exact Nat.le_add_right _ _
        · rw [occupant?_eq_some_iff, hIndex]
          exact hFound
  · rintro ⟨id, occupant, hBound, hOccupant, hChild⟩
    refine ⟨⟨id.generation, some occupant⟩, ?_, hChild⟩
    refine List.mem_iff_getElem?.mpr ⟨id.index.toNat - bound, ?_⟩
    rw [List.getElem?_drop, Nat.add_sub_cancel' hBound, Array.getElem?_toList]
    exact occupant?_eq_some_iff.mp hOccupant

end Owned

end Heap

end ArrayBridge
