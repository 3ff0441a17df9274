import ArrayBridge.Proofs.Balance
import Mathlib.Data.List.Induction

/-! No name of an object is given twice.

Somebody can ask a heap with any names, also with ones that were never given and ones whose
objects are gone. What keeps the names apart are the generations of the slots: they are left
alone by all that does not make an object, and they grow with each object in a slot. So until
they run out, after as many objects as there are generations, a name stands for one object. -/

namespace ArrayBridge.Heap

/-- What a heap can be asked for. Only the first makes an object; all others are about a name
that somebody says. -/
inductive Request where
  | allocate (object : Object)
  | get (id : ObjectId)
  | retain (id : ObjectId)
  | release (id : ObjectId)
  /-- Another object is written in the place of one. -/
  | write (id : ObjectId) (object : Object)
  deriving DecidableEq, Inhabited

/-- The name that a request is about. -/
def Request.name? : Request → Option ObjectId
  | allocate _ => none
  | get id | retain id | release id | write id _ => some id

/-- A heap with the names that it has given, the last one first. -/
structure History where
  names : List ObjectId
  heap : Heap
  deriving DecidableEq, Inhabited

namespace History

def answer (history : History) : Request → History
  | .allocate object =>
    ⟨(history.heap.allocate object).1 :: history.names, (history.heap.allocate object).2⟩
  | .get _ => history
  | .retain id => ⟨history.names, history.heap.retain id⟩
  | .release id => ⟨history.names, history.heap.release id⟩
  | .write id object => ⟨history.names, history.heap.replace id object⟩

/-- What an empty heap gives to requests, one after the other. -/
def ofRequests (requests : List Request) : History := requests.foldl answer ⟨[], empty⟩

end History

variable {heap : Heap} {id : ObjectId} {occupant : Occupant} {names : List ObjectId} {count : Nat}

section Generations

/-- The generations of the slots. -/
def generations (heap : Heap) : Array UInt32 := heap.slots.map Slot.generation

/-- Only a new object changes a generation. -/
theorem generations_put (h : heap.occupant? id = some occupant) (next : Option Occupant) :
    (heap.put id next).generations = heap.generations := by
  have hSlot := occupant?_eq_some_iff.mp h
  refine Array.ext_getElem? fun i => ?_
  rw [generations, generations, Array.getElem?_map, Array.getElem?_map, slots_put,
    Array.getElem?_setIfInBounds]
  split_ifs with hIndex hBound
  · rw [← hIndex, hSlot]
    rfl
  · rw [Array.getElem?_eq_none (hIndex ▸ Nat.le_of_not_lt hBound)]
  · rfl

theorem generations_retain (heap : Heap) (id : ObjectId) :
    (heap.retain id).generations = heap.generations := by
  unfold Heap.retain
  split
  · rename_i hOccupant
    exact generations_put hOccupant _
  · rfl

theorem generations_replace (heap : Heap) (id : ObjectId) (object : Object) :
    (heap.replace id object).generations = heap.generations := by
  unfold Heap.replace
  split
  · rename_i hOccupant
    exact generations_put hOccupant _
  · rfl

theorem generations_releaseAll (heap : Heap) (pending : List ObjectId) :
    (heap.releaseAll pending).generations = heap.generations := by
  fun_induction releaseAll heap pending with
  | case1 heap => rfl
  | case2 heap id tail hNone ih => exact ih
  | case3 heap id tail references object hOccupant hMany ih =>
      exact ih.trans (generations_put hOccupant _)
  | case4 heap id tail references object hOccupant hLast ih =>
      exact ih.trans (generations_put hOccupant none)

/-- Names that were given belong to slots, none of which has gone back to an earlier
generation, and there are no more slots and generations than names. -/
structure Given (names : List ObjectId) (generations : Array UInt32) : Prop where
  size_le : generations.size ≤ names.length
  generation_lt : ∀ (i : Nat) (generation : UInt32), generations[i]? = some generation →
    generation.toNat < names.length
  past : ∀ id ∈ names, ∃ generation, generations[id.index.toNat]? = some generation ∧
    id.generation.toNat ≤ generation.toNat
  nodup : names.Nodup

theorem given_empty : Given [] empty.generations where
  size_le := by simp [generations, empty]
  generation_lt i generation h := by simp [generations, empty] at h
  past _ h := absurd h List.not_mem_nil
  nodup := List.nodup_nil

/-- A new object gets a name that was never given. -/
theorem Given.allocate (h : Given names heap.generations) (hFree : heap.Consistent)
    (hFew : names.length + 1 < slotLimit) (object : Object) :
    Given ((heap.allocate object).1 :: names) (heap.allocate object).2.generations := by
  obtain ⟨hSize, hBelow, hPast, hNodup⟩ := h
  have hVacant := hFree.vacant
  obtain ⟨slots, free, live⟩ := heap
  rw [generations, Array.size_map] at hSize
  dsimp only at hSize hVacant
  cases free with
  | nil =>
      have hIndex : slots.size.toUInt32.toNat = slots.size :=
        UInt32.toNat_ofNat_of_lt' (Nat.lt_of_le_of_lt hSize (Nat.lt_of_succ_lt hFew))
      have hAt (i : Nat) : (Heap.allocate ⟨slots, [], live⟩ object).2.generations[i]?
          = if i = slots.size then some 0 else (slots.map Slot.generation)[i]? := by
        rw [Heap.allocate, generations, Array.map_push, Array.getElem?_push, Array.size_map]
      refine ⟨?_, fun i generation hGeneration => ?_, fun id hMem => ?_, ?_⟩
      · simpa [Heap.allocate, generations] using hSize
      · rw [hAt] at hGeneration
        split_ifs at hGeneration
        · cases hGeneration
          exact Nat.succ_pos _
        · exact Nat.lt_succ_of_lt (hBelow i generation hGeneration)
      · rw [hAt]
        rcases List.mem_cons.mp hMem with rfl | hOld
        · exact ⟨0, if_pos hIndex, Nat.le_refl _⟩
        · obtain ⟨generation, hGeneration, hLater⟩ := hPast id hOld
          have hBound := (Array.getElem?_eq_some_iff.mp hGeneration).1
          rw [generations, Array.size_map] at hBound
          rw [if_neg (Nat.ne_of_lt hBound)]
          exact ⟨generation, hGeneration, hLater⟩
      · refine List.nodup_cons.mpr ⟨fun hOld => ?_, hNodup⟩
        obtain ⟨generation, hGeneration, -⟩ := hPast _ hOld
        have hBound := (Array.getElem?_eq_some_iff.mp hGeneration).1
        rw [generations, Array.size_map, Heap.allocate, hIndex] at hBound
        exact Nat.lt_irrefl _ hBound
  | cons index free =>
      obtain ⟨last, hSlot⟩ := hVacant index (by simp)
      have hLast : (slots.map Slot.generation)[index.toNat]? = some last := by
        rw [Array.getElem?_map, hSlot]
        rfl
      have hBound := (Array.getElem?_eq_some_iff.mp hSlot).1
      have hEntry : slots.getD index.toNat default = ⟨last, none⟩ := by
        rw [Array.getD_eq_getD_getElem?, hSlot, Option.getD_some]
      -- There are fewer names than generations, so the next one is really later.
      have hNext : (last + 1).toNat = last.toNat + 1 := by
        have hLow := hBelow index.toNat last hLast
        rw [UInt32.toNat_add, UInt32.toNat_one]
        exact Nat.mod_eq_of_lt (by unfold slotLimit at hFew; omega)
      have hName : (Heap.allocate ⟨slots, index :: free, live⟩ object).1 = ⟨index, last + 1⟩ := by
        rw [Heap.allocate, hEntry]
      have hAt (i : Nat) : (Heap.allocate ⟨slots, index :: free, live⟩ object).2.generations[i]?
          = if index.toNat = i then some (last + 1) else (slots.map Slot.generation)[i]? := by
        rw [Heap.allocate, hEntry, generations, Array.getElem?_map, Array.getElem?_setIfInBounds,
          Array.getElem?_map]
        split_ifs <;> rfl
      rw [hName]
      refine ⟨?_, fun i generation hGeneration => ?_, fun id hMem => ?_, ?_⟩
      · simpa [Heap.allocate, generations] using Nat.le_succ_of_le hSize
      · rw [hAt] at hGeneration
        split_ifs at hGeneration
        · cases hGeneration
          rw [hNext]
          exact Nat.succ_lt_succ (hBelow index.toNat last hLast)
        · exact Nat.lt_succ_of_lt (hBelow i generation hGeneration)
      · rw [hAt]
        rcases List.mem_cons.mp hMem with rfl | hOld
        · exact ⟨last + 1, if_pos rfl, Nat.le_refl _⟩
        · obtain ⟨generation, hGeneration, hLater⟩ := hPast id hOld
          split_ifs with hSame
          · rw [← hSame, generations, hLast] at hGeneration
            cases hGeneration
            exact ⟨last + 1, rfl, by omega⟩
          · exact ⟨generation, hGeneration, hLater⟩
      · refine List.nodup_cons.mpr ⟨fun hOld => ?_, hNodup⟩
        obtain ⟨generation, hGeneration, hLater⟩ := hPast _ hOld
        rw [generations, hLast] at hGeneration
        cases hGeneration
        dsimp only at hLater
        omega

end Generations

section Occupation

/-- The slots are kept in order: the free ones are those without an object, and an object has
a reference, though no more than were asked for. -/
structure Kept (count : Nat) (heap : Heap) : Prop extends heap.Consistent where
  free_of_vacant : ∀ (i : Nat) (generation : UInt32), heap.slots[i]? = some ⟨generation, none⟩ →
    ∃ index ∈ heap.free, index.toNat = i
  counted : ∀ (i : Nat) (generation : UInt32) (occupant : Occupant),
    heap.slots[i]? = some ⟨generation, some occupant⟩ →
      0 < occupant.references ∧ occupant.references ≤ count

theorem kept_empty : Kept 0 empty where
  vacant _ h := absurd h List.not_mem_nil
  free_nodup := List.nodup_nil
  live_eq := rfl
  free_of_vacant i generation h := by simp [empty] at h
  counted i generation occupant h := by simp [empty] at h

theorem Kept.mono {more : Nat} (h : heap.Kept count) (hMore : count ≤ more) : heap.Kept more where
  toConsistent := h.toConsistent
  free_of_vacant := h.free_of_vacant
  counted i generation occupant hSlot :=
    have hCounted := h.counted i generation occupant hSlot
    ⟨hCounted.1, Nat.le_trans hCounted.2 hMore⟩

theorem Kept.counted_of_occupant? (h : heap.Kept count) (hOccupant : heap.occupant? id = some occupant) :
    0 < occupant.references ∧ occupant.references ≤ count :=
  h.counted _ _ _ (occupant?_eq_some_iff.mp hOccupant)

/-- A new occupant in the place of one. -/
theorem Kept.put (h : heap.Kept count) (hOccupant : heap.occupant? id = some occupant)
    {next : Occupant} (hNext : 0 < next.references ∧ next.references ≤ count) :
    (heap.put id (some next)).Kept count where
  toConsistent := h.toConsistent.put hOccupant next
  free_of_vacant i generation hSlot := by
    rw [slots_put, Array.getElem?_setIfInBounds] at hSlot
    split_ifs at hSlot
    · cases hSlot
    · exact h.free_of_vacant i generation hSlot
  counted i generation found hSlot := by
    rw [slots_put, Array.getElem?_setIfInBounds] at hSlot
    split_ifs at hSlot
    · cases hSlot
      exact hNext
    · exact h.counted i generation found hSlot

/-- A slot is free once its object is removed. -/
theorem Kept.remove (h : heap.Kept count) (hOccupant : heap.occupant? id = some occupant) :
    (heap.remove id).Kept count where
  toConsistent := h.toConsistent.remove hOccupant
  free_of_vacant i generation hSlot := by
    rw [slots_remove, Array.getElem?_setIfInBounds] at hSlot
    split_ifs at hSlot with hHere
    · exact ⟨id.index, List.mem_cons_self, hHere⟩
    · obtain ⟨index, hFree, hIndex⟩ := h.free_of_vacant i generation hSlot
      exact ⟨index, List.mem_cons_of_mem _ hFree, hIndex⟩
  counted i generation found hSlot := by
    rw [slots_remove, Array.getElem?_setIfInBounds] at hSlot
    split_ifs at hSlot
    · cases hSlot
    · exact h.counted i generation found hSlot

theorem Kept.retain (h : heap.Kept count) (id : ObjectId) : (heap.retain id).Kept (count + 1) := by
  have hMore := h.mono (Nat.le_succ count)
  unfold Heap.retain
  split
  · rename_i occupant hOccupant
    have hCounted := h.counted_of_occupant? hOccupant
    exact hMore.put hOccupant ⟨Nat.succ_pos _, Nat.succ_le_succ hCounted.2⟩
  · exact hMore

theorem Kept.replace (h : heap.Kept count) (id : ObjectId) (object : Object) :
    (heap.replace id object).Kept count := by
  unfold Heap.replace
  split
  · rename_i occupant hOccupant
    have hCounted := h.counted_of_occupant? hOccupant
    exact h.put hOccupant hCounted
  · exact h

theorem Kept.releaseAll {pending : List ObjectId} (h : heap.Kept count) :
    (heap.releaseAll pending).Kept count := by
  fun_induction Heap.releaseAll heap pending with
  | case1 heap => exact h
  | case2 heap id tail hNone ih => exact ih h
  | case3 heap id tail references object hOccupant hMany ih =>
      have hCounted := h.counted_of_occupant? hOccupant
      dsimp only at hCounted
      exact ih (h.put hOccupant ⟨Nat.sub_pos_of_lt hMany, Nat.le_trans (Nat.sub_le _ 1) hCounted.2⟩)
  | case4 heap id tail references object hOccupant hLast ih => exact ih (h.remove hOccupant)

theorem Kept.allocate (h : heap.Kept count) (object : Object) :
    (heap.allocate object).2.Kept (count + 1) := by
  have hConsistent := h.toConsistent.allocate object
  have hMore := h.mono (Nat.le_succ count)
  have hOne : 0 < 1 ∧ 1 ≤ count + 1 := ⟨Nat.one_pos, Nat.le_add_left 1 count⟩
  obtain ⟨slots, free, live⟩ := heap
  cases free with
  | nil =>
      refine ⟨hConsistent, fun i generation hSlot => ?_, fun i generation occupant hSlot => ?_⟩
      · rw [Heap.allocate, Array.getElem?_push] at hSlot
        split_ifs at hSlot
        · cases hSlot
        · exact h.free_of_vacant i generation hSlot
      · rw [Heap.allocate, Array.getElem?_push] at hSlot
        split_ifs at hSlot
        · cases hSlot
          exact hOne
        · exact hMore.counted i generation occupant hSlot
  | cons index free =>
      refine ⟨hConsistent, fun i generation hSlot => ?_, fun i generation occupant hSlot => ?_⟩
      · rw [Heap.allocate, Array.getElem?_setIfInBounds] at hSlot
        split_ifs at hSlot with hOther
        · cases hSlot
        · obtain ⟨found, hFree, rfl⟩ := h.free_of_vacant i generation hSlot
          refine ⟨found, (List.mem_cons.mp hFree).resolve_left ?_, rfl⟩
          rintro rfl
          exact hOther rfl
      · rw [Heap.allocate, Array.getElem?_setIfInBounds] at hSlot
        split_ifs at hSlot
        · cases hSlot
          exact hOne
        · exact hMore.counted i generation occupant hSlot

end Occupation

section Histories

/-- A heap that was asked a number of times. -/
structure History.Orderly (count : Nat) (history : History) : Prop where
  few : history.names.length ≤ count
  given : Given history.names history.heap.generations
  kept : history.heap.Kept count

theorem History.Orderly.answer {history : History} (h : history.Orderly count)
    (hFew : count + 1 < slotLimit) (request : Request) :
    (history.answer request).Orderly (count + 1) := by
  obtain ⟨hNames, hGiven, hKept⟩ := h
  have hMore := hKept.mono (Nat.le_succ count)
  have hLater := Nat.le_succ_of_le hNames
  cases request with
  | allocate object =>
      exact ⟨Nat.succ_le_succ hNames, hGiven.allocate hKept.toConsistent
        (Nat.lt_of_le_of_lt (Nat.succ_le_succ hNames) hFew) object, hKept.allocate object⟩
  | get id => exact ⟨hLater, hGiven, hMore⟩
  | retain id => exact ⟨hLater, generations_retain history.heap id ▸ hGiven, hKept.retain id⟩
  | release id =>
      exact ⟨hLater, generations_releaseAll history.heap [id] ▸ hGiven, hMore.releaseAll⟩
  | write id object =>
      exact ⟨hLater, generations_replace history.heap id object ▸ hGiven, hMore.replace id object⟩

theorem History.orderly_ofRequests (requests : List Request) (hFew : requests.length < slotLimit) :
    (ofRequests requests).Orderly requests.length := by
  induction requests using List.reverseRecOn with
  | nil => exact ⟨Nat.le_refl 0, given_empty, kept_empty⟩
  | append_singleton requests request ih =>
      rw [List.length_append, List.length_singleton] at hFew ⊢
      rw [ofRequests, List.foldl_concat]
      exact (ih (Nat.lt_of_succ_lt hFew)).answer hFew request

/-- A name without an object changes nothing. -/
theorem History.answer_of_not_live {history : History} {request : Request}
    (hName : request.name? = some id) (hGone : history.heap.isLive id = false) :
    history.heap.get? id = none ∧ history.answer request = history := by
  have hNone : history.heap.occupant? id = none := by
    rw [isLive] at hGone
    exact Option.isNone_iff_eq_none.mp (Option.isSome_eq_false_iff.mp hGone)
  refine ⟨by rw [get?, hNone]; rfl, ?_⟩
  obtain ⟨names, heap⟩ := history
  cases request with
  | allocate => cases hName
  | get => rfl
  | retain =>
      cases hName
      rw [answer, Heap.retain, hNone]
  | release =>
      cases hName
      rw [answer, Heap.release, Heap.releaseAll, hNone, Heap.releaseAll]
  | write =>
      cases hName
      rw [answer, Heap.replace, hNone]

/-- Whatever is asked, with fewer requests than there are generations: no name is given twice,
the free list has the slots without an object and each of them once, the live objects are
counted, each of them has a reference and no count of references runs over, and a name without
an object changes nothing. -/
theorem names_never_given_again (requests : List Request) (hFew : requests.length < slotLimit) :
    (History.ofRequests requests).names.Nodup ∧
    (∀ i : Nat, (∃ index ∈ (History.ofRequests requests).heap.free, index.toNat = i) ↔
      ∃ generation, (History.ofRequests requests).heap.slots[i]? = some ⟨generation, none⟩) ∧
    (History.ofRequests requests).heap.free.Nodup ∧
    (History.ofRequests requests).heap.live = (History.ofRequests requests).heap.occupied ∧
    (∀ slot ∈ (History.ofRequests requests).heap.slots, ∀ occupant,
      slot.occupant = some occupant → 1 ≤ occupant.references ∧ occupant.references < slotLimit) ∧
    ∀ request id, request.name? = some id →
      (History.ofRequests requests).heap.isLive id = false →
        (History.ofRequests requests).heap.get? id = none ∧
          (History.ofRequests requests).answer request = History.ofRequests requests := by
  obtain ⟨-, hGiven, hKept⟩ := History.orderly_ofRequests requests hFew
  refine ⟨hGiven.nodup, fun i => ⟨?_, ?_⟩, hKept.free_nodup, hKept.live_eq, ?_, ?_⟩
  · rintro ⟨index, hFree, rfl⟩
    exact hKept.vacant index hFree
  · rintro ⟨generation, hSlot⟩
    exact hKept.free_of_vacant i generation hSlot
  · rintro ⟨generation, _⟩ hSlot occupant rfl
    obtain ⟨i, hAt⟩ := Array.mem_iff_getElem?.mp hSlot
    have hCounted := hKept.counted i generation occupant hAt
    exact ⟨hCounted.1, Nat.lt_of_le_of_lt hCounted.2 hFew⟩
  · exact fun request id => History.answer_of_not_live

/-- A slot is used again for a later object, under a name of its own. -/
theorem names_of_used_slot :
    History.ofRequests [.allocate (.int 1), .release ⟨0, 0⟩, .allocate (.int 2)]
        = ⟨[⟨0, 1⟩, ⟨0, 0⟩], ⟨#[⟨1, some ⟨1, .int 2⟩⟩], [], 1⟩⟩ ∧
      [(⟨0, 1⟩ : ObjectId), ⟨0, 0⟩].Nodup ∧
      (History.ofRequests [.allocate (.int 1), .release ⟨0, 0⟩, .allocate (.int 2)]).answer
          (.release ⟨0, 0⟩)
        = History.ofRequests [.allocate (.int 1), .release ⟨0, 0⟩, .allocate (.int 2)] := by
  have hHistory : History.ofRequests [.allocate (.int 1), .release ⟨0, 0⟩, .allocate (.int 2)]
      = ⟨[⟨0, 1⟩, ⟨0, 0⟩], ⟨#[⟨1, some ⟨1, .int 2⟩⟩], [], 1⟩⟩ := by
    simp [History.ofRequests, History.answer, Heap.allocate, Heap.release, releaseAll, occupant?,
      Heap.remove, put, empty, Object.children]
  obtain ⟨hNodup, -, -, -, -, hGone⟩ := names_never_given_again
    [.allocate (.int 1), .release ⟨0, 0⟩, .allocate (.int 2)] (by decide)
  have hStale := hGone (.release ⟨0, 0⟩) ⟨0, 0⟩ rfl (by rw [hHistory]; rfl)
  refine ⟨hHistory, ?_, hStale.2⟩
  rwa [hHistory] at hNodup

end Histories

end ArrayBridge.Heap
