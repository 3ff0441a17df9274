import ArrayBridge.Proofs.Assignment
import ArrayBridge.Proofs.CursorLedger
import ArrayBridge.Proofs.HandleProtocol

/-! Iteration over rows.

An iterator walks through the first axis of an array. Its cursor keeps the array and
knows how far it came; all handles of the cursor move it together. Each step reads its row
from the storage as it is then, so the host sees what it wrote meanwhile. -/

namespace ArrayBridge

open Operation HandleTable

namespace NdArray

variable {a : NdArray}

/-- A view shows a row of an array: its cells are those of the array under the position
of the row. -/
structure IsRow (v a : NdArray) (k : Nat) : Prop where
  buffer : v.buffer = a.buffer
  dtype : v.dtype = a.dtype
  shape : v.shape = a.shape.tail
  cells : ∀ index, v.shape.Contains index → v.offsetOf index = a.offsetOf (k :: index)

theorem offsetOf_nil (a : NdArray) : a.offsetOf [] = a.offset := by
  simp [offsetOf, displacement]

theorem valid_wholeAxes (shape : Shape) :
    List.Forall₂ AxisSelection.Valid shape (wholeAxes shape.counted) := by
  induction shape with
  | nil => exact .nil
  | cons n shape ih =>
      have hLength := signedLength_le n
      refine .cons ⟨fun k hk => ?_, fun j _ k _ hEq => ?_⟩ ih
      · simp only [SliceRange.position] at *
        omega
      · simp only [SliceRange.position] at hEq
        omega

theorem counts_wholeAxes (shape : Shape) : AxisSelection.counts (wholeAxes shape) = shape := by
  induction shape with
  | nil => rfl
  | cons n shape ih => exact congrArg (n :: ·) ih

theorem sourceIndex_wholeAxes {shape : Shape} {index : List Nat} (h : shape.Contains index) :
    AxisSelection.sourceIndex (wholeAxes shape) [] index = index := by
  induction shape generalizing index with
  | nil => rw [Shape.contains_nil_iff.mp h]; rfl
  | cons n shape ih =>
      cases index with
      | nil => exact h.elim
      | cons i is =>
          have hRest := ih h.2
          simp only [wholeAxes] at hRest ⊢
          simp [AxisSelection.sourceIndex, SliceRange.position, hRest]

/-- A position on the first axis selects a view of the other axes, as far as their lengths
count. -/
theorem select_first (store : BufferStore) (h : a.Anchored) {n k : Nat} {rest : Shape}
    (hShape : a.shape = n :: rest) (hLength : n < 0x8000000000000000) (hPosition : k < n) :
    ∃ v : NdArray, a.select store [.at k.toInt64] = .ok (.view v) ∧ v.buffer = a.buffer ∧
      v.dtype = a.dtype ∧ v.shape = rest.counted ∧
      ∀ index, v.shape.Contains index → v.offsetOf index = a.offsetOf (k :: index) := by
  have hIndex : (k.toInt64).toInt = k := Int64.toInt_ofNat_of_lt (Nat.lt_trans hPosition hLength)
  have hFirst : resolvePosition k.toInt64 n 0 = .ok k := by
    rw [resolvePosition_eq_ok_iff, hIndex, signedLength_of_lt hLength]
    omega
  have hAxes : Selector.resolveFrom 0 (a.completed [.at k.toInt64]) a.shape
      = .ok (.at k :: wholeAxes rest.counted) := by
    rw [completed, rank, hShape, List.length_cons, List.length_singleton, Nat.add_sub_cancel,
      List.singleton_append, Selector.resolveFrom, resolveFrom_all, Selector.resolve, hFirst]
    rfl
  have hPlain : ∀ s ∈ AxisSelection.at k :: wholeAxes rest.counted, s.isPicked = false := by
    simp [wholeAxes, AxisSelection.isPicked]
  have hValid : List.Forall₂ AxisSelection.Valid a.shape (.at k :: wholeAxes rest.counted) := by
    rw [hShape]
    exact .cons hPosition (valid_wholeAxes rest)
  have hRank : [Selector.at k.toInt64].length ≤ a.rank := by simp [rank, hShape]
  have hLocate : a.locate [.at k.toInt64] = .ok (.view (a.view (.at k :: wholeAxes rest.counted))) :=
    locate_eq_ok_iff.mpr ⟨hRank, _, hAxes, .inr ⟨hPlain, rfl⟩⟩
  have hCounts : (a.view (.at k :: wholeAxes rest.counted)).shape = rest.counted := by
    rw [h.shape_view hValid hPlain, AxisSelection.counts_at, counts_wholeAxes]
  refine ⟨a.view (.at k :: wholeAxes rest.counted), ?_, rfl, rfl, hCounts, fun index hIn => ?_⟩
  · exact select_of_view hLocate
  · rw [hCounts] at hIn
    rw [offsetOf_eq, offsetOf_eq, h.cell_view hValid hPlain (by
      rwa [AxisSelection.counts_at, counts_wholeAxes])]
    rw [AxisSelection.sourceIndex, sourceIndex_wholeAxes hIn]

/-- A position on the first axis selects a row. -/
theorem select_row (store : BufferStore) (h : a.Anchored) {n k : Nat} {rest : Shape}
    (hShape : a.shape = n :: rest) (hWords : ∀ d ∈ a.shape, d < 0x8000000000000000)
    (hPosition : k < n) :
    ∃ v : NdArray, a.select store [.at k.toInt64] = .ok (.view v) ∧ v.IsRow a k := by
  have hLengths := hWords
  rw [hShape, List.forall_mem_cons] at hLengths
  obtain ⟨v, hSelect, hBuffer, hType, hRow, hCells⟩ :=
    select_first store h hShape hLengths.1 hPosition
  refine ⟨v, hSelect, hBuffer, hType, ?_, hCells⟩
  rw [hRow, Shape.counted_eq hLengths.2, hShape, List.tail_cons]

end NdArray

namespace Heap

/-- A reference that is taken and given back leaves the heap as it was. -/
theorem release_retain {heap : Heap} {id : ObjectId} {occupant : Occupant}
    (hOccupant : heap.occupant? id = some occupant) (hPositive : 0 < occupant.references) :
    (heap.retain id).release id = heap := by
  have hPut (next : Occupant) : (heap.put id (some next)).occupant? id = some next := by
    rw [occupant?_put hOccupant, if_pos rfl]
  have hSlot := occupant?_eq_some_iff.mp hOccupant
  rw [retain_eq_put hOccupant, release, releaseAll]
  split
  · rename_i hNone
    cases (hPut _).symm.trans hNone
  · rename_i references object hFound
    cases (hPut _).symm.trans hFound
    rw [if_pos (Nat.lt_succ_of_le hPositive), releaseAll, Nat.add_sub_cancel]
    obtain ⟨slots, free, live⟩ := heap
    obtain ⟨hBound, hEntry⟩ := Array.getElem?_eq_some_iff.mp hSlot
    dsimp only at hBound hEntry
    simp only [put, mk.injEq, and_self, and_true, Array.setIfInBounds_setIfInBounds]
    rw [← hEntry, Array.setIfInBounds_def, dif_pos hBound]
    exact Array.set_getElem_self hBound

/-- A new object beside one that changes: all other objects stay as they are. -/
theorem get?_replace_allocate {heap : Heap} {id : ObjectId} (hHeap : heap.Consistent)
    (hLive : heap.isLive id = true) (object changed : Object)
    (hRoom : (heap.allocate object).2.slots.size ≤ slotLimit) :
    let result := heap.allocate object
    (result.2.replace id changed).occupant? result.1 = some ⟨1, object⟩ ∧
      (result.2.replace id changed).get? id = some changed ∧
      ∀ other, heap.isLive other = true → other ≠ result.1 ∧
        (other ≠ id → (result.2.replace id changed).get? other = heap.get? other) := by
  obtain ⟨hNew, hMap⟩ := occupant?_allocate object hHeap.vacant hRoom
  have hOld (other : ObjectId) (hOther : heap.isLive other = true) :
      other ≠ (heap.allocate object).1 := by
    rintro rfl
    rw [hNew] at hOther
    cases hOther
  have hSame (other : ObjectId) (hOther : heap.isLive other = true) :
      (heap.allocate object).2.get? other = heap.get? other := hHeap.get?_allocate object hOther
  obtain ⟨occupant, hOccupant⟩ := isLive_iff.mp hLive
  have hHere : (heap.allocate object).2.occupant? id = some occupant := by
    rw [hMap, if_neg (hOld id hLive), hOccupant]
  refine ⟨?_, get?_replace changed hHere, fun other hOther => ⟨hOld other hOther, fun hDistinct => ?_⟩⟩
  · rw [replace_eq_put hHere, occupant?_put hHere, if_neg (hOld id hLive).symm, hMap, if_pos rfl]
  · rw [get?_replace_of_ne changed hDistinct, hSame other hOther]

end Heap

namespace Engine

/-- The object that a view becomes as a result. -/
def viewResult (engine : Engine) (v : NdArray) : Object :=
  match v.scalar? engine.buffers with
  | some value => .ofScalar value
  | none => .array v

theorem run_createResult_view (engine : Engine) (v : NdArray) :
    (createResult (.view v)).run engine = (create (engine.viewResult v)).run engine := by
  rw [run_createResult, viewResult, ArrayForm.scalar?]
  cases v.scalar? engine.buffers <;> rfl

variable {engine : Engine} {c source : ObjectId} {k n : Nat} {a v : NdArray}

/-- A cursor moves by one position, and its next item is a new object. -/
structure Advances (engine : Engine) (c source : ObjectId) (k n : Nat) (object : Object)
    (row : ObjectId) (after : Engine) : Prop where
  created : after.heap.occupant? row = some ⟨1, object⟩
  cursor : after.heap.get? c = some (.iterator ⟨source, k + 1, n⟩)
  kept : after.heap.get? source = engine.heap.get? source
  fresh : c ≠ row ∧ source ≠ row
  buffers : after.buffers = engine.buffers

/-- The next item of a cursor over an array is made from the view at its position. -/
theorem perform_next_view (hCursor : engine.heap.get? c = some (.iterator ⟨source, k, n⟩))
    (hSource : engine.heap.get? source = some (.array a)) (hPosition : k < n)
    (hSelect : a.select engine.buffers [.at k.toInt64] = .ok (.view v)) :
    (next c).perform engine = (.ok (some (engine.heap.allocate (engine.viewResult v)).1),
      { engine with heap :=
        (engine.heap.allocate (engine.viewResult v)).2.replace c (.iterator ⟨source, k + 1, n⟩) }) := by
  have hFound : engine.object c = .ok (.iterator ⟨source, k, n⟩) := by rw [object, hCursor]
  have hArray : engine.object source = .ok (.array a) := by rw [object, hSource]
  have hItem : (engine.itemAt ⟨source, k, n⟩).perform engine
      = (.ok (engine.heap.allocate (engine.viewResult v)).1,
        { engine with heap := (engine.heap.allocate (engine.viewResult v)).2 }) := by
    rw [itemAt, perform_check, hArray]
    dsimp only
    rw [perform_check, hSelect]
    dsimp only
    rw [perform_always, run_createResult_view]
    rfl
  rw [next, perform_get, perform_check, hFound]
  dsimp only
  rw [if_neg (Nat.not_le.mpr hPosition), perform_bind, hItem]
  rfl

/-- The next item of a cursor over an array is a new object for the row. -/
theorem perform_next_row (hHeap : engine.heap.Consistent)
    (hCursor : engine.heap.get? c = some (.iterator ⟨source, k, n⟩))
    (hSource : engine.heap.get? source = some (.array a)) (hPosition : k < n)
    (hSelect : a.select engine.buffers [.at k.toInt64] = .ok (.view v)) :
    ∃ row after, (next c).perform engine = (.ok (some row), after) ∧
      (after.heap.slots.size ≤ Heap.slotLimit →
        engine.Advances c source k n (engine.viewResult v) row after) := by
  refine ⟨_, _, perform_next_view hCursor hSource hPosition hSelect, fun hRoom => ?_⟩
  rw [Heap.size_replace] at hRoom
  obtain ⟨_, hOccupant⟩ := Heap.get?_eq_some_iff.mp hCursor
  obtain ⟨_, hStored⟩ := Heap.get?_eq_some_iff.mp hSource
  have hCursorLive : engine.heap.isLive c = true := Heap.isLive_iff.mpr ⟨_, hOccupant⟩
  have hSourceLive : engine.heap.isLive source = true := Heap.isLive_iff.mpr ⟨_, hStored⟩
  obtain ⟨hRow, hMoved, hOthers⟩ := Heap.get?_replace_allocate hHeap hCursorLive
    (engine.viewResult v) (.iterator ⟨source, k + 1, n⟩) hRoom
  have hDistinct : source ≠ c := by
    rintro rfl
    cases hCursor.symm.trans hSource
  exact ⟨hRow, hMoved, (hOthers source hSourceLive).2 hDistinct,
    ⟨(hOthers c hCursorLive).1, (hOthers source hSourceLive).1⟩, rfl⟩

/-- A cursor at its end has no next item. -/
theorem perform_next_end (hCursor : engine.heap.get? c = some (.iterator ⟨source, n, n⟩)) :
    (next c).perform engine = (.ok none, engine) := by
  have hFound : engine.object c = .ok (.iterator ⟨source, n, n⟩) := by rw [object, hCursor]
  rw [next, perform_get, perform_check, hFound]
  dsimp only
  rw [if_pos (Nat.le_refl n)]
  rfl

/-- An iterator over an array begins before the first row. -/
theorem perform_iterate_array {rest : Shape} (hSource : engine.heap.get? source = some (.array a))
    (hShape : a.shape = n :: rest) :
    (iterate source).perform engine
      = (.ok ((engine.heap.retain source).allocate (.iterator ⟨source, 0, n⟩)).1,
        { engine with
          heap := ((engine.heap.retain source).allocate (.iterator ⟨source, 0, n⟩)).2 }) := by
  have hArray : engine.object source = .ok (.array a) := by rw [object, hSource]
  rw [iterate, perform_get, perform_check, hArray]
  dsimp only
  rw [hShape]
  rfl

end Engine

/-- The host value of a number. -/
def Scalar.hostValue : Scalar → HostValue
  | .bool b => .bool b
  | .int i => .int i
  | .float x => .float x

namespace Session

section Items

variable {runtime : Engine} {handles : HandleTable} {root : String} {id : ObjectId}

/-- A number becomes a host value, and its object is released. -/
theorem perform_toItem_number {value : Scalar} (hGet : runtime.heap.get? id = some (.ofScalar value))
    (path : String) : (toItem id path).perform ⟨runtime, handles, root⟩
      = (.ok (.scalar value.hostValue),
        ⟨{ runtime with heap := runtime.heap.release id }, handles, root⟩) := by
  rw [toItem, perform_bind, arrayInfo, perform_onRuntime, Engine.run_arrayInfo,
    Engine.arrayInfo?_of_number hGet]
  dsimp only
  rw [if_neg (by simp), perform_bind, perform_tryRuntime,
    Engine.perform_extract (Engine.primitive_of_number hGet)]
  cases value <;> rfl

section Arrays

variable {v : NdArray} {references : Nat}
  (hOccupant : runtime.heap.occupant? id = some ⟨references, .array v⟩)
include hOccupant

/-- An array gets a handle, which takes over its reference. -/
theorem perform_adoptArray (hPositive : 0 < references) (path : String) :
    (adoptArray id path).perform ⟨runtime, handles, root⟩
      = (.ok ⟨⟨(handles.insert id .object).1, v.address runtime.buffers, v.byteSize, v.dtype,
          v.shape⟩⟩, ⟨runtime, (handles.insert id .object).2, root⟩) := by
  have hGet := Heap.get?_eq_some_iff.mpr ⟨references, hOccupant⟩
  have hConverted : (ForeignRuntime.asArray id : RuntimeOp Engine _).perform runtime
      = (.ok id, { runtime with heap := runtime.heap.retain id }) := by
    change (Engine.asArray id).perform runtime = _
    rw [Engine.asArray, perform_get, perform_check, Engine.arrayForm, Engine.object, hGet]
    rfl
  have hRelease : ForeignRuntime.release id { runtime with heap := runtime.heap.retain id }
      = runtime := by
    change { runtime with heap := (runtime.heap.retain id).release id } = runtime
    rw [Heap.release_retain hOccupant hPositive]
  rw [adoptArray, perform_bind, perform_tryRuntime, hConverted]
  dsimp only
  rw [perform_bind, release, perform_onRuntime]
  dsimp only [StateT.run]
  rw [hRelease, perform_bind, arrayInfo, perform_onRuntime, Engine.run_arrayInfo,
    Engine.arrayInfo?_of_array hGet]
  rfl

/-- An array with axes becomes an item by its handle. -/
theorem perform_toItem_array (hPositive : 0 < references) (hAxes : v.shape ≠ []) (path : String) :
    (toItem id path).perform ⟨runtime, handles, root⟩
      = (.ok (.array ⟨⟨(handles.insert id .object).1, v.address runtime.buffers, v.byteSize,
          v.dtype, v.shape⟩⟩), ⟨runtime, (handles.insert id .object).2, root⟩) := by
  rw [toItem, perform_bind, arrayInfo, perform_onRuntime, Engine.run_arrayInfo,
    Engine.arrayInfo?_of_array (Heap.get?_eq_some_iff.mpr ⟨references, hOccupant⟩)]
  dsimp only
  rw [if_pos (by simpa using hAxes), perform_bind, perform_adoptArray hOccupant hPositive]
  rfl

end Arrays

end Items

section Walks

variable {base : Heap} {before session : Session Engine} {c source : ObjectId}
  {stays : Handle → Prop} {held : Multiset ObjectId} {a : NdArray} {n k : Nat} {h : Handle}
  {state : IterationState}

/-- A cursor over the rows of an array after a number of steps. All of its handles are
iterators, and those that saw the end tell the truth. -/
structure Walks (c source : ObjectId) (a : NdArray) (n k : Nat) (session : Session Engine) :
    Prop where
  cursor : session.runtime.heap.get? c = some (.iterator ⟨source, k, n⟩)
  array : session.runtime.heap.get? source = some (.array a)
  le : k ≤ n
  iterators : ∀ h kind, session.handles.entry? h = some (c, kind) →
    ∃ state, kind = .iterator state ∧ (state = .exhausted → k = n)

/-- The cursor leads to its array and to nothing else. -/
theorem Walks.watches_iff (hWalks : Walks c source a n k session) (id : ObjectId) :
    Guard.Watches ⟨base, {c}, session.runtime.heap⟩ id ↔ id = c ∨ id = source := by
  constructor
  · rintro ⟨root, hRoot, hPath⟩
    obtain rfl := Multiset.mem_singleton.mp hRoot
    induction hPath with
    | refl => exact .inl rfl
    | tail _ hOwns ih =>
        obtain ⟨object, hObject, hChild⟩ := hOwns
        obtain rfl | rfl := ih
        · cases hWalks.cursor.symm.trans hObject
          exact .inr (List.mem_singleton.mp hChild)
        · cases hWalks.array.symm.trans hObject
          cases hChild
  · rintro (rfl | rfl)
    · exact ⟨_, Multiset.mem_singleton_self _, .refl⟩
    · exact ⟨c, Multiset.mem_singleton_self c,
        .single ⟨_, hWalks.cursor, List.mem_singleton_self _⟩⟩

/-- While a handle of the cursor stays, the cursor and its array stay as they are. -/
theorem Walks.after (hWalks : Walks c source a n k before)
    (hShelters : Shelters base before c stays held session) (hRoom : session.Roomy) :
    Walks c source a n k session := by
  obtain ⟨rest, -, hGuards⟩ := hShelters.guarded
  refine ⟨(hShelters.get?_cursor hRoom).trans hWalks.cursor, ?_, hWalks.le, fun h kind hEntry => ?_⟩
  · exact ((hGuards hRoom.1).2.same source ((hWalks.watches_iff source).mpr (.inr rfl))).trans
      hWalks.array
  · obtain hOld | rfl := hShelters.only h kind hEntry
    · exact hWalks.iterators h kind hOld
    · exact ⟨.created, rfl, fun hEnd => (nomatch hEnd)⟩

/-- A cursor with a handle can be sheltered. -/
theorem shelters_of_inOrder (hOrder : InOrder (Engine.InOrder base) held session)
    (hRoom : session.Roomy) {cursor : Cursor}
    (hCursor : session.runtime.heap.get? c = some (.iterator cursor))
    (hNamed : ∀ h, stays h → session.handles.get? h = some c) (hNonempty : ∃ h, stays h) :
    Shelters base session c stays held session := by
  obtain ⟨h, hStays⟩ := hNonempty
  have hMem : c ∈ (↑session.handles.objects : Multiset ObjectId) :=
    mem_objects_of_get? (hNamed h hStays)
  obtain ⟨rest, hObjects⟩ := Multiset.exists_cons_of_mem hMem
  obtain ⟨hKnown, hBalanced⟩ := hOrder.2 hRoom.1
  refine ⟨⟨cursor, hCursor⟩, hNamed, ⟨h, hStays⟩, hOrder.1, ⟨rest, hObjects, fun _ => ?_⟩,
    fun _ _ => rfl, fun _ _ => .inl⟩
  refine ⟨hKnown, ?_, fun _ _ => rfl⟩
  rwa [hObjects, Multiset.add_cons, ← Multiset.singleton_add] at hBalanced

end Walks

section Next

variable {session after : Session Engine} {runtime : Engine} {c source id : ObjectId} {a : NdArray}
  {n k : Nat} {h : Handle} {kind : HandleKind} {state : IterationState} {base : Heap}

theorem perform_iterationState (hEntry : session.handles.entry? h = some (id, .iterator state)) :
    (iterationState h).perform session = (.ok state, session) := by
  have hGet : (get : BridgeOp Engine (Session Engine)).perform session = (.ok session, session) := rfl
  rw [iterationState, perform_bind, hGet]
  dsimp only
  rw [hEntry]
  rfl

/-- A handle that saw the end does not enter the runtime any more. -/
theorem perform_next_exhausted
    (hEntry : session.handles.entry? h = some (id, .iterator .exhausted)) :
    (next h).perform session = (.ok none, session) := by
  rw [Session.next, perform_bind, perform_iterationState hEntry]
  rfl

/-- A handle that may have items left asks the runtime for the next one. -/
theorem perform_next_open (hEntry : session.handles.entry? h = some (id, .iterator state))
    (hOpen : state ≠ .exhausted) :
    (next h).perform session = match (Engine.next id).perform session.runtime with
      | (.ok none, runtime) => (.ok none,
          ⟨runtime, session.handles.setKind h (.iterator .exhausted), session.root⟩)
      | (.ok (some item), runtime) =>
        let result := (toItem item "next").perform
          ⟨runtime, session.handles.setKind h (.iterator .yielding), session.root⟩
        (result.1.map some, result.2)
      | (.error e, runtime) => (.error (.foreignCall "next" e),
          ⟨runtime, session.handles, session.root⟩) := by
  have hGet : session.handles.get? h = some id := get?_eq_some_iff.mpr ⟨_, hEntry⟩
  rw [Session.next, perform_bind, perform_iterationState hEntry]
  dsimp only
  rw [if_neg hOpen, perform_bind, perform_lookup, hGet]
  dsimp only
  rw [perform_bind, perform_runtimeOp]
  have hRun : (ForeignRuntime.next id : RuntimeOp Engine _).perform session.runtime
      = (Engine.next id).perform session.runtime := rfl
  rw [hRun]
  obtain ⟨outcome, runtime⟩ := (Engine.next id).perform session.runtime
  cases outcome with
  | error e => rfl
  | ok item =>
      cases item with
      | none => rfl
      | some item =>
          have hState : (setState h .yielding).perform ⟨runtime, session.handles, session.root⟩
              = (.ok (), ⟨runtime, session.handles.setKind h (.iterator .yielding),
                session.root⟩) := rfl
          dsimp only
          rw [perform_bind, hState]
          dsimp only
          rw [perform_bind]
          cases (toItem item "next").perform
            ⟨runtime, session.handles.setKind h (.iterator .yielding), session.root⟩ with
          | mk outcome after => cases outcome <;> rfl

/-- An item is a row of an array as the storage is at the time: the only value of a row
without axes, and otherwise an array behind a handle that shares the storage. -/
inductive ShowsRow (a : NdArray) (k : Nat) (store : BufferStore) (after : Session Engine) :
    Item → Prop
  | scalar (hAxes : a.shape.tail = []) :
      ShowsRow a k store after (.scalar (store.get a.buffer (a.offsetOf [k])).hostValue)
  | array {b : ArrayObject} {id : ObjectId} {v : NdArray} (hAxes : a.shape.tail ≠ [])
      (hNamed : after.handles.get? b.handle = some id)
      (hObject : after.runtime.heap.get? id = some (.array v)) (hRow : v.IsRow a k)
      (hShape : b.shape = v.shape) (hType : b.dtype = v.dtype) :
      ShowsRow a k store after (.array b)

/-- The item is the row, nothing is written, and of the handles of the cursor only the one
that was asked changes. -/
structure Delivers (c : ObjectId) (a : NdArray) (k : Nat) (h : Handle) (session : Session Engine)
    (item : Item) (after : Session Engine) : Prop where
  item : ShowsRow a k session.runtime.buffers after item
  buffers : after.runtime.buffers = session.runtime.buffers
  state : after.handles.entry? h = some (c, .iterator .yielding)
  others : ∀ other kind, other ≠ h → session.handles.entry? other = some (c, kind) →
    after.handles.entry? other = some (c, kind)

/-- A handle of the cursor notes its progress. -/
theorem Walks.iterators_setKind (hWalks : Walks c source a n k session) (h : Handle)
    {noted : IterationState} {position : Nat} (hNoted : noted = .exhausted → position = n)
    (hEnd : k = n → position = n) (other : Handle) (kind : HandleKind)
    (hOther : entry? (session.handles.setKind h (.iterator noted)) other = some (c, kind)) :
    ∃ state, kind = .iterator state ∧ (state = .exhausted → position = n) := by
  rw [entry?_setKind] at hOther
  split_ifs at hOther
  · obtain ⟨entry, -, hKind⟩ := Option.map_eq_some_iff.mp hOther
    cases hKind
    exact ⟨noted, rfl, hNoted⟩
  · obtain ⟨state, hKind, hState⟩ := hWalks.iterators other kind hOther
    exact ⟨state, hKind, fun hDone => hEnd (hState hDone)⟩

/-- A number leaves the heap when it becomes a host value. -/
theorem Walks.perform_toItem_number (hWalks : Walks c source a n k session) {row : ObjectId}
    {value : Scalar} (hRow : session.runtime.heap.occupant? row = some ⟨1, .ofScalar value⟩)
    (hFresh : c ≠ row ∧ source ≠ row) (path : String) :
    ∃ runtime, (toItem row path).perform session
        = (.ok (.scalar value.hostValue), ⟨runtime, session.handles, session.root⟩) ∧
      runtime.buffers = session.runtime.buffers ∧
      Walks c source a n k ⟨runtime, session.handles, session.root⟩ := by
  obtain ⟨-, hOthers⟩ := Heap.release_of_children_eq_nil hRow (by cases value <;> rfl) Nat.one_pos
  have hSame (other : ObjectId) (hOther : other ≠ row) :
      (session.runtime.heap.release row).get? other = session.runtime.heap.get? other := by
    rw [Heap.get?, hOthers other hOther, Heap.get?]
  refine ⟨_, Session.perform_toItem_number (Heap.get?_eq_some_iff.mpr ⟨1, hRow⟩) path, rfl, ?_⟩
  exact { hWalks with
    cursor := (hSame c hFresh.1).trans hWalks.cursor
    array := (hSame source hFresh.2).trans hWalks.array }

/-- An array becomes an item with a new handle; the handles of the cursor stay. -/
theorem Walks.perform_toItem_array (hWalks : Walks c source a n k session)
    (hTable : session.handles.Consistent) {row : ObjectId} {v : NdArray}
    (hRow : session.runtime.heap.occupant? row = some ⟨1, .array v⟩) (hAxes : v.shape ≠ [])
    (hFresh : c ≠ row ∧ source ≠ row) (path : String)
    (hRoom : ((toItem row path).perform session).2.Roomy) :
    ∃ b handles, (toItem row path).perform session
        = (.ok (.array b), ⟨session.runtime, handles, session.root⟩) ∧
      b.shape = v.shape ∧ b.dtype = v.dtype ∧ handles.get? b.handle = some row ∧
      (∀ other entry, session.handles.entry? other = some entry →
        handles.entry? other = some entry) ∧
      Walks c source a n k ⟨session.runtime, handles, session.root⟩ := by
  have hRun : (toItem row path).perform session = _ :=
    Session.perform_toItem_array hRow Nat.one_pos hAxes path
  rw [hRun] at hRoom
  have hEntry := entry?_insert hTable row .object hRoom.2
  refine ⟨_, _, hRun, rfl, rfl, ?_, fun other entry hOther => ?_, { hWalks with iterators := ?_ }⟩
  · rw [get?_insert hTable row .object hRoom.2]
    exact if_pos rfl
  · rw [hEntry, if_neg (ne_insert_of_entry hTable row .object hRoom.2 hOther), hOther]
  · intro other kind hOther
    rw [hEntry] at hOther
    split_ifs at hOther
    · cases hOther
      exact absurd rfl hFresh.1
    · exact hWalks.iterators other kind hOther

/-- The next item of a cursor that is not at its end is the row at its position. -/
theorem Walks.perform_next_row (hWalks : Walks c source a n k session)
    (hOrder : InOrder (Engine.InOrder base) 0 session) (hRoom : session.Roomy) {rest : Shape}
    (hShape : a.shape = n :: rest) (hWords : ∀ d ∈ a.shape, d < 0x8000000000000000)
    (hEntry : session.handles.entry? h = some (c, .iterator state)) (hLess : k < n)
    (hAfter : ((next h).perform session).2.Roomy) :
    ∃ item after, (next h).perform session = (.ok (some item), after) ∧
      Delivers c a k h session item after ∧ Walks c source a n (k + 1) after := by
  obtain ⟨hTable, hRuntime⟩ := hOrder
  obtain ⟨-, hBalanced⟩ := hRuntime hRoom.1
  obtain ⟨_, hArray⟩ := Heap.get?_eq_some_iff.mp hWalks.array
  have hOpen : state ≠ .exhausted := by
    rintro rfl
    obtain ⟨_, hKind, hEnd⟩ := hWalks.iterators h _ hEntry
    cases hKind
    exact absurd (hEnd rfl) (Nat.ne_of_lt hLess)
  obtain ⟨v, hSelect, hRow⟩ :=
    NdArray.select_row session.runtime.buffers (hBalanced.admitted source _ hArray) hShape hWords hLess
  obtain ⟨row, runtime, hRun, hMoves⟩ := Engine.perform_next_row hBalanced.toConsistent
    hWalks.cursor hWalks.array hLess hSelect
  rw [perform_next_open hEntry hOpen, hRun] at hAfter ⊢
  dsimp only at hAfter ⊢
  have hYielding := hTable.setKind h (.iterator .yielding)
  have hAdvances := hMoves (heap_room_of_conserves (conserves_toItem
    (carrying_inOrder (Engine.sustaining Engine.noGuard)) row "next") hYielding hAfter.1)
  have hHere : entry? (session.handles.setKind h (.iterator .yielding)) h
      = some (c, .iterator .yielding) := by
    rw [entry?_setKind, if_pos rfl, hEntry, Option.map_some]
  have hElse (other : Handle) (kind : HandleKind) (hOther : other ≠ h)
      (hFound : session.handles.entry? other = some (c, kind)) :
      entry? (session.handles.setKind h (.iterator .yielding)) other = some (c, kind) := by
    rw [entry?_setKind, if_neg hOther, hFound]
  have hMoved : Walks c source a n (k + 1)
      ⟨runtime, session.handles.setKind h (.iterator .yielding), session.root⟩ :=
    ⟨hAdvances.cursor, hAdvances.kept.trans hWalks.array, hLess,
      hWalks.iterators_setKind h (fun hDone => nomatch hDone)
        (fun hDone => absurd hDone (Nat.ne_of_lt hLess))⟩
  have hObject := hAdvances.created
  rw [Engine.viewResult, NdArray.scalar?] at hObject
  by_cases hAxes : a.shape.tail = []
  · have hScalar := hRow.shape.trans hAxes
    have hCell := hRow.cells [] (by rw [hScalar]; trivial)
    rw [if_pos hScalar] at hObject
    obtain ⟨later, hItem, hBuffers, hLater⟩ :=
      hMoved.perform_toItem_number hObject hAdvances.fresh "next"
    rw [hItem]
    refine ⟨_, _, rfl, ⟨?_, hBuffers.trans hAdvances.buffers, hHere, hElse⟩, hLater⟩
    have hOffset : v.offset = a.offsetOf [k] := by rw [← hCell, NdArray.offsetOf_nil]
    rw [hRow.buffer, hOffset]
    exact .scalar hAxes
  · have hArrayed : v.shape ≠ [] := hRow.shape ▸ hAxes
    rw [if_neg hArrayed] at hObject
    obtain ⟨b, handles, hItem, hSameShape, hSameType, hNamed, hKept, hLater⟩ :=
      hMoved.perform_toItem_array hYielding hObject hArrayed hAdvances.fresh "next" hAfter
    rw [hItem]
    refine ⟨_, _, rfl, ⟨?_, hAdvances.buffers, hKept h _ hHere, fun other kind hOther hFound =>
      hKept other _ (hElse other kind hOther hFound)⟩, hLater⟩
    exact .array hAxes hNamed (Heap.get?_eq_some_iff.mpr ⟨1, hObject⟩) hRow hSameShape hSameType

/-- A cursor at its end has no next item, and the handle that was asked knows. -/
theorem Walks.perform_next_end (hWalks : Walks c source a n n session)
    (hEntry : session.handles.entry? h = some (c, .iterator state)) :
    ∃ handles, (next h).perform session = (.ok none, ⟨session.runtime, handles, session.root⟩) ∧
      handles.entry? h = some (c, .iterator .exhausted) ∧
      (∀ other kind, other ≠ h → session.handles.entry? other = some (c, kind) →
        handles.entry? other = some (c, kind)) ∧
      Walks c source a n n ⟨session.runtime, handles, session.root⟩ := by
  by_cases hOpen : state = .exhausted
  · subst hOpen
    exact ⟨_, perform_next_exhausted hEntry, hEntry, fun _ _ _ hFound => hFound, hWalks⟩
  · refine ⟨session.handles.setKind h (.iterator .exhausted), ?_, ?_, ?_, ?_⟩
    · rw [perform_next_open hEntry hOpen, Engine.perform_next_end hWalks.cursor]
    · rw [entry?_setKind, if_pos rfl, hEntry, Option.map_some]
    · intro other kind hOther hFound
      rw [entry?_setKind, if_neg hOther, hFound]
    · exact { hWalks with iterators := hWalks.iterators_setKind h (fun _ => rfl) fun _ => rfl }

/-- A handle that is no iterator has no next item. -/
theorem perform_next_of_not_iterator
    (hEntry : ∀ id state, session.handles.entry? h ≠ some (id, .iterator state)) :
    ((next h).perform session).2 = session := by
  have hGet : (get : BridgeOp Engine (Session Engine)).perform session = (.ok session, session) := rfl
  have hState : ∃ e, (iterationState h).perform session = (.error e, session) := by
    rw [iterationState, perform_bind, hGet]
    dsimp only
    cases hFound : session.handles.entry? h with
    | none => exact ⟨_, rfl⟩
    | some entry =>
        obtain ⟨id, _ | state⟩ := entry
        · exact ⟨_, rfl⟩
        · exact absurd hFound (hEntry id state)
  obtain ⟨e, hState⟩ := hState
  rw [Session.next, perform_bind, hState]

/-- The next item of another iterator leaves the cursor alone. -/
theorem sheltered_next_other {before : Session Engine} {stays : Handle → Prop}
    (hWalks : Walks c source a n k before) (hShelters : Shelters base before c stays 0 session)
    (hOther : session.handles.get? h ≠ some c) :
    Sheltered base before c stays 0 ((next h).perform session).2 := by
  by_cases hIterator : ∀ id state, session.handles.entry? h ≠ some (id, .iterator state)
  · rw [perform_next_of_not_iterator hIterator]
    exact fun _ => hShelters
  push Not at hIterator
  obtain ⟨id, state, hEntry⟩ := hIterator
  by_cases hOpen : state = .exhausted
  · subst hOpen
    rw [perform_next_exhausted hEntry]
    exact fun _ => hShelters
  have hDistinct : id ≠ c := by
    rintro rfl
    exact hOther (get?_eq_some_iff.mpr ⟨_, hEntry⟩)
  have hFree : Guard.Frees ⟨base, {c}, before.runtime.heap⟩ id := by
    intro hWatched cursor hCursor
    obtain hSame | rfl := (hWalks.watches_iff id).mp hWatched
    · exact hDistinct hSame
    · cases hWalks.array.symm.trans hCursor
  obtain ⟨rest, hObjects, hGuards⟩ := hShelters.guarded
  have hStep := Engine.conserves_next hFree rest session.runtime hGuards
  rw [perform_next_open hEntry hOpen]
  generalize (Engine.next id).perform session.runtime = result at hStep ⊢
  obtain ⟨outcome, runtime⟩ := result
  cases outcome with
  | error e => exact fun _ => { hShelters with guarded := ⟨rest, hObjects, hStep⟩ }
  | ok item =>
      have hNoted (noted : IterationState) :
          Shelters base before c stays ↑item.toList
            ⟨runtime, session.handles.setKind h (.iterator noted), session.root⟩ := by
        have hMoved : Shelters base before c stays ↑item.toList
            ⟨runtime, session.handles, session.root⟩ :=
          { hShelters with guarded := ⟨rest, hObjects, hStep⟩ }
        exact hMoved.setKind hOther _
      cases item with
      | none => exact fun _ => hNoted .exhausted
      | some row =>
          have hItem := conserves_toItem (carrying_sheltered base before c stays) row "next" 0
            ⟨runtime, session.handles.setKind h (.iterator .yielding), session.root⟩
            fun _ => hNoted .yielding
          rwa [outcomeReferences_const, Multiset.zero_add] at hItem

end Next

end Session

end ArrayBridge
