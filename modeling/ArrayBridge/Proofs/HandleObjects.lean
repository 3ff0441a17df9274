import ArrayBridge.Proofs.ReferenceCounts

/-! What handles stand for.

The bridge registers arrays and iterators, and nothing else. An array stays as it is while
it is registered, and an iterator only moves, so what a handle stands for is always one of
the two. -/

namespace ArrayBridge

open Operation HandleTable

/-- Whether the bridge registers objects of a kind. -/
def Object.isRegistrable : Object → Bool
  | array _ | iterator _ => true
  | _ => false

theorem Object.Becomes.isRegistrable {object next : Object} (h : object.Becomes next) :
    next.isRegistrable = object.isRegistrable := by
  cases h <;> rfl

namespace Engine

open Heap

variable {guard : Guard} {engine : Engine} {id : ObjectId}

/-- The result of an effect is an iterator. -/
def MakesIterator (guard : Guard) (engine : Engine) (effect : Effect) : Prop :=
  ∀ held, Guards guard held engine → (effect.run engine).2.heap.slots.size ≤ slotLimit →
    ∃ cursor, (effect.run engine).2.heap.get? (effect.run engine).1 = some (.iterator cursor)

theorem keeps_createCursor {source : ObjectId} {object : Object}
    (hSource : engine.object source = .ok object) (length : Nat) :
    Keeps guard engine (createCursor source length) ∧
      MakesIterator guard engine (createCursor source length) := by
  have hRetain (held : Multiset ObjectId) (hOrder : Guards guard held engine) :
      Guards guard (source ::ₘ held) ((retain source).run engine).2 := by
    have hMoved : Moves (Guards guard) 0 (retain source) (fun _ => source ::ₘ 0) engine :=
      moves_retain fun _ _ => isLive_of_object hSource
    have hAfter := hMoved held (by rwa [Multiset.zero_add])
    rwa [Multiset.cons_add, Multiset.zero_add] at hAfter
  refine ⟨fun held id hOrder hRoom hLive => ?_, fun held hOrder hRoom => ?_⟩
  · have hStored : ((retain source).run engine).2.heap.isLive id = true := by
      rw [← hLive]
      exact isLive_retain _ _ _
    refine (keeps_create _ _ id (hRetain held hOrder) hRoom hStored).trans ?_
    exact get?_retain _ _ _
  · have hFits := Nat.le_trans (size_le_size_allocate _ _) hRoom
    obtain ⟨-, hHolds⟩ := hRetain held hOrder hFits
    have hMap := (occupant?_allocate (.iterator ⟨source, 0, length⟩)
      hHolds.balanced.vacant hRoom).2
    refine ⟨⟨source, 0, length⟩, get?_eq_some_iff.mpr ⟨1, ?_⟩⟩
    exact (hMap _).trans (if_pos rfl)

/-- Asking for an iterator gives one, and leaves all objects as they are. -/
theorem commits_iterate_keeps (id : ObjectId) :
    Commits (fun effect => Keeps guard engine effect ∧ MakesIterator guard engine effect)
      (iterate id) engine := by
  refine commits_get (commits_check fun object hObject => ?_)
  split
  · split
    · exact commits_throw _
    · exact commits_always (keeps_createCursor hObject _)
  · exact commits_always (keeps_createCursor hObject _)
  · exact commits_always (keeps_createCursor hObject _)
  · rename_i cursor
    refine commits_always ⟨keeps_share id, fun _ _ _ => ⟨cursor, ?_⟩⟩
    refine (get?_retain engine.heap id id).trans ?_
    exact get?_eq_some_iff.mpr (object_eq_ok_iff.mp hObject)
  · exact commits_throw _

/-- An action leaves the live objects as they are, except for cursors that move. -/
def Turns (guard : Guard) (engine : Engine) (action : StateM Engine (Option ObjectId)) : Prop :=
  ∀ held id object, Guards guard held engine →
    (action.run engine).2.heap.slots.size ≤ slotLimit → engine.heap.get? id = some object →
      ∃ next, (action.run engine).2.heap.get? id = some next ∧ object.Becomes next

/-- A step of a cursor moves nothing else. -/
theorem commits_next_turns (id : ObjectId) :
    Commits (Turns guard engine) (next id) engine := by
  refine commits_get (commits_check fun object hObject => ?_)
  split
  · rename_i cursor
    split
    · exact commits_pure fun _ _ object _ _ hFound => ⟨object, hFound, .same object⟩
    · rename_i hPosition
      have hItem : Commits (fun effect => Yields guard engine effect ∧ Keeps guard engine effect)
          (engine.itemAt cursor) engine := commits_itemAt hObject (Nat.lt_of_not_le hPosition)
      apply hItem.andThen
      intro effect ⟨_, hKeeps⟩ held other found hOrder hRoom hFound
      have hBefore : (effect.run engine).2.heap.slots.size ≤ slotLimit :=
        (size_replace _ id (.iterator { cursor with position := cursor.position + 1 })).symm ▸ hRoom
      have hKept (c : ObjectId) (kept : Object) (hHere : engine.heap.get? c = some kept) :
          (effect.run engine).2.heap.get? c = some kept := by
        obtain ⟨references, hOccupant⟩ := get?_eq_some_iff.mp hHere
        exact (hKeeps held c hOrder hBefore (isLive_iff.mpr ⟨_, hOccupant⟩)).trans hHere
      change ∃ next, ((effect.run engine).2.heap.replace id _).get? other = some next ∧ _
      by_cases hSame : other = id
      · subst hSame
        have hCursor := get?_eq_some_iff.mpr (object_eq_ok_iff.mp hObject)
        cases hFound.symm.trans hCursor
        obtain ⟨references, hOccupant⟩ := get?_eq_some_iff.mp (hKept other _ hCursor)
        exact ⟨_, get?_replace _ hOccupant, .moved cursor (cursor.position + 1)⟩
      · rw [get?_replace_of_ne _ hSame]
        exact ⟨found, hKept other found hFound, .same found⟩
  · exact commits_throw _

end Engine

namespace Session

/-- All handles stand for arrays and iterators. -/
def NamesRegistrable (handles : HandleTable) (heap : Heap) : Prop :=
  ∀ id ∈ handles.objects, ∃ object, heap.get? id = some object ∧ object.isRegistrable = true

/-- A session is in order, and its handles stand for what the bridge registers, as long as
there is room. -/
def Registers (base : Heap) : Ledger (Session Engine) := fun held session =>
  InOrder (Engine.InOrder base) held session ∧
    (session.runtime.heap.slots.size ≤ Heap.slotLimit →
      NamesRegistrable session.handles session.runtime.heap)

variable {base : Heap} {held taken rest failed : Multiset ObjectId} {session : Session Engine}
  {h : Handle} {id : ObjectId} {handles : HandleTable} {heap next : Heap}

/-- Handles go on to stand for what they stood for if live objects stay as they are. -/
theorem NamesRegistrable.mono (hNames : NamesRegistrable handles heap)
    (hSame : ∀ id ∈ handles.objects, next.get? id = heap.get? id) :
    NamesRegistrable handles next := by
  intro id hMem
  rw [hSame id hMem]
  exact hNames id hMem

theorem NamesRegistrable.insert (hNames : NamesRegistrable handles heap)
    (hTable : handles.Consistent) {object : Object} (hObject : heap.get? id = some object)
    (hKind : object.isRegistrable = true) (kind : HandleKind) :
    NamesRegistrable (handles.insert id kind).2 heap := by
  intro other hOther
  have hMem : other ∈ (↑(handles.insert id kind).2.objects : Multiset ObjectId) := hOther
  rw [coe_objects_insert hTable, Multiset.mem_cons] at hMem
  rcases hMem with rfl | hOld
  · exact ⟨object, hObject, hKind⟩
  · exact hNames other hOld

theorem NamesRegistrable.remove (hNames : NamesRegistrable handles heap) (h : Handle) :
    NamesRegistrable (handles.remove h).2 heap := by
  cases hGet : handles.get? h with
  | none => rwa [remove_of_get?_eq_none hGet]
  | some id =>
      intro other hOther
      have hMem : other ∈ id ::ₘ (↑(handles.remove h).2.objects : Multiset ObjectId) :=
        Multiset.mem_cons_of_mem hOther
      rw [← (coe_objects_remove hGet).2] at hMem
      exact hNames other hMem

theorem NamesRegistrable.setKind (hNames : NamesRegistrable handles heap) (h : Handle)
    (kind : HandleKind) : NamesRegistrable (handles.setKind h kind) heap := by
  intro other hOther
  have hMem : other ∈ (↑(handles.setKind h kind).objects : Multiset ObjectId) := hOther
  rw [coe_objects_setKind] at hMem
  exact hNames other hMem

/-- What a handle stands for is live. -/
theorem isLive_of_mem_objects (hOrder : InOrder (Engine.InOrder base) held session)
    (hRoom : session.runtime.heap.slots.size ≤ Heap.slotLimit) (hMem : id ∈ session.handles.objects) :
    session.runtime.heap.isLive id = true :=
  (hOrder.2 hRoom).2.held_live id (Multiset.mem_add.mpr (.inr hMem))

section Carry

variable (base)

/-- While an operation works, the objects of all handles are kept aside. -/
theorem lift_registers (hSession : Registers base held session) :
    ∃ inner : Ledger Engine, Sustaining inner ∧ inner held session.runtime ∧
      ∀ held runtime, inner held runtime →
        Registers base held ⟨runtime, session.handles, session.root⟩ := by
  obtain ⟨⟨hTable, hRuntime⟩, hNames⟩ := hSession
  by_cases hRoom : session.runtime.heap.slots.size ≤ Heap.slotLimit
  · refine ⟨_, Engine.sustaining ⟨base, ↑session.handles.objects, session.runtime.heap⟩,
      fun _ => ?_, fun held runtime hGuards => ⟨⟨hTable, fun hLater => ?_⟩, fun hLater => ?_⟩⟩
    · obtain ⟨hKnown, hBalanced⟩ := hRuntime hRoom
      rw [Multiset.add_comm] at hBalanced
      exact ⟨hKnown, hBalanced, fun _ _ => rfl⟩
    · obtain ⟨hKnown, hHolds⟩ := hGuards hLater
      rw [Multiset.add_comm]
      exact ⟨hKnown, hHolds.balanced⟩
    · exact (hNames hRoom).mono fun id hMem => (hGuards hLater).2.same id ⟨id, hMem, .refl⟩
  · refine ⟨_, Engine.sustaining Engine.noGuard, Engine.guards_noGuard_iff.mpr hRoom,
      fun held runtime hFull => ?_⟩
    rw [Engine.guards_noGuard_iff] at hFull
    exact ⟨⟨hTable, fun hLater => absurd hLater hFull⟩, fun hLater => absurd hLater hFull⟩

/-- A buffer that is released takes its handle along, so the objects of the other handles
stay. -/
theorem conserves_freeBuffer_registers (h : Handle) (address : Nat) :
    Conserves (Registers base) 0 (freeBuffer h address) (fun _ => 0) 0 := by
  intro frame session hBefore
  have hOrder := conserves_freeBuffer Engine.conserving.toSustaining h address frame session hBefore.1
  refine ⟨hOrder, fun hRoom => ?_⟩
  rw [outcomeReferences_const] at hOrder
  have hSize := heap_room_of_conserves
    (conserves_freeBuffer (Engine.sustaining Engine.noGuard) h address) hBefore.1.1 hRoom
  have hNames := hBefore.2 hSize
  have hLive (id : ObjectId) (hMem : id ∈ session.handles.objects) :=
    isLive_of_mem_objects hBefore.1 hSize hMem
  rw [perform_freeBuffer] at hOrder hRoom ⊢
  cases hGet : session.handles.get? h with
  | none =>
      dsimp only
      exact hNames
  | some id =>
      rw [hGet] at hOrder hRoom
      dsimp only at hOrder hRoom ⊢
      obtain ⟨-, hRun⟩ | ⟨-, hRun⟩ :=
        Engine.run_releaseBuffer (hLive id (mem_objects_of_get? hGet)) address
      · rw [hRun] at hOrder hRoom ⊢
        rw [if_pos rfl] at hOrder hRoom ⊢
        refine (hNames.remove h).mono fun other hMem => ?_
        obtain ⟨occupant, hOccupant⟩ := Heap.isLive_iff.mp (isLive_of_mem_objects hOrder hRoom hMem)
        have hAfter := Heap.get?_eq_some_iff.mpr ⟨occupant.references, hOccupant⟩
        exact hAfter.trans (Heap.get?_releaseAll hAfter).symm
      · rw [hRun]
        exact hNames

theorem carrying_registers : Carrying (Registers base) where
  lift := lift_registers base
  share := fun {held session h id} hBefore hGet => by
    refine ⟨(carrying_inOrder Engine.conserving.toSustaining).share hBefore.1 hGet, fun hRoom => ?_⟩
    have hSize : session.runtime.heap.slots.size ≤ Heap.slotLimit :=
      Heap.size_retain session.runtime.heap id ▸ hRoom
    exact (hBefore.2 hSize).mono fun other _ => Heap.get?_retain _ _ other
  adopt := fun {held session id} hBefore hInfo => by
    refine ⟨(carrying_inOrder Engine.conserving.toSustaining).adopt hBefore.1 hInfo, fun hRoom => ?_⟩
    obtain ⟨a, hArray⟩ := Engine.array_of_arrayInfo hInfo
    exact (hBefore.2 hRoom).insert hBefore.1.1 hArray rfl .object
  freeBuffer := conserves_freeBuffer_registers base

theorem conserves_remove_registers (h : Handle) :
    Conserves (Registers base) 0 (onHandles fun handles => handles.remove h)
      (fun id? => (↑id?.toList : Multiset ObjectId)) failed := by
  intro frame session hBefore
  exact ⟨conserves_remove h frame session hBefore.1, fun hRoom => (hBefore.2 hRoom).remove h⟩

theorem conserves_setState_registers (h : Handle) (state : IterationState) :
    Conserves (Registers base) rest (setState h state) (fun _ => rest) failed := by
  intro frame session hBefore
  exact ⟨conserves_setKind h _ frame session hBefore.1,
    fun hRoom => (hBefore.2 hRoom).setKind h _⟩

/-- A new iterator gets a handle. -/
theorem conserves_iterate_registers (h : Handle) :
    Conserves (Registers base) 0 (iterate h) (fun _ => 0) 0 := by
  intro frame session hBefore
  have hOrder := Interpreter.special_inOrder Engine.conserving (.iterate h) frame session hBefore.1
  refine ⟨hOrder, fun hRoom => ?_⟩
  have hSize := heap_room_of_conserves
    (Interpreter.special_inOrder Engine.conserving_noGuard (.iterate h)) hBefore.1.1 hRoom
  have hNames := hBefore.2 hSize
  obtain ⟨runtime, handles, root⟩ := session
  rw [iterate, perform_bind, perform_lookup] at hRoom ⊢
  cases hGet : handles.get? h with
  | none => exact hNames
  | some id =>
      rw [hGet] at hRoom
      dsimp only at hRoom ⊢
      rw [perform_bind, perform_runtimeOp] at hRoom ⊢
      have hGuards := hBefore.1.2
      rw [← Engine.guards_nothing base base] at hGuards
      have hCommits : Commits (fun effect => Engine.Keeps ⟨base, 0, base⟩ runtime effect ∧
          Engine.MakesIterator ⟨base, 0, base⟩ runtime effect) (Engine.iterate id) runtime :=
        Engine.commits_iterate_keeps id
      cases hCommits with
      | refuses e hRun =>
          change (ForeignRuntime.iterate id : RuntimeOp Engine _).perform runtime = _ at hRun
          rw [hRun]
          exact hNames
      | acts effect hKind hRun =>
          change (ForeignRuntime.iterate id : RuntimeOp Engine _).perform runtime = _ at hRun
          obtain ⟨hKeeps, hMakes⟩ := hKind
          rw [hRun] at hRoom ⊢
          obtain ⟨cursor, hCursor⟩ := hMakes _ hGuards hRoom
          refine NamesRegistrable.insert ?_ hBefore.1.1 hCursor rfl _
          refine hNames.mono fun other hMem => hKeeps _ other hGuards hRoom ?_
          exact isLive_of_mem_objects hBefore.1 hSize hMem

/-- A step moves the cursor of a handle, which goes on to be one. -/
theorem conserves_advance_registers (h : Handle) :
    Conserves (Registers base) 0 (advance h) (fun item => (↑item.toList : Multiset ObjectId)) 0 := by
  intro frame session hBefore
  have hOrder := Interpreter.conserves_advance_inOrder Engine.conserving h frame session hBefore.1
  refine ⟨hOrder, fun hRoom => ?_⟩
  have hSize := heap_room_of_conserves
    (Interpreter.conserves_advance_inOrder Engine.conserving_noGuard h) hBefore.1.1 hRoom
  have hNames := hBefore.2 hSize
  obtain ⟨runtime, handles, root⟩ := session
  rw [advance, perform_bind, perform_lookup] at hRoom ⊢
  cases hGet : handles.get? h with
  | none => exact hNames
  | some id =>
      rw [hGet] at hRoom
      dsimp only at hRoom ⊢
      rw [perform_runtimeOp] at hRoom ⊢
      have hGuards := hBefore.1.2
      rw [← Engine.guards_nothing base base] at hGuards
      have hCommits : Commits (Engine.Turns ⟨base, 0, base⟩ runtime) (Engine.next id) runtime :=
        Engine.commits_next_turns id
      cases hCommits with
      | refuses e hRun =>
          change (ForeignRuntime.next id : RuntimeOp Engine _).perform runtime = _ at hRun
          rw [hRun]
          exact hNames
      | acts action hTurns hRun =>
          change (ForeignRuntime.next id : RuntimeOp Engine _).perform runtime = _ at hRun
          rw [hRun] at hRoom ⊢
          intro other hMem
          obtain ⟨object, hObject, hKind⟩ := hNames other hMem
          obtain ⟨next, hNext, hBecomes⟩ := hTurns _ other object hGuards hRoom hObject
          exact ⟨next, hNext, hBecomes.isRegistrable.trans hKind⟩

end Carry

theorem special_registers (request : Request) :
    Interpreter.Special (Registers base) request := by
  have hCarrying := carrying_registers base
  cases request with
  | iterate h => exact conserves_iterate_registers base h
  | next h =>
      exact conserves_next hCarrying (conserves_advance_registers base h)
        fun _ state => conserves_setState_registers base h state
  | dispose h => exact conserves_dispose hCarrying (conserves_remove_registers base h)
  | release h => exact conserves_releaseHandle hCarrying (conserves_remove_registers base h)
  | _ => trivial

end Session

namespace Interpreter

variable {isDirectory : String → Bool} {entropy : Generator} {settings : EngineSettings}
  {engine : Engine}

/-- A new interpreter has no handles. -/
theorem running_registers (hStart : Engine.start isDirectory entropy settings = .ok engine)
    (root : String) : Running (Session.Registers engine.heap) 0 (ofRuntime engine root) := by
  refine ⟨_, rfl, ⟨HandleTable.consistent_empty, Engine.inOrder_of_start hStart⟩, fun _ => ?_⟩
  exact fun id hMem => absurd hMem List.not_mem_nil

/-- Whatever a host asks for, its handles stand for arrays and iterators. -/
theorem registers_serve (hStart : Engine.start isDirectory entropy settings = .ok engine)
    (root : String) (requests : List Request) :
    ∃ session, ((ofRuntime engine root).serve requests).session = some session ∧
      Session.Registers engine.heap 0 session :=
  running_serve (Session.carrying_registers engine.heap) Session.special_registers
    (running_registers hStart root) requests

end Interpreter

end ArrayBridge
