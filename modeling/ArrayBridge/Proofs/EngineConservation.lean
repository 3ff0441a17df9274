import ArrayBridge.Proofs.Effects
import ArrayBridge.Proofs.Outcome
import ArrayBridge.Proofs.Selection

/-! The engine conserves references.

Each operation of the protocol commits: it refuses its operands without a trace, or goes
on to an action that moves references as the protocol says. -/

namespace ArrayBridge.Engine

open Heap Operation Outcome

variable {base : Heap} {guard : Guard} {engine : Engine} {id : ObjectId}

theorem commits_importModule (name : String) :
    Commits (Yields guard engine) (importModule name) engine := by
  apply commits_get
  split
  · rename_i id hModule
    refine commits_always (yields_share_known ?_)
    obtain ⟨before, after, hSplit, -⟩ := List.lookup_eq_some_iff.mp hModule
    simp [Namespace.objects, hSplit]
  · exact commits_throw _

section Attributes

/-- Objects without children are made one after the other. -/
theorem moves_mapM_create {objects : List Object}
    (hPlain : ∀ o ∈ objects, o.isFixed = true ∧ o.children = []) :
    Moves (Guards guard) 0 (objects.mapM create) (fun ids => ↑ids) engine := by
  induction objects generalizing engine with
  | nil => exact moves_return rfl
  | cons object objects ih =>
      obtain ⟨hFixed, hChildren⟩ := hPlain object (by simp)
      rw [List.mapM_cons]
      refine Moves.bind (yields_create hFixed hChildren) ?_
      have hRest := (@ih ((create object).run engine).2 fun o ho =>
        hPlain o (List.mem_cons_of_mem _ ho)).beside {((create object).run engine).1}
      refine Moves.bind hRest ?_
      rw [Multiset.add_comm, Multiset.singleton_add, Multiset.cons_coe]
      exact moves_return rfl

theorem yields_createTuple {objects : List Object}
    (hPlain : ∀ o ∈ objects, o.isFixed = true ∧ o.children = []) :
    Yields guard engine (createTuple objects) := by
  refine Moves.bind (moves_mapM_create hPlain) ?_
  generalize (objects.mapM create).run engine = made
  obtain ⟨ids, next⟩ := made
  exact moves_create (.tuple ids) fun _ _ => trivial

theorem yields_arrayAttribute {a : NdArray} {name : String} {effect : Effect}
    (h : engine.arrayAttribute? a name = some effect) : Yields guard engine effect := by
  unfold arrayAttribute? at h
  split at h
  · cases h
    exact yields_createTuple (by simp [Object.isFixed, Object.children])
  · cases h
    exact yields_create rfl rfl
  · cases h
    exact yields_create rfl rfl
  · cases h
    exact yields_create rfl rfl
  · cases h
    exact yields_create rfl rfl
  · cases h
    exact yields_create rfl rfl
  · cases h
    exact yields_createFresh _
  · cases h

theorem commits_getAttribute (id : ObjectId) (name : String) :
    Commits (Yields guard engine) (getAttribute id name) engine := by
  refine commits_get (commits_check fun object hObject => ?_)
  split
  · rename_i m
    split
    · rename_i member hMember
      refine commits_always (yields_share fun held h => isLive_of_child h hObject ?_)
      obtain ⟨before, after, hSplit, -⟩ := List.lookup_eq_some_iff.mp hMember
      simp [Object.children, hSplit]
    · exact commits_throw _
  · split
    · rename_i effect hEffect
      exact commits_always (yields_arrayAttribute hEffect)
    · exact commits_throw _
  · exact commits_throw _

end Attributes

theorem commits_call (id : ObjectId) (positional : List ObjectId)
    (keywords : List (String × ObjectId)) :
    Commits (Yields guard engine) (call id positional keywords) engine := by
  refine commits_get (commits_check fun object _ => ?_)
  split
  · exact commits_nativeCall _ _
  · exact commits_throw _

section Items

theorem returns_sequencePosition {length : Nat} {key : ObjectId} :
    Returns (· < length) (engine.sequencePosition length key) := by
  apply returns_bind
  intro index _
  extract_lets position resolved
  split
  · rename_i hRange
    refine returns_pure ?_
    omega
  · exact returns_error _

/-- An item of a sequence is live. -/
theorem isLive_of_item {held : Multiset ObjectId} {object : Object} {items : List ObjectId}
    {position : Nat} (h : base.Balanced held engine.heap) (hObject : engine.object id = .ok object)
    (hItems : object.children = items) (hPosition : position < items.length) :
    engine.heap.isLive (items.getD position default) = true := by
  refine isLive_of_child h hObject ?_
  rw [hItems, List.getD_eq_getElem?_getD, List.getElem?_eq_getElem hPosition, Option.getD_some]
  exact List.getElem_mem hPosition

theorem commits_getItem (id key : ObjectId) :
    Commits (Yields guard engine) (getItem id key) engine := by
  refine commits_get (commits_check fun object hObject => ?_)
  split
  · refine commits_check fun selectors _ => commits_check fun selected hSelect => ?_
    split
    · refine commits_always (yields_createResult fun held h => ?_)
      exact (anchored_of_object h hObject).select hSelect
    · exact commits_always (yields_createFresh _)
  · refine commits_check fun position hPosition => commits_always (yields_share fun held h => ?_)
    exact isLive_of_item h hObject rfl (returns_sequencePosition position hPosition)
  · refine commits_check fun position hPosition => commits_always (yields_share fun held h => ?_)
    exact isLive_of_item h hObject rfl (returns_sequencePosition position hPosition)
  · exact commits_throw _

theorem commits_setItem (id key value : ObjectId) :
    Commits (fun action => Moves (Guards guard) 0 action (fun _ => 0) engine)
      (setItem id key value) engine := by
  refine commits_get (commits_check fun object hObject => ?_)
  split
  · refine commits_check fun selectors _ => commits_check fun contents _ =>
      commits_check fun writes _ => ?_
    exact commits_always (moves_onBuffers _)
  · refine commits_check fun position _ => commits_always (moves_of_list hObject ?_)
    exact (size_releaseAll _ _).trans ((size_replace _ _ _).trans (size_retain _ _))
  · exact commits_throw _

end Items

section Cursors

/-- An effect leaves the live objects as they are. -/
def Keeps (guard : Guard) (engine : Engine) (effect : Effect) : Prop :=
  ∀ held id, Guards guard held engine →
    (effect.run engine).2.heap.slots.size ≤ slotLimit → engine.heap.isLive id = true →
      (effect.run engine).2.heap.get? id = engine.heap.get? id

theorem keeps_share (c : ObjectId) : Keeps guard engine (share c) :=
  fun _ id _ _ _ => get?_retain engine.heap c id

theorem keeps_create (object : Object) : Keeps guard engine (create object) := by
  intro held id hOrder hRoom hLive
  obtain ⟨-, hHolds⟩ := hOrder (Nat.le_trans (size_le_size_allocate _ _) hRoom)
  exact hHolds.balanced.get?_allocate object hLive

theorem keeps_createArray (form : ArrayForm) : Keeps guard engine (createArray form) := by
  intro held id hOrder
  have hRealized : Guards guard held ((onBuffers form.realize).run engine).2 := hOrder
  exact keeps_create _ held id hRealized

theorem keeps_createResult (form : ArrayForm) : Keeps guard engine (createResult form) := by
  unfold Keeps
  rw [run_createResult]
  split
  · exact keeps_create _
  · exact keeps_createArray form

/-- The source of a cursor has an item at each position before its end. -/
theorem lt_length_of_cursor {held : Multiset ObjectId} {cursor : Cursor} {items : List ObjectId}
    (h : base.Balanced held engine.heap) (hCursor : engine.object id = .ok (.iterator cursor))
    (hItems : engine.object cursor.source = .ok (.tuple items))
    (hPosition : cursor.position < cursor.length) : cursor.position < items.length := by
  obtain ⟨references, hOccupant⟩ := object_eq_ok_iff.mp hCursor
  exact Nat.lt_of_lt_of_le hPosition
    (h.admitted id _ hOccupant items (get?_eq_some_iff.mpr (object_eq_ok_iff.mp hItems)))

theorem commits_itemAt {cursor : Cursor} (hCursor : engine.object id = .ok (.iterator cursor))
    (hPosition : cursor.position < cursor.length) :
    Commits (fun effect => Yields guard engine effect ∧ Keeps guard engine effect)
      (engine.itemAt cursor) engine := by
  refine commits_check fun object hObject => ?_
  split
  · refine commits_check fun row hSelect => ?_
    refine commits_always ⟨yields_createResult fun held h => ?_, keeps_createResult _⟩
    exact (anchored_of_object h hObject).select hSelect
  · refine commits_always ⟨yields_share fun held h => ?_, keeps_share _⟩
    exact isLive_of_item h hObject rfl (lt_length_of_cursor h hCursor hObject hPosition)
  · refine commits_always ⟨yields_share fun held h => ?_, keeps_share _⟩
    exact (not_object_list h hObject).elim
  · exact commits_throw _

/-- Moving a cursor moves no references. -/
theorem moves_advance {taken : Multiset ObjectId} {cursor : Cursor}
    (hCursor : engine.heap.slots.size ≤ slotLimit →
      engine.heap.get? id = some (.iterator cursor)) (hFree : guard.Frees id) :
    Moves (Guards guard) taken (advance id cursor) (fun _ => taken) engine := by
  refine moves_onHeap (size_replace _ _ _).ge fun frame _ ⟨hKnown, hHolds⟩ => ⟨hKnown, ?_⟩
  exact hHolds.advance (hCursor hHolds.balanced.small) _ hFree

theorem commits_next (id : ObjectId) (hFree : guard.Frees id) :
    Commits (fun action => Moves (Guards guard) 0 action (fun item => ↑item.toList) engine)
      (next id) engine := by
  refine commits_get (commits_check fun object hObject => ?_)
  split
  · rename_i cursor
    split
    · exact commits_pure fun _ h => h
    · rename_i hPosition
      have hItem : Commits (fun effect => Yields guard engine effect ∧ Keeps guard engine effect)
          (engine.itemAt cursor) engine := commits_itemAt hObject (Nat.lt_of_not_le hPosition)
      apply hItem.andThen
      intro effect ⟨hYields, hKeeps⟩ frame hBefore
      -- The cursor is still there when the item was found.
      refine moves_advance (fun hRoom => ?_) hFree frame (hYields frame hBefore)
      have hSame := hKeeps _ id hBefore hRoom (isLive_of_object hObject)
      exact hSame.trans (get?_eq_some_iff.mpr (object_eq_ok_iff.mp hObject))
  · exact commits_throw _

/-- A new cursor keeps its source. -/
theorem yields_createCursor {source : ObjectId} {object : Object} {length : Nat}
    (hSource : engine.object source = .ok object)
    (hCovers : ∀ items, object = .tuple items → length ≤ items.length) :
    Yields guard engine (createCursor source length) := by
  refine Moves.bind (moves_retain fun _ _ => isLive_of_object hSource) ?_
  refine moves_create (.iterator ⟨source, 0, length⟩) fun _ _ items hItems => ?_
  have hFound : engine.heap.get? source = some (.tuple items) := by
    rw [← get?_retain engine.heap source source]
    exact hItems
  rw [get?_eq_some_iff.mpr (object_eq_ok_iff.mp hSource), Option.some.injEq] at hFound
  exact hCovers items hFound

theorem commits_iterate (id : ObjectId) : Commits (Yields guard engine) (iterate id) engine := by
  refine commits_get (commits_check fun object hObject => ?_)
  split
  · split
    · exact commits_throw _
    · exact commits_always (yields_createCursor hObject (by simp))
  · exact commits_always (yields_createCursor hObject (by simp))
  · exact commits_always (yields_createCursor hObject (by simp))
  · exact commits_always (yields_share fun _ _ => isLive_of_object hObject)
  · exact commits_throw _

end Cursors

section Values

theorem commits_asArray (id : ObjectId) : Commits (Yields guard engine) (asArray id) engine := by
  refine commits_get (commits_check fun form hForm => ?_)
  split
  · obtain ⟨object, hObject, -⟩ := bind_eq_ok_iff.mp hForm
    exact commits_always (yields_share fun _ _ => isLive_of_object hObject)
  · exact commits_always (yields_createFresh _)

theorem commits_build (value : Primitive) :
    Commits (fun action => Moves (Guards guard) ↑value.references action ({·}) engine)
      (build value) engine := by
  refine commits_always ?_
  cases value with
  | none => exact yields_createNone
  | noValue => exact Moves.of_run_eq rfl (yields_share_known (by simp [Namespace.objects]))
  | tuple items => exact moves_create (.tuple items) fun _ _ => trivial
  | _ => exact yields_create rfl rfl

theorem commits_extract (id : ObjectId) :
    Commits (fun action => Moves (Guards guard) 0 action (fun _ => 0) engine) (extract id) engine :=
  commits_get (commits_lift fun _ _ h => h)

/-- The reference of a buffer is released if the address is right, and kept if not. -/
theorem moves_releaseBuffer (id : ObjectId) (address : Nat) :
    Moves (Guards guard) {id} (releaseBuffer id address)
      (fun status => if status = 0 then 0 else {id}) engine := by
  intro frame hBefore
  generalize hResult : (releaseBuffer id address).run engine = result
  simp only [releaseBuffer, StateT.run] at hResult
  split at hResult
  · subst hResult
    exact hBefore
  · split at hResult
    · subst hResult
      exact moves_release frame hBefore
    · subst hResult
      exact hBefore
  · subst hResult
    exact hBefore

theorem size_releaseBuffer (id : ObjectId) (address : Nat) (engine : Engine) :
    ((ForeignRuntime.releaseBuffer id address).run engine).2.heap.slots.size
      = engine.heap.slots.size := by
  change (releaseBuffer id address engine).2.heap.slots.size = _
  unfold releaseBuffer
  split
  · rfl
  · split
    · exact size_releaseAll _ _
    · rfl
  · rfl

/-- A name of an array whose elements start at an address. -/
def HasArrayAt (engine : Engine) (id : ObjectId) (address : Nat) : Prop :=
  ∃ a, engine.heap.get? id = some (.array a) ∧ a.address engine.buffers = address

/-- The object and its address decide, and only success changes anything. -/
theorem run_releaseBuffer (hLive : engine.heap.isLive id = true) (address : Nat) :
    engine.HasArrayAt id address ∧ (ForeignRuntime.releaseBuffer id address).run engine
        = (0, { engine with heap := engine.heap.release id }) ∨
      ¬ engine.HasArrayAt id address ∧
        (ForeignRuntime.releaseBuffer id address).run engine = (2, engine) := by
  obtain ⟨⟨references, object⟩, hOccupant⟩ := isLive_iff.mp hLive
  have hGet := get?_eq_some_iff.mpr ⟨references, hOccupant⟩
  have hRun : (ForeignRuntime.releaseBuffer id address).run engine
      = releaseBuffer id address engine := rfl
  rw [hRun, releaseBuffer, hGet]
  cases object with
  | array a =>
      by_cases hAddress : a.address engine.buffers = address
      · refine .inl ⟨⟨a, hGet, hAddress⟩, ?_⟩
        dsimp only
        rw [if_pos hAddress]
        rfl
      · refine .inr ⟨?_, if_neg hAddress⟩
        rintro ⟨other, hOther, hFound⟩
        cases hGet.symm.trans hOther
        exact hAddress hFound
  | _ =>
      refine .inr ⟨?_, rfl⟩
      rintro ⟨other, hOther, -⟩
      cases hGet.symm.trans hOther

end Values

end ArrayBridge.Engine
