import ArrayBridge.Proofs.EngineConservation

/-! Reading objects conserves references.

A nest is read item by item through cursors that are made for it. Every item and every
cursor that is met on the way is released, whether or not the walk gets to its end, and no
cursor that was there before is moved. -/

namespace ArrayBridge.Engine

open Heap Operation

variable {guard : Guard} {engine next : Engine} {id : ObjectId}

theorem guards_retain {held : Multiset ObjectId} (hHeld : id ∈ held) (h : Guards guard held engine) :
    Guards guard (id ::ₘ held) (retain id engine).2 := by
  intro hRoom
  obtain ⟨hKnown, hHolds⟩ := h (size_retain engine.heap id ▸ hRoom)
  have hLive := hHolds.balanced.held_live id (Multiset.mem_add.mpr (.inr hHeld))
  exact ⟨hKnown, hHolds.retain hLive⟩

theorem guards_release {held : Multiset ObjectId} (h : Guards guard (id ::ₘ held) engine) :
    Guards guard held (release id engine).2 := by
  intro hRoom
  obtain ⟨hKnown, hHolds⟩ := h (size_releaseAll engine.heap [id] ▸ hRoom)
  exact ⟨hKnown, hHolds.release⟩

theorem conserves_extract (id : ObjectId) :
    Conserves (Guards guard) 0 (extract id) (fun _ => 0) 0 :=
  conserves_of_commits fun _ => commits_extract id

theorem conserves_next (hFree : guard.Frees id) :
    Conserves (Guards guard) 0 (Engine.next id) (fun item => ↑item.toList) 0 :=
  conserves_of_commits fun _ => commits_next id hFree

section Walks

open Flatten

theorem conserves_update_release (id : ObjectId) :
    Conserves (Guards guard) {id}
      (update (ForeignRuntime.release id) : RuntimeOp Engine Unit) (fun _ => 0) 0 := by
  apply conserves_update
  intro frame engine h
  rw [Multiset.zero_add]
  exact guards_release h

/-- A progress that is data becomes the outcome again. -/
theorem conserves_liftExcept (progress : Progress) :
    Conserves (Guards guard) 0 (drain.liftExcept progress) (fun _ => 0) 0 := by
  cases progress with
  | ok values => exact fun _ _ h => h
  | error e => exact fun _ _ h => h

/-- Each item is released after the visit, also if the visit fails. -/
theorem conserves_drain {visit : ObjectId → Array Primitive → RuntimeOp Engine (Array Primitive)}
    (hVisit : ∀ item values, Conserves (Guards guard) 0 (visit item values) (fun _ => 0) 0)
    {iterator : ObjectId} (hFree : guard.Frees iterator) (limit : Nat) (values : Array Primitive) :
    Conserves (Guards guard) 0 (drain visit iterator limit values) (fun _ => 0) 0 := by
  induction limit generalizing values with
  | zero => exact conserves_return rfl
  | succ limit ih =>
      apply (conserves_next hFree).bind
      intro next
      cases next with
      | none => exact conserves_return rfl
      | some item =>
          apply ((hVisit item values).attempt {item} 0).bind
          intro progress
          rw [outcomeReferences_const, Multiset.zero_add]
          apply (conserves_update_release item).bind
          intro _
          exact (conserves_liftExcept progress).bind fun read => ih read

/-- A walk gives up its cursor at the end. -/
theorem conserves_walk {visit : ObjectId → Array Primitive → RuntimeOp Engine (Array Primitive)}
    (hVisit : ∀ item values, Conserves (Guards guard) 0 (visit item values) (fun _ => 0) 0)
    {iterator : ObjectId} (hFree : guard.Frees iterator) (limit : Nat) (values : Array Primitive) :
    Conserves (Guards guard) {iterator} (do
      let progress ← (drain visit iterator limit values).attempt
      update (ForeignRuntime.release iterator)
      drain.liftExcept progress) (fun _ => 0) 0 := by
  apply ((conserves_drain hVisit hFree limit values).attempt {iterator} 0).bind
  intro progress
  rw [outcomeReferences_const, Multiset.zero_add]
  apply (conserves_update_release iterator).bind
  intro _
  exact conserves_liftExcept progress

theorem run_arrayInfo (engine : Engine) (id : ObjectId) :
    (ForeignRuntime.arrayInfo id).run engine = (engine.arrayInfo? id, engine) := rfl

theorem arrayInfo?_of_array {a : NdArray} (hArray : engine.heap.get? id = some (.array a)) :
    engine.arrayInfo? id = some ⟨a.dtype, a.shape, a.address engine.buffers, a.byteSize⟩ := by
  rw [arrayInfo?, hArray]

theorem arrayInfo?_of_number {value : Scalar}
    (hNumber : engine.heap.get? id = some (.ofScalar value)) : engine.arrayInfo? id = none := by
  rw [arrayInfo?, hNumber]
  cases value <;> rfl

theorem primitive_of_number {value : Scalar}
    (hNumber : engine.heap.get? id = some (.ofScalar value)) :
    engine.primitive id = .ok (primitiveOf value) := by
  rw [primitive, object, hNumber]
  cases value <;> rfl

/-- An array without axes is read as its only value. -/
theorem primitive_of_scalar {a : NdArray} {value : Scalar}
    (hArray : engine.heap.get? id = some (.array a))
    (hScalar : a.scalar? engine.buffers = some value) :
    engine.primitive id = .ok (primitiveOf value) := by
  rw [primitive, object, hArray]
  simp only [bind, Except.bind, hScalar]
  rfl

theorem perform_extract {value : Primitive} (hValue : engine.primitive id = .ok value) :
    (ForeignRuntime.extract id : RuntimeOp Engine _).perform engine = (.ok value, engine) := by
  change (extract id).perform engine = _
  rw [extract, perform_get, hValue]
  rfl

/-- Only arrays have a description. -/
theorem array_of_arrayInfo (h : ((ForeignRuntime.arrayInfo id).run engine).1.isSome) :
    ∃ a, engine.heap.get? id = some (.array a) := by
  rw [run_arrayInfo, arrayInfo?] at h
  split at h
  · exact ⟨_, ‹_›⟩
  · cases h

theorem perform_attempt_extract (engine : Engine) (id : ObjectId) :
    ((ForeignRuntime.extract id).attempt : RuntimeOp Engine _).perform engine
      = (.ok (engine.primitive id), engine) := by
  change (match (extract id).perform engine with | (outcome, next) => (Except.ok outcome, next)) = _
  rw [extract, perform_get]
  cases engine.primitive id <;> rfl

theorem perform_itemCount? (engine : Engine) (id : ObjectId) :
    (itemCount? id).perform engine = (.ok (match engine.arrayInfo? id, engine.primitive id with
      | some info, _ => info.shape.head?
      | none, .ok (.tuple items) => some items.length
      | none, _ => none), engine) := by
  rw [itemCount?, perform_bind, perform_always, run_arrayInfo]
  cases engine.arrayInfo? id with
  | some info => rfl
  | none =>
      dsimp only
      rw [perform_bind, perform_attempt_extract]
      cases engine.primitive id with
      | error e => rfl
      | ok value => cases value <;> rfl

/-- A cursor has no items that are counted. -/
theorem not_cursor_of_itemCount? {next : Engine} {count : Nat}
    (h : (itemCount? id).perform engine = (.ok (some count), next)) (cursor : Cursor) :
    engine.object id ≠ .ok (.iterator cursor) := by
  intro hObject
  have hInfo : engine.arrayInfo? id = none := by
    unfold arrayInfo?
    rw [get?_eq_some_iff.mpr (object_eq_ok_iff.mp hObject)]
  have hValue : engine.primitive id = .error (.noHostForm "iterator") := by
    unfold primitive
    rw [hObject]
    rfl
  rw [perform_itemCount?, hInfo, hValue] at h
  cases h

/-- A new cursor has a name that nothing had. -/
theorem isLive_of_createCursor {held : Multiset ObjectId} {source : ObjectId} {length : Nat}
    (hHolds : guard.Holds held engine.heap) (hSource : engine.heap.isLive source = true)
    (hRoom : ((createCursor source length).run engine).2.heap.slots.size ≤ slotLimit) :
    engine.heap.isLive ((createCursor source length).run engine).1 = false := by
  obtain ⟨hNew, -⟩ := occupant?_allocate (.iterator ⟨source, 0, length⟩)
    (hHolds.retain hSource).balanced.vacant hRoom
  rwa [isLive_retain] at hNew

/-- A cursor that is made for a walk was not there before. -/
theorem isLive_of_iterate {held : Multiset ObjectId} {c : ObjectId}
    (hRun : (iterate id).perform engine = (.ok c, next))
    (hObject : ∀ cursor, engine.object id ≠ .ok (.iterator cursor))
    (hHolds : guard.Holds held engine.heap) (hRoom : next.heap.slots.size ≤ slotLimit) :
    engine.heap.isLive c = false := by
  unfold iterate at hRun
  rw [perform_get, perform_check] at hRun
  cases hFound : engine.object id with
  | error e =>
      rw [hFound] at hRun
      cases hRun
  | ok object =>
      have hLive := isLive_of_object hFound
      rw [hFound] at hRun
      dsimp only at hRun
      split at hRun
      · split at hRun
        · cases hRun
        · cases hRun
          exact isLive_of_createCursor hHolds hLive hRoom
      · cases hRun
        exact isLive_of_createCursor hHolds hLive hRoom
      · cases hRun
        exact isLive_of_createCursor hHolds hLive hRoom
      · exact absurd hFound (hObject _)
      · cases hRun

/-- A guard that no heap meets. -/
def noGuard : Guard := ⟨⟨#[], [0], 0⟩, 0, ⟨#[], [0], 0⟩⟩

/-- What meets a guard that no heap meets is an engine without room. -/
theorem guards_noGuard_iff {held : Multiset ObjectId} :
    Guards noGuard held engine ↔ ¬ engine.heap.slots.size ≤ slotLimit := by
  refine imp_congr_right fun hRoom => iff_of_false ?_ (by simp)
  rintro ⟨-, hHolds⟩
  cases hHolds.balanced.settled.free_eq

theorem frees_noGuard (id : ObjectId) : noGuard.Frees id := Guard.frees_nothing _ _ id

/-- A walk through an object that is not a cursor gives up the cursor that it made. -/
theorem conserves_items {visit : ObjectId → Array Primitive → RuntimeOp Engine (Array Primitive)}
    (hVisit : ∀ guard item values,
      Conserves (Guards guard) 0 (visit item values) (fun _ => 0) 0)
    (hObject : ∀ cursor, engine.object id ≠ .ok (.iterator cursor)) (limit : Nat)
    (values : Array Primitive) {frame : Multiset ObjectId} (hBefore : Guards guard frame engine) :
    Guards guard frame ((do
      let iterator ← iterate id
      let progress ← (drain visit iterator limit values).attempt
      update (ForeignRuntime.release iterator)
      drain.liftExcept progress : RuntimeOp Engine (Array Primitive)).perform engine).2 := by
  have hIterate (guard : Guard) : Conserves (Guards guard) 0 (iterate id) ({·}) 0 :=
    conserves_of_commits fun _ => commits_iterate id
  have hMade (guard : Guard) (h : Guards guard frame engine) :=
    hIterate guard frame engine ((Multiset.zero_add frame).symm ▸ h)
  rw [perform_bind]
  cases hRun : (iterate id).perform engine with
  | mk outcome next =>
      simp only [hRun] at hMade
      cases outcome with
      | error e => simpa [outcomeReferences] using hMade guard hBefore
      | ok c =>
          have hWalk (guard : Guard) (hFree : guard.Frees c)
              (h : Guards guard ({c} + frame) next) :=
            conserves_walk (hVisit guard) hFree limit values frame next h
          simp only [outcomeReferences_const, Multiset.zero_add] at hWalk
          by_cases hRoom : next.heap.slots.size ≤ slotLimit
          · have hEarlier : engine.heap.slots.size ≤ slotLimit := by
              by_contra hFull
              exact guards_noGuard_iff.mp (hMade noGuard (guards_noGuard_iff.mpr hFull)) hRoom
            refine hWalk guard (fun hWatched => ?_) (hMade guard hBefore)
            have hHolds := (hBefore hEarlier).2
            have hNew := isLive_of_iterate hRun hObject hHolds hRoom
            rw [hHolds.isLive hWatched] at hNew
            cases hNew
          · -- There is no room any more, so nothing is claimed of what comes.
            have hFull := hWalk noGuard (frees_noGuard c) (guards_noGuard_iff.mpr hRoom)
            exact fun hLater => absurd hLater (guards_noGuard_iff.mp hFull)

/-- Reading a nest releases all items and cursors on the way. -/
theorem conserves_read (depth : Nat) (guard : Guard) (id : ObjectId) (values : Array Primitive) :
    Conserves (Guards guard) 0 (Flatten.read depth id values : RuntimeOp Engine _) (fun _ => 0) 0 := by
  induction depth generalizing guard id values with
  | zero => exact conserves_throw _ _
  | succ depth ih =>
      intro frame engine hBefore
      rw [outcomeReferences_const]
      rw [Multiset.zero_add] at hBefore ⊢
      rw [Flatten.read, perform_bind]
      cases hCount : (itemCount? id).perform engine with
      | mk outcome next =>
          obtain rfl : next = engine := by
            rw [perform_itemCount?] at hCount
            cases hCount
            rfl
          cases outcome with
          | error e => exact hBefore
          | ok count =>
              cases count with
              | none =>
                  have hSingle : Conserves (Guards guard) 0 (do
                      let value ← extract id
                      return values.push value) (fun _ => 0) 0 :=
                    (conserves_extract id).bind fun _ => conserves_return rfl
                  have hAfter := hSingle frame next ((Multiset.zero_add frame).symm ▸ hBefore)
                  rw [outcomeReferences_const, Multiset.zero_add] at hAfter
                  exact hAfter
              | some count =>
                  have hObject := not_cursor_of_itemCount? hCount
                  exact conserves_items (fun guard => ih guard) hObject (count + 1) values hBefore

end Walks

/-- The engine sustains what is guarded. -/
theorem sustaining (guard : Guard) : Sustaining (Guards guard) where
  importModule name := conserves_of_commits fun _ => commits_importModule name
  getAttribute id name := conserves_of_commits fun _ => commits_getAttribute id name
  call id positional keywords := conserves_of_commits fun _ => commits_call id positional keywords
  getItem id key := conserves_of_commits fun _ => commits_getItem id key
  setItem id key value := conserves_of_commits fun _ => commits_setItem id key value
  iterate id := conserves_of_commits fun _ => commits_iterate id
  asArray id := conserves_of_commits fun _ => commits_asArray id
  build value := conserves_of_commits fun _ => commits_build value
  extract id := conserves_extract id
  scalars id := conserves_read _ guard id #[]
  arrayInfo _ _ _ h := h
  retain _ _ _ hHeld h := guards_retain hHeld h
  release _ _ _ h := guards_release h
  releaseBuffer id address _ := moves_releaseBuffer id address

theorem conserving_noGuard : Conserving (Guards noGuard) where
  toSustaining := sustaining noGuard
  next id := conserves_next (frees_noGuard id)

/-- The engine conserves references by its ledger. -/
theorem conserving {base : Heap} : Conserving (InOrder base) := by
  rw [← guards_nothing base base]
  exact ⟨sustaining _, fun id => conserves_next (Guard.frees_nothing base base id)⟩

end ArrayBridge.Engine
