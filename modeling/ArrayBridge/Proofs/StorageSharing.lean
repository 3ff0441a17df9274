import ArrayBridge.Proofs.AdvancedIndexing
import ArrayBridge.Proofs.Atomicity
import ArrayBridge.Proofs.Footprint

/-! Which arrays share storage, and who writes to it.

An array that a request makes has a buffer of its own, except for the views that an index
expression without index arrays, the next row of an array and the new shape of a contiguous
array are. And only an assignment to items of an array and a shuffle of an array write
cells, those of the array that they are asked for. So a copy is never changed through what
it was copied from, and a view always is. -/

namespace ArrayBridge

namespace NdArray

open Outcome

/-- An array is a view of another one if it stands on the same buffer and has only elements of
the other one, as long as that is well-formed. -/
structure IsViewOf (v a : NdArray) (store : BufferStore) : Prop where
  buffer_eq : v.buffer = a.buffer
  elements : a.WellFormed store → ∀ o ∈ v.offsets, o ∈ a.offsets

variable {a : NdArray} {selectors : List Selector}

/-- The number of gathered elements was checked. -/
theorem checked_of_select {store : BufferStore} {c : Contents}
    (hSelect : a.select store selectors = .ok (.fresh c)) : c.Checked := by
  rcases select_eq_ok_iff.mp hSelect with ⟨v, -, hForm⟩ | ⟨shape, offsets, hLocate, -, hForm⟩
  · cases hForm
  · cases hForm
    exact exists_checkedSize_of_gather hLocate

/-- The elements of a view are elements of the array that it was located in. -/
theorem WellFormed.mem_offsets_of_view {v : NdArray} {store : BufferStore} (h : a.WellFormed store)
    (hLocate : a.locate selectors = .ok (.view v)) : ∀ o ∈ v.offsets, o ∈ a.offsets := by
  refine h.mem_offsets_of_locate (fun s hs => ?_) hLocate
  have hPlain := (exists_view_iff hLocate).mp ⟨v, rfl⟩ s hs
  cases s with
  | indices values shape => cases hPlain
  | _ => trivial

/-- The elements of a contiguous array are those of any other shape of the same size. -/
theorem mem_offsets_of_contiguous {shape : Shape} (hContiguous : a.isContiguous = true)
    (hSize : shape.size = a.size) {o : Nat} (h : o ∈ offsets
      ⟨a.buffer, a.dtype, shape, rowMajorStrides shape, a.offset⟩) : o ∈ a.offsets := by
  rw [← Array.mem_toList_iff, toList_offsets_of_isContiguous (isContiguous_of_rowMajor rfl)] at h
  rw [← Array.mem_toList_iff, toList_offsets_of_isContiguous hContiguous, ← hSize]
  exact h

end NdArray

namespace Engine

/-- A call of a built-in function that binds its arguments. -/
structure Calls (engine : Engine) (id : ObjectId) (positional : List ObjectId)
    (keywords : List (String × ObjectId)) (native : Native) (b : CallBindings) : Prop where
  function : engine.object id = .ok (.native native)
  bound : ∃ parameters, native.parameters? = some parameters ∧
    (engine.argumentsOf positional keywords).bind native.name parameters = .ok b

variable {engine : Engine} {id : ObjectId} {positional : List ObjectId}
  {keywords : List (String × ObjectId)} {native other : Native} {b c : CallBindings}

/-- A call is one of one function with one binding. -/
theorem Calls.unique (h : engine.Calls id positional keywords native b)
    (hOther : engine.Calls id positional keywords other c) : native = other ∧ b = c := by
  cases h.function.symm.trans hOther.function
  obtain ⟨parameters, hParameters, hBound⟩ := h.bound
  obtain ⟨others, hOthers, hSame⟩ := hOther.bound
  cases hParameters.symm.trans hOthers
  cases hBound.symm.trans hSame
  exact ⟨rfl, rfl⟩

end Engine

namespace RuntimeRequest

variable {α : Type}

/-- The cells that a request may write: those of the selected part of an array that is assigned
to, and those of an array that is shuffled. -/
def Writes (engine : Engine) : RuntimeRequest α → BufferId → Nat → Prop
  | setItem id key _, buffer, i => ∃ a selectors located, engine.object id = .ok (.array a) ∧
      engine.selectors key = .ok selectors ∧ a.locate selectors = .ok located ∧
        buffer = a.buffer ∧ i ∈ located.offsets
  | call id positional keywords, buffer, i => ∃ b target a,
      engine.Calls id positional keywords (.random .shuffle) b ∧ b.required "x" = .ok target ∧
        engine.object target = .ok (.array a) ∧ buffer = a.buffer ∧ i ∈ a.offsets
  | _, _, _ => False

/-- The array that the answer to a request is a view of: an array with a key that holds no
index array and no mask, the array under an iterator, and a contiguous array that gets a new
shape. -/
def Shows (engine : Engine) : RuntimeRequest α → NdArray → Prop
  | getItem id key, a => engine.object id = .ok (.array a) ∧
      ∃ selectors, engine.selectors key = .ok selectors ∧ ∀ s ∈ selectors, s.isGathering = false
  | next id, a => ∃ cursor, engine.object id = .ok (.iterator cursor) ∧
      engine.object cursor.source = .ok (.array a)
  | call id positional keywords, a => ∃ b source,
      engine.Calls id positional keywords (.numeric .reshape) b ∧ b.required "a" = .ok source ∧
        engine.object source = .ok (.array a) ∧ a.isContiguous = true
  | _, _ => False

/-- The contents that a request can make an array of, by what is known of their shape. -/
def Shapes (engine : Engine) : RuntimeRequest α → Contents → Prop
  | call id positional keywords, c => c.Checked ∨
      ∃ native b, engine.Calls id positional keywords native b ∧ engine.Derives b native c
  | getAttribute id name, c => name = "T" ∧
      ∃ a, engine.object id = .ok (.array a) ∧ c.shape = a.shape.reverse
  | getItem _ _, c => c.Checked
  | asArray id, c => engine.nestContents id = .ok c
  | _, _ => False

/-- An array that a request can make: a view of the array that it shows, or else an array on
a buffer that was not there before. -/
inductive Makes (engine : Engine) (request : RuntimeRequest α) (a : NdArray) : Prop
  | view (source : NdArray) (hShows : request.Shows engine source)
      (hView : a.IsViewOf source engine.buffers) (hSize : a.size ≤ source.size)
  | fresh (c : Contents) (hApart : ∀ source, ¬ request.Shows engine source)
      (hNew : engine.buffers.stored.size ≤ a.buffer.index) (hShapes : request.Shapes engine c)
      (hShape : a.shape = c.shape)

variable {engine : Engine} {request : RuntimeRequest α} {a other : NdArray}

/-- A request shows one array at most. -/
theorem Shows.unique (h : request.Shows engine a) (hOther : request.Shows engine other) :
    a = other := by
  cases request with
  | getItem id key =>
      cases h.1.symm.trans hOther.1
      rfl
  | next id =>
      obtain ⟨cursor, hCursor, hArray⟩ := h
      obtain ⟨again, hAgain, hSame⟩ := hOther
      cases hCursor.symm.trans hAgain
      cases hArray.symm.trans hSame
      rfl
  | call id positional keywords =>
      obtain ⟨b, source, hCalls, hSource, hArray, -⟩ := h
      obtain ⟨c, again, hAgain, hFound, hSame, -⟩ := hOther
      obtain ⟨-, rfl⟩ := hCalls.unique hAgain
      cases hSource.symm.trans hFound
      cases hArray.symm.trans hSame
      rfl
  | _ => exact h.elim

/-- What a request shows is an array of the engine. -/
theorem Shows.exists_object (h : request.Shows engine a) :
    ∃ id, engine.heap.get? id = some (.array a) := by
  have hFound {id : ObjectId} (hObject : engine.object id = .ok (.array a)) :
      ∃ id, engine.heap.get? id = some (.array a) :=
    ⟨id, Heap.get?_eq_some_iff.mpr (Engine.object_eq_ok_iff.mp hObject)⟩
  cases request with
  | getItem id key => exact hFound h.1
  | next id =>
      obtain ⟨cursor, -, hArray⟩ := h
      exact hFound hArray
  | call id positional keywords =>
      obtain ⟨b, source, -, -, hArray, -⟩ := h
      exact hFound hArray
  | _ => exact h.elim

end RuntimeRequest

namespace Engine

open Heap Operation RuntimeRequest

variable {α : Type} {engine : Engine} {id : ObjectId}

/-- The array of an object that was read is stored. -/
theorem Stored.of_object {a : NdArray} (h : engine.Stored) (hObject : engine.object id = .ok (.array a)) :
    a.StoredIn engine.buffers :=
  h id a (get?_eq_some_iff.mpr (object_eq_ok_iff.mp hObject))

/-- What a request does to the storage. -/
abbrev Behaves (engine : Engine) (request : RuntimeRequest α) (action : StateM Engine α) : Prop :=
  Confined (request.Writes engine) (request.Makes engine) engine action

section Requests

theorem behaves_importModule (name : String) :
    Commits (Behaves engine (.importModule name)) (importModule name) engine := by
  apply commits_get
  split
  · exact commits_always (confined_share _)
  · exact commits_throw _

theorem behaves_getAttribute (id : ObjectId) (name : String) :
    Commits (Behaves engine (.getAttribute id name)) (getAttribute id name) engine := by
  refine commits_get (commits_check fun object hObject => ?_)
  split
  · split
    · exact commits_always (confined_share _)
    · exact commits_throw _
  · rename_i a
    split
    · rename_i effect hEffect
      refine commits_always ?_
      unfold arrayAttribute? at hEffect
      split at hEffect
      · cases hEffect
        exact .bind (confined_mapM_create (by simp)) (confined_create (by simp))
      · cases hEffect
        exact confined_create (by simp)
      · cases hEffect
        exact confined_create (by simp)
      · cases hEffect
        exact confined_create (by simp)
      · cases hEffect
        exact confined_create (by simp)
      · cases hEffect
        exact confined_create (by simp)
      · cases hEffect
        refine confined_createFresh fun v hNew hShape => ?_
        exact .fresh _ (fun _ hShows => hShows) hNew ⟨rfl, a, hObject, rfl⟩ hShape
      · cases hEffect
    · exact commits_throw _
  · exact commits_throw _

theorem behaves_call (h : engine.Stored) (id : ObjectId) (positional : List ObjectId)
    (keywords : List (String × ObjectId)) :
    Commits (Behaves engine (.call id positional keywords)) (call id positional keywords) engine := by
  refine commits_get (commits_check fun object hObject => ?_)
  split
  · rename_i native
    refine (plans_nativeCall_performs (fun parameters b effect hParameters hBound hPerforms => ?_)
      fun effect hSampler hSampled => ?_).commits engine
    · have hCalls : engine.Calls id positional keywords native b :=
        ⟨hObject, parameters, hParameters, hBound⟩
      cases hPerforms with
      | originates hNative hOriginates =>
          refine hOriginates.confined fun c a hDerives hNew hShape => ?_
          refine .fresh c ?_ hNew (.inr ⟨native, b, hCalls, hDerives⟩) hShape
          rintro source ⟨again, target, hAgain, -⟩
          exact hNative (hCalls.unique hAgain).1
      | shares => exact confined_share _
      | reshapes target a shape hArgument hArray hContiguous hSize =>
          refine confined_createView ⟨by simp [NdArray.rowMajorStrides], ?_⟩ ?_
          · exact (h.of_object hArray).stored
          · exact .view a ⟨b, target, hCalls, hArgument, hArray, hContiguous⟩
              ⟨rfl, fun _ _ => NdArray.mem_offsets_of_contiguous hContiguous hSize⟩ hSize.le
      | copies target c hArgument hApart hDerives =>
          refine confined_createFresh fun a hNew hShape => ?_
          refine .fresh c ?_ hNew (.inr ⟨_, b, hCalls, hDerives⟩) hShape
          rintro source ⟨again, found, hAgain, hFound, hArray, hContiguous⟩
          obtain ⟨-, rfl⟩ := hCalls.unique hAgain
          cases hArgument.symm.trans hFound
          rw [hApart source hArray] at hContiguous
          cases hContiguous
      | shufflesRows target a hArgument hArray =>
          exact confined_shuffleRows fun i hi => ⟨b, target, a, hCalls, hArgument, hArray, rfl, hi⟩
      | shufflesList target items => exact confined_shuffleList target items
    · refine hSampled.confined fun c a hChecked hNew hShape => ?_
      refine .fresh c ?_ hNew (.inl hChecked) hShape
      rintro source ⟨b, target, hCalls, -⟩
      cases hObject.symm.trans hCalls.function
      cases hSampler
  · exact commits_throw _

theorem behaves_getItem (h : engine.Stored) (id key : ObjectId) :
    Commits (Behaves engine (.getItem id key)) (getItem id key) engine := by
  refine commits_get (commits_check fun object hObject => ?_)
  split
  · rename_i a
    refine commits_check fun selectors hSelectors => commits_check fun form hSelect => ?_
    split
    · rename_i v
      obtain ⟨found, hLocate, hForm⟩ | ⟨shape, offsets, -, -, hForm⟩ :=
        NdArray.select_eq_ok_iff.mp hSelect <;> cases hForm
      obtain ⟨hStored, hBuffer, hSize⟩ := (h.of_object hObject).view_of_locate hLocate
      refine commits_always (confined_createResult (confined_createView hStored ?_))
      refine .view a ⟨hObject, selectors, hSelectors, ?_⟩
        ⟨hBuffer, fun hFormed => hFormed.mem_offsets_of_view hLocate⟩ hSize
      exact (NdArray.exists_view_iff hLocate).mp ⟨v, rfl⟩
    · rename_i c
      refine commits_always (confined_createFresh fun v hNew hShape => ?_)
      refine .fresh c ?_ hNew (NdArray.checked_of_select hSelect) hShape
      rintro source ⟨hSource, others, hOthers, hPlain⟩
      cases hObject.symm.trans hSource
      cases hSelectors.symm.trans hOthers
      obtain ⟨located, hLocate, hForm⟩ := Outcome.bind_eq_ok_iff.mp hSelect
      obtain ⟨found, rfl⟩ := (NdArray.exists_view_iff hLocate).mpr hPlain
      cases hForm
  · exact commits_check fun _ _ => commits_always (confined_share _)
  · exact commits_check fun _ _ => commits_always (confined_share _)
  · exact commits_throw _

theorem behaves_setItem (id key value : ObjectId) :
    Commits (Behaves engine (.setItem id key value)) (setItem id key value) engine := by
  refine commits_get (commits_check fun object hObject => ?_)
  split
  · rename_i a
    refine commits_check fun selectors hSelectors => commits_check fun contents _ =>
      commits_check fun writes hWrites => commits_always (confined_write fun i hi => ?_)
    obtain ⟨located, hLocate, hWrites⟩ := Outcome.bind_eq_ok_iff.mp hWrites
    obtain ⟨values, -, hWrites⟩ := Outcome.bind_eq_ok_iff.mp hWrites
    cases hWrites
    obtain ⟨entry, hEntry, rfl⟩ := List.mem_map.mp hi
    exact ⟨a, selectors, located, hObject, hSelectors, hLocate, rfl,
      Array.mem_toList_iff.mp (List.of_mem_zip hEntry).1⟩
  · refine commits_check fun position _ => commits_always (.bind (confined_retain _) ?_)
    exact .bind (confined_replace (by simp)) (confined_release _)
  · exact commits_throw _

theorem behaves_createCursor {request : RuntimeRequest ObjectId} (source : ObjectId) (length : Nat) :
    Behaves engine request (createCursor source length) :=
  .bind (confined_retain _) (confined_create (by simp))

theorem behaves_iterate (id : ObjectId) :
    Commits (Behaves engine (.iterate id)) (iterate id) engine := by
  refine commits_get (commits_check fun object hObject => ?_)
  split
  · split
    · exact commits_throw _
    · exact commits_always (behaves_createCursor _ _)
  · exact commits_always (behaves_createCursor _ _)
  · exact commits_always (behaves_createCursor _ _)
  · exact commits_always (confined_share _)
  · exact commits_throw _

/-- A row of an array is a view of it. -/
theorem behaves_itemAt (h : engine.Stored) {cursor : Cursor}
    (hCursor : engine.object id = .ok (.iterator cursor)) :
    Commits (Confined ((RuntimeRequest.next id).Writes engine)
      ((RuntimeRequest.next id).Makes engine) engine) (engine.itemAt cursor) engine := by
  refine commits_check fun object hObject => ?_
  split
  · rename_i a
    refine commits_check fun row hSelect => commits_always (confined_createResult ?_)
    obtain ⟨located, hLocate, hForm⟩ := Outcome.bind_eq_ok_iff.mp hSelect
    obtain ⟨v, rfl⟩ := (NdArray.exists_view_iff hLocate).mpr (by simp [Selector.isGathering])
    cases hForm
    obtain ⟨hStored, hBuffer, hSize⟩ := (h.of_object hObject).view_of_locate hLocate
    exact confined_createView hStored (.view a ⟨cursor, hCursor, hObject⟩
      ⟨hBuffer, fun hFormed => hFormed.mem_offsets_of_view hLocate⟩ hSize)
  · exact commits_always (confined_share _)
  · exact commits_always (confined_share _)
  · exact commits_throw _

theorem behaves_next (h : engine.Stored) (id : ObjectId) :
    Commits (Behaves engine (.next id)) (next id) engine := by
  refine commits_get (commits_check fun object hObject => ?_)
  split
  · split
    · exact commits_pure (.refl engine)
    · exact (behaves_itemAt h hObject).andThen fun effect hItem =>
        .bind hItem (.bind (confined_replace (by simp)) (.refl _))
  · exact commits_throw _

theorem behaves_asArray (id : ObjectId) :
    Commits (Behaves engine (.asArray id)) (asArray id) engine := by
  refine commits_get (commits_check fun form hForm => ?_)
  split
  · exact commits_always (confined_share _)
  · rename_i c
    refine commits_always (confined_createFresh fun a hNew hShape => ?_)
    rcases arrayForm_eq_ok hForm with ⟨a, -, hEq⟩ | ⟨-, found, hNest, hEq⟩
    · cases hEq
    · cases hEq
      exact .fresh c (fun _ hShows => hShows) hNew hNest hShape

theorem behaves_build (value : Primitive) :
    Commits (Behaves engine (.build value)) (build value) engine := by
  refine commits_always ?_
  cases value with
  | none => exact confined_createNone
  | noValue => exact confined_retain _
  | _ => exact confined_create (by simp [objectOf])

/-- What a request does to the storage is what it is asked for. -/
theorem behaves_request (h : engine.Stored) (request : RuntimeRequest α) :
    Commits (Behaves engine request) request.operation engine := by
  cases request with
  | importModule name => exact behaves_importModule name
  | getAttribute id name => exact behaves_getAttribute id name
  | call id positional keywords => exact behaves_call h id positional keywords
  | getItem id key => exact behaves_getItem h id key
  | setItem id key value => exact behaves_setItem id key value
  | iterate id => exact behaves_iterate id
  | next id => exact behaves_next h id
  | asArray id => exact behaves_asArray id
  | build value => exact behaves_build value
  | extract id => exact commits_get (commits_lift fun _ => .refl engine)

end Requests

end Engine

/-- What can be asked of a runtime: a request, which can be refused, or one of the things that
always happen. -/
inductive Access : Type 1 where
  | request {α : Type} (request : RuntimeRequest α)
  | describe (id : ObjectId)
  | retain (id : ObjectId)
  | release (id : ObjectId)
  | releaseBuffer (id : ObjectId) (address : Nat)
  | finalize

namespace Access

/-- The state after an access. -/
def after {σ : Type} [ForeignRuntime σ] (state : σ) : Access → σ
  | request asked => asked.after state
  | describe id => ((ForeignRuntime.arrayInfo id).run state).2
  | retain id => ForeignRuntime.retain id state
  | release id => ForeignRuntime.release id state
  | releaseBuffer id address => ((ForeignRuntime.releaseBuffer id address).run state).2
  | finalize => ForeignRuntime.finalize state

/-- The cells that an access may write. -/
def Writes (engine : Engine) : Access → BufferId → Nat → Prop
  | request asked => asked.Writes engine
  | _ => fun _ _ => False

/-- The array that the answer to an access is a view of. -/
def Shows (engine : Engine) : Access → NdArray → Prop
  | request asked => asked.Shows engine
  | _ => fun _ => False

/-- An array that an access can make. -/
def Makes (engine : Engine) : Access → NdArray → Prop
  | request asked => asked.Makes engine
  | _ => fun _ => False

end Access

namespace Engine

open Heap Operation RuntimeRequest

variable {engine : Engine}

/-- Releasing a buffer is releasing an object, or nothing. -/
theorem footprint_releaseBuffer {written : BufferId → Nat → Prop} {made : NdArray → Prop}
    (id : ObjectId) (address : Nat) :
    Footprint written made engine (releaseBuffer id address engine).2 := by
  unfold releaseBuffer
  split
  · exact .refl engine
  · split
    · exact confined_release id
    · exact .refl engine
  · exact .refl engine

/-- What an access does to the storage is what it is asked for. -/
theorem footprint_of_access (h : engine.Stored) (access : Access) :
    Footprint (access.Writes engine) (access.Makes engine) engine (access.after engine) := by
  cases access with
  | request asked => exact footprint_of_commits (behaves_request h asked)
  | describe id => exact .refl engine
  | retain id => exact confined_retain id
  | release id => exact confined_release id
  | releaseBuffer id address => exact footprint_releaseBuffer id address
  | finalize =>
      change Footprint _ _ engine (finalize engine)
      unfold finalize
      split
      · exact .refl engine
      · exact .of_heap rfl fun id a hNow => by simp [clear, empty, get?, occupant?] at hNow

/-- A square of numbers on the only buffer. -/
def square : NdArray := ⟨⟨0⟩, .int64, [2, 2], [2, 1], 0⟩

/-- An engine with a square of numbers and the number one. -/
def withSquare : Engine where
  heap := ⟨#[⟨0, some ⟨1, .array square⟩⟩, ⟨0, some ⟨1, .int 1⟩⟩], [], 2⟩
  buffers := (NdArray.allocate .empty ⟨.int64, [2, 2], #[.int 1, .int 2, .int 3, .int 4]⟩).2
  generator := ⟨7⟩
  entropy := ⟨11⟩
  names := default

end Engine

end ArrayBridge
