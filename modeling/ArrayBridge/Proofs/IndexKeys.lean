import ArrayBridge.Proofs.Building
import ArrayBridge.Proofs.LocationFaults

/-! The trip of an index expression through its key.

The bridge encodes an index expression as a tuple of objects, and the engine decodes the
selectors from the tuple. The two share no type: a list of positions and a list of flags
both travel as tuples of numbers, and it is from their contents that the engine tells them
apart. That works for every list but the empty one, which holds no number to tell from. -/

namespace ArrayBridge

open Operation Engine Outcome Session

/-! The number of objects that are built for an index. -/

def AxisIndex.objects : AxisIndex → Nat
  | .at _ | full | slice _ => 1
  | fancy positions => positions.length + 1
  | mask flags => flags.length + 1
  | foreign _ => 0

def Index.objects (index : Index) : Nat := (index.items.map AxisIndex.objects).sum + 1

/-- The bridge reports an exception as a fault of the index, for reads and for writes. -/
def Exception.IsIndexing (e : Exception) : Prop :=
  ∀ path isWrite, ∃ fault, indexError path isWrite e = .index fault

theorem Exception.isIndexing_of_kind {e : Exception} (h : e.kind = .indexError) : e.IsIndexing :=
  fun _ _ => ⟨.outOfRange e.message, indexError_of_indexError h⟩

/-- The axes refuse selectors with a fault of the index. -/
theorem Selector.isIndexing_of_resolveFrom {axis : Nat} {selectors : List Selector} {sizes : Shape}
    {e : Exception} (h : resolveFrom axis selectors sizes = .error e) : e.IsIndexing := by
  rcases fault_of_resolveFrom h with hKind | ⟨-, rfl⟩
  · exact Exception.isIndexing_of_kind hKind
  · exact fun _ _ => ⟨_, rfl⟩

/-- A mask that is not as long as its axis refuses the whole index expression. -/
theorem NdArray.locate_of_mask {a : NdArray} {selectors : List Selector} {axis : Nat}
    {flags : Array Bool} (hMask : selectors[axis]? = some (.mask flags))
    (hLength : a.shape[axis]? ≠ some flags.size) :
    ∃ e, a.locate selectors = .error e ∧ e.IsIndexing := by
  unfold locate
  by_cases hRank : a.rank < selectors.length
  · rw [if_pos hRank]
    exact ⟨.tooManyIndices a.rank selectors.length, rfl, fun _ _ => ⟨_, rfl⟩⟩
  · rw [if_neg hRank]
    change ∃ e, (Selector.resolveFrom 0 (a.completed selectors) a.shape >>= fun axes => _) = _ ∧ _
    -- An axis before that of the mask can be refused first, which is a fault of the index too.
    cases hAxes : Selector.resolveFrom 0 (a.completed selectors) a.shape with
    | error e => exact ⟨e, rfl, Selector.isIndexing_of_resolveFrom hAxes⟩
    | ok axes =>
        have hFull := length_completed (Nat.not_lt.mp hRank)
        have hAccepts := (Selector.resolveFrom_isOk_iff 0 hFull).mp ⟨axes, hAxes⟩
        obtain ⟨hBound, hHere⟩ := List.getElem?_eq_some_iff.mp hMask
        have hAxis : axis < a.shape.length := by
          rw [NdArray.rank] at hRank
          omega
        have hSize := hAccepts.get (hFull ▸ hAxis) hAxis
        simp only [completed, List.get_eq_getElem, List.getElem_append_left hBound, hHere] at hSize
        exact (hLength (List.getElem?_eq_some_iff.mpr ⟨hAxis, hSize.symm⟩)).elim

/-- What an array denotes as an index: one of integers its values, a single one like a number,
and one of truth values with one axis a mask. -/
inductive NdArray.Denotes (a : NdArray) (store : BufferStore) : Selector → Prop
  | position {value : Scalar} (hType : a.dtype = .int64) (hValue : a.scalar? store = some value) :
      a.Denotes store (.at value.toInt64)
  | positions (hType : a.dtype = .int64) (hShape : a.shape ≠ []) :
      a.Denotes store (.indices ((a.values store).map Scalar.toInt64) a.shape)
  | flags (hType : a.dtype = .bool) (hRank : a.rank = 1) :
      a.Denotes store (.mask ((a.values store).map Scalar.toBool))

theorem NdArray.Denotes.selector_eq {engine : Engine} {id : ObjectId} {a : NdArray}
    {selector : Selector} (h : a.Denotes engine.buffers selector)
    (hArray : engine.object id = .ok (.array a)) : engine.selector id = .ok selector := by
  rw [Engine.selector, hArray]
  cases h with
  | position hType hValue =>
      simp only [bind, Except.bind, hType, hValue]
      rfl
  | positions hType hShape =>
      have hScalar : a.scalar? engine.buffers = none := if_neg hShape
      simp only [bind, Except.bind, hType, hScalar]
      simp [Engine.selector.ofContents, NdArray.contents, hType]
  | flags hType hRank =>
      simp only [bind, Except.bind, hType]
      simpa [Engine.selector.ofContents, NdArray.contents, Contents.rank, NdArray.rank, hType]
        using hRank

namespace Engine

variable {engine : Engine} {id key value : ObjectId} {values : List Scalar} {a : NdArray}
  {selectors : List Selector} {c : Contents} {e : Exception}

section Decoding

theorem HoldsNumbers.selector_eq (h : engine.HoldsNumbers values id) :
    engine.selector id = selector.ofContents (.ofLeaves [values.length] values) := by
  have hContents := h.arrayContents_eq
  obtain ⟨items, hTuple, -⟩ := h
  rw [Engine.selector, hTuple]
  change engine.arrayContents id >>= _ = _
  rw [hContents]
  rfl

/-- A list of positions is read as an index array, also if it is empty. -/
theorem HoldsNumbers.selector_positions {positions : List Int64}
    (h : engine.HoldsNumbers (positions.map .int) id) :
    engine.selector id = .ok (.ofIndices positions) := by
  rw [h.selector_eq]
  by_cases hSome : positions = []
  · rw [hSome]
    rfl
  · rw [Contents.ofLeaves_of_dtype .int64 (by simpa using hSome)
      (List.forall_mem_map.mpr fun _ _ => rfl)]
    simp [selector.ofContents, Selector.ofIndices, Function.comp_def, Scalar.toInt64]

/-- A list of flags is read as a mask if there are any. -/
theorem HoldsNumbers.selector_flags {flags : List Bool}
    (h : engine.HoldsNumbers (flags.map .bool) id) (hSome : flags ≠ []) :
    engine.selector id = .ok (.mask flags.toArray) := by
  rw [h.selector_eq, Contents.ofLeaves_of_dtype .bool (by simpa using hSome)
    (List.forall_mem_map.mpr fun _ _ => rfl)]
  simp [selector.ofContents, Contents.rank, Function.comp_def, Scalar.toBool]

end Decoding

section Requests

/-! A request is refused for the first of its parts that is: the key, the value, and then what
the array makes of them. -/

theorem perform_getItem_of_selectors (hArray : engine.object id = .ok (.array a))
    (hKey : engine.selectors key = .error e) : (getItem id key).perform engine = (.error e, engine) := by
  rw [getItem, perform_get, perform_check, hArray]
  dsimp only
  rw [perform_check, hKey]

theorem perform_getItem_of_select (hArray : engine.object id = .ok (.array a))
    (hKey : engine.selectors key = .ok selectors)
    (hSelect : a.select engine.buffers selectors = .error e) :
    (getItem id key).perform engine = (.error e, engine) := by
  rw [getItem, perform_get, perform_check, hArray]
  dsimp only
  rw [perform_check, hKey]
  dsimp only
  rw [perform_check, hSelect]

theorem perform_getItem_of_locate (hArray : engine.object id = .ok (.array a))
    (hKey : engine.selectors key = .ok selectors) (hLocate : a.locate selectors = .error e) :
    (getItem id key).perform engine = (.error e, engine) := by
  refine perform_getItem_of_select hArray hKey ?_
  rw [NdArray.select, hLocate]
  rfl

theorem perform_setItem_of_selectors (hArray : engine.object id = .ok (.array a))
    (hKey : engine.selectors key = .error e) :
    (setItem id key value).perform engine = (.error e, engine) := by
  rw [setItem, perform_get, perform_check, hArray]
  dsimp only
  rw [perform_check, hKey]

theorem perform_setItem_of_contents (hArray : engine.object id = .ok (.array a))
    (hKey : engine.selectors key = .ok selectors) (hValue : engine.arrayContents value = .error e) :
    (setItem id key value).perform engine = (.error e, engine) := by
  rw [setItem, perform_get, perform_check, hArray]
  dsimp only
  rw [perform_check, hKey]
  dsimp only
  rw [perform_check, hValue]

theorem perform_setItem_of_assignment (hArray : engine.object id = .ok (.array a))
    (hKey : engine.selectors key = .ok selectors) (hValue : engine.arrayContents value = .ok c)
    (hAssign : a.assignment selectors c = .error e) :
    (setItem id key value).perform engine = (.error e, engine) := by
  rw [setItem, perform_get, perform_check, hArray]
  dsimp only
  rw [perform_check, hKey]
  dsimp only
  rw [perform_check, hValue]
  dsimp only
  rw [perform_check, hAssign]

theorem perform_setItem_of_locate (hArray : engine.object id = .ok (.array a))
    (hKey : engine.selectors key = .ok selectors) (hValue : engine.arrayContents value = .ok c)
    (hLocate : a.locate selectors = .error e) :
    (setItem id key value).perform engine = (.error e, engine) := by
  refine perform_setItem_of_assignment hArray hKey hValue ?_
  rw [NdArray.assignment, hLocate]
  rfl

end Requests

end Engine

namespace Session

variable {α β : Type} {session earlier later : Session Engine}

section Keys

/-- What an index on one axis denotes. A handle has to name an array of positions or a mask. -/
inductive Denotes (session : Session Engine) : AxisIndex → Selector → Prop
  | at (i : Int64) : Denotes session (.at i) (.at i)
  | full : Denotes session .full (.slice .full)
  | slice (bounds : SliceBounds) : Denotes session (.slice bounds) (.slice bounds)
  | fancy (positions : List Int64) : Denotes session (.fancy positions) (.ofIndices positions)
  | mask (flags : List Bool) : Denotes session (.mask flags) (.mask flags.toArray)
  | foreign {h : Handle} {id : ObjectId} {a : NdArray} {selector : Selector}
      (hGet : session.handles.get? h = some id)
      (hArray : session.runtime.object id = .ok (.array a))
      (hDenotes : a.Denotes session.runtime.buffers selector) :
      Denotes session (.foreign h) selector

variable {index : AxisIndex} {selector : Selector}

/-- An index denotes the same while objects are built. -/
theorem Denotes.mono (h : earlier.Denotes index selector) (hExtends : earlier.Extends later) :
    later.Denotes index selector := by
  cases h with
  | «at» i => exact .at i
  | full => exact .full
  | slice bounds => exact .slice bounds
  | fancy positions => exact .fancy positions
  | mask flags => exact .mask flags
  | foreign hGet hArray hDenotes =>
      rw [← hExtends.handles_eq] at hGet
      rw [← hExtends.runtime.buffers_eq] at hDenotes
      exact .foreign hGet (hExtends.runtime.object_eq hArray) hDenotes

/-- The key item of an index is read as what the index denotes. An empty mask has no flags to
tell it from an empty list of positions, so it is left out. -/
theorem builds_axisKey (hDenotes : session.Denotes index selector) (hSome : index ≠ .mask []) :
    Builds index.objects (axisKey index) session
      fun id engine => engine.selector id = .ok selector := by
  cases hDenotes with
  | «at» | full | slice =>
      refine (builds_build _ indexPath rfl).mono fun id engine hObject => ?_
      rw [Engine.selector, hObject]
      rfl
  | fancy positions =>
      rw [AxisIndex.objects, ← List.length_map Scalar.int]
      exact (builds_numbers (.ints positions) rfl).mono
        fun id engine hNumbers => hNumbers.selector_positions
  | mask flags =>
      have hFlags : flags ≠ [] := fun hEmpty => hSome (by rw [hEmpty])
      rw [AxisIndex.objects, ← List.length_map Scalar.bool]
      exact (builds_numbers (.bools flags) rfl).mono
        fun id engine hNumbers => hNumbers.selector_flags hFlags
  | foreign hGet hArray hDenotes =>
      exact builds_handle hGet hArray fun later hExtends =>
        hExtends.selector (hDenotes.selector_eq hArray)

/-- The key of an index expression is read as what the expression denotes. -/
theorem builds_key {index : Index} {selectors : List Selector}
    (hDenotes : List.Forall₂ session.Denotes index.items selectors)
    (hMasks : .mask [] ∉ index.items) :
    Builds index.objects (key index) session
      fun id engine => engine.selectors id = .ok selectors := by
  have hSome : ∀ item ∈ index.items, item ≠ .mask [] := fun item hItem hEmpty =>
    hMasks (hEmpty ▸ hItem)
  have hItems : List.Forall₂ (fun item selector => ∀ later, session.Extends later →
      Builds item.objects (axisKey item) later fun id engine => engine.selector id = .ok selector)
      index.items selectors := by
    refine ((List.forall₂_and_left _ _).mpr ⟨hSome, hDenotes⟩).imp ?_
    rintro item selector ⟨hItem, hDenoted⟩ later hExtends
    exact builds_axisKey (hDenoted.mono hExtends) hItem
  refine (builds_tuple indexPath hItems fun _ _ _ _ hExtends => hExtends.selector).mono
    fun id engine => ?_
  rintro ⟨found, hObject, hFound⟩
  rw [Engine.selectors, hObject]
  exact mapM_eq_ok_iff.mpr hFound

end Keys

variable {h : Handle} {id : ObjectId} {a : NdArray} {index : Index} {selectors : List Selector}
  {e : Exception}

/-- An operation fails with a fault of the index. -/
def RefusesIndex (op : BridgeOp Engine α) (session : Session Engine) : Prop :=
  ∃ fault next, op.perform session = (.error (.index fault), next)

theorem RefusesIndex.bind {op : BridgeOp Engine α} (hOp : RefusesIndex op session)
    (f : α → BridgeOp Engine β) : RefusesIndex (op >>= f) session := by
  obtain ⟨fault, next, hRun⟩ := hOp
  exact ⟨fault, next, by rw [perform_bind, hRun]⟩

theorem perform_arrayInfo (id : ObjectId) (session : Session Engine) :
    (arrayInfo id).perform session = (.ok (session.runtime.arrayInfo? id), session) := rfl

/-- The array behind a handle is found if the index expression suits its rank. -/
theorem perform_target (hGet : session.handles.get? h = some id)
    (hArray : session.runtime.object id = .ok (.array a)) (index : Index) :
    (target h index).perform session = match index.validate a.rank with
      | .ok () => (.ok id, session)
      | .error fault => (.error (.index fault), session) := by
  have hInfo : session.runtime.arrayInfo? id
      = some ⟨a.dtype, a.shape, a.address session.runtime.buffers, a.byteSize⟩ := by
    obtain ⟨references, hOccupant⟩ := object_eq_ok_iff.mp hArray
    rw [arrayInfo?, Heap.get?_eq_some_iff.mpr ⟨references, hOccupant⟩]
  have hFound : (arrayOf h).perform session
      = (.ok (id, ⟨a.dtype, a.shape, a.address session.runtime.buffers, a.byteSize⟩), session) := by
    rw [arrayOf, perform_bind, perform_lookup, hGet]
    dsimp only
    rw [perform_bind, perform_arrayInfo, hInfo]
    rfl
  rw [target, perform_bind, hFound]
  dsimp only
  rw [NdArray.rank]
  cases index.validate a.shape.length <;> rfl

section Reports

/-! What the engine refuses is reported to the host once the objects that were made are released. -/

variable {built found : ObjectId} {now : Session Engine} {value : HostValue}
  (hTarget : (target h index : BridgeOp Engine ObjectId).perform session = (.ok id, session))
  (hKey : (key index : BridgeOp Engine ObjectId).perform session = (.ok found, now))
include hTarget hKey

theorem perform_getObject_of_error
    (hItem : (ForeignRuntime.getItem id found : RuntimeOp Engine ObjectId).perform now.runtime
      = (.error e, now.runtime)) :
    ∃ after, (getObject h index).perform session = (.error (indexError readPath false e), after) := by
  obtain ⟨runtime, handles, root⟩ := now
  rw [getObject, perform_bind, hTarget]
  dsimp only
  rw [perform_bind, hKey]
  dsimp only
  rw [perform_bind, perform_tryRuntime, hItem]
  exact ⟨_, rfl⟩

theorem perform_setItem_of_error
    (hBuilt : (toForeign value : BridgeOp Engine ObjectId).perform now = (.ok built, later))
    (hItem : (ForeignRuntime.setItem id found built : RuntimeOp Engine Unit).perform later.runtime
      = (.error e, later.runtime)) :
    ∃ after, (setItem h index value).perform session
      = (.error (indexError writePath true e), after) := by
  obtain ⟨runtime, handles, root⟩ := later
  rw [setItem, perform_bind, hTarget]
  dsimp only
  rw [perform_bind, hKey]
  dsimp only
  rw [perform_bind, perform_outcome, hBuilt]
  dsimp only
  rw [perform_bind, perform_tryRuntime, hItem]
  exact ⟨_, rfl⟩

/-- A value without an object is not written. -/
theorem perform_setItem_of_value {e : BridgeError}
    (hBuilt : (toForeign value : BridgeOp Engine ObjectId).perform now = (.error e, later)) :
    ∃ after, (setItem h index value).perform session = (.error e, after) := by
  rw [setItem, perform_bind, hTarget]
  dsimp only
  rw [perform_bind, hKey]
  dsimp only
  rw [perform_bind, perform_outcome, hBuilt]
  exact ⟨_, rfl⟩

theorem perform_setItem_of_ok {next : Engine}
    (hBuilt : (toForeign value : BridgeOp Engine ObjectId).perform now = (.ok built, later))
    (hItem : (ForeignRuntime.setItem id found built : RuntimeOp Engine Unit).perform later.runtime
      = (.ok (), next)) :
    ∃ after, (setItem h index value).perform session = (.ok (), after) := by
  obtain ⟨runtime, handles, root⟩ := later
  rw [setItem, perform_bind, hTarget]
  dsimp only
  rw [perform_bind, hKey]
  dsimp only
  rw [perform_bind, perform_outcome, hBuilt]
  dsimp only
  rw [perform_bind, perform_tryRuntime, hItem]
  exact ⟨_, rfl⟩

end Reports

section Refusal

variable (hGet : session.handles.get? h = some id)
  (hArray : session.runtime.object id = .ok (.array a))
  (hDenotes : List.Forall₂ session.Denotes index.items selectors)
  (hMasks : .mask [] ∉ index.items) (hLocate : a.locate selectors = .error e)
  (hIndexing : e.IsIndexing)
include hGet hArray hDenotes hMasks hLocate hIndexing

/-- Elements are not read if the array refuses what the index expression denotes. -/
theorem refusesIndex_getObject (hRoom : session.runtime.HasRoom index.objects) :
    RefusesIndex (getObject h index) session := by
  have hTarget := perform_target hGet hArray index
  cases hValid : index.validate a.rank with
  | error fault =>
      rw [hValid] at hTarget
      exact ⟨fault, session, by rw [getObject, perform_bind, hTarget]⟩
  | ok =>
      rw [hValid] at hTarget
      obtain ⟨key, next, hRun, hExtends, -, hKey⟩ := builds_key hDenotes hMasks 0 hRoom
      obtain ⟨after, hReport⟩ := perform_getObject_of_error hTarget hRun
        (perform_getItem_of_locate (hExtends.runtime.object_eq hArray) hKey hLocate)
      obtain ⟨fault, hFault⟩ := hIndexing readPath false
      exact ⟨fault, after, by rw [hReport, hFault]⟩

/-- A value is not written either. -/
theorem refusesIndex_setItem {value : HostValue} (hValue : session.IsArrayLike value)
    (hRoom : session.runtime.HasRoom (index.objects + value.objects)) :
    RefusesIndex (setItem h index value) session := by
  have hTarget := perform_target hGet hArray index
  cases hValid : index.validate a.rank with
  | error fault =>
      rw [hValid] at hTarget
      exact ⟨fault, session, by rw [setItem, perform_bind, hTarget]⟩
  | ok =>
      rw [hValid] at hTarget
      obtain ⟨key, middle, hRun, hExtends, hMore, hKey⟩ :=
        builds_key hDenotes hMasks value.objects hRoom
      obtain ⟨built, next, hBuilt, hFurther, -, c, hContents⟩ :=
        builds_value (hValue.mono hExtends) 0 hMore
      obtain ⟨after, hReport⟩ := perform_setItem_of_error hTarget hRun hBuilt
        (perform_setItem_of_locate ((hExtends.trans hFurther).runtime.object_eq hArray)
          (hFurther.runtime.selectors hKey) hContents hLocate)
      obtain ⟨fault, hFault⟩ := hIndexing writePath true
      exact ⟨fault, after, by rw [hReport, hFault]⟩

end Refusal

/-- An index expression without empty masks survives the trip through its key: the key is built,
and the engine reads from it the selectors that the expression denotes. So a mask that is not as
long as its axis is refused as a fault of the index, whether elements are read or written. -/
theorem selectors_key (hDenotes : List.Forall₂ session.Denotes index.items selectors)
    (hMasks : .mask [] ∉ index.items) (hRoom : session.runtime.HasRoom index.objects) :
    (∃ id next, (key index).perform session = (.ok id, next) ∧
      next.runtime.selectors id = .ok selectors) ∧
    ∀ (h : Handle) (id : ObjectId) (a : NdArray) (axis : Nat) (flags : List Bool),
      session.handles.get? h = some id → session.runtime.object id = .ok (.array a) →
      index.items[axis]? = some (.mask flags) → a.shape[axis]? ≠ some flags.length →
      RefusesIndex (getItem h index) session ∧
        (∀ type, RefusesIndex (getAs h index type) session) ∧
        ∀ value, session.IsArrayLike value →
          session.runtime.HasRoom (index.objects + value.objects) →
          RefusesIndex (setItem h index value) session := by
  refine ⟨?_, fun h id a axis flags hGet hArray hMask hLength => ?_⟩
  · obtain ⟨id, next, hRun, -, -, hKey⟩ := builds_key hDenotes hMasks 0 hRoom
    exact ⟨id, next, hRun, hKey⟩
  · have hSelector : selectors[axis]? = some (.mask flags.toArray) := by
      obtain ⟨hBound, hHere⟩ := List.getElem?_eq_some_iff.mp hMask
      have hSelectors : axis < selectors.length := hDenotes.length_eq ▸ hBound
      have hAxis := hDenotes.get hBound hSelectors
      rw [List.get_eq_getElem, hHere] at hAxis
      generalize hThere : selectors.get ⟨axis, hSelectors⟩ = selector at hAxis
      cases hAxis
      exact List.getElem?_eq_some_iff.mpr ⟨hSelectors, hThere⟩
    obtain ⟨e, hLocate, hIndexing⟩ := NdArray.locate_of_mask hSelector (by simpa using hLength)
    have hRead := refusesIndex_getObject hGet hArray hDenotes hMasks hLocate hIndexing hRoom
    exact ⟨hRead.bind _, fun type => hRead.bind _, fun value hValue hMore =>
      refusesIndex_setItem hGet hArray hDenotes hMasks hLocate hIndexing hValue hMore⟩

/-- A session with a handle of the array of the first three numbers. -/
def threeNumbers : Session Engine :=
  ⟨.ofObjects [.array ⟨⟨0⟩, .int64, [3], [1], 0⟩] (.ofValues .int64 #[.int 0, .int 1, .int 2]),
    (HandleTable.empty.insert ⟨0, 0⟩ .object).2, "numeric"⟩

theorem hasRoom_threeNumbers (count : Nat) (h : count < Heap.slotLimit) :
    threeNumbers.runtime.HasRoom count where
  consistent := ⟨by simp [threeNumbers, ofObjects], List.nodup_nil, rfl⟩
  fits := by
    change 1 + count ≤ _
    omega

/-- A mask of one flag is read as it was given, and refused by an axis of three elements. -/
theorem selectors_key_short_mask :
    ∃ id next, (key (.axes [.mask [true]])).perform threeNumbers = (.ok id, next) ∧
      next.runtime.selectors id = .ok [.mask #[true]] ∧
      RefusesIndex (getItem (.make 0 1) (.axes [.mask [true]])) threeNumbers ∧
      RefusesIndex (setItem (.make 0 1) (.axes [.mask [true]]) (.int 7)) threeNumbers := by
  have hDenotes : List.Forall₂ threeNumbers.Denotes (Index.axes [.mask [true]]).items
      [.mask #[true]] := .cons (.mask [true]) .nil
  have hLaw := selectors_key hDenotes (by simp [Index.items]) (hasRoom_threeNumbers _ (by decide))
  obtain ⟨id, next, hRun, hKey⟩ := hLaw.1
  obtain ⟨hGet, -, hSet⟩ := hLaw.2 (.make 0 1) ⟨0, 0⟩ _ 0 [true] rfl rfl rfl (by decide)
  exact ⟨id, next, hRun, hKey, hGet, hSet (.int 7) trivial (hasRoom_threeNumbers _ (by decide))⟩

/-- An empty mask has the same key as an empty list of positions. -/
theorem axisKey_mask_nil : (axisKey (.mask []) : BridgeOp Engine ObjectId) = axisKey (.fancy []) :=
  rfl

/-- So an axis of three elements takes an empty mask, and nothing is selected. -/
theorem not_refusesIndex_empty_mask :
    Index.validate 1 (.axes [.mask []]) = .ok () ∧ threeNumbers.Denotes (.mask []) (.mask #[]) ∧
      (∃ id next, (key (.axes [.mask []])).perform threeNumbers = (.ok id, next) ∧
        next.runtime.selectors id = .ok [.indices #[] [0]]) ∧
      ¬ RefusesIndex (getItem (.make 0 1) (.axes [.mask []])) threeNumbers := by
  refine ⟨rfl, .mask [], ⟨_, _, rfl, rfl⟩, ?_⟩
  rintro ⟨fault, next, hRun⟩
  have hOk : ((getItem (.make 0 1) (.axes [.mask []])).perform threeNumbers).1.toBool = true := by
    cbv
  rw [hRun] at hOk
  cases hOk

end Session

end ArrayBridge
