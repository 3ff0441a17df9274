import ArrayBridge.Proofs.AccessFaults

/-! What the host learns about an access to elements.

After the handle and the form of the index expression, the handles in the key and the value are
looked at, then what the engine reads from them, and the shapes last. The host learns of the first
fault in this order, and of no other. An access without a fault succeeds. -/

namespace ArrayBridge

open Operation Engine

namespace ElementAccess

open Session

variable {session now : Session Engine} {access : ElementAccess}
  {fault other : AccessFault} {e : BridgeError}

section Engine

variable {id : ObjectId} {a : NdArray} {engine : Engine} {selectors : List Selector}

/-- What the bridge makes of an exception of the engine. -/
def blame (access : ElementAccess) (e : Exception) : BridgeError :=
  match access with
  | read _ _ => indexError readPath false e
  | write _ _ _ => indexError writePath true e

theorem blame_of_indexError {e : Exception} (h : e.kind = .indexError) :
    access.blame e = .index (.outOfRange e.message) := by
  cases access <;> exact indexError_of_indexError h

theorem blame_cannotBroadcastInto {h : Handle} {index : Index} {value : HostValue}
    (source target : Shape) : (write h index value).blame (.cannotBroadcastInto source target)
      = .index (.shape (Exception.cannotBroadcastInto source target).message) :=
  indexError_of_valueError rfl (not_mentions_cannotBroadcastInto source target)

theorem blame_shapeTooBig (shape : Shape) :
    access.blame (.shapeTooBig shape) = access.report (.shapeTooBig shape) := by
  cases access <;> exact indexError_of_valueError rfl (not_mentions_shapeTooBig shape)

/-- If all handles are registered, the engine is next. -/
theorem Admitted.clear_notIndex (h : Admitted session access id a)
    (hItems : session.IndexRegistered access.index)
    (hValue : ∀ value, access.value? = some value → session.Registered value) :
    ClearBefore session access .notIndex := by
  refine h.clear.next (fun e hFaulty => ?_) rfl
  cases hFaulty with
  | deadOperand hUses hGet =>
      rcases hUses with hItem | hHandle
      · obtain ⟨found, hSome⟩ := hItems _ hItem
        cases hSome.symm.trans hGet
      · obtain ⟨found, hSome⟩ := hValue _ hHandle _ rfl
        cases hSome.symm.trans hGet

/-- The indices of an admitted access do not stand still. -/
theorem Admitted.selectors_move (h : Admitted session access id a)
    (hSelects : List.Forall₂ session.Selects access.index.items selectors) :
    ∀ s ∈ selectors, s.Moves := by
  have hStill : ∀ item ∈ access.index.items, item.hasZeroStep ≠ true :=
    fun item hMem hZero => h.moves ⟨item, hMem, hZero⟩
  have hMoves : List.Forall₂ (fun (s : Selector) item => s.Moves ∧ session.Selects item s)
      selectors access.index.items := by
    refine (((List.forall₂_and_left _ _).mpr ⟨hStill, hSelects⟩).imp ?_).flip
    rintro item s ⟨hItem, hSelected⟩
    refine ⟨?_, hSelected⟩
    cases hSelected with
    | slice bounds => exact fun hZero => hItem (decide_eq_true hZero)
    | full => exact fun hZero => by cases hZero
    | foreign hNames hSelected =>
        cases hSelected with
        | denoted hDenotes => cases hDenotes <;> trivial
        | nothing => trivial
    | _ => trivial
  exact ((List.forall₂_and_left _ _).mp hMoves).1

theorem Admitted.length_le (h : Admitted session access id a)
    (hSelects : List.Forall₂ session.Selects access.index.items selectors) :
    selectors.length ≤ a.rank := by
  have hRank := h.rank
  rw [← hSelects.length_eq]
  cases hIndex : access.index with
  | offsets positions =>
      rw [hIndex] at hRank
      exact ((List.length_map _).trans hRank).le
  | axes indices =>
      rw [hIndex] at hRank
      exact hRank

/-- The key is read before all else. -/
theorem decoded_or_faulty {key : ObjectId} (hKey : HoldsKey session engine access.index key)
    (hClear : ClearBefore session access .notIndex) :
    (∃ e, engine.selectors key = .error e ∧ Faulty session access .notIndex (access.blame e)) ∨
    ∃ selectors, List.Forall₂ session.Selects access.index.items selectors ∧
      engine.selectors key = .ok selectors ∧ ClearBefore session access .notArrayLike := by
  rcases hKey.selectors_eq with ⟨selectors, hSelects, hRead⟩ | ⟨hNoIndex, e, hRead, hKind⟩
  · refine .inr ⟨selectors, hSelects, hRead, hClear.next (fun e hFaulty => ?_) rfl⟩
    cases hFaulty with
    | notIndex message hNoIndex => exact not_selects_of_isNoIndex hNoIndex hSelects
  · refine .inl ⟨e, hRead, ?_⟩
    rw [blame_of_indexError hKind]
    exact .notIndex e.message hNoIndex

/-- Where an index expression leads is the last thing to look at, except for the shape of a value
that is written. -/
theorem Admitted.located_or_faulty (h : Admitted session access id a) (hAnchored : a.Anchored)
    (hSelects : List.Forall₂ session.Selects access.index.items selectors)
    (hClear : ClearBefore session access .outside) :
    (∃ e fault, a.locate selectors = .error e ∧ Faulty session access fault (access.blame e) ∧
      ClearBefore session access fault) ∨
    ∃ located, a.locate selectors = .ok located ∧ a.SelectionShape selectors located.shape ∧
      ClearBefore session access .shape := by
  have hNames : session.NamesArray access.handle a := ⟨id, h.get?, h.object_eq⟩
  have hInside (hCovers : a.Covers selectors) : ClearBefore session access .tooLarge := by
    refine hClear.next (fun e hFaulty => ?_) rfl
    cases hFaulty with
    | outside message hOther hOthers hNot =>
        obtain rfl := hOther.unique hNames
        obtain rfl := selectors_unique hOthers hSelects
        exact hNot hCovers
  have hOutcome := NdArray.locate_outcome hAnchored (h.length_le hSelects) (h.selectors_move hSelects)
  generalize a.locate selectors = outcome at hOutcome
  cases hOutcome with
  | @uncovered e hNot hKind =>
      refine .inl ⟨e, .outside, rfl, ?_, hClear⟩
      rw [blame_of_indexError hKind]
      exact .outside e.message hNames hSelects hNot
  | @tooLarge shape hCovers hGathers hShape hLarge =>
      refine .inl ⟨.shapeTooBig shape, .tooLarge, rfl, ?_, hInside hCovers⟩
      rw [blame_shapeTooBig]
      exact .tooLarge hNames hSelects hGathers hShape hLarge rfl
  | @located located hCovers hShape hSize =>
      refine .inr ⟨located, rfl, hShape, (hInside hCovers).next (fun e hFaulty => ?_) rfl⟩
      cases hFaulty with
      | tooLarge hOther hOthers hGathers hFound hLarge =>
          obtain rfl := hOther.unique hNames
          obtain rfl := selectors_unique hOthers hSelects
          obtain rfl := hFound.unique hShape
          obtain ⟨size, hSize⟩ := hSize hGathers
          exact hLarge size hSize

/-- What a read gathers has strides that are words, if it can be stored. -/
theorem Storable.checkStrides {h : Handle} {index : Index} {located : Located}
    (hStorable : (read h index).Storable session) (hNames : session.NamesArray h a)
    (hSelects : List.Forall₂ session.Selects index.items selectors)
    (hLocate : a.locate selectors = .ok located) (hShape : a.SelectionShape selectors located.shape)
    (shape : Shape) (offsets : Array Nat) (hGather : located = .gather shape offsets) :
    shape.checkStrides = .ok () := by
  obtain rfl := hGather
  obtain ⟨count, hCount⟩ := NdArray.exists_checkedSize_of_gather hLocate
  have hGathers : ∃ s ∈ selectors, s.isGathering = true := by
    by_contra hNone
    obtain ⟨v, hView⟩ := (NdArray.exists_view_iff hLocate).mpr (by simpa using hNone)
    cases hView
  exact Shape.checkStrides_of_checkedSize hCount (hStorable _ _ _ hNames hSelects hGathers hShape)

/-- A value that fits has the right shape. -/
theorem not_faulty_shape {value : HostValue} {c : Contents} {target : Shape}
    (hNames : session.NamesArray access.handle a)
    (hSelects : List.Forall₂ session.Selects access.index.items selectors)
    (hValue : access.value? = some value) (hHolds : session.Holds value c)
    (hShape : a.SelectionShape selectors target) (hFits : c.Fits target) (e : BridgeError) :
    ¬ Faulty session access .shape e := by
  intro hFaulty
  cases hFaulty with
  | shape message hOther hOthers hSame hRead hFound hNot =>
      cases hValue.symm.trans hSame
      obtain rfl := hOther.unique hNames
      obtain rfl := selectors_unique hOthers hSelects
      obtain rfl := hRead.unique hHolds
      exact hNot (hFound.unique hShape ▸ hFits)

end Engine

section Answers

variable {base : Heap} {h : Handle} {index : Index} {value : HostValue} {id : ObjectId} {a : NdArray}

/-- A handle in the index expression that is not registered ends the building of the key. -/
theorem Admitted.answer_of_unregistered (hAdmitted : Admitted session access id a)
    (hUnderway : Underway session session) (hRoom : session.runtime.HasRoom access.objects)
    (hMasks : .mask [] ∉ access.index.items) (hItems : ¬ session.IndexRegistered access.index) :
    Answer session access (access.op.perform session).1 := by
  obtain ⟨handle, after, hMem, hGet, hRun⟩ :=
    perform_key_unregistered hUnderway hMasks hItems hRoom
  rw [fst_perform_op_of_key hAdmitted.perform_target hRun]
  exact .refused (.deadOperand (.inl hMem) hGet) hAdmitted.clear

/-- The answer to a read whose key is built. -/
theorem Admitted.answer_read (hAdmitted : Admitted session (read h index) id a)
    (hOrder : Registers base 0 session) (hUnderway : Underway session session)
    (hAnchored : a.Anchored) (hRoom : session.runtime.HasRoom (read h index).objects)
    (hMasks : .mask [] ∉ index.items) (hItems : session.IndexRegistered index) :
    Answer session (read h index) ((read h index).op.perform session).1 := by
  obtain ⟨key, now, hBuilt, hExtends, hSpare, hHolds⟩ :=
    builds_holdsKey hUnderway hMasks hItems 1 hRoom
  have hTarget : (target h index : BridgeOp Engine ObjectId).perform session = (.ok id, session) :=
    hAdmitted.perform_target
  have hArray := hExtends.runtime.object_eq hAdmitted.object_eq
  have hRefused {e : Exception} (hItem : (ForeignRuntime.getItem id key :
      RuntimeOp Engine ObjectId).perform now.runtime = (.error e, now.runtime)) :
      ((read h index).op.perform session).1 = .error ((read h index).blame e) := by
    obtain ⟨after, hRun⟩ := perform_getObject_of_error hTarget hBuilt hItem
    rw [op, perform_bind, Session.getItem, perform_bind, hRun]
    rfl
  have hClear : ClearBefore session (read h index) .notIndex :=
    hAdmitted.clear_notIndex hItems fun value hValue => by cases hValue
  rcases decoded_or_faulty hHolds hClear with
    ⟨e, hKey, hFaulty⟩ | ⟨selectors, hSelects, hKey, hLike⟩
  · rw [hRefused (perform_getItem_of_selectors hArray hKey)]
    exact .refused hFaulty hClear
  have hDecoded : ClearBefore session (read h index) .outside := by
    refine hLike.next (fun e hFaulty => ?_) rfl
    cases hFaulty with
    | notArrayLike hValue => cases hValue
  rcases hAdmitted.located_or_faulty hAnchored hSelects hDecoded with
    ⟨e, fault, hLocate, hFaulty, hFirst⟩ | ⟨located, hLocate, hShape, hLast⟩
  · rw [hRefused (perform_getItem_of_locate hArray hKey hLocate)]
    exact .refused hFaulty hFirst
  have hNone := hLast.none fun e hFaulty => by
    cases hFaulty with
    | shape message hNames hSelects hValue => cases hValue
  by_cases hStorable : (read h index).Storable session
  · have hNames : session.NamesArray h a := ⟨id, hAdmitted.get?, hAdmitted.object_eq⟩
    obtain ⟨item, next, object, hItem, hRest, hObject, hKind⟩ :=
      perform_getItem_ok hArray hKey hLocate (hStorable.checkStrides hNames hSelects hLocate hShape)
        hSpare
    obtain ⟨result, after, hRun⟩ := exists_getItem hOrder hTarget hBuilt hItem hRest.fits hObject hKind
    have hDone : ((read h index).op.perform session).1 = .ok (some result) := by
      rw [op, perform_bind, hRun]
      rfl
    rw [hDone]
    exact .granted _ hNone
  · exact .beyond _ hNone hStorable

/-- The answer to a write whose key and value are built. -/
theorem Admitted.answer_built (hAdmitted : Admitted session (write h index value) id a)
    (hAnchored : a.Anchored) (hItems : session.IndexRegistered index)
    (hValue : session.Registered value) {key built : ObjectId} {middle : Session Engine}
    (hBuilt : (Session.key index : BridgeOp Engine ObjectId).perform session = (.ok key, middle))
    (hWritten : (toForeign value : BridgeOp Engine ObjectId).perform middle = (.ok built, now))
    (hExtends : session.Extends now) (hHolds : HoldsKey session now.runtime index key)
    (hStands : Stands session now.runtime built value) :
    Answer session (write h index value) ((write h index value).op.perform session).1 := by
  have hTarget : (target h index : BridgeOp Engine ObjectId).perform session = (.ok id, session) :=
    hAdmitted.perform_target
  have hArray := hExtends.runtime.object_eq hAdmitted.object_eq
  have hRefused {e : Exception} (hItem : (ForeignRuntime.setItem id key built :
      RuntimeOp Engine Unit).perform now.runtime = (.error e, now.runtime)) :
      ((write h index value).op.perform session).1 = .error ((write h index value).blame e) := by
    obtain ⟨after, hRun⟩ := perform_setItem_of_error hTarget hBuilt hWritten hItem
    rw [op, perform_bind, hRun]
    rfl
  have hClear : ClearBefore session (write h index value) .notIndex := by
    refine hAdmitted.clear_notIndex hItems fun other hOther => ?_
    cases hOther
    exact hValue
  rcases decoded_or_faulty hHolds hClear with
    ⟨e, hKey, hFaulty⟩ | ⟨selectors, hSelects, hKey, hLike⟩
  · rw [hRefused (perform_setItem_of_selectors hArray hKey)]
    exact .refused hFaulty hClear
  rcases hStands.arrayContents_eq hExtends.runtime.buffers_eq with
    ⟨c, hContents, hRead⟩ | ⟨hUnreadable, e, hRead, hKind⟩
  · have hDecoded : ClearBefore session (write h index value) .outside := by
      refine hLike.next (fun e hFaulty => ?_) rfl
      cases hFaulty with
      | notArrayLike hOther hUnreadable =>
          cases hOther
          exact hContents.not_unreadable hUnreadable
    rcases hAdmitted.located_or_faulty hAnchored hSelects hDecoded with
      ⟨e, fault, hLocate, hFaulty, hFirst⟩ | ⟨located, hLocate, hShape, hLast⟩
    · rw [hRefused (perform_setItem_of_locate hArray hKey hRead hLocate)]
      exact .refused hFaulty hFirst
    · have hNames : session.NamesArray h a := ⟨id, hAdmitted.get?, hAdmitted.object_eq⟩
      by_cases hFits : c.Fits located.shape
      · obtain ⟨next, hItem⟩ := perform_setItem_ok hArray hKey hRead hLocate hFits
        obtain ⟨after, hRun⟩ := perform_setItem_of_ok hTarget hBuilt hWritten hItem
        have hDone : ((write h index value).op.perform session).1 = .ok none := by
          rw [op, perform_bind, hRun]
          rfl
        rw [hDone]
        exact .granted none (hLast.none (not_faulty_shape hNames hSelects rfl hContents hShape hFits))
      · have hAssign := NdArray.assignment_eq_error hLocate hFits
        rw [hRefused (perform_setItem_of_assignment hArray hKey hRead hAssign),
          blame_cannotBroadcastInto]
        exact .refused (.shape _ hNames hSelects rfl hContents hShape hFits) hLast
  · have hBlame : (write h index value).blame e = .foreignCall writePath e :=
      indexError_of_typeError hKind
    rw [hRefused (perform_setItem_of_contents hArray hKey hRead), hBlame]
    exact .refused (.notArrayLike rfl hUnreadable hKind) hLike

/-- The answer to a write whose key is built. -/
theorem Admitted.answer_write (hAdmitted : Admitted session (write h index value) id a)
    (hUnderway : Underway session session) (hAnchored : a.Anchored)
    (hRoom : session.runtime.HasRoom (write h index value).objects)
    (hMasks : .mask [] ∉ index.items) (hItems : session.IndexRegistered index) :
    Answer session (write h index value) ((write h index value).op.perform session).1 := by
  obtain ⟨key, middle, hBuilt, hExtends, hSpare, hHolds⟩ :=
    builds_holdsKey hUnderway hMasks hItems value.objects hRoom
  by_cases hValue : session.Registered value
  · obtain ⟨built, now, hWritten, hFurther, -, hStands⟩ :=
      builds_stands (hUnderway.extends hExtends) hValue 0 hSpare
    exact hAdmitted.answer_built hAnchored hItems hValue hBuilt hWritten (hExtends.trans hFurther)
      (hHolds.mono hFurther.runtime) hStands
  · obtain ⟨handle, rfl, hNot⟩ : ∃ handle, value = .handle handle ∧
        ∀ id, session.handles.get? handle ≠ some id := by simpa [Registered] using hValue
    have hGet := Option.eq_none_iff_forall_ne_some.mpr hNot
    have hWritten : (toForeign (.handle handle) : BridgeOp Engine ObjectId).perform middle
        = (.error (.invalidHandle handle), middle) := by
      rw [toForeign, perform_bind, perform_lookup, hExtends.handles_eq, hGet]
    obtain ⟨after, hRun⟩ := perform_setItem_of_value
      (show (target h index : BridgeOp Engine ObjectId).perform session = (.ok id, session) from
        hAdmitted.perform_target) hBuilt hWritten
    have hFailed : ((write h index (.handle handle)).op.perform session).1
        = .error (.invalidHandle handle) := by
      rw [op, perform_bind, hRun]
    rw [hFailed]
    exact .refused (.deadOperand (.inr rfl) hGet) hAdmitted.clear

/-- With room for its objects, an access to a session in order is answered with its first fault, or
with an item if there is none and what is read can be stored. -/
theorem answer_op (hOrder : Registers base 0 session)
    (hRoom : session.runtime.heap.slots.size + access.objects ≤ Heap.slotLimit)
    (hMasks : .mask [] ∉ access.index.items) :
    Answer session access (access.op.perform session).1 := by
  have hFits : session.runtime.heap.slots.size ≤ Heap.slotLimit := Nat.le_of_add_right_le hRoom
  have hUnderway := underway_self hOrder hFits
  obtain ⟨-, hBalanced⟩ := hOrder.1.2 hFits
  have hSpace : session.runtime.HasRoom access.objects := ⟨hBalanced.toConsistent, hRoom⟩
  rcases answer_or_admitted hUnderway with hAnswer | ⟨id, a, hAdmitted⟩
  · exact hAnswer
  by_cases hItems : session.IndexRegistered access.index
  · have hAnchored := Engine.anchored_of_object hBalanced hAdmitted.object_eq
    cases access with
    | read h index =>
        exact hAdmitted.answer_read hOrder hUnderway hAnchored hSpace hMasks hItems
    | write h index value => exact hAdmitted.answer_write hUnderway hAnchored hSpace hMasks hItems
  · exact hAdmitted.answer_of_unregistered hUnderway hSpace hMasks hItems

end Answers

/-- A fault is there, and none that is looked for before it. -/
def First (access : ElementAccess) (interpreter : Interpreter Engine) (fault : AccessFault) : Prop :=
  (∃ e, FaultyAt access interpreter fault e) ∧
    ∀ earlier e, earlier.place < fault.place → ¬ FaultyAt access interpreter earlier e

theorem First.unique {interpreter : Interpreter Engine} (hLeft : First access interpreter fault)
    (hRight : First access interpreter other) : fault = other := by
  obtain ⟨⟨e, hFaulty⟩, hNone⟩ := hLeft
  obtain ⟨⟨e', hFaulty'⟩, hNone'⟩ := hRight
  refine AccessFault.eq_of_place_eq (le_antisymm ?_ ?_)
  · exact Nat.not_lt.mp fun hLess => hNone other e' hLess hFaulty'
  · exact Nat.not_lt.mp fun hLess => hNone' fault e hLess hFaulty

end ElementAccess

namespace Interpreter

open ElementAccess

variable {isDirectory : String → Bool} {entropy : Generator} {settings : EngineSettings}
  {engine : Engine} {interpreter : Interpreter Engine}

/-- Whatever a host asked for before, the handles of a session stand for arrays and iterators. -/
theorem registers_play (hStart : Engine.start isDirectory entropy settings = .ok engine)
    (root : String) (actions : List Action) {session : Session Engine}
    (hSession : ((ofRuntime engine root).play actions).session = some session) :
    Session.Registers engine.heap 0 session :=
  running_play (Session.carrying_registers engine.heap) Session.special_registers
    (running_registers hStart root) actions session hSession

/-- The first fault of an access decides its outcome: it is the one that the host is told of,
whatever else is wrong. An access without a fault succeeds, if what it reads can be stored. -/
theorem outcome_of_access (hStart : Engine.start isDirectory entropy settings = .ok engine)
    (root : String) (actions : List Action) (hPlay : (ofRuntime engine root).play actions = interpreter)
    (access : ElementAccess) (hMasks : .mask [] ∉ access.index.items)
    (hRoom : ∀ session, interpreter.session = some session →
      session.runtime.heap.slots.size + access.objects ≤ Heap.slotLimit) :
    (∀ fault, First access interpreter fault →
      ∃ e, (access.run.perform interpreter).1 = .error e ∧ FaultyAt access interpreter fault e) ∧
    ((∀ fault e, ¬ FaultyAt access interpreter fault e) →
      (∀ session, interpreter.session = some session → access.Storable session) →
      ∃ item, (access.run.perform interpreter).1 = .ok item) := by
  obtain ⟨_ | session, root⟩ := interpreter
  · refine ⟨fun fault hFirst => ⟨.released, rfl, ?_⟩, fun hNone _ => ?_⟩
    · have hReleased : FaultyAt access ⟨none, root⟩ .released .released := .released root
      obtain rfl : fault = .released := by
        refine hFirst.unique ⟨⟨_, hReleased⟩, fun earlier e hPlace hFaulty => ?_⟩
        cases hFaulty
        exact absurd hPlace (lt_irrefl _)
      exact hReleased
    · exact absurd (.released root) (hNone .released .released)
  · have hOrder := registers_play hStart _ actions (congrArg Interpreter.session hPlay)
    have hAnswer := answer_op hOrder (hRoom session rfl) hMasks
    have hRun : (access.run.perform ⟨some session, root⟩).1 = (access.op.perform session).1 := rfl
    rw [hRun]
    generalize (access.op.perform session).1 = outcome at hAnswer
    cases hAnswer with
    | @refused found e hFaulty hClear =>
        have hHere : FaultyAt access ⟨some session, root⟩ found e := .running root hFaulty
        refine ⟨fun fault hFirst => ⟨e, rfl, ?_⟩, fun hNone _ => absurd hHere (hNone found e)⟩
        obtain rfl : fault = found := by
          refine hFirst.unique ⟨⟨e, hHere⟩, fun earlier e hPlace hEarlier => ?_⟩
          cases hEarlier with
          | running _ hEarlier => exact hClear earlier e hPlace hEarlier
        exact hHere
    | granted item hNone =>
        refine ⟨fun fault hFirst => ?_, fun _ _ => ⟨item, rfl⟩⟩
        obtain ⟨⟨e, hFaulty⟩, -⟩ := hFirst
        cases hFaulty with
        | running _ hFaulty => exact absurd hFaulty (hNone fault e)
    | beyond outcome hNone hBeyond =>
        refine ⟨fun fault hFirst => ?_, fun _ hStorable => absurd (hStorable session rfl) hBeyond⟩
        obtain ⟨⟨e, hFaulty⟩, -⟩ := hFirst
        cases hFaulty with
        | running _ hFaulty => exact absurd hFaulty (hNone fault e)

/-- A step of zero and a value without an object are both wrong. The host is told of the step. -/
theorem outcome_of_zero_step :
    ∃ engine interpreter,
      Engine.start (fun _ => true) ⟨0⟩ ⟨none, none, "numeric", some 7⟩ = .ok engine ∧
      (ofRuntime engine "numeric").play
        [.ask (.callArray (.positional "zeros" [.provided (.ints [2])]))] = interpreter ∧
      let access : ElementAccess :=
        .write ⟨0x100000000⟩ (.axes [.slice ⟨none, none, some 0⟩]) (.handle ⟨1⟩)
      First access interpreter .zeroStep ∧
        FaultyAt access interpreter .deadOperand (.invalidHandle ⟨1⟩) ∧
        (access.run.perform interpreter).1 = .error (.index .zeroStep) := by
  have hStart : Engine.start (fun _ => true) ⟨0⟩ ⟨none, none, "numeric", some 7⟩ = .ok
      ((Engine.createModules "numeric").run (Engine.bare ⟨none, none, "numeric", some 7⟩ ⟨0⟩)).2 := rfl
  refine ⟨_, _, hStart, rfl, ?_⟩
  intro access
  have hMade : ((ofRuntime ((Engine.createModules "numeric").run
      (Engine.bare ⟨none, none, "numeric", some 7⟩ ⟨0⟩)).2 "numeric").play
        [.ask (.callArray (.positional "zeros" [.provided (.ints [2])]))]).session.map
        (fun session => (session.handles.get? ⟨0x100000000⟩, session.handles.get? ⟨1⟩,
          session.runtime.object ⟨35, 0⟩, session.runtime.heap.slots.size))
      = some (some ⟨35, 0⟩, none, .ok (.array ⟨⟨0⟩, .float64, [2], [1], 0⟩), 36) := by cbv
  generalize hPlay : (Interpreter.play _ _ : Interpreter Engine) = interpreter at hMade ⊢
  obtain ⟨session, hSession, hFacts⟩ := Option.map_eq_some_iff.mp hMade
  simp only [Prod.mk.injEq] at hFacts
  obtain ⟨hGet, hDead, hArray, hSize⟩ := hFacts
  obtain ⟨_, root⟩ := interpreter
  cases hSession
  have hNames : session.NamesArray ⟨0x100000000⟩ ⟨⟨0⟩, .float64, [2], [1], 0⟩ := ⟨_, hGet, hArray⟩
  have hZero : FaultyAt access ⟨some session, root⟩ .zeroStep (.index .zeroStep) :=
    .running root (.zeroStep ⟨_, List.mem_cons_self, rfl⟩)
  have hFirst : First access ⟨some session, root⟩ .zeroStep := by
    refine ⟨⟨_, hZero⟩, fun earlier e hPlace hFaulty => ?_⟩
    cases hFaulty with
    | running _ hFaulty =>
        cases hFaulty with
        | deadHandle hNone => cases hGet.symm.trans hNone
        | notArray hOther hNot =>
            cases hGet.symm.trans hOther
            exact hNot _ hArray
        | rank hOther hRank =>
            obtain rfl := hOther.unique hNames
            exact hRank (Nat.le_refl 1)
        | _ => exact absurd hPlace (by decide)
  obtain ⟨e, hRun, hFault⟩ := (outcome_of_access hStart "numeric" _ hPlay access (by decide)
    (fun _ hSame => by
      cases hSame
      rw [hSize, Heap.slotLimit]
      decide)).1 .zeroStep hFirst
  refine ⟨hFirst, .running root (.deadOperand (.inr rfl) hDead), ?_⟩
  rw [hRun]
  cases hFault with
  | running _ hFault =>
      cases hFault
      rfl

/-- After a shutdown no handle is live, but an access is refused because there is no session. -/
theorem released_after_shutDown :
    ∃ engine interpreter,
      Engine.start (fun _ => true) ⟨0⟩ ⟨none, none, "numeric", some 7⟩ = .ok engine ∧
      (ofRuntime engine "numeric").play
        [.ask (.callArray (.positional "zeros" [.provided (.ints [2])])), .shutDown] = interpreter ∧
      let access : ElementAccess := .read ⟨0x100000000⟩ (.offsets [0])
      interpreter.liveHandles = 0 ∧ (access.run.perform interpreter).1 = .error .released ∧
        (access.run.perform interpreter).1 ≠ .error (.invalidHandle access.handle) := by
  have hStart : Engine.start (fun _ => true) ⟨0⟩ ⟨none, none, "numeric", some 7⟩ = .ok
      ((Engine.createModules "numeric").run (Engine.bare ⟨none, none, "numeric", some 7⟩ ⟨0⟩)).2 := rfl
  refine ⟨_, _, hStart, rfl, ?_⟩
  intro access
  have hReleased : ((ofRuntime ((Engine.createModules "numeric").run
      (Engine.bare ⟨none, none, "numeric", some 7⟩ ⟨0⟩)).2 "numeric").play
        [.ask (.callArray (.positional "zeros" [.provided (.ints [2])])), .shutDown]).session = none :=
    (session_play_eq_none_iff rfl _).mpr (by simp)
  generalize (Interpreter.play _ _ : Interpreter Engine) = interpreter at hReleased ⊢
  obtain ⟨_, root⟩ := interpreter
  cases hReleased
  have hRun : (access.run.perform ⟨none, root⟩).1 = .error .released := rfl
  refine ⟨rfl, hRun, ?_⟩
  rw [hRun]
  rintro ⟨⟩

end Interpreter

end ArrayBridge
