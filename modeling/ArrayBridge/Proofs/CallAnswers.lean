import ArrayBridge.Proofs.CallPreparation

/-! What a call answers.

A call can say in many ways which parameter gets which value. All of them reach the function
with the same arguments, and so they get the same answer, and nobody can tell afterwards which
of them was used. A call that says too much is refused before the function does anything. The
values are looked at first, and in the order in which they are written, so if there is no
object behind some of them, it is the order that decides which one is reported. -/

namespace ArrayBridge

open Operation Engine Outcome

theorem Native.nodup_parameters {native : Native} {parameters : List String}
    (h : native.parameters? = some parameters) : parameters.Nodup := by
  cases native with
  | numeric f => cases f <;> cases h <;> decide
  | random f => cases f <;> cases h <;> decide

namespace Engine

/-- Calls a function whose parameters got their arguments. -/
def namedCall (engine : Engine) (native : Native) (b : CallBindings) : NativeOp :=
  match native with
  | .numeric f => engine.numericCall f b
  | .random f => engine.randomCall f b

variable {engine left right : Engine} {native : Native} {parameters : List String}
  {args : Arguments ObjectId} {b b' : CallBindings}

theorem nativeCall_eq (hParameters : native.parameters? = some parameters) :
    engine.nativeCall native args
      = (liftM (args.bind native.name parameters) >>= engine.namedCall native) := by
  cases native with
  | numeric f =>
      cases hParameters
      rfl
  | random f =>
      change f.parameters? = some parameters at hParameters
      unfold nativeCall
      dsimp only
      rw [hParameters]
      rfl

theorem sameAnswer_namedCall (hBuffers : left.buffers = right.buffers)
    (h : BoundAlike left right b b') (native : Native) :
    SameAnswer left right (left.namedCall native b) (right.namedCall native b') := by
  cases native with
  | numeric f => exact sameAnswer_numericCall hBuffers h f
  | random f => exact sameAnswer_randomCall hBuffers h f

theorem perform_call_native {id : ObjectId} (hNative : engine.object id = .ok (.native native))
    (positional : List ObjectId) (keywords : List (String × ObjectId)) :
    (call id positional keywords).perform engine
      = (engine.nativeCall native (engine.argumentsOf positional keywords)).perform engine := by
  rw [call, perform_get, perform_check, hNative]

end Engine

namespace Session

variable {base : Heap} {session now later after : Session Engine} {held : Multiset ObjectId}
  {spec other : CallSpec} {path : String} {native : Native} {parameters : List String}
  {assignment : String → Option HostValue} {temporaries : Array ObjectId}

section Keeping

theorem sheds_releaseAll (ids : List ObjectId) (session : Session Engine) :
    session.Sheds ((releaseAll ids : BridgeOp Engine Unit).perform session).2 := by
  obtain ⟨runtime, handles, root⟩ := session
  rw [releaseAll, perform_onRuntime]
  change Sheds _ ⟨ids.foldl (fun runtime id => ForeignRuntime.release id runtime) runtime, handles,
    root⟩
  induction ids generalizing runtime with
  | nil => exact .refl _
  | cons id ids ih => exact (sheds_release ⟨runtime, handles, root⟩ id).trans (ih _)

/-- An object that is still there is what it was. -/
theorem Sheds.object_eq {id : ObjectId} {object : Object} (h : now.Sheds after)
    (hObject : now.runtime.object id = .ok object) (hLive : after.runtime.heap.isLive id = true) :
    after.runtime.object id = .ok object := by
  unfold Engine.object
  rw [h.get?_eq hLive, get?_of_object hObject]

theorem object_of_base {id : ObjectId} {object : Object} {heap : Heap}
    (h : base.Balanced held heap) (hBase : base.get? id = some object) :
    heap.get? id = some object := by
  obtain ⟨references, hOccupant⟩ := Heap.get?_eq_some_iff.mp hBase
  exact Heap.get?_eq_some_iff.mpr (h.kept id _ hOccupant)

variable (hOrder : InOrder (Engine.InOrder base) held after)
  (hRoom : after.runtime.heap.slots.size ≤ Heap.slotLimit)
include hOrder hRoom

/-- The two objects that stand for no value are those of the start. -/
theorem constants_of_inOrder :
    after.runtime.object after.runtime.names.noneId = .ok .none ∧
      after.runtime.object after.runtime.names.noValueId = .ok .noValue := by
  obtain ⟨hKnown, hBalanced⟩ := hOrder.2 hRoom
  unfold Engine.object
  rw [object_of_base hBalanced hKnown.none, object_of_base hBalanced hKnown.noValue]
  exact ⟨rfl, rfl⟩

/-- Handles keep their objects from being lost. -/
theorem Retains.of_sheds (h : Retains session now) (hSheds : now.Sheds after) :
    Retains session after where
  handles_eq := hSheds.handles_eq.trans h.handles_eq
  handle handle id hGet := by
    obtain ⟨object, hKind, hBefore, hNow⟩ := h.handle handle id hGet
    rw [← h.handles_eq, ← hSheds.handles_eq] at hGet
    have hMem := HandleTable.mem_objects_of_get? hGet
    exact ⟨object, hKind, hBefore, hSheds.object_eq hNow (isLive_of_mem_objects hOrder hRoom hMem)⟩
  none := (constants_of_inOrder hOrder hRoom).1
  noValue := (constants_of_inOrder hOrder hRoom).2

theorem Underway.of_sheds (h : Underway session now) (hSheds : now.Sheds after) :
    Underway session after where
  toRetains := h.toRetains.of_sheds hOrder hRoom hSheds
  buffers_eq := hSheds.buffers_eq.trans h.buffers_eq
  generator_eq := hSheds.generator_eq.trans h.generator_eq
  entropy_eq := hSheds.entropy_eq.trans h.entropy_eq

end Keeping

/-- On the way to a call the session begins as it is. -/
theorem underway_self (hOrder : Registers base held session)
    (hRoom : session.runtime.heap.slots.size ≤ Heap.slotLimit) : Underway session session where
  handles_eq := rfl
  handle handle id hGet := by
    obtain ⟨object, hFound, hKind⟩ := hOrder.2 hRoom id (HandleTable.mem_objects_of_get? hGet)
    have hObject : session.runtime.object id = .ok object := by rw [Engine.object, hFound]
    exact ⟨object, hKind, hObject, hObject⟩
  none := (constants_of_inOrder hOrder.1 hRoom).1
  noValue := (constants_of_inOrder hOrder.1 hRoom).2
  buffers_eq := rfl
  generator_eq := rfl
  entropy_eq := rfl

section Preparing

/-- A path names a function. -/
def Names (session : Session Engine) (path : String) (native : Native) : Prop :=
  ∃ callable found, (resolve path).perform session = (.ok callable, found) ∧
    found.runtime.object callable = .ok (.native native)

/-- All handles among the values of a call are registered. -/
def Resolvable (session : Session Engine) (slots : List Argument) : Prop :=
  ∀ value, .provided value ∈ slots → session.Registered value

/-- With room for them, the objects of all slots are made. -/
theorem builds_slots (h : Underway session now) {slots : List Argument}
    (hValues : session.Resolvable slots) (path : String) (built : Array ObjectId) :
    Builds (slots.map Argument.objects).sum (collect (toForeignArgument path) slots built) now
      fun ids engine => ∃ found, ids = built ++ found.toArray ∧
        List.Forall₂ (fun id argument => StandsFor session engine id argument) found slots := by
  refine builds_collect (List.forall₂_same.mpr fun argument hMem later hExtends => ?_)
    (fun _ _ _ _ hExtends hStands => hStands.mono hExtends) built (.refl now)
  exact builds_argument (h.extends hExtends) path fun value hSame => hValues value (hSame ▸ hMem)

/-- The first value without an object behind it. -/
theorem exists_unresolved {slots : List Argument} (h : ¬ session.Resolvable slots) :
    ∃ good h rest, slots = good ++ .provided (.handle h) :: rest ∧ session.Resolvable good ∧
      session.handles.get? h = none := by
  let isGood (slot : Argument) : Prop := ∀ value, slot = .provided value → session.Registered value
  have hSome : ∃ slot ∈ slots, ¬ isGood slot := by
    by_contra hNone
    push Not at hNone
    exact h fun value hMem => hNone _ hMem value rfl
  obtain ⟨good, slot, rest, hSplit, hBad, hGood⟩ := exists_first hSome
  obtain ⟨handle, rfl, hNot⟩ : ∃ handle, slot = .provided (.handle handle) ∧
      ∀ id, session.handles.get? handle ≠ some id := by simpa [isGood, Registered] using hBad
  exact ⟨good, handle, rest, hSplit, fun value hMem => hGood _ hMem value rfl,
    Option.eq_none_iff_forall_ne_some.mpr hNot⟩

/-- What was made before the first such value is released. -/
theorem perform_collect_unresolved (h : Underway session now) {slots : List Argument}
    (hValues : ¬ session.Resolvable slots) (path : String) (built : Array ObjectId) {spare : Nat}
    (hRoom : now.runtime.HasRoom ((slots.map Argument.objects).sum + spare)) :
    ∃ handle later after, .provided (.handle handle) ∈ slots ∧
      session.handles.get? handle = none ∧
      (collect (toForeignArgument path) slots built).perform now
        = (.error (.invalidHandle handle), after) ∧
      Underway session later ∧ later.Sheds after ∧
      later.runtime.heap.slots.size ≤ Heap.slotLimit := by
  obtain ⟨good, handle, rest, rfl, hGood, hGet⟩ := exists_unresolved hValues
  have hEnough : now.runtime.HasRoom ((good.map Argument.objects).sum + 0) := by
    refine ⟨hRoom.consistent, Nat.le_trans ?_ hRoom.fits⟩
    rw [List.map_append, List.sum_append]
    omega
  obtain ⟨ids, later, hRun, hExtends, hLater, -⟩ := builds_slots h hGood path built 0 hEnough
  have hFails : (toForeignArgument path (.provided (.handle handle)) : BridgeOp Engine _).perform later
      = (.error (.invalidHandle handle), later) := by
    rw [toForeignArgument, toForeign, perform_bind, perform_lookup, hExtends.handles_eq,
      h.handles_eq, hGet]
  exact ⟨handle, later, _, by simp, hGet, perform_collect_of_error hRun hFails, h.extends hExtends,
    sheds_releaseAll ids.toList later, Nat.le_of_add_right_le hLater.fits⟩

variable {spare : Nat} (hOrder : Registers base 0 session)
  (hRoom : session.runtime.heap.slots.size + spec.objects + (spare + 1) ≤ Heap.slotLimit)
include hOrder hRoom

/-- The path is followed first. -/
theorem underway_found {callable : ObjectId} {found : Session Engine}
    (hPath : (resolve spec.path).perform session = (.ok callable, found)) :
    Underway session found ∧ found.runtime.HasRoom (spec.objects + (spare + 1)) := by
  have hFits : session.runtime.heap.slots.size ≤ Heap.slotLimit := by omega
  have hAlong := alongPath_resolve hOrder.1 hFits spec.path
  rw [hPath] at hAlong
  obtain ⟨hFound, -, hSheds⟩ := hAlong
  have hSize := hSheds.size_eq
  refine ⟨(underway_self hOrder hFits).of_sheds hFound (hSize ▸ hFits) hSheds,
    (hFound.2 (hSize ▸ hFits)).2.toConsistent, ?_⟩
  rw [hSize]
  omega

/-- A call is prepared: it has an object for its function and one for each slot. -/
structure Prepared (session : Session Engine) (spec : CallSpec) (native : Native)
    (temporaries : Array ObjectId) (now : Session Engine) : Prop where
  perform_eq : (prepare spec).perform session = (.ok temporaries, now)
  underway : Underway session now
  room : now.runtime.HasRoom 1
  callable : now.runtime.object (temporaries.getD 0 default) = .ok (.native native)
  slots : List.Forall₂ (fun id argument => StandsFor session now.runtime id argument)
    (temporaries.toList.drop 1) spec.slots

/-- With room for more than its objects, a call is prepared and leaves that room. -/
theorem exists_prepared (hNames : session.Names spec.path native)
    (hValues : session.Resolvable spec.slots) :
    ∃ temporaries now, Prepared session spec native temporaries now ∧
      now.runtime.HasRoom (spare + 1) := by
  obtain ⟨callable, found, hPath, hNative⟩ := hNames
  obtain ⟨hUnderway, hEnough⟩ := underway_found hOrder hRoom hPath
  obtain ⟨ids, now, hRun, hExtends, hLeft, args, rfl, hArgs⟩ :=
    builds_slots hUnderway hValues spec.path #[callable] (spare + 1) hEnough
  have hOne : now.runtime.HasRoom 1 := ⟨hLeft.consistent, by have := hLeft.fits; omega⟩
  refine ⟨#[callable] ++ args.toArray, now,
    ⟨?_, hUnderway.extends hExtends, hOne, ?_, ?_⟩, hLeft⟩
  · rw [prepare, perform_bind, hPath]
    exact hRun
  · have hFirst : (#[callable] ++ args.toArray).getD 0 default = callable := by simp
    rw [hFirst]
    exact hExtends.runtime.object_eq hNative
  · simpa using hArgs

end Preparing

section Calling

/-- The arguments that a function is called with. -/
def handedOver (engine : Engine) (spec : CallSpec) (temporaries : Array ObjectId) :
    Arguments ObjectId :=
  engine.argumentsOf ((temporaries.toList.drop 1).take spec.supplied.length)
    ((spec.suppliedKeywords.map Prod.fst).zip (temporaries.toList.drop (1 + spec.supplied.length)))

/-- The arguments of a function got objects for the values that are assigned to its
parameters, and all others got none. -/
structure Bound (session : Session Engine) (engine : Engine) (native : Native)
    (parameters : List String) (assignment : String → Option HostValue) (b : CallBindings) :
    Prop where
  function_eq : b.function = native.name
  names_eq : b.slots.map Prod.fst = parameters
  rel_get? : ∀ name ∈ parameters,
    Option.Rel (fun id value => Stands session engine id value) (b.get? name) (assignment name)

theorem corresponds_keywords {engine : Engine} {keywords : List (String × HostValue)}
    {ids : List ObjectId} (hAbsent : engine.object engine.names.noValueId = .ok .noValue)
    (h : List.Forall₂ (fun id argument => StandsFor session engine id argument) ids
      (keywords.map fun entry => .provided entry.2)) :
    List.Forall₂ (fun entry entry' => entry.1 = entry'.1 ∧ Stands session engine entry.2 entry'.2)
      (((keywords.map Prod.fst).zip ids).filter fun entry => entry.2 ≠ engine.names.noValueId)
      keywords := by
  induction keywords generalizing ids with
  | nil => exact .nil
  | cons entry keywords ih =>
      obtain _ | ⟨hHead, hTail⟩ := h
      obtain ⟨hStands⟩ := hHead
      rw [List.map_cons, List.zip_cons_cons, List.filter_cons_of_pos]
      · exact .cons ⟨rfl, hStands⟩ (ih hTail)
      · exact decide_eq_true (hStands.ne_noValueId hAbsent)

/-- Slot by slot, the objects of a prepared call stand for its values. -/
theorem Prepared.corresponds (h : Prepared session spec native temporaries now) :
    (handedOver now.runtime spec temporaries).Corresponds
      (fun id value => Stands session now.runtime id value) spec.arguments := by
  have hSlots := h.slots
  rw [CallSpec.slots] at hSlots
  constructor
  · have hFirst := List.forall₂_take_append _ _ _ hSlots
    rw [CallSpec.arguments]
    dsimp only [handedOver, argumentsOf]
    rw [List.forall₂_map_left_iff, List.forall₂_map_right_iff]
    refine hFirst.imp fun id argument hStands => ?_
    cases hStands with
    | provided hValue =>
        rw [if_neg (hValue.ne_noValueId h.underway.noValue)]
        exact .some hValue
    | omitted =>
        rw [if_pos rfl]
        exact .none
  · have hLast := List.forall₂_drop_append _ _ _ hSlots
    rw [List.drop_drop] at hLast
    exact corresponds_keywords h.underway.noValue hLast

theorem Prepared.perform_callWith (h : Prepared session spec native temporaries now) :
    (callWith spec temporaries).perform now
      = (runtimeOp spec.path (now.runtime.nativeCall native
          (handedOver now.runtime spec temporaries))).perform now := by
  obtain ⟨runtime, handles, root⟩ := now
  have hCall (positional : List ObjectId) (keywords : List (String × ObjectId)) :
      (ForeignRuntime.call (temporaries.getD 0 default) positional keywords :
        RuntimeOp Engine ObjectId).perform runtime
      = (runtime.nativeCall native (runtime.argumentsOf positional keywords)).perform runtime :=
    Engine.perform_call_native h.callable positional keywords
  rw [callWith, perform_runtimeOp, perform_runtimeOp, hCall]
  rfl

/-- A call that writes the values of an assignment reaches the function with them. -/
theorem Prepared.exists_bound (h : Prepared session spec native temporaries now)
    (hParameters : native.parameters? = some parameters)
    (hSpells : spec.Spells parameters assignment) :
    ∃ b, Bound session now.runtime native parameters assignment b ∧
      (callWith spec temporaries).perform now
        = (runtimeOp spec.path (now.runtime.namedCall native b)).perform now := by
  have hNodup := Native.nodup_parameters hParameters
  obtain ⟨hFits, hArguments⟩ := hSpells.fits hNodup
  let args := handedOver now.runtime spec temporaries
  let b : CallBindings := ⟨native.name, Bindings.slotsOf parameters (args.argument? parameters)⟩
  have hBind : args.bind native.name parameters = .ok b :=
    (Arguments.bind_eq_ok_iff_fits hNodup).mpr ⟨(h.corresponds.fits_iff parameters).mpr hFits, rfl⟩
  refine ⟨b, ⟨rfl, ?_, fun name hName => ?_⟩, ?_⟩
  · exact (List.map_map ..).trans (List.map_id _)
  · rw [Bindings.get?, Bindings.lookup_slotsOf, if_pos hName, Option.join_some,
      ← hArguments name hName]
    exact h.corresponds.argument? parameters name
  · rw [h.perform_callWith, nativeCall_eq hParameters, hBind, bind_ok]

/-- A call that writes too much is refused by the function. -/
theorem Prepared.refuses (h : Prepared session spec native temporaries now)
    (hParameters : native.parameters? = some parameters) (hMisspells : spec.Misspells parameters) :
    ∃ e, e.kind = .typeError ∧
      (callWith spec temporaries).perform now = (.error (.foreignCall spec.path e), now) := by
  have hNodup := Native.nodup_parameters hParameters
  cases hBind : (handedOver now.runtime spec temporaries).bind native.name parameters with
  | ok b =>
      obtain ⟨hFits, -⟩ := (Arguments.bind_eq_ok_iff_fits hNodup).mp hBind
      exact absurd ((h.corresponds.fits_iff parameters).mp hFits) (hMisspells.not_fits hNodup)
  | error e =>
      refine ⟨e, Arguments.kind_of_bind hBind, ?_⟩
      rw [h.perform_callWith, nativeCall_eq hParameters, hBind]
      rfl

/-- After the call all that was made for it is released. -/
theorem Prepared.perform_callObject (h : Prepared session spec native temporaries now)
    {result : Except BridgeError ObjectId} (hCall : (callWith spec temporaries).perform now
      = (result, later)) :
    ∃ after, (callObject spec).perform session = (result, after) ∧ later.Sheds after := by
  refine ⟨_, ?_, sheds_releaseAll temporaries.toList later⟩
  rw [callObject_eq_prepare, perform_bind, h.perform_eq]
  dsimp only
  rw [perform_bind, perform_outcome, hCall]
  rfl

end Calling

end Session

end ArrayBridge
