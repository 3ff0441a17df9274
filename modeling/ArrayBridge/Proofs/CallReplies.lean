import ArrayBridge.Proofs.CallAnswers

/-! The reply to a call.

Whatever a session is asked with the same values for the same parameters, it replies the same.
What the host holds after a call is what it held before. So after two spellings of one call
there is no difference that a host could notice. -/

namespace ArrayBridge

open Operation Engine Outcome

namespace CallSpec

variable {spec : CallSpec} {parameters : List String} {assignment : String → Option HostValue}
  {value : HostValue}

theorem mem_placed {args : List Argument} {i : Nat}
    (hProvided : args[i]? = some (.provided value)) (hWithin : i < parameters.length) :
    (parameters[i], value) ∈ placed parameters args := by
  induction parameters generalizing args i with
  | nil => exact absurd hWithin (Nat.not_lt_zero i)
  | cons parameter parameters ih =>
      cases args with
      | nil => cases hProvided
      | cons argument args =>
          cases i with
          | zero =>
              cases hProvided
              exact List.mem_cons_self
          | succ i =>
              have hAt : args[i]? = some (.provided value) := hProvided
              have hRest := ih hAt (Nat.lt_of_succ_lt_succ hWithin)
              cases argument with
              | provided first => exact List.mem_cons_of_mem _ hRest
              | omitted => exact hRest

/-- Each value that gets an object is one of the assigned values. -/
theorem Spells.assigned (h : spec.Spells parameters assignment)
    (hMem : .provided value ∈ spec.slots) :
    ∃ name ∈ parameters, assignment name = some value := by
  suffices hWritten : ∃ name, (name, value) ∈ spec.writes parameters by
    obtain ⟨name, hWrite⟩ := hWritten
    exact ⟨name, (h.mem_iff name value).mp hWrite⟩
  rw [slots, List.mem_append, List.mem_map] at hMem
  rcases hMem with hPositional | ⟨⟨name, _⟩, hKeyword, ⟨⟩⟩
  · obtain ⟨count, hArgs⟩ := spec.exists_replicate
    have hArgument : .provided value ∈ spec.args := by
      rw [hArgs]
      exact List.mem_append_left _ hPositional
    obtain ⟨i, hAt⟩ := List.mem_iff_getElem?.mp hArgument
    have hPlaced := mem_placed hAt (h.within i value hAt)
    exact ⟨_, List.mem_append_left _ hPlaced⟩
  · exact ⟨name, List.mem_append_right _ hKeyword⟩

/-- The sum of two values, written by position. -/
def sumByPosition (x y : HostValue) : CallSpec :=
  ⟨"add", [.provided x, .provided y, .omitted], [], none⟩

/-- The sum of two values, written by name and in the other order. -/
def sumByName (x y : HostValue) : CallSpec :=
  ⟨"add", [.omitted], [("x2", .provided y), ("x1", .provided x)], none⟩

def sumArguments (x y : HostValue) (name : String) : Option HostValue :=
  [("x1", x), ("x2", y)].lookup name

theorem spells_sumByPosition (x y : HostValue) :
    (sumByPosition x y).Spells ["x1", "x2"] (sumArguments x y) where
  within i value hProvided := by
    match i with
    | 0 | 1 => decide
    | 2 => cases hProvided
    | i + 3 => cases hProvided
  once := by
    change ["x1", "x2"].Nodup
    decide
  mem_iff name value := by
    have hNodup : ([("x1", x), ("x2", y)].map Prod.fst).Nodup := by
      change ["x1", "x2"].Nodup
      decide
    rw [sumArguments, lookup_eq_some_iff hNodup]
    change (name, value) ∈ [("x1", x), ("x2", y)] ↔ _
    refine ⟨fun hMem => ⟨?_, hMem⟩, And.right⟩
    exact List.mem_map_of_mem (f := Prod.fst) hMem

theorem spells_sumByName (x y : HostValue) :
    (sumByName x y).Spells ["x1", "x2"] (sumArguments x y) where
  within i value hProvided := by
    match i with
    | 0 => cases hProvided
    | i + 1 => cases hProvided
  once := by
    change ["x2", "x1"].Nodup
    decide
  mem_iff name value := by
    rw [← ((spells_sumByPosition x y).mem_iff name value)]
    change (name, value) ∈ [("x2", y), ("x1", x)] ↔ (name, value) ∈ [("x1", x), ("x2", y)]
    rw [List.mem_pair, List.mem_pair, or_comm]

end CallSpec

namespace Session

/-- A call reaches a function. Until then nothing has changed that a host could notice, the
parameters have objects for the values that are assigned to them, and what is left to do is to
call the function and to release the objects that were made. -/
def Reaches (session : Session Engine) (spec : CallSpec) (native : Native)
    (parameters : List String) (assignment : String → Option HostValue) : Prop :=
  ∃ now b temporaries, Underway session now ∧
    Bound session now.runtime native parameters assignment b ∧
    (callObject spec).perform session = (do
      let result ← outcome (runtimeOp spec.path (now.runtime.namedCall native b))
      releaseAll temporaries
      ofOutcome result : BridgeOp Engine ObjectId).perform now

/-- The replies of two calls from the same session. Either both are the same exception, and
nothing has changed, or both are the same object, and buffers and generators agree. Handles
stand for what they stood for in any case. -/
inductive SameReply (session : Session Engine) (path : String) :
    Except BridgeError ObjectId × Session Engine → Except BridgeError ObjectId × Session Engine → Prop
  | refused {left right : Session Engine} (e : Exception) (hLeft : Underway session left)
      (hRight : Underway session right) :
      SameReply session path (.error (.foreignCall path e), left) (.error (.foreignCall path e), right)
  | answered {x y : ObjectId} {left right : Session Engine} (object : Object)
      (hLeft : left.runtime.object x = .ok object) (hRight : right.runtime.object y = .ok object)
      (hTwins : Twins left.runtime right.runtime) (hKept : Retains session left)
      (hKept' : Retains session right) : SameReply session path (.ok x, left) (.ok y, right)

variable {base : Heap} {session now now' later after : Session Engine} {spec other : CallSpec}
  {native : Native} {parameters : List String} {assignment : String → Option HostValue}
  {temporaries temporaries' : Array ObjectId}

section Afterwards

variable (hOrder : Registers base 0 session)
include hOrder

/-- A reference to the result is all that the host holds after a call. -/
theorem inOrder_callObject {result : Except BridgeError ObjectId}
    (hRun : (callObject spec).perform session = (result, after)) :
    InOrder (Engine.InOrder base) (outcomeReferences ({·}) 0 result) after := by
  have hAfter := conserves_callObject (carrying_registers base) spec 0 session hOrder
  rw [hRun, Multiset.add_zero] at hAfter
  exact hAfter.1

theorem Prepared.underway_after (h : Prepared session spec native temporaries now)
    {e : BridgeError} (hCall : (callWith spec temporaries).perform now = (.error e, now)) :
    ∃ after, (callObject spec).perform session = (.error e, after) ∧ Underway session after := by
  obtain ⟨after, hRun, hSheds⟩ := h.perform_callObject hCall
  have hRoom : after.runtime.heap.slots.size ≤ Heap.slotLimit := by
    rw [hSheds.size_eq]
    exact Nat.le_of_succ_le h.room.fits
  exact ⟨after, hRun, h.underway.of_sheds (inOrder_callObject hOrder hRun) hRoom hSheds⟩

theorem Prepared.retains_after (h : Prepared session spec native temporaries now) {x : ObjectId}
    {object : Object} (hCall : (callWith spec temporaries).perform now = (.ok x, later))
    (hHandles : later.handles = now.handles) (hContinues : now.runtime.Continues later.runtime)
    (hFits : later.runtime.heap.slots.size ≤ Heap.slotLimit)
    (hObject : later.runtime.object x = .ok object) :
    ∃ after, (callObject spec).perform session = (.ok x, after) ∧ Retains session after ∧
      after.runtime.object x = .ok object ∧ later.Sheds after := by
  obtain ⟨after, hRun, hSheds⟩ := h.perform_callObject hCall
  have hRoom : after.runtime.heap.slots.size ≤ Heap.slotLimit := hSheds.size_eq ▸ hFits
  have hAfter := inOrder_callObject hOrder hRun
  have hLive : after.runtime.heap.isLive x = true :=
    (hAfter.2 hRoom).2.held_live x (Multiset.mem_add.mpr (.inl (Multiset.mem_singleton_self x)))
  have hKept := h.underway.toRetains.mono hHandles hContinues
  exact ⟨after, hRun, hKept.of_sheds hAfter hRoom hSheds, hSheds.object_eq hObject hLive, hSheds⟩

end Afterwards

section Replies

theorem Underway.twins (h : Underway session now) (h' : Underway session now') :
    Twins now.runtime now'.runtime where
  buffers_eq := h.buffers_eq.trans h'.buffers_eq.symm
  generator_eq := h.generator_eq.trans h'.generator_eq.symm
  entropy_eq := h.entropy_eq.trans h'.entropy_eq.symm

theorem Prepared.ready (h : Prepared session spec native temporaries now) : now.runtime.Ready :=
  ⟨h.room, h.underway.none⟩

/-- Arguments for the same values look alike. -/
theorem Bound.alike {left right : Engine} {b b' : CallBindings}
    (h : Bound session left native parameters assignment b)
    (h' : Bound session right native parameters assignment b') : BoundAlike left right b b' where
  function_eq := h.function_eq.trans h'.function_eq.symm
  rel_get? name := by
    by_cases hName : name ∈ parameters
    · have hLeft := h.rel_get? name hName
      have hRight := h'.rel_get? name hName
      generalize b.get? name = argument at hLeft
      generalize b'.get? name = argument' at hRight
      generalize assignment name = assigned at hLeft hRight
      cases hLeft with
      | none =>
          cases hRight
          exact .none
      | some hStands =>
          obtain ⟨hStands'⟩ := hRight
          exact .some (hStands.alike hStands')
    · have hAbsent {engine : Engine} {b : CallBindings}
          (h : Bound session engine native parameters assignment b) : b.get? name = none := by
        rw [Bindings.get?, List.lookup_eq_none_iff.mpr]
        · rfl
        · intro slot hMem
          rw [bne_iff_ne]
          rintro rfl
          exact hName (h.names_eq ▸ List.mem_map_of_mem hMem)
      rw [hAbsent h, hAbsent h']
      exact .none

variable (hOrder : Registers base 0 session) (hParameters : native.parameters? = some parameters)
include hOrder hParameters

/-- Two ways to write a call get the same reply. -/
theorem Prepared.sameReply (h : Prepared session spec native temporaries now)
    (h' : Prepared session other native temporaries' now') (hPath : other.path = spec.path)
    (hSpells : spec.Spells parameters assignment) (hSpells' : other.Spells parameters assignment) :
    SameReply session spec.path ((callObject spec).perform session)
      ((callObject other).perform session) := by
  obtain ⟨b, hBound, hCall⟩ := h.exists_bound hParameters hSpells
  obtain ⟨b', hBound', hCall'⟩ := h'.exists_bound hParameters hSpells'
  have hTwins := h.underway.twins h'.underway
  have hSame := sameAnswer_namedCall hTwins.buffers_eq (hBound.alike hBound') native
  rw [hPath] at hCall'
  rcases hSame.perform hTwins h.ready h'.ready with
    ⟨e, hLeft, hRight⟩ | ⟨x, y, left, right, hLeft, hRight, hResult⟩
  · have hRefused {now : Session Engine} {op : NativeOp}
        (hRun : op.perform now.runtime = (.error e, now.runtime)) :
        (runtimeOp spec.path op).perform now = (.error (.foreignCall spec.path e), now) := by
      obtain ⟨runtime, handles, root⟩ := now
      rw [perform_runtimeOp, hRun]
    obtain ⟨after, hRun, hUnderway⟩ := h.underway_after hOrder (hCall.trans (hRefused hLeft))
    obtain ⟨after', hRun', hUnderway'⟩ := h'.underway_after hOrder (hCall'.trans (hRefused hRight))
    rw [hRun, hRun']
    exact .refused e hUnderway hUnderway'
  · have hAnswered {now : Session Engine} {op : NativeOp} {x : ObjectId} {next : Engine}
        (hRun : op.perform now.runtime = (.ok x, next)) :
        (runtimeOp spec.path op).perform now = (.ok x, ⟨next, now.handles, now.root⟩) := by
      obtain ⟨runtime, handles, root⟩ := now
      rw [perform_runtimeOp, hRun]
    obtain ⟨object, hObject, hObject'⟩ := hResult.object
    obtain ⟨after, hRun, hKept, hHere, hSheds⟩ := h.retains_after hOrder
      (hCall.trans (hAnswered hLeft)) rfl hResult.left_continues hResult.left_fits hObject
    obtain ⟨after', hRun', hKept', hHere', hSheds'⟩ := h'.retains_after hOrder
      (hCall'.trans (hAnswered hRight)) rfl hResult.right_continues hResult.right_fits hObject'
    rw [hRun, hRun']
    refine .answered object hHere hHere' ⟨?_, ?_, ?_⟩ hKept hKept'
    · exact hSheds.buffers_eq.trans (hResult.twins.buffers_eq.trans hSheds'.buffers_eq.symm)
    · exact hSheds.generator_eq.trans (hResult.twins.generator_eq.trans hSheds'.generator_eq.symm)
    · exact hSheds.entropy_eq.trans (hResult.twins.entropy_eq.trans hSheds'.entropy_eq.symm)

omit hOrder in
theorem Prepared.reaches (h : Prepared session spec native temporaries now)
    (hSpells : spec.Spells parameters assignment) :
    session.Reaches spec native parameters assignment := by
  obtain ⟨b, hBound, hCall⟩ := h.exists_bound hParameters hSpells
  refine ⟨now, b, temporaries.toList, h.underway, hBound, ?_⟩
  rw [callObject_eq_prepare, perform_bind, h.perform_eq]
  dsimp only
  rw [perform_bind, perform_bind, perform_outcome, perform_outcome, hCall]

theorem Prepared.refuses_after (h : Prepared session spec native temporaries now)
    (hMisspells : spec.Misspells parameters) :
    ∃ e after, e.kind = .typeError ∧
      (callObject spec).perform session = (.error (.foreignCall spec.path e), after) ∧
      Underway session after := by
  obtain ⟨e, hKind, hCall⟩ := h.refuses hParameters hMisspells
  obtain ⟨after, hRun, hUnderway⟩ := h.underway_after hOrder hCall
  exact ⟨e, after, hKind, hRun, hUnderway⟩

omit hParameters in
/-- Without an object behind one of its values, a call ends before the function is reached. -/
theorem perform_callObject_unresolved (hNames : session.Names spec.path native)
    (hRoom : session.runtime.heap.slots.size + spec.objects + 1 ≤ Heap.slotLimit)
    (hValues : ¬ session.Resolvable spec.slots) :
    ∃ handle after, .provided (.handle handle) ∈ spec.slots ∧
      session.handles.get? handle = none ∧
      (callObject spec).perform session = (.error (.invalidHandle handle), after) ∧
      Underway session after := by
  obtain ⟨callable, found, hPath, -⟩ := hNames
  obtain ⟨hUnderway, hEnough⟩ := underway_found hOrder hRoom hPath
  obtain ⟨handle, later, after, hMem, hGet, hRun, hLater, hSheds, hFits⟩ :=
    perform_collect_unresolved hUnderway hValues spec.path #[callable] hEnough
  have hCall : (callObject spec).perform session = (.error (.invalidHandle handle), after) := by
    rw [callObject_eq_prepare, perform_bind, prepare, perform_bind, hPath]
    dsimp only
    rw [hRun]
  have hAfter : after.runtime.heap.slots.size ≤ Heap.slotLimit := hSheds.size_eq ▸ hFits
  exact ⟨handle, after, hMem, hGet, hCall,
    hLater.of_sheds (inOrder_callObject hOrder hCall) hAfter hSheds⟩

end Replies

end Session

namespace Interpreter

open Session

variable {isDirectory : String → Bool} {entropy : Generator} {settings : EngineSettings}
  {engine : Engine} {session : Session Engine} {path : String} {native : Native}
  {parameters : List String}

/-- Only the assignment of values to parameters matters, and not how a call is written. All
ways to write an assignment of values that are no handles, or registered ones, reach the
function with the same arguments and get the same reply. A call that writes two values for a
parameter, or one for no parameter, is refused for its type. A call with a handle that is not
registered is refused for one of these, before anything else. -/
theorem reply_of_assignment (hStart : Engine.start isDirectory entropy settings = .ok engine)
    (root : String) (earlier : List Request)
    (hSession : ((ofRuntime engine root).serve earlier).session = some session)
    (hNames : session.Names path native) (hParameters : native.parameters? = some parameters)
    (assignment : String → Option HostValue) :
    ((∀ name ∈ parameters, ∀ value, assignment name = some value → session.Registered value) →
      ∀ spec, spec.path = path → spec.Spells parameters assignment →
        session.runtime.heap.slots.size + spec.objects + 1 ≤ Heap.slotLimit →
        session.Reaches spec native parameters assignment ∧
        ∀ other, other.path = path → other.Spells parameters assignment →
          session.runtime.heap.slots.size + other.objects + 1 ≤ Heap.slotLimit →
          SameReply session path ((callObject spec).perform session)
            ((callObject other).perform session)) ∧
    ∀ spec, spec.path = path →
      session.runtime.heap.slots.size + spec.objects + 1 ≤ Heap.slotLimit →
      (session.Resolvable spec.slots → spec.Misspells parameters →
        ∃ e after, e.kind = .typeError ∧
          (callObject spec).perform session = (.error (.foreignCall path e), after) ∧
          Underway session after) ∧
      (¬ session.Resolvable spec.slots →
        ∃ handle after, .provided (.handle handle) ∈ spec.slots ∧
          session.handles.get? handle = none ∧
          (callObject spec).perform session = (.error (.invalidHandle handle), after) ∧
          Underway session after) := by
  obtain ⟨_, hServed, hOrder⟩ := registers_serve hStart root earlier
  cases hServed.symm.trans hSession
  refine ⟨fun hValues => ?_, ?_⟩
  · have hPrepared {spec : CallSpec} (hPath : spec.path = path)
        (hSpells : spec.Spells parameters assignment)
        (hRoom : session.runtime.heap.slots.size + spec.objects + 1 ≤ Heap.slotLimit) :
        ∃ temporaries now, Prepared session spec native temporaries now := by
      have hResolvable : session.Resolvable spec.slots := fun value hMem => by
        obtain ⟨name, hName, hAssigned⟩ := hSpells.assigned hMem
        exact hValues name hName value hAssigned
      obtain ⟨temporaries, now, hReady, -⟩ :=
        exists_prepared hOrder hRoom (hPath ▸ hNames) hResolvable
      exact ⟨temporaries, now, hReady⟩
    rintro spec rfl hSpells hRoom
    obtain ⟨temporaries, now, hReady⟩ := hPrepared rfl hSpells hRoom
    refine ⟨hReady.reaches hParameters hSpells, fun other hPath hSpells' hRoom' => ?_⟩
    obtain ⟨temporaries', now', hReady'⟩ := hPrepared hPath hSpells' hRoom'
    exact hReady.sameReply hOrder hParameters hReady' hPath hSpells hSpells'
  · rintro spec rfl hRoom
    refine ⟨fun hResolvable hMisspells => ?_, fun hUnresolved => ?_⟩
    · obtain ⟨temporaries, now, hReady, -⟩ := exists_prepared hOrder hRoom hNames hResolvable
      exact hReady.refuses_after hOrder hParameters hMisspells
    · exact perform_callObject_unresolved hOrder hNames hRoom hUnresolved

/-- An array and a number are added, by position and by name. -/
theorem reply_of_sum :
    ∃ engine session, Engine.start (fun _ => true) ⟨0⟩ ⟨none, none, "numeric", some 7⟩ = .ok engine ∧
      ((ofRuntime engine "numeric").serve
        [.callArray (.positional "zeros" [.provided (.ints [2])])]).session = some session ∧
      session.Names "add" (.numeric .add) ∧
      session.Registered (.handle ⟨0x100000000⟩) ∧
      SameReply session "add"
        ((callObject (.sumByPosition (.handle ⟨0x100000000⟩) (.int 3))).perform session)
        ((callObject (.sumByName (.handle ⟨0x100000000⟩) (.int 3))).perform session) := by
  have hStart : Engine.start (fun _ => true) ⟨0⟩ ⟨none, none, "numeric", some 7⟩ = .ok
      ((Engine.createModules "numeric").run (Engine.bare ⟨none, none, "numeric", some 7⟩ ⟨0⟩)).2 := rfl
  have hMade : ((ofRuntime ((Engine.createModules "numeric").run
      (Engine.bare ⟨none, none, "numeric", some 7⟩ ⟨0⟩)).2 "numeric").serve
        [.callArray (.positional "zeros" [.provided (.ints [2])])]).session.map
        (fun session => (session.handles.get? ⟨0x100000000⟩, session.runtime.heap.slots.size,
          ((resolve "add").perform session).1,
          ((resolve "add").perform session).2.runtime.object ⟨27, 0⟩))
      = some (some ⟨35, 0⟩, 36, .ok ⟨27, 0⟩, .ok (.native (.numeric .add))) := by cbv
  obtain ⟨session, hSession, hFacts⟩ := Option.map_eq_some_iff.mp hMade
  simp only [Prod.mk.injEq] at hFacts
  obtain ⟨hGet, hSize, hFound, hNative⟩ := hFacts
  have hNames : session.Names "add" (.numeric .add) := ⟨_, _, Prod.ext hFound rfl, hNative⟩
  have hArray : session.Registered (.handle ⟨0x100000000⟩) := by
    rintro _ ⟨⟩
    exact ⟨_, hGet⟩
  obtain ⟨hSpelled, -⟩ := reply_of_assignment hStart "numeric" _ hSession hNames rfl
    (CallSpec.sumArguments (.handle ⟨0x100000000⟩) (.int 3))
  have hValues : ∀ name ∈ ["x1", "x2"], ∀ value,
      CallSpec.sumArguments (.handle ⟨0x100000000⟩) (.int 3) name = some value →
        session.Registered value := by
    intro name hName value hAssigned
    fin_cases hName <;> cases hAssigned
    · exact hArray
    · rintro _ ⟨⟩
  have hRoom (spec : CallSpec) (hCost : spec.objects ≤ 1) :
      session.runtime.heap.slots.size + spec.objects + 1 ≤ Heap.slotLimit := by
    rw [hSize, Heap.slotLimit]
    omega
  obtain ⟨-, hSame⟩ := hSpelled hValues _ rfl (CallSpec.spells_sumByPosition _ _)
    (hRoom _ (by decide))
  exact ⟨_, session, hStart, hSession, hNames, hArray, hSame _ rfl (CallSpec.spells_sumByName _ _)
    (hRoom _ (by decide))⟩

/-- Values without objects behind them are looked at in the order in which they are written,
so two ways to write a sum are refused for different ones. -/
theorem replies_differ_of_unregistered :
    ∃ engine session, Engine.start (fun _ => true) ⟨0⟩ ⟨none, none, "numeric", some 7⟩ = .ok engine ∧
      (ofRuntime engine "numeric").session = some session ∧
      session.Names "add" (.numeric .add) ∧
      (CallSpec.sumByPosition (.handle ⟨1⟩) (.handle ⟨2⟩)).Spells ["x1", "x2"]
        (CallSpec.sumArguments (.handle ⟨1⟩) (.handle ⟨2⟩)) ∧
      (CallSpec.sumByName (.handle ⟨1⟩) (.handle ⟨2⟩)).Spells ["x1", "x2"]
        (CallSpec.sumArguments (.handle ⟨1⟩) (.handle ⟨2⟩)) ∧
      ((callObject (.sumByPosition (.handle ⟨1⟩) (.handle ⟨2⟩))).perform session).1
        = .error (.invalidHandle ⟨1⟩) ∧
      ((callObject (.sumByName (.handle ⟨1⟩) (.handle ⟨2⟩))).perform session).1
        = .error (.invalidHandle ⟨2⟩) := by
  have hStart : Engine.start (fun _ => true) ⟨0⟩ ⟨none, none, "numeric", some 7⟩ = .ok
      ((Engine.createModules "numeric").run (Engine.bare ⟨none, none, "numeric", some 7⟩ ⟨0⟩)).2 := rfl
  have hFresh : (ofRuntime ((Engine.createModules "numeric").run
      (Engine.bare ⟨none, none, "numeric", some 7⟩ ⟨0⟩)).2 "numeric").session.map
        (fun session => (((resolve "add").perform session).1,
          ((resolve "add").perform session).2.runtime.object ⟨27, 0⟩,
          ((callObject (.sumByPosition (.handle ⟨1⟩) (.handle ⟨2⟩))).perform session).1,
          ((callObject (.sumByName (.handle ⟨1⟩) (.handle ⟨2⟩))).perform session).1))
      = some (.ok ⟨27, 0⟩, .ok (.native (.numeric .add)), .error (.invalidHandle ⟨1⟩),
        .error (.invalidHandle ⟨2⟩)) := by cbv
  obtain ⟨session, hSession, hFacts⟩ := Option.map_eq_some_iff.mp hFresh
  simp only [Prod.mk.injEq] at hFacts
  obtain ⟨hFound, hNative, hFirst, hSecond⟩ := hFacts
  exact ⟨_, session, hStart, hSession, ⟨_, _, Prod.ext hFound rfl, hNative⟩,
    CallSpec.spells_sumByPosition _ _, CallSpec.spells_sumByName _ _, hFirst, hSecond⟩

end Interpreter

end ArrayBridge
