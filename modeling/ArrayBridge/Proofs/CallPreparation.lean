import ArrayBridge.Proofs.Building
import ArrayBridge.Proofs.CallSpelling
import ArrayBridge.Proofs.HandleObjects
import ArrayBridge.Proofs.PathResolution
import ArrayBridge.Proofs.SameAnswers

/-! The preparation of a call.

Before a function is called, its path is followed and an object is made for each of its
arguments. With room for these objects, and handles that are registered, nothing of this
fails. What the function is called with then stands for the values of the call, slot by slot,
and all else is as it was. -/

namespace ArrayBridge

open Operation Engine Outcome

/-- The number of objects that are made for an argument slot. -/
def Argument.objects : Argument → Nat
  | provided value => value.objects
  | omitted => 0

/-- The slots of a call that get an object: those by position, and then those by name. -/
def CallSpec.slots (spec : CallSpec) : List Argument :=
  spec.supplied ++ spec.suppliedKeywords.map fun entry => .provided entry.2

/-- The number of objects that are made for the arguments of a call. -/
def CallSpec.objects (spec : CallSpec) : Nat := (spec.slots.map Argument.objects).sum

namespace Session

section Collecting

variable {α β : Type} {op : α → BridgeOp Engine ObjectId}

/-- The first item without a property. -/
theorem exists_first {property : α → Prop} {items : List α} (h : ∃ item ∈ items, ¬ property item) :
    ∃ good item rest, items = good ++ item :: rest ∧ ¬ property item ∧
      ∀ other ∈ good, property other := by
  classical
  obtain ⟨first, hFirst⟩ : ∃ item, items.find? (fun item => decide (¬ property item)) = some item :=
    Option.isSome_iff_exists.mp (List.find?_isSome.mpr (by simpa using h))
  obtain ⟨hBad, good, rest, rfl, hGood⟩ := List.find?_eq_some_iff_append.mp hFirst
  exact ⟨good, first, rest, rfl, of_decide_eq_true hBad, by simpa using hGood⟩

theorem collect_append (first second : List α) (built : Array ObjectId) :
    collect op (first ++ second) built = (collect op first built >>= collect op second) := by
  induction first generalizing built with
  | nil => rw [List.nil_append, collect, pure_bind]
  | cons item first ih =>
      rw [List.cons_append, collect, collect, bind_assoc]
      refine bind_congr fun result => ?_
      cases result with
      | ok id => exact ih _
      | error e =>
          dsimp only
          rw [bind_assoc]
          rfl

theorem collect_map (f : β → α) (items : List β) (built : Array ObjectId) :
    collect op (items.map f) built = collect (fun item => op (f item)) items built := by
  induction items generalizing built with
  | nil => rfl
  | cons item items ih =>
      rw [List.map_cons, collect, collect]
      refine bind_congr fun result => ?_
      cases result with
      | ok id => exact ih _
      | error e => rfl

/-- The first item that fails ends a collection, and what was made before is released. -/
theorem perform_collect_of_error {good rest : List α} {item : α} {built ids : Array ObjectId}
    {now later after : Session Engine} {e : BridgeError}
    (hGood : (collect op good built).perform now = (.ok ids, later))
    (hItem : (op item).perform later = (.error e, after)) :
    (collect op (good ++ item :: rest) built).perform now
      = (.error e, ((releaseAll ids.toList : BridgeOp Engine Unit).perform after).2) := by
  rw [collect_append, perform_bind, hGood]
  dsimp only
  rw [collect, perform_bind, perform_outcome, hItem]
  rfl

end Collecting

/-- The first part of a call: the callable and the objects of its arguments. -/
def prepare (spec : CallSpec) : BridgeOp Engine (Array ObjectId) := do
  let callable ← resolve spec.path
  collect (toForeignArgument spec.path) spec.slots #[callable]

theorem callObject_eq_prepare (spec : CallSpec) : callObject spec = (prepare spec >>=
    fun temporaries => do
      let result ← outcome (callWith spec temporaries)
      releaseAll temporaries.toList
      ofOutcome result) := by
  rw [callObject, prepare, bind_assoc]
  refine bind_congr fun callable => ?_
  rw [CallSpec.slots, collect_append, bind_assoc]
  exact bind_congr fun temporaries => by rw [collect_map]; rfl

/-- A value is a handle only if the handle is registered. -/
def Registered (session : Session Engine) (value : HostValue) : Prop :=
  ∀ h, value = .handle h → ∃ id, session.handles.get? h = some id

/-- An object of an engine stands for a value of the host. A handle stands for what it stood
for in the session in which the value was given. -/
inductive Stands (session : Session Engine) (engine : Engine) : ObjectId → HostValue → Prop
  | handle {h : Handle} {id : ObjectId} (object : Object) (hGet : session.handles.get? h = some id)
      (hKind : object.isRegistrable = true) (hBefore : session.runtime.object id = .ok object)
      (hObject : engine.object id = .ok object) : Stands session engine id (.handle h)
  | immediate {value : HostValue} {id : ObjectId} (p : Primitive)
      (hValue : value.immediate? = some p) (hObject : engine.object id = .ok (objectOf p)) :
      Stands session engine id value
  | numbers {value : HostValue} {id : ObjectId} (values : List Scalar)
      (hValue : value.numbers? = some values) (hHolds : engine.HoldsNumbers values id) :
      Stands session engine id value

/-- An object stands for an argument slot. For an omitted one there is a single object. -/
inductive StandsFor (session : Session Engine) (engine : Engine) : ObjectId → Argument → Prop
  | provided {id : ObjectId} {value : HostValue} (h : Stands session engine id value) :
      StandsFor session engine id (.provided value)
  | omitted : StandsFor session engine engine.names.noValueId .omitted

variable {session now later : Session Engine} {engine next left right : Engine}
  {id x y : ObjectId} {value : HostValue}

section Standing

theorem HoldsNumbers.mono {values : List Scalar} (h : engine.HoldsNumbers values id)
    (hExtends : engine.Extends next) : next.HoldsNumbers values id := by
  obtain ⟨items, hTuple, hItems⟩ := h
  exact ⟨items, hExtends.object_eq hTuple, hItems.imp fun _ _ => hExtends.object_eq⟩

theorem Stands.mono (h : Stands session engine id value) (hExtends : engine.Extends next) :
    Stands session next id value := by
  cases h with
  | handle object hGet hKind hBefore hObject =>
      exact .handle object hGet hKind hBefore (hExtends.object_eq hObject)
  | immediate p hValue hObject => exact .immediate p hValue (hExtends.object_eq hObject)
  | numbers values hValue hHolds => exact .numbers values hValue (HoldsNumbers.mono hHolds hExtends)

theorem StandsFor.mono {argument : Argument} (h : StandsFor session engine id argument)
    (hExtends : engine.Extends next) : StandsFor session next id argument := by
  cases h with
  | provided h => exact .provided (h.mono hExtends)
  | omitted =>
      rw [← hExtends.names_eq]
      exact .omitted

/-- No value is taken for an argument that was not supplied. -/
theorem Stands.ne_noValueId (h : Stands session engine id value)
    (hAbsent : engine.object engine.names.noValueId = .ok .noValue) :
    id ≠ engine.names.noValueId := by
  rintro rfl
  cases h with
  | handle object hGet hKind hBefore hObject =>
      cases hAbsent.symm.trans hObject
      cases hKind
  | immediate p hValue hObject =>
      cases value <;> cases hValue <;> cases hAbsent.symm.trans hObject
  | numbers values hValue hHolds =>
      obtain ⟨items, hTuple, -⟩ := hHolds
      cases hAbsent.symm.trans hTuple

/-- Objects that stand for the same value look alike. -/
theorem Stands.alike (hLeft : Stands session left x value) (hRight : Stands session right y value) :
    Alike left right x y := by
  cases hLeft with
  | handle object hGet hKind hBefore hObject =>
      cases hRight with
      | handle other hOther _ hBefore' hObject' =>
          cases hGet.symm.trans hOther
          cases hBefore.symm.trans hBefore'
          refine .plain object ?_ hObject hObject'
          cases object with
          | array | iterator => rfl
          | _ => cases hKind
      | immediate p hValue => cases hValue
      | numbers values hValue => cases hValue
  | immediate p hValue hObject =>
      cases hRight with
      | handle => cases hValue
      | immediate q hOther hObject' =>
          cases hValue.symm.trans hOther
          refine .plain (objectOf p) ?_ hObject hObject'
          cases value <;> cases hValue <;> rfl
      | numbers values hOther => cases value <;> cases hValue <;> cases hOther
  | numbers values hValue hHolds =>
      cases hRight with
      | handle => cases hValue
      | immediate q hOther => cases value <;> cases hValue <;> cases hOther
      | numbers others hOther hHolds' =>
          cases hValue.symm.trans hOther
          exact .numbers values hHolds hHolds'

end Standing

section Underway

/-- Handles stand for what they stood for in an earlier session. -/
structure Retains (session now : Session Engine) : Prop where
  handles_eq : now.handles = session.handles
  handle : ∀ h id, session.handles.get? h = some id → ∃ object, object.isRegistrable = true ∧
    session.runtime.object id = .ok object ∧ now.runtime.object id = .ok object
  none : now.runtime.object now.runtime.names.noneId = .ok .none
  noValue : now.runtime.object now.runtime.names.noValueId = .ok .noValue

/-- On the way from a session to a call of a function, all that a host could notice is as it
was: handles stand for the same objects, and buffers and generators are the same. -/
structure Underway (session now : Session Engine) : Prop extends Retains session now where
  buffers_eq : now.runtime.buffers = session.runtime.buffers
  generator_eq : now.runtime.generator = session.runtime.generator
  entropy_eq : now.runtime.entropy = session.runtime.entropy

/-- Objects that go on to be there go on to stand for what they stood for. -/
theorem Retains.mono (h : Retains session now) (hHandles : later.handles = now.handles)
    (hContinues : now.runtime.Continues later.runtime) : Retains session later where
  handles_eq := hHandles.trans h.handles_eq
  handle handle id hGet := by
    obtain ⟨object, hKind, hBefore, hNow⟩ := h.handle handle id hGet
    exact ⟨object, hKind, hBefore, hContinues.object_eq hNow⟩
  none := by
    rw [hContinues.names_eq]
    exact hContinues.object_eq h.none
  noValue := by
    rw [hContinues.names_eq]
    exact hContinues.object_eq h.noValue

theorem Underway.extends (h : Underway session now) (hExtends : now.Extends later) :
    Underway session later where
  toRetains := h.toRetains.mono hExtends.handles_eq hExtends.runtime.continues
  buffers_eq := hExtends.runtime.buffers_eq.trans h.buffers_eq
  generator_eq := hExtends.runtime.generator_eq.trans h.generator_eq
  entropy_eq := hExtends.runtime.entropy_eq.trans h.entropy_eq

/-- A value without contents has an object already, which is shared. -/
theorem builds_shared (value : Primitive) {object : Object} (path : String) (cost : Nat)
    (hOwn : (Engine.build value).perform now.runtime = (always (share id) : NativeOp).perform
      now.runtime) (hObject : now.runtime.object id = .ok object) :
    Builds cost (build path value) now fun found engine =>
      found = id ∧ engine.names = now.runtime.names ∧ engine.object id = .ok object := by
  intro spare hRoom
  obtain ⟨runtime, handles, root⟩ := now
  obtain ⟨next, hRun, hExtends, hSpare⟩ := hRoom.retain hObject
  refine ⟨id, ⟨next, handles, root⟩, ?_, ⟨hExtends, rfl⟩, ⟨hSpare.consistent, ?_⟩, rfl,
    hExtends.names_eq, hExtends.object_eq hObject⟩
  · change (runtimeOp path (Engine.build value)).perform _ = _
    rw [perform_runtimeOp, hOwn, perform_always]
    change (Except.ok id, Session.mk ((Engine.retain id).run runtime).2 handles root) = _
    rw [hRun]
  · have hFits := hSpare.fits
    dsimp only
    omega

/-- The object of a value stands for it. -/
theorem builds_stands (h : Underway session now) (hValue : session.Registered value) :
    Builds value.objects (toForeign value) now fun id engine => Stands session engine id value := by
  have hOwn (p : Primitive) (hCreate : Engine.build p = always (create (objectOf p)))
      (hImmediate : value.immediate? = some p) :
      Builds 1 (build argumentPath p) now fun id engine => Stands session engine id value :=
    (builds_build p argumentPath hCreate).mono fun _ _ hObject => .immediate p hImmediate hObject
  cases value with
  | none =>
      have hShare : (Engine.build .none).perform now.runtime
          = (always (share now.runtime.names.noneId) : NativeOp).perform now.runtime := rfl
      refine (builds_shared .none argumentPath 1 hShare h.none).mono ?_
      rintro _ engine ⟨rfl, -, hObject⟩
      exact .immediate .none rfl hObject
  | bool b => exact hOwn (.bool b) rfl rfl
  | int i => exact hOwn (.int i) rfl rfl
  | float x => exact hOwn (.float x) rfl rfl
  | str text => exact hOwn (.str text) rfl rfl
  | bytes octets => exact hOwn (.bytes octets) rfl rfl
  | bools | ints | floats =>
      exact (builds_numbers _ rfl).mono fun _ _ hHolds => .numbers _ rfl hHolds
  | handle handle =>
      obtain ⟨id, hGet⟩ := hValue handle rfl
      obtain ⟨object, hKind, hBefore, hNow⟩ := h.handle handle id hGet
      refine builds_handle (h.handles_eq ▸ hGet) hNow fun later hExtends => ?_
      exact .handle object hGet hKind hBefore (hExtends.object_eq hNow)

/-- The object of an argument slot stands for it. -/
theorem builds_argument (h : Underway session now) {argument : Argument} (path : String)
    (hArgument : ∀ value, argument = .provided value → session.Registered value) :
    Builds argument.objects (toForeignArgument path argument) now
      fun id engine => StandsFor session engine id argument := by
  cases argument with
  | provided value =>
      exact (builds_stands h (hArgument value rfl)).mono fun _ _ => .provided
  | omitted =>
      have hShare : (Engine.build .noValue).perform now.runtime
          = (always (share now.runtime.names.noValueId) : NativeOp).perform now.runtime := rfl
      refine (builds_shared .noValue path 0 hShare h.noValue).mono ?_
      rintro _ engine ⟨rfl, hNames, -⟩
      rw [← hNames]
      exact .omitted

end Underway

end Session

end ArrayBridge
