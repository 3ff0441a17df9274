import ArrayBridge.Bridge.Marshal
import ArrayBridge.Proofs.Growth
import ArrayBridge.Proofs.HandleLedger
import ArrayBridge.Proofs.Nesting

/-! What the bridge builds for a request.

Building a value never fails if there is room for its objects: it leaves the handles and all
objects as they are and gives back an object that holds the value. A list becomes a tuple
whose items are built one after the other, so what holds of an item has to stay while the
others are built. -/

namespace ArrayBridge

open Operation Engine Outcome

namespace HostValue

/-- The numbers of a list. -/
def numbers? : HostValue → Option (List Scalar)
  | bools values => some (values.map .bool)
  | ints values => some (values.map .int)
  | floats values => some (values.map .float)
  | _ => Option.none

/-- The number of objects that are built for a value. -/
def objects (value : HostValue) : Nat :=
  match value, value.numbers? with
  | _, some numbers => numbers.length + 1
  | handle _, Option.none => 0
  | _, Option.none => 1

end HostValue

namespace Engine

variable {engine : Engine} {id : ObjectId} {values : List Scalar}

section Numbers

/-! A tuple of numbers as an array. -/

/-- A tuple has the given numbers as its items. -/
def HoldsNumbers (engine : Engine) (values : List Scalar) (id : ObjectId) : Prop :=
  ∃ items, engine.object id = .ok (.tuple items) ∧
    List.Forall₂ (fun item value => engine.object item = .ok (.ofScalar value)) items values

theorem part_of_number {value : Scalar} (h : engine.object id = .ok (.ofScalar value)) :
    engine.part? id = some (.number value) := by
  unfold part?
  rw [h]
  cases value <;> rfl

/-- The leaf that an object is, if it is a number. -/
def leaf (engine : Engine) (id : ObjectId) : List Scalar :=
  match engine.part? id with
  | some (.number value) => [value]
  | _ => []

theorem leaf_of_part {value : Scalar} (h : engine.part? id = some (.number value)) :
    engine.leaf id = [value] := by
  rw [leaf, h]

theorem HoldsNumbers.arrayForm_eq (h : engine.HoldsNumbers values id) :
    engine.arrayForm id = .ok (.fresh (.ofLeaves [values.length] values)) := by
  obtain ⟨items, hTuple, hItems⟩ := h
  have hPart : engine.part? id = some (.sequence items) := by
    unfold part?
    rw [hTuple]
  have hParts : List.Forall₂ (fun item value => engine.part? item = some (.number value))
      items values := hItems.imp fun _ _ => part_of_number
  have hLength := hParts.length_eq
  obtain ⟨hFlat, hAll⟩ : items.flatMap engine.leaf = values ∧
      ∀ item ∈ items, ∃ value, engine.part? item = some (.number value) := by
    clear hLength hPart hTuple hItems
    induction hParts with
    | nil => exact ⟨rfl, by simp⟩
    | cons hFirst _ ih =>
        obtain ⟨hFlat, hAll⟩ := ih
        refine ⟨?_, List.forall_mem_cons.mpr ⟨⟨_, hFirst⟩, hAll⟩⟩
        rw [List.flatMap_cons, leaf_of_part hFirst, hFlat]
        rfl
  have hLeaves : engine.Leaves id values := by
    rw [← hFlat]
    refine .sequence engine.leaf hPart fun item hItem => ?_
    obtain ⟨value, hNumber⟩ := hAll item hItem
    rw [leaf_of_part hNumber]
    exact .number hNumber
  have hShape : engine.HasShape id [values.length] := by
    rw [← hLength]
    cases items with
    | nil => exact .empty hPart
    | cons item items =>
        refine .sequence hPart (by simp) fun c hItem => ?_
        obtain ⟨value, hNumber⟩ := hAll c hItem
        exact .number hNumber
  rw [arrayForm_part hPart]
  dsimp only
  rw [hShape.nestContents_eq hLeaves, Shape.checkStrides_singleton]
  rfl

theorem HoldsNumbers.arrayContents_eq (h : engine.HoldsNumbers values id) :
    engine.arrayContents id = .ok (.ofLeaves [values.length] values) := by
  rw [arrayContents, h.arrayForm_eq]
  change Except.ok (Contents.trim _) = _
  simp [Contents.trim, Contents.ofLeaves, Contents.ofValues, Shape.size]

theorem arrayContents_number {value : Scalar} (h : engine.object id = .ok (.ofScalar value)) :
    engine.arrayContents id = .ok (.ofLeaves [] [value]) := by
  have hPart := part_of_number h
  unfold arrayContents
  rw [arrayForm_part hPart]
  dsimp only
  rw [(HasShape.number hPart).nestContents_eq (.number hPart), Shape.checkStrides_nil]
  change Except.ok (Contents.trim _) = _
  simp [Contents.trim, Contents.ofLeaves, Contents.ofValues, Shape.size]

end Numbers

end Engine

namespace Session

variable {α β : Type} {session earlier middle later : Session Engine} {id : ObjectId}

/-- A later state of a session, with the same handles. -/
structure Extends (earlier later : Session Engine) : Prop where
  runtime : earlier.runtime.Extends later.runtime
  handles_eq : later.handles = earlier.handles

theorem Extends.refl (session : Session Engine) : session.Extends session := ⟨.refl _, rfl⟩

theorem Extends.trans (hFirst : earlier.Extends middle) (hSecond : middle.Extends later) :
    earlier.Extends later :=
  ⟨hFirst.runtime.trans hSecond.runtime, hSecond.handles_eq.trans hFirst.handles_eq⟩

/-- With room for a number of objects an operation succeeds, and leaves all that there was
as it is; room for others stays. The result has a property in the engine after it. -/
def Builds (cost : Nat) (op : BridgeOp Engine α) (session : Session Engine)
    (property : α → Engine → Prop) : Prop :=
  ∀ spare, session.runtime.HasRoom (cost + spare) →
    ∃ a next, op.perform session = (.ok a, next) ∧ session.Extends next ∧
      next.runtime.HasRoom spare ∧ property a next.runtime

section Building

variable {cost : Nat} {property : α → Engine → Prop} {op : BridgeOp Engine α}

theorem builds_pure {a : α} (h : property a session.runtime) :
    Builds 0 (pure a) session property :=
  fun spare hRoom => ⟨a, session, rfl, .refl _, by rwa [Nat.zero_add] at hRoom, h⟩

theorem Builds.mono {wider : α → Engine → Prop} (h : Builds cost op session property)
    (hWider : ∀ a engine, property a engine → wider a engine) : Builds cost op session wider := by
  intro spare hRoom
  obtain ⟨a, next, hRun, hExtends, hSpare, hProperty⟩ := h spare hRoom
  exact ⟨a, next, hRun, hExtends, hSpare, hWider a _ hProperty⟩

/-- A value that has an object of its own. -/
theorem builds_build (value : Primitive) (path : String)
    (hOwn : Engine.build value = always (create (objectOf value))) :
    Builds 1 (build path value) session
      fun id engine => engine.object id = .ok (objectOf value) := by
  intro spare hRoom
  obtain ⟨runtime, handles, root⟩ := session
  rw [Nat.add_comm] at hRoom
  obtain ⟨id, next, hRun, hExtends, hSpare, hObject⟩ := hRoom.create (objectOf value)
  refine ⟨id, ⟨next, handles, root⟩, ?_, ⟨hExtends, rfl⟩, hSpare, hObject⟩
  change (runtimeOp path (Engine.build value)).perform _ = _
  rw [perform_runtimeOp, hOwn, perform_always, hRun]

/-- Another reference to the object of a handle. -/
theorem builds_handle {h : Handle} {object : Object} {property : ObjectId → Engine → Prop}
    (hGet : session.handles.get? h = some id) (hObject : session.runtime.object id = .ok object)
    (hProperty : ∀ later, session.runtime.Extends later → property id later) :
    Builds 0 (toForeign (.handle h)) session property := by
  intro spare hRoom
  obtain ⟨runtime, handles, root⟩ := session
  rw [Nat.zero_add] at hRoom
  obtain ⟨next, hRun, hExtends, hSpare⟩ := hRoom.retain hObject
  refine ⟨id, ⟨next, handles, root⟩, ?_, ⟨hExtends, rfl⟩, hSpare, hProperty next hExtends⟩
  rw [toForeign, perform_bind, perform_lookup, hGet]
  change (Except.ok id, Session.mk ((Engine.retain id).run runtime).2 handles root) = _
  rw [hRun]

/-- A list of objects costs as much as its items. What holds of an item has to stay so while
the others are built. -/
theorem builds_collect {op : α → BridgeOp Engine ObjectId} {cost : α → Nat}
    {property : β → ObjectId → Engine → Prop} {items : List α} {results : List β}
    (hItems : List.Forall₂ (fun a result => ∀ later, session.Extends later →
      Builds (cost a) (op a) later (property result)) items results)
    (hStays : ∀ result id earlier later, Engine.Extends earlier later →
      property result id earlier → property result id later)
    (built : Array ObjectId) (hLater : session.Extends later) :
    Builds (items.map cost).sum (collect op items built) later fun ids engine =>
      ∃ found, ids = built ++ found.toArray ∧
        List.Forall₂ (fun id result => property result id engine) found results := by
  induction hItems generalizing built later with
  | nil => exact builds_pure ⟨[], rfl, .nil⟩
  | @cons a result items results hFirst _ ih =>
      rw [List.map_cons, List.sum_cons]
      intro spare hRoom
      rw [Nat.add_assoc] at hRoom
      obtain ⟨id, middle, hRun, hExtends, hMore, hHead⟩ := hFirst later hLater _ hRoom
      -- The rest is built in what the first item left, and leaves that item as it is.
      obtain ⟨ids, next, hRest, hFurther, hSpare, found, rfl, hFound⟩ :=
        ih (built.push id) (hLater.trans hExtends) spare hMore
      refine ⟨built.push id ++ found.toArray, next, ?_, hExtends.trans hFurther, hSpare,
        id :: found, by simp, ?_⟩
      · rw [collect, perform_bind, perform_outcome, hRun]
        exact hRest
      · exact .cons (hStays result id _ _ hFurther.runtime hHead) hFound

/-- A tuple takes over the objects that were collected for it. -/
theorem builds_tuple {op : α → BridgeOp Engine ObjectId} {cost : α → Nat}
    {property : β → ObjectId → Engine → Prop} {items : List α} {results : List β} (path : String)
    (hItems : List.Forall₂ (fun a result => ∀ later, session.Extends later →
      Builds (cost a) (op a) later (property result)) items results)
    (hStays : ∀ result id earlier later, Engine.Extends earlier later →
      property result id earlier → property result id later) :
    Builds ((items.map cost).sum + 1) (do
      let ids ← collect op items #[]
      build path (.tuple ids.toList)) session fun id engine =>
        ∃ found, engine.object id = .ok (.tuple found) ∧
          List.Forall₂ (fun id result => property result id engine) found results := by
  intro spare hRoom
  rw [Nat.add_assoc] at hRoom
  obtain ⟨ids, middle, hRun, hExtends, hMore, found, rfl, hFound⟩ :=
    builds_collect hItems hStays #[] (.refl _) (1 + spare) hRoom
  obtain ⟨id, next, hLast, hFurther, hSpare, hTuple⟩ :=
    builds_build (.tuple found) path rfl spare hMore
  refine ⟨id, next, ?_, hExtends.trans hFurther, hSpare, found, hTuple, ?_⟩
  · rw [perform_bind, hRun]
    simpa using hLast
  · exact hFound.imp fun _ _ => hStays _ _ _ _ hFurther.runtime

theorem builds_number (path : String) (value : Scalar) :
    Builds 1 (build path (primitiveOf value)) session
      fun id engine => engine.object id = .ok (.ofScalar value) := by
  cases value <;> exact builds_build _ path rfl

theorem toForeign_of_numbers {value : HostValue} {numbers : List Scalar}
    (h : value.numbers? = some numbers) : (toForeign value : BridgeOp Engine ObjectId)
      = buildSequence (numbers.map primitiveOf) := by
  cases value with
  | bools values | ints values | floats values =>
      cases h
      rw [toForeign, List.map_map]
      rfl
  | _ => cases h

/-- A list of numbers becomes a tuple of them. -/
theorem builds_numbers (value : HostValue) {numbers : List Scalar}
    (h : value.numbers? = some numbers) : Builds (numbers.length + 1) (toForeign value) session
      fun id engine => engine.HoldsNumbers numbers id := by
  rw [toForeign_of_numbers h]
  have hItems : List.Forall₂ (fun item value => ∀ later, session.Extends later →
      Builds 1 (build argumentPath item) later
        fun id engine => engine.object id = .ok (.ofScalar value))
      (numbers.map primitiveOf) numbers :=
    List.forall₂_map_left_iff.mpr (List.forall₂_same.mpr fun value _ _ _ =>
      builds_number argumentPath value)
  have hTuple := builds_tuple argumentPath hItems fun _ _ _ _ hExtends => hExtends.object_eq
  rwa [List.map_const', List.sum_replicate_nat, Nat.mul_one, List.length_map] at hTuple

end Building

section Values

/-- Whether a value for the elements of an array can be read as an array. -/
def IsArrayLike (session : Session Engine) : HostValue → Prop
  | .handle h => ∃ id c, session.handles.get? h = some id ∧ session.runtime.arrayContents id = .ok c
  | .bool _ | .int _ | .float _ | .bools _ | .ints _ | .floats _ => True
  | .none | .str _ | .bytes _ => False

theorem IsArrayLike.mono {value : HostValue} (h : earlier.IsArrayLike value)
    (hExtends : earlier.Extends later) : later.IsArrayLike value := by
  cases value with
  | handle h =>
      obtain ⟨id, c, hGet, hContents⟩ := h
      rw [← hExtends.handles_eq] at hGet
      exact ⟨id, c, hGet, hExtends.runtime.recalls.arrayContents hContents⟩
  | _ => exact h

theorem builds_value {value : HostValue} (h : session.IsArrayLike value) :
    Builds value.objects (toForeign value) session
      fun id engine => ∃ c, engine.arrayContents id = .ok c := by
  have hNumber (value : Scalar) : Builds 1 (build argumentPath (primitiveOf value)) session
      fun id engine => ∃ c, engine.arrayContents id = .ok c :=
    (builds_number argumentPath value).mono
      fun id engine hObject => ⟨_, arrayContents_number hObject⟩
  cases value with
  | none | str | bytes => exact h.elim
  | bool b => exact hNumber (.bool b)
  | int i => exact hNumber (.int i)
  | float x => exact hNumber (.float x)
  | bools | ints | floats =>
      exact (builds_numbers _ rfl).mono fun id engine hNumbers => ⟨_, hNumbers.arrayContents_eq⟩
  | handle h =>
      obtain ⟨id, c, hGet, hContents⟩ := h
      obtain ⟨form, hForm, -⟩ := bind_eq_ok_iff.mp hContents
      obtain ⟨object, hObject, -⟩ := bind_eq_ok_iff.mp hForm
      exact builds_handle hGet hObject fun later hExtends => ⟨c, hExtends.recalls.arrayContents hContents⟩

end Values

end Session

end ArrayBridge
