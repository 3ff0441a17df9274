import ArrayBridge.Bridge.Call
import ArrayBridge.Proofs.HandleLedger

/-! Temporary references.

Whatever is built or found on the way to a call, or read back from its result, is given
to the next step or released, whether or not all steps succeed. -/

namespace ArrayBridge

open Operation

variable {σ α : Type} [ForeignRuntime σ] {ledger : Ledger (Session σ)} {taken rest failed : Multiset ObjectId}
  {id : ObjectId}

namespace Session

section Paths

/-- A new reference if there is a result, and none if there is an exception. -/
abbrev found (outcome : Except Exception ObjectId) : Multiset ObjectId :=
  outcomeReferences ({·}) 0 outcome

/-- A ledger by which references are conserved on the way along a path. A module or a member
that is found is a new reference, and what was passed is released. -/
structure Following (ledger : Ledger (Session σ)) : Prop where
  importModule (name : String) (failed : Multiset ObjectId) : Conserves ledger 0
    (tryRuntime (ForeignRuntime.importModule name)) found failed
  getAttribute (id : ObjectId) (name : String) (failed : Multiset ObjectId) : Conserves ledger {id}
    (tryRuntime (ForeignRuntime.getAttribute id name)) (fun member => found member + {id}) failed
  release (id : ObjectId) (rest failed : Multiset ObjectId) : Conserves ledger (rest + {id})
    (release id) (fun _ => rest) failed

theorem Carrying.following (h : Carrying ledger) : Following ledger where
  importModule name failed := by
    have hImport : Conserves ledger 0 (tryRuntime (ForeignRuntime.importModule name))
        (fun outcome => found outcome + 0) failed :=
      conserves_tryRuntime h (fun _ h => h.importModule name) 0
    simpa only [Multiset.add_zero] using hImport
  getAttribute id name _ := conserves_tryRuntime h (fun _ h => h.getAttribute id name) {id}
  release id rest _ := conserves_release h id rest

variable (hFollowing : Following ledger)
include hFollowing

theorem conserves_stepInto (id : ObjectId) (name : String) :
    Conserves ledger {id} (stepInto id name) found failed := by
  apply (hFollowing.getAttribute id name failed).bind
  intro member
  apply (hFollowing.release id (found member) failed).bind
  intro _
  exact conserves_return rfl

theorem conserves_follow (names : List String) (id : ObjectId) :
    Conserves ledger {id} (follow names id) found failed := by
  induction names generalizing id with
  | nil => exact conserves_return rfl
  | cons name names ih =>
      apply (conserves_stepInto hFollowing id name).bind
      intro member
      cases member with
      | ok next => exact ih next
      | error e => exact conserves_return rfl

theorem conserves_resolveFirst (name : String) :
    Conserves ledger 0 (resolveFirst name) found failed := by
  apply (hFollowing.importModule name failed).bind
  intro first
  cases first with
  | ok id => exact conserves_return rfl
  | error e =>
      refine Conserves.bind conserves_get fun session => ?_
      dsimp only
      split
      · apply (hFollowing.importModule session.root failed).bind
        intro root
        cases root with
        | ok id => exact conserves_stepInto hFollowing id name
        | error e => exact conserves_return rfl
      · exact conserves_return rfl

omit [ForeignRuntime σ] hFollowing in
theorem conserves_ofFound (path : String) (outcome : Except Exception ObjectId) :
    Conserves ledger (found outcome)
      (match outcome with
        | .ok id => return id
        | .error e => throw (.foreignCall path e) : BridgeOp σ ObjectId) ({·}) 0 := by
  cases outcome with
  | ok id => exact conserves_return rfl
  | error e => exact conserves_throw _ _

/-- A path leads to one new reference, and to none if it leads nowhere. -/
theorem conserves_resolve (path : String) :
    Conserves ledger 0 (resolve path) ({·}) 0 := by
  apply (conserves_resolveFirst hFollowing ((pathNames path).headD "")).bind
  intro first
  cases first with
  | ok id => exact (conserves_follow hFollowing _ id).bind fun last => conserves_ofFound path last
  | error e => exact conserves_ofFound path (.error e)

end Paths

variable (hCarrying : Session.Carrying ledger)
include hCarrying

section Building

/-- The references that were collected are given together, or released if one is
missing. -/
theorem conserves_collect {op : α → BridgeOp σ ObjectId} {items : List α}
    (hItems : ∀ item ∈ items, Conserves ledger 0 (op item) ({·}) 0)
    (built : Array ObjectId) :
    Conserves ledger ↑built.toList (collect op items built) (fun ids => ↑ids.toList) 0 := by
  induction items generalizing built with
  | nil => exact conserves_return rfl
  | cons item items ih =>
      have hItem := hItems item (by simp)
      apply (hItem.attempt ↑built.toList 0).bind
      intro outcome
      cases outcome with
      | ok id =>
          have hRest := ih (fun other h => hItems other (by simp [h])) (built.push id)
          rw [Array.toList_push, ← Multiset.coe_add, Multiset.add_comm] at hRest
          exact hRest
      | error e =>
          exact (conserves_releaseAll hCarrying built.toList 0).bind fun _ => conserves_throw _ _

theorem conserves_build (value : Primitive) (path : String) :
    Conserves ledger ↑value.references (build path value) ({·}) 0 :=
  conserves_runtimeOp hCarrying (fun _ h => h.build value) path

/-- A value that refers to nothing. -/
theorem conserves_build_plain {value : Primitive} (path : String) (hPlain : value.references = []) :
    Conserves ledger 0 (build path value) ({·}) 0 := by
  have hBuild := conserves_build hCarrying value path
  rwa [hPlain] at hBuild

/-- A tuple takes over the references to its items. -/
theorem conserves_buildSequence {make : α → Primitive} (hPlain : ∀ a, (make a).references = [])
    (values : List α) :
    Conserves ledger 0 (buildSequence (values.map make)) ({·}) 0 := by
  have hItems (item : Primitive) (h : item ∈ values.map make) :
      Conserves ledger 0 (build argumentPath item) ({·}) 0 := by
    obtain ⟨a, -, rfl⟩ := List.mem_map.mp h
    exact conserves_build_plain hCarrying _ (hPlain a)
  apply (conserves_collect hCarrying hItems #[]).bind
  intro ids
  exact conserves_build hCarrying (.tuple ids.toList) argumentPath

theorem conserves_toForeign (value : HostValue) :
    Conserves ledger 0 (toForeign value) ({·}) 0 := by
  cases value with
  | handle h => exact conserves_share hCarrying h
  | bools values => exact conserves_buildSequence hCarrying (fun _ => rfl) values
  | ints values => exact conserves_buildSequence hCarrying (fun _ => rfl) values
  | floats values => exact conserves_buildSequence hCarrying (fun _ => rfl) values
  | _ => exact conserves_build_plain hCarrying _ rfl

theorem conserves_toForeignArgument (path : String) (argument : Argument) :
    Conserves ledger 0 (toForeignArgument path argument) ({·}) 0 := by
  cases argument with
  | provided value => exact conserves_toForeign hCarrying value
  | omitted => exact conserves_build_plain hCarrying path rfl

end Building

section Results

theorem conserves_sequence (id : ObjectId) (expected : String) (convert : Primitive → Option α) :
    Conserves ledger 0 (sequence id expected convert) (fun _ => 0) 0 := by
  apply (conserves_runtimeOp hCarrying (fun _ h => h.scalars id) resultPath).bind
  intro values
  exact conserves_ofOutcome_plain _

theorem conserves_scalar (id : ObjectId) (tag : ResultTag) :
    Conserves ledger 0 (do
      let extracted ← tryRuntime (ForeignRuntime.extract id)
      match extracted.toOption.bind (Primitive.scalarFor? tag) with
      | some value => return value
      | none => throw (.typeMismatch tag.form (← typeName id)) : BridgeOp σ HostValue)
      (fun _ => 0) 0 := by
  apply (conserves_tryRuntime hCarrying (fun _ h => h.extract id) 0).bind
  intro extracted
  rw [outcomeReferences_const, Multiset.zero_add]
  split
  · exact conserves_return rfl
  · exact Conserves.bind (conserves_typeName id) fun _ => conserves_throw _ _

theorem conserves_coerce (id : ObjectId) (tag : ResultTag) :
    Conserves ledger 0 (coerce id tag) (fun _ => 0) 0 := by
  cases tag with
  | unit => exact conserves_return rfl
  | bools => exact (conserves_sequence hCarrying id "bool" _).bind fun _ => conserves_return rfl
  | ints => exact (conserves_sequence hCarrying id "int" _).bind fun _ => conserves_return rfl
  | floats => exact (conserves_sequence hCarrying id "float" _).bind fun _ => conserves_return rfl
  | bool => exact conserves_scalar hCarrying id .bool
  | int => exact conserves_scalar hCarrying id .int
  | float => exact conserves_scalar hCarrying id .float
  | str => exact conserves_scalar hCarrying id .str
  | bytes => exact conserves_scalar hCarrying id .bytes

/-- A result that is brought into a form is released, whether or not it has that form. -/
theorem conserves_consume (id : ObjectId) (tag : ResultTag) :
    Conserves ledger {id} (consume id tag) (fun _ => 0) 0 := by
  apply ((conserves_coerce hCarrying id tag).attempt {id} 0).bind
  intro value
  rw [outcomeReferences_const]
  apply (conserves_release hCarrying id 0).bind
  intro _
  exact conserves_ofOutcome_plain _

/-- An object that is no array is released, and an array is registered. -/
theorem conserves_registerArray (array : ObjectId) :
    Conserves ledger {array} (do
      match ← arrayInfo array with
      | none =>
        let found ← typeName array
        release array
        throw (.typeMismatch "ndarray" found)
      | some info =>
        let handle ← register array .object
        return ⟨⟨handle, info.address, info.byteSize, info.dtype, info.shape⟩⟩ :
        BridgeOp σ ArrayObject) (fun _ => 0) 0 := by
  intro frame session hBefore
  have hRead : Conserves ledger {array} (arrayInfo array) (fun _ => {array}) 0 :=
    conserves_arrayInfo hCarrying array
  have hSame := hRead frame session hBefore
  rw [perform_bind]
  rw [arrayInfo, perform_onRuntime] at hSame ⊢
  cases hInfo : ((ForeignRuntime.arrayInfo array).run session.runtime).1 with
  | none =>
      have hRefuse : Conserves ledger {array} (do
          let found ← typeName array
          release array
          throw (.typeMismatch "ndarray" found) : BridgeOp σ ArrayObject) (fun _ => 0) 0 :=
        Conserves.bind (conserves_typeName array) fun _ =>
          (conserves_release hCarrying array 0).bind fun _ => conserves_throw _ _
      exact hRefuse frame _ hSame
  | some info =>
      have hAdopted := hCarrying.adopt (Multiset.singleton_add array frame ▸ hBefore)
        (by rw [hInfo]; rfl)
      change ledger (0 + frame) _
      rw [Multiset.zero_add]
      exact hAdopted

/-- A result is converted to an array, which is registered. -/
theorem conserves_adoptArray (id : ObjectId) (path : String) :
    Conserves ledger {id} (adoptArray id path) (fun _ => 0) 0 := by
  apply (conserves_tryRuntime hCarrying (fun _ h => h.asArray id) {id}).bind
  intro converted
  apply (conserves_release hCarrying id (found converted)).bind
  intro _
  cases converted with
  | error e => exact conserves_throw _ _
  | ok array => exact conserves_registerArray hCarrying array

theorem conserves_refuse (id : ObjectId) :
    Conserves ledger {id} (toItem.refuse id : BridgeOp σ Item) (fun _ => 0) 0 := by
  refine Conserves.bind (conserves_typeName id) fun found => ?_
  exact (conserves_release hCarrying id 0).bind fun _ => conserves_throw _ _

/-- A result becomes an item, and its reference is used up. -/
theorem conserves_toItem (id : ObjectId) (path : String) :
    Conserves ledger {id} (toItem id path) (fun _ => 0) 0 := by
  have hArray : Conserves ledger {id} (do
      return .array (← adoptArray id path) : BridgeOp σ Item) (fun _ => 0) 0 :=
    (conserves_adoptArray hCarrying id path).bind fun _ => conserves_return rfl
  apply (conserves_arrayInfo hCarrying id).bind
  intro info
  split
  · exact hArray
  · apply (conserves_tryRuntime hCarrying (fun _ h => h.extract id) {id}).bind
    intro extracted
    rw [outcomeReferences_const, Multiset.zero_add]
    split
    · exact hArray
    · split
      · exact (conserves_release hCarrying id 0).bind fun _ => conserves_return rfl
      · exact conserves_refuse hCarrying id
    · exact conserves_refuse hCarrying id

end Results

end Session

end ArrayBridge
