import ArrayBridge.Bridge.Interpreter
import ArrayBridge.Proofs.Marshalling

/-! The operations of the bridge conserve references.

No operation takes a reference or gives one: what it got from the runtime on the way is
released when it ends or held by a handle, with a result as after a failure. -/

namespace ArrayBridge.Session

open Operation

variable {σ α : Type} [ForeignRuntime σ] {ledger : Ledger (Session σ)}
  (hCarrying : Carrying ledger)
include hCarrying

section Calls

theorem conserves_callObject (spec : CallSpec) :
    Conserves ledger 0 (callObject spec) ({·}) 0 := by
  apply (conserves_resolve hCarrying.following spec.path).bind
  intro callable
  have hPositional (argument : Argument) (_ : argument ∈ spec.supplied) :=
    conserves_toForeignArgument hCarrying spec.path argument
  have hKeywords (entry : String × HostValue) (_ : entry ∈ spec.suppliedKeywords) :=
    conserves_toForeign hCarrying entry.2
  apply (conserves_collect hCarrying hPositional #[callable]).bind
  intro positional
  apply (conserves_collect hCarrying hKeywords positional).bind
  intro temporaries
  have hCall : Conserves ledger 0 (callWith spec temporaries) ({·}) 0 :=
    conserves_runtimeOp hCarrying (fun _ h => h.call _ _ _) spec.path
  apply (hCall.attempt ↑temporaries.toList 0).bind
  intro result
  apply (conserves_releaseAll hCarrying temporaries.toList _).bind
  intro _
  exact conserves_ofOutcome rfl

theorem conserves_invoke (spec : CallSpec) :
    Conserves ledger 0 (invoke spec) (fun _ => 0) 0 := by
  apply (conserves_callObject hCarrying spec).bind
  intro result
  cases spec.result with
  | none => exact conserves_toItem hCarrying result spec.path
  | some tag => exact (conserves_consume hCarrying result tag).bind fun _ => conserves_return rfl

theorem conserves_call (spec : CallSpec) (type : HostType) :
    Conserves ledger 0 (call spec type) (fun _ => 0) 0 := by
  apply (conserves_callObject hCarrying spec).bind
  intro result
  apply (conserves_consume hCarrying result type.tag).bind
  intro value
  exact conserves_ofOutcome_plain _

theorem conserves_callArray (spec : CallSpec) :
    Conserves ledger 0 (callArray spec) (fun _ => 0) 0 :=
  (conserves_callObject hCarrying spec).bind fun result =>
    conserves_adoptArray hCarrying result spec.path

theorem conserves_typed (a : ArrayObject) (dtype : DType) :
    Conserves ledger 0 (typed a dtype) (fun _ => 0) 0 := by
  unfold typed
  split
  · exact conserves_return rfl
  · refine Conserves.bind ?_ fun _ => conserves_throw _ _
    exact (hCarrying.freeBuffer a.handle a.buffer.address).bind fun _ => conserves_return rfl

theorem conserves_callAs (spec : CallSpec) (dtype : DType) :
    Conserves ledger 0 (callAs spec dtype) (fun _ => 0) 0 :=
  (conserves_callArray hCarrying spec).bind fun a => conserves_typed hCarrying a dtype

end Calls

section Indexing

theorem conserves_axisKey (index : AxisIndex) :
    Conserves ledger 0 (axisKey index) ({·}) 0 := by
  cases index with
  | «at» i => exact conserves_build_plain hCarrying indexPath rfl
  | full => exact conserves_build_plain hCarrying indexPath rfl
  | slice bounds => exact conserves_build_plain hCarrying indexPath rfl
  | fancy positions => exact conserves_toForeign hCarrying _
  | mask flags => exact conserves_toForeign hCarrying _
  | foreign h => exact conserves_toForeign hCarrying _

theorem conserves_key (index : Index) : Conserves ledger 0 (key index) ({·}) 0 :=
  (conserves_collect hCarrying (fun item _ => conserves_axisKey hCarrying item) #[]).bind
    fun items => conserves_build hCarrying (.tuple items.toList) indexPath

theorem conserves_arrayOf (h : Handle) :
    Conserves ledger 0 (arrayOf h) (fun _ => 0) 0 := by
  refine Conserves.bind (conserves_lookup h) fun id => ?_
  apply (conserves_arrayInfo hCarrying id).bind
  intro info
  cases info with
  | some info => exact conserves_return rfl
  | none => exact Conserves.bind (conserves_typeName id) fun _ => conserves_throw _ _

theorem conserves_target (h : Handle) (index : Index) :
    Conserves ledger 0 (target h index) (fun _ => 0) 0 := by
  apply (conserves_arrayOf hCarrying h).bind
  rintro ⟨id, info⟩
  dsimp only
  split
  · exact conserves_return rfl
  · exact conserves_throw _ _

theorem conserves_getObject (h : Handle) (index : Index) :
    Conserves ledger 0 (getObject h index) ({·}) 0 := by
  apply (conserves_target hCarrying h index).bind
  intro id
  apply (conserves_key hCarrying index).bind
  intro key
  apply (conserves_tryRuntime hCarrying (fun _ h => h.getItem id key) {key}).bind
  intro item
  apply (conserves_release hCarrying key _).bind
  intro _
  cases item with
  | ok item => exact conserves_return rfl
  | error e => exact conserves_throw _ _

theorem conserves_getItem (h : Handle) (index : Index) :
    Conserves ledger 0 (getItem h index) (fun _ => 0) 0 :=
  (conserves_getObject hCarrying h index).bind fun item => conserves_toItem hCarrying item _

theorem conserves_getAs (h : Handle) (index : Index) (type : HostType) :
    Conserves ledger 0 (getAs h index type) (fun _ => 0) 0 := by
  apply (conserves_getObject hCarrying h index).bind
  intro item
  apply (conserves_consume hCarrying item type.tag).bind
  intro value
  exact conserves_ofOutcome_plain _

theorem conserves_setItem (h : Handle) (index : Index) (value : HostValue) :
    Conserves ledger 0 (setItem h index value) (fun _ => 0) 0 := by
  apply (conserves_target hCarrying h index).bind
  intro id
  apply (conserves_key hCarrying index).bind
  intro key
  apply ((conserves_toForeign hCarrying value).attempt {key} 0).bind
  intro built
  cases built with
  | error e => exact (conserves_release hCarrying key 0).bind fun _ => conserves_throw _ _
  | ok value =>
      apply (conserves_tryRuntime hCarrying (fun _ h => h.setItem id key value) _).bind
      intro written
      rw [outcomeReferences_const, Multiset.zero_add, Multiset.add_comm]
      apply (conserves_releaseAll hCarrying [key, value] 0).bind
      intro _
      cases written with
      | ok _ => exact conserves_return rfl
      | error e => exact conserves_throw _ _

end Indexing

section Reading

theorem conserves_field (h : Handle) (name : String) (type : HostType) :
    Conserves ledger 0 (field h name type) (fun _ => 0) 0 := by
  refine Conserves.bind (conserves_lookup h) fun id => ?_
  apply (conserves_tryRuntime hCarrying (fun _ h => h.getAttribute id name) 0).bind
  intro member
  cases member with
  | ok member =>
      apply (conserves_consume hCarrying member type.tag).bind
      intro value
      exact conserves_ofOutcome_plain _
  | error e =>
      dsimp only
      split
      · exact Conserves.bind (conserves_typeName id) fun _ => conserves_throw _ _
      · exact conserves_throw _ _

theorem conserves_values (a : ArrayObject) :
    Conserves ledger 0 (values a) (fun _ => 0) 0 :=
  Conserves.bind (conserves_lookup a.handle) fun id => conserves_coerce hCarrying id _

end Reading

section Iteration

omit hCarrying in
theorem conserves_iterationState (h : Handle) :
    Conserves ledger 0 (iterationState h : BridgeOp σ IterationState) (fun _ => 0) 0 := by
  refine Conserves.bind conserves_get fun session => ?_
  split
  · exact conserves_return rfl
  · exact Conserves.bind (conserves_typeName _) fun _ => conserves_throw _ _
  · exact conserves_throw _ _

/-- The step of the runtime for the next item of a handle's iterator. -/
def advance (h : Handle) : BridgeOp σ (Option ObjectId) := do
  let id ← lookup h
  runtimeOp "next" (ForeignRuntime.next id)

omit hCarrying in
theorem next_eq (h : Handle) : (next h : BridgeOp σ (Option Item)) = do
    if (← iterationState h) = .exhausted then return none
    match ← advance h with
    | none =>
      setState h .exhausted
      return none
    | some item =>
      setState h .yielding
      return some (← toItem item "next") := by
  refine bind_congr fun state => ?_
  split
  · rfl
  · exact (bind_assoc (lookup h) _ _).symm

theorem conserves_next {h : Handle}
    (hAdvance : Conserves ledger 0 (advance h) (fun item => (↑item.toList : Multiset ObjectId)) 0)
    (hState : ∀ rest state, Conserves ledger rest (setState h state) (fun _ => rest) 0) :
    Conserves ledger 0 (next h) (fun _ => 0) 0 := by
  rw [next_eq]
  refine Conserves.bind (conserves_iterationState h) fun state => ?_
  split
  · exact conserves_return rfl
  · apply hAdvance.bind
    intro item
    cases item with
    | none => exact (hState _ _).bind fun _ => conserves_return rfl
    | some item =>
        apply (hState _ _).bind
        intro _
        exact (conserves_toItem hCarrying item "next").bind fun _ => conserves_return rfl

theorem conserves_dispose {h : Handle}
    (hRemove : Conserves ledger 0 (onHandles fun handles => handles.remove h)
      (fun id? => (↑id?.toList : Multiset ObjectId)) 0) :
    Conserves ledger 0 (dispose h) (fun _ => 0) 0 := by
  refine Conserves.bind (conserves_iterationState h) fun _ => ?_
  apply hRemove.bind
  intro removed
  cases removed with
  | some id => exact conserves_release hCarrying id 0
  | none => exact conserves_return rfl

theorem conserves_releaseHandle {h : Handle}
    (hRemove : Conserves ledger 0 (onHandles fun handles => handles.remove h)
      (fun id? => (↑id?.toList : Multiset ObjectId)) 0) :
    Conserves ledger 0 (releaseHandle h) (fun _ => 0) 0 := by
  refine hRemove.bind ?_
  rintro (_ | id)
  · exact conserves_throw _ _
  · exact conserves_release hCarrying id 0

end Iteration

end ArrayBridge.Session
