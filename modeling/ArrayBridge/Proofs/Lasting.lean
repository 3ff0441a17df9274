import ArrayBridge.Proofs.Atomicity
import ArrayBridge.Proofs.HandleProtocol

/-! Properties of an engine that last.

A property lasts if no access to an engine takes it away. Whatever the host does with a session
comes down to such accesses, so an engine that has the property at its start has it as long as
it is in use. It does not matter to such a property which references are held. -/

namespace ArrayBridge

open Operation

namespace Engine

/-- No request takes a property away from an engine, nor does a change of the number of
references. -/
structure Lasting (property : Engine → Prop) : Prop where
  request {α : Type} (request : RuntimeRequest α) {engine : Engine} :
    property engine → property (request.after engine)
  retain (id : ObjectId) {engine : Engine} : property engine → property (retain id engine).2
  release (id : ObjectId) {engine : Engine} : property engine → property (release id engine).2

/-- The engines with a property, whatever references are held. -/
def Having (property : Engine → Prop) : Ledger Engine := fun _ engine => property engine

namespace Lasting

variable {property : Engine → Prop} {α : Type} (h : Lasting property)
include h

theorem conserves (request : RuntimeRequest α) (taken : Multiset ObjectId)
    (given : α → Multiset ObjectId) (failed : Multiset ObjectId) :
    Conserves (Having property) taken request.operation given failed :=
  fun _ _ hBefore => h.request request hBefore

theorem conserves_release (id : ObjectId) :
    Conserves (Having property) 0 (update (ForeignRuntime.release id) : RuntimeOp Engine Unit)
      (fun _ => 0) 0 := fun _ _ hBefore => h.release id hBefore

omit h in
theorem conserves_liftExcept (progress : Flatten.Progress) :
    Conserves (Having property) 0 (Flatten.drain.liftExcept progress) (fun _ => 0) 0 :=
  fun _ _ hBefore => hBefore

theorem conserves_drain {visit : ObjectId → Array Primitive → RuntimeOp Engine (Array Primitive)}
    (hVisit : ∀ item values, Conserves (Having property) 0 (visit item values) (fun _ => 0) 0)
    (iterator : ObjectId) (limit : Nat) (values : Array Primitive) :
    Conserves (Having property) 0 (Flatten.drain visit iterator limit values) (fun _ => 0) 0 := by
  induction limit generalizing values with
  | zero => exact conserves_return rfl
  | succ limit ih =>
      apply (h.conserves (.next iterator) 0 (fun _ => 0) 0).bind
      intro next
      cases next with
      | none => exact conserves_return rfl
      | some item =>
          apply ((hVisit item values).attempt 0 0).bind
          intro progress
          rw [outcomeReferences_const, Multiset.zero_add]
          apply (h.conserves_release item).bind
          intro _
          exact (conserves_liftExcept progress).bind fun read => ih read

theorem conserves_read (depth : Nat) (id : ObjectId) (values : Array Primitive) :
    Conserves (Having property) 0 (Flatten.read depth id values : RuntimeOp Engine _)
      (fun _ => 0) 0 := by
  induction depth generalizing id values with
  | zero => exact conserves_throw _ _
  | succ depth ih =>
      have hCount : Conserves (Having property) 0 (Flatten.itemCount? id : RuntimeOp Engine _)
          (fun _ => 0) 0 := by
        intro frame engine hBefore
        rw [perform_itemCount?]
        exact hBefore
      apply hCount.bind
      intro count
      cases count with
      | none =>
          apply (h.conserves (.extract id) 0 (fun _ => 0) 0).bind
          exact fun _ => conserves_return rfl
      | some count =>
          apply (h.conserves (.iterate id) 0 (fun _ => 0) 0).bind
          intro iterator
          apply ((h.conserves_drain ih iterator (count + 1) values).attempt 0 0).bind
          intro progress
          rw [outcomeReferences_const, Multiset.zero_add]
          apply (h.conserves_release iterator).bind
          exact fun _ => conserves_liftExcept progress

theorem conserving : Conserving (Having property) where
  importModule name := h.conserves (.importModule name) 0 _ 0
  getAttribute id name := h.conserves (.getAttribute id name) 0 _ 0
  call id positional keywords := h.conserves (.call id positional keywords) 0 _ 0
  getItem id key := h.conserves (.getItem id key) 0 _ 0
  setItem id key value := h.conserves (.setItem id key value) 0 _ 0
  iterate id := h.conserves (.iterate id) 0 _ 0
  asArray id := h.conserves (.asArray id) 0 _ 0
  build value := h.conserves (.build value) _ _ 0
  extract id := h.conserves (.extract id) 0 _ 0
  scalars id := h.conserves_read _ id #[]
  arrayInfo _ _ _ hBefore := hBefore
  retain id _ _ _ hBefore := h.retain id hBefore
  release id _ _ hBefore := h.release id hBefore
  releaseBuffer id address engine frame hBefore := by
    change property (releaseBuffer id address engine).2
    unfold releaseBuffer
    split
    · exact hBefore
    · split
      · exact h.release id hBefore
      · exact hBefore
    · exact hBefore
  next id := h.conserves (.next id) 0 _ 0

/-- However long an engine was in use, it has what it had at its start. -/
theorem of_play {engine : Engine} (hStart : property engine) (root : String)
    (actions : List Interpreter.Action) {session : Session Engine}
    (hSession : ((Interpreter.ofRuntime engine root).play actions).session = some session) :
    property session.runtime := by
  have hFirst : Interpreter.InOrder (Having property) 0 (Interpreter.ofRuntime engine root) :=
    ⟨_, rfl, HandleTable.consistent_empty, hStart⟩
  exact (Interpreter.inOrder_play h.conserving hFirst actions session hSession).2

end Lasting

end Engine

end ArrayBridge
