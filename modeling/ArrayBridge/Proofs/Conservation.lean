import ArrayBridge.Bridge.Result
import ArrayBridge.Proofs.Commitment
import Mathlib.Data.Multiset.AddSub

/-! Operations that conserve references.

A ledger says of a state whether its references are in order while some are held by
whoever runs an operation. An operation conserves references if it takes some of the
held ones and gives others back, whatever else is held meanwhile. What it gives back
may depend on its outcome: an operation that fails must not keep what it took. -/

namespace ArrayBridge

/-- Whether a state is in order while the listed references are held. -/
abbrev Ledger (σ : Type) := Multiset ObjectId → σ → Prop

variable {ε ε' σ α β : Type} {ledger : Ledger σ} {taken extra failed : Multiset ObjectId}
  {middle : α → Multiset ObjectId} {given : β → Multiset ObjectId}

/-- The references that move into the object that is built of a value. -/
def Primitive.references : Primitive → List ObjectId
  | .tuple items => items
  | _ => []

/-- The references that an outcome stands for. -/
def outcomeReferences (given : α → Multiset ObjectId) (failed : Multiset ObjectId) :
    Except ε α → Multiset ObjectId
  | .ok a => given a
  | .error _ => failed

/-- The outcome does not matter if a failure gives what a result would. -/
theorem outcomeReferences_const (outcome : Except ε α) :
    outcomeReferences (fun _ => failed) failed outcome = failed := by cases outcome <;> rfl

/-- An action takes references in a state and gives others back. -/
def Moves (ledger : Ledger σ) (taken : Multiset ObjectId) (action : StateM σ α)
    (given : α → Multiset ObjectId) (state : σ) : Prop :=
  ∀ frame, ledger (taken + frame) state →
    ledger (given (action.run state).1 + frame) (action.run state).2

/-- Nothing moves if what is given is what was taken. -/
theorem moves_return {a : α} {state : σ} (h : middle a = taken) :
    Moves ledger taken (pure a) middle state := by
  subst h
  exact fun _ hBefore => hBefore

theorem Moves.bind {x : StateM σ α} {f : α → StateM σ β} {state : σ}
    (hFirst : Moves ledger taken x middle state)
    (hNext : Moves ledger (middle (x.run state).1) (f (x.run state).1) given (x.run state).2) :
    Moves ledger taken (x >>= f) given state :=
  fun frame h => hNext frame (hFirst frame h)

/-- An action that can be followed from every state. -/
theorem Moves.step {x : StateM σ α} {f : α → StateM σ β} {state : σ}
    (hFirst : Moves ledger taken x middle state)
    (hNext : ∀ a next, Moves ledger (middle a) (f a) given next) :
    Moves ledger taken (x >>= f) given state := hFirst.bind (hNext _ _)

/-- Only what an action does in the state matters. -/
theorem Moves.of_run_eq {action other : StateM σ α} {state : σ}
    (hRun : action.run state = other.run state) (h : Moves ledger taken other middle state) :
    Moves ledger taken action middle state := by
  intro frame hBefore
  rw [hRun]
  exact h frame hBefore

/-- Other references can be held during an action. -/
theorem Moves.frame {action : StateM σ α} {state : σ} (h : Moves ledger taken action middle state)
    (extra : Multiset ObjectId) :
    Moves ledger (taken + extra) action (fun a => middle a + extra) state := by
  intro frame hBefore
  rw [Multiset.add_assoc] at hBefore ⊢
  exact h (extra + frame) hBefore

/-- An action that takes nothing leaves alone what else is held. -/
theorem Moves.beside {action : StateM σ α} {state : σ} (h : Moves ledger 0 action middle state)
    (rest : Multiset ObjectId) : Moves ledger rest action (fun a => middle a + rest) state := by
  have hFrame := h.frame rest
  rwa [Multiset.zero_add] at hFrame

namespace Operation

/-- An operation takes references, and gives others back with its result or with its
failure. -/
def Conserves (ledger : Ledger σ) (taken : Multiset ObjectId) (op : Operation ε σ α)
    (given : α → Multiset ObjectId) (failed : Multiset ObjectId) : Prop :=
  ∀ frame state, ledger (taken + frame) state →
    ledger (outcomeReferences given failed (op.perform state).1 + frame) (op.perform state).2

/-- Nothing moves if what is given is what was taken. -/
theorem conserves_return {a : α} (h : middle a = taken) :
    Conserves ledger taken (pure a : Operation ε σ α) middle failed := by
  subst h
  exact fun _ _ hBefore => hBefore

theorem conserves_throw (e : ε) (middle : α → Multiset ObjectId) :
    Conserves ledger failed (throw e : Operation ε σ α) middle failed :=
  fun _ _ h => h

theorem Conserves.bind {op : Operation ε σ α} {f : α → Operation ε σ β}
    (hFirst : Conserves ledger taken op middle failed)
    (hNext : ∀ a, Conserves ledger (middle a) (f a) given failed) :
    Conserves ledger taken (op >>= f) given failed := by
  intro frame state hBefore
  have hMiddle := hFirst frame state hBefore
  rw [perform_bind]
  cases hRun : op.perform state with
  | mk outcome next =>
      rw [hRun] at hMiddle
      cases outcome with
      | ok a => exact hNext a frame next hMiddle
      | error e => exact hMiddle

/-- An attempt never fails: the failure is data. Other references can be held
meanwhile. -/
theorem Conserves.attempt {op : Operation ε σ α} (h : Conserves ledger 0 op middle 0)
    (rest lost : Multiset ObjectId) :
    Conserves ledger rest (op.attempt : Operation ε' σ (Except ε α))
      (fun outcome => outcomeReferences middle 0 outcome + rest) lost := by
  intro frame state hBefore
  have hAfter := h (rest + frame) state (Multiset.zero_add _ ▸ hBefore)
  rwa [← Multiset.add_assoc] at hAfter

theorem conserves_update {f : σ → σ} {rest : Multiset ObjectId}
    (h : ∀ frame state, ledger (taken + frame) state → ledger (rest + frame) (f state)) :
    Conserves ledger taken (update f : Operation ε σ Unit) (fun _ => rest) failed := h

/-- A refusal changes nothing. -/
theorem conserves_of_commits {op : Operation ε σ α}
    (h : ∀ state, Commits (fun action => Moves ledger taken action middle state) op state) :
    Conserves ledger taken op middle taken := by
  intro frame state hBefore
  cases h state with
  | refuses e hRun =>
      rw [hRun]
      exact hBefore
  | acts action hMoves hRun =>
      rw [hRun]
      exact hMoves frame hBefore

end Operation

open Operation

/-- A ledger by which the operations of a runtime conserve references, as long as no
iterator is moved that is not made for reading an object. New references are given with
the results, arguments are borrowed, and an operation that fails leaves nothing behind. -/
structure Sustaining [ForeignRuntime σ] (ledger : Ledger σ) : Prop where
  importModule (name : String) : Conserves ledger 0
    (ForeignRuntime.importModule name : RuntimeOp σ ObjectId) ({·}) 0
  getAttribute (id : ObjectId) (name : String) : Conserves ledger 0
    (ForeignRuntime.getAttribute id name : RuntimeOp σ ObjectId) ({·}) 0
  call (id : ObjectId) (positional : List ObjectId) (keywords : List (String × ObjectId)) :
    Conserves ledger 0
      (ForeignRuntime.call id positional keywords : RuntimeOp σ ObjectId) ({·}) 0
  getItem (id key : ObjectId) : Conserves ledger 0
    (ForeignRuntime.getItem id key : RuntimeOp σ ObjectId) ({·}) 0
  setItem (id key value : ObjectId) : Conserves ledger 0
    (ForeignRuntime.setItem id key value : RuntimeOp σ Unit) (fun _ => 0) 0
  iterate (id : ObjectId) : Conserves ledger 0
    (ForeignRuntime.iterate id : RuntimeOp σ ObjectId) ({·}) 0
  asArray (id : ObjectId) : Conserves ledger 0
    (ForeignRuntime.asArray id : RuntimeOp σ ObjectId) ({·}) 0
  /-- The references of the items move into the tuple that is built. -/
  build (value : Primitive) : Conserves ledger ↑value.references
    (ForeignRuntime.build value : RuntimeOp σ ObjectId) ({·}) 0
  extract (id : ObjectId) : Conserves ledger 0
    (ForeignRuntime.extract id : RuntimeOp σ Primitive) (fun _ => 0) 0
  scalars (id : ObjectId) : Conserves ledger 0
    (Flatten.scalars id : RuntimeOp σ (Array Primitive)) (fun _ => 0) 0
  arrayInfo (id : ObjectId) (state : σ) : Moves ledger 0 (ForeignRuntime.arrayInfo id) (fun _ => 0) state
  retain (id : ObjectId) (held : Multiset ObjectId) (state : σ) (hHeld : id ∈ held) :
    ledger held state → ledger (id ::ₘ held) (ForeignRuntime.retain id state)
  release (id : ObjectId) (held : Multiset ObjectId) (state : σ) :
    ledger (id ::ₘ held) state → ledger held (ForeignRuntime.release id state)
  /-- A buffer that is not released keeps its reference. -/
  releaseBuffer (id : ObjectId) (address : Nat) (state : σ) : Moves ledger {id}
    (ForeignRuntime.releaseBuffer id address) (fun status => if status = 0 then 0 else {id}) state

/-- Every operation sustains a ledger that asks for nothing. -/
theorem sustaining_anything [ForeignRuntime σ] : Sustaining (fun _ _ => True : Ledger σ) where
  importModule _ _ _ _ := trivial
  getAttribute _ _ _ _ _ := trivial
  call _ _ _ _ _ _ := trivial
  getItem _ _ _ _ _ := trivial
  setItem _ _ _ _ _ _ := trivial
  iterate _ _ _ _ := trivial
  asArray _ _ _ _ := trivial
  build _ _ _ _ := trivial
  extract _ _ _ _ := trivial
  scalars _ _ _ _ := trivial
  arrayInfo _ _ _ _ := trivial
  retain _ _ _ _ _ := trivial
  release _ _ _ _ := trivial
  releaseBuffer _ _ _ _ _ := trivial

/-- A ledger by which all operations of a runtime conserve references. -/
structure Conserving [ForeignRuntime σ] (ledger : Ledger σ) : Prop extends Sustaining ledger where
  next (id : ObjectId) : Conserves ledger 0
    (ForeignRuntime.next id : RuntimeOp σ (Option ObjectId)) (fun item => ↑item.toList) 0

end ArrayBridge
