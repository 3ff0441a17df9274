import ArrayBridge.Proofs.BridgeConservation
import ArrayBridge.Proofs.Reading
import ArrayBridge.Proofs.Startup
import Mathlib

/-! Reference counts between requests.

The host asks an interpreter for one operation after the other and holds nothing but
handles. So between two requests the references to an object are those that it had when
the engine was started, those of the registered handles and those of later objects. -/

namespace ArrayBridge

/-- What a host can ask a running interpreter for. Handles and arrays are as the host
gives them, so they need not be registered. -/
inductive Request where
  | invoke (spec : CallSpec)
  | call (spec : CallSpec) (type : HostType)
  | callArray (spec : CallSpec)
  | callAs (spec : CallSpec) (dtype : DType)
  | getItem (h : Handle) (index : Index)
  | getAs (h : Handle) (index : Index) (type : HostType)
  | setItem (h : Handle) (index : Index) (value : HostValue)
  | iterate (h : Handle)
  | next (h : Handle)
  | dispose (h : Handle)
  | free (h : Handle) (address : Nat)
  | release (h : Handle)
  | buffer (h : Handle)
  | typeName (h : Handle)
  | progress (h : Handle)
  | field (h : Handle) (name : String) (type : HostType)
  | values (a : ArrayObject)
  | toVector (a : ArrayObject) (dtype : DType)
  | freeArray (a : ArrayObject)
  | discard (a : ArrayObject)
  deriving DecidableEq, Inhabited

namespace Interpreter

open Operation

variable {σ α : Type} [ForeignRuntime σ]

/-- An operation whose result the host forgets. -/
def forget (op : InterpreterOp σ α) : InterpreterOp σ Unit := do
  let _ ← op

/-- The operation that a request is for. -/
def answer : Request → InterpreterOp σ Unit
  | .invoke spec => forget (run (Session.invoke spec))
  | .call spec type => forget (run (Session.call spec type))
  | .callArray spec => forget (run (Session.callArray spec))
  | .callAs spec dtype => forget (run (Session.callAs spec dtype))
  | .getItem h index => forget (run (Session.getItem h index))
  | .getAs h index type => forget (run (Session.getAs h index type))
  | .setItem h index value => run (Session.setItem h index value)
  | .iterate h => forget (run (Session.iterate h))
  | .next h => forget (run (Session.next h))
  | .dispose h => run (Session.dispose h)
  | .free h address => forget (free h address)
  | .release h => run (Session.releaseHandle h)
  | .buffer h => forget (run (Session.buffer h))
  | .typeName h => forget (run (Session.typeNameOf h))
  | .progress h => forget (run (Session.iterationState h))
  | .field h name type => forget (run (Session.field h name type))
  | .values a => forget (run (Session.values a))
  | .toVector a dtype => forget (toVector a dtype)
  | .freeArray a => freeArray a
  | .discard a => discard a

/-- The interpreter after a list of requests, each with a result or a failure. -/
def serve (interpreter : Interpreter σ) (requests : List Request) : Interpreter σ :=
  requests.foldl (fun interpreter request => ((answer request).perform interpreter).2) interpreter

section Requests

variable {ledger : Ledger (Session σ)}

/-- There is a session, and it is in order by a ledger. -/
def Running (ledger : Ledger (Session σ)) : Ledger (Interpreter σ) := fun held interpreter =>
  ∃ session, interpreter.session = some session ∧ ledger held session

/-- There is a session, and it is in order. -/
abbrev InOrder (ledger : Ledger σ) : Ledger (Interpreter σ) := Running (Session.InOrder ledger)

omit [ForeignRuntime σ] in
theorem conserves_run {op : BridgeOp σ α} (h : Conserves ledger 0 op (fun _ => 0) 0) :
    Conserves (Running ledger) 0 (run op) (fun _ => 0) 0 := by
  rintro frame ⟨_, root⟩ ⟨session, rfl, hSession⟩
  exact ⟨_, rfl, h frame session hSession⟩

theorem conserves_free (hCarrying : Session.Carrying ledger) (h : Handle) (address : Nat) :
    Conserves (Running ledger) 0 (free h address) (fun _ => 0) 0 := by
  rintro frame ⟨_, root⟩ ⟨session, rfl, hSession⟩
  exact ⟨_, rfl, hCarrying.freeBuffer h address frame session hSession⟩

omit [ForeignRuntime σ] in
theorem conserves_forget {op : InterpreterOp σ α}
    (h : Conserves (Running ledger) 0 op (fun _ => 0) 0) :
    Conserves (Running ledger) 0 (forget op) (fun _ => 0) 0 := h.bind fun _ => conserves_return rfl

/-- What a request does besides calls and reads: it makes, moves or drops an iterator, or
removes a handle. -/
def Special (ledger : Ledger (Session σ)) : Request → Prop
  | .iterate h => Conserves ledger 0 (Session.iterate h) (fun _ => 0) 0
  | .next h => Conserves ledger 0 (Session.next h) (fun _ => 0) 0
  | .dispose h => Conserves ledger 0 (Session.dispose h) (fun _ => 0) 0
  | .release h => Conserves ledger 0 (Session.releaseHandle h) (fun _ => 0) 0
  | _ => True

/-- No request takes a reference from the interpreter or leaves one behind. -/
theorem conserves_answer (hCarrying : Session.Carrying ledger) {request : Request}
    (hSpecial : Special ledger request) :
    Conserves (Running ledger) 0 (answer request) (fun _ => 0) 0 := by
  cases request with
  | invoke spec => exact conserves_forget (conserves_run (Session.conserves_invoke hCarrying spec))
  | call spec type =>
      exact conserves_forget (conserves_run (Session.conserves_call hCarrying spec type))
  | callArray spec =>
      exact conserves_forget (conserves_run (Session.conserves_callArray hCarrying spec))
  | callAs spec dtype =>
      exact conserves_forget (conserves_run (Session.conserves_callAs hCarrying spec dtype))
  | getItem h index =>
      exact conserves_forget (conserves_run (Session.conserves_getItem hCarrying h index))
  | getAs h index type =>
      exact conserves_forget (conserves_run (Session.conserves_getAs hCarrying h index type))
  | setItem h index value =>
      exact conserves_run (Session.conserves_setItem hCarrying h index value)
  | iterate h => exact conserves_forget (conserves_run hSpecial)
  | next h => exact conserves_forget (conserves_run hSpecial)
  | dispose h => exact conserves_run hSpecial
  | free h address => exact conserves_forget (conserves_free hCarrying h address)
  | release h => exact conserves_run hSpecial
  | buffer h =>
      refine conserves_forget (conserves_run ?_)
      exact (Session.conserves_arrayOf hCarrying h).bind fun _ => conserves_return rfl
  | typeName h =>
      refine conserves_forget (conserves_run ?_)
      exact Conserves.bind (Session.conserves_lookup h) fun id => Session.conserves_typeName id
  | progress h => exact conserves_forget (conserves_run (Session.conserves_iterationState h))
  | field h name type =>
      exact conserves_forget (conserves_run (Session.conserves_field hCarrying h name type))
  | values a => exact conserves_forget (conserves_run (Session.conserves_values hCarrying a))
  | toVector a dtype =>
      refine conserves_forget ?_
      unfold toVector
      split
      · exact conserves_throw _ _
      · refine conserves_run ((Session.conserves_values hCarrying a).bind fun values => ?_)
        exact Session.conserves_ofOutcome_plain _
  | freeArray a =>
      apply (conserves_free hCarrying a.handle a.buffer.address).bind
      intro status
      split
      · exact conserves_return rfl
      · exact conserves_throw _ _
  | discard a =>
      exact (conserves_free hCarrying a.handle a.buffer.address).bind fun _ => conserves_return rfl

/-- While a request conserves references, an interpreter that runs goes on to run. -/
theorem running_answer (hCarrying : Session.Carrying ledger) {request : Request}
    (hSpecial : Special ledger request) {interpreter : Interpreter σ}
    (h : Running ledger 0 interpreter) :
    Running ledger 0 ((answer request).perform interpreter).2 := by
  have hAfter := conserves_answer hCarrying hSpecial 0 interpreter h
  rwa [outcomeReferences_const] at hAfter

/-- While all requests conserve references, an interpreter that runs goes on to run. -/
theorem running_serve (hCarrying : Session.Carrying ledger)
    (hSpecial : ∀ request, Special ledger request) {interpreter : Interpreter σ}
    (h : Running ledger 0 interpreter) (requests : List Request) :
    Running ledger 0 (interpreter.serve requests) := by
  induction requests generalizing interpreter with
  | nil => exact h
  | cons request requests ih => exact ih (running_answer hCarrying (hSpecial request) h)

end Requests

section Order

variable {ledger : Ledger σ}

theorem conserves_advance_inOrder (hConserving : Conserving ledger) (h : Handle) :
    Conserves (Session.InOrder ledger) 0 (Session.advance h)
      (fun item => (↑item.toList : Multiset ObjectId)) 0 := by
  refine Conserves.bind (Session.conserves_lookup h) fun id => ?_
  refine Session.conserves_runtimeOp_of_lift (fun held session ⟨hTable, hRuntime⟩ => ?_) _
  exact ⟨_, Session.conserves_framed (hConserving.next id) _, hRuntime,
    fun _ _ hInner => ⟨hTable, hInner⟩⟩

theorem special_inOrder (hConserving : Conserving ledger) (request : Request) :
    Special (Session.InOrder ledger) request := by
  have hCarrying := Session.carrying_inOrder hConserving.toSustaining
  cases request with
  | iterate h =>
      refine Conserves.bind (Session.conserves_lookup h) fun id => ?_
      apply (Session.conserves_runtimeOp hCarrying (fun _ h => h.iterate id) "iter").bind
      intro iterator
      exact Session.conserves_register iterator _
  | next h =>
      exact Session.conserves_next hCarrying (conserves_advance_inOrder hConserving h)
        fun rest state => Session.conserves_setKind h _
  | dispose h => exact Session.conserves_dispose hCarrying (Session.conserves_remove h)
  | release h => exact Session.conserves_releaseHandle hCarrying (Session.conserves_remove h)
  | _ => trivial

/-- Requests leave an interpreter in order. -/
theorem inOrder_serve (hConserving : Conserving ledger) {interpreter : Interpreter σ}
    (h : InOrder ledger 0 interpreter) (requests : List Request) :
    InOrder ledger 0 (interpreter.serve requests) :=
  running_serve (Session.carrying_inOrder hConserving.toSustaining) (special_inOrder hConserving) h
    requests

end Order

end Interpreter

namespace Session

open Operation

/-- An operation that conserves references does not shrink the heap below its limit. -/
theorem heap_room_of_conserves {α : Type} {op : BridgeOp Engine α} {session : Session Engine}
    {taken failed : Multiset ObjectId} {given : α → Multiset ObjectId}
    (h : Conserves (InOrder (Engine.Guards Engine.noGuard)) taken op given failed)
    (hTable : session.handles.Consistent)
    (hRoom : (op.perform session).2.runtime.heap.slots.size ≤ Heap.slotLimit) :
    session.runtime.heap.slots.size ≤ Heap.slotLimit := by
  by_contra hFull
  have hAfter := h 0 session ⟨hTable, Engine.guards_noGuard_iff.mpr hFull⟩
  exact Engine.guards_noGuard_iff.mp hAfter.2 hRoom

end Session

namespace Heap

/-- What the live objects own whose names were not live in an earlier heap. -/
def childrenSince (heap base : Heap) : List ObjectId :=
  heap.slots.toList.zipIdx.flatMap fun (slot, index) =>
    if base.isLive ⟨index.toUInt32, slot.generation⟩ then [] else slot.children

variable {base heap : Heap} {held : Multiset ObjectId}

theorem flatMap_zipIdx_drop {α : Type} (f : α → List ObjectId) (entries : List α) (bound start : Nat) :
    ((entries.zipIdx start).flatMap fun (entry, index) => if index < bound then [] else f entry)
      = (entries.drop (bound - start)).flatMap f := by
  induction entries generalizing start with
  | nil => simp
  | cons entry entries ih =>
      rw [List.zipIdx_cons, List.flatMap_cons, ih (start + 1)]
      dsimp only
      rcases Nat.lt_or_ge start bound with hLow | hHigh
      · have hStep : bound - start = bound - (start + 1) + 1 := by omega
        rw [if_pos hLow, hStep, List.drop_succ_cons, List.nil_append]
      · have hHere : bound - start = 0 := by omega
        have hNext : bound - (start + 1) = 0 := by omega
        rw [if_neg (Nat.not_lt.mpr hHigh), hHere, hNext, List.drop_zero, List.drop_zero,
          List.flatMap_cons]

/-- In a balanced heap the objects that came later are those of the later slots. -/
theorem Balanced.childrenSince_eq (h : Balanced base held heap) :
    heap.childrenSince base = heap.owned base.slots.size := by
  have hSlot (entry : Slot × Nat) (hEntry : entry ∈ heap.slots.toList.zipIdx) :
      (if base.isLive ⟨entry.2.toUInt32, entry.1.generation⟩ then [] else entry.1.children)
        = if entry.2 < base.slots.size then [] else entry.1.children := by
    obtain ⟨slot, index⟩ := entry
    dsimp only
    rw [List.mk_mem_zipIdx_iff_getElem?, Array.getElem?_toList] at hEntry
    have hBound := (Array.getElem?_eq_some_iff.mp hEntry).1
    have hIndex : index.toUInt32.toNat = index :=
      UInt32.toNat_ofNat_of_lt' (Nat.lt_of_lt_of_le hBound h.small)
    rcases Nat.lt_or_ge index base.slots.size with hLow | hHigh
    · rw [if_pos hLow]
      obtain ⟨generation, hBase⟩ := h.settled.exists_isLive (hIndex.symm ▸ hLow)
      obtain ⟨occupant, hOccupant⟩ := isLive_iff.mp (h.isLive_of_base hBase)
      rw [occupant?_eq_some_iff, hIndex, hEntry] at hOccupant
      cases hOccupant
      rw [if_pos hBase]
    · rw [if_neg (Nat.not_lt.mpr hHigh), isLive_eq_false_of_le (hIndex.symm ▸ hHigh)]
      rfl
  rw [childrenSince, List.flatMap_congr hSlot, flatMap_zipIdx_drop Slot.children, Nat.sub_zero, owned]

end Heap

namespace Interpreter

variable {isDirectory : String → Bool} {entropy : Generator} {settings : EngineSettings}
  {engine : Engine}

/-- Whatever a host asks for, and whether or not it gets it, every reference has an owner
afterwards: the engine as it was started, a registered handle, or a live object that was
made later. The objects of handles are live. Once there are no handles, there are as many
live objects as at the start. All this holds as long as the slots of the heap have names
of their own. -/
theorem serve_conserves_references
    (hStart : Engine.start isDirectory entropy settings = .ok engine)
    (root : String) (requests : List Request) :
    ∃ session, ((ofRuntime engine root).serve requests).session = some session ∧
      (session.runtime.heap.slots.size ≤ Heap.slotLimit →
        (∀ id, session.runtime.heap.isLive id = true →
          session.runtime.heap.references id = engine.heap.references id
            + session.handles.objects.count id
            + (session.runtime.heap.childrenSince engine.heap).count id) ∧
        (∀ h id, session.handles.get? h = some id → session.runtime.heap.isLive id = true) ∧
        (((ofRuntime engine root).serve requests).liveHandles = 0 →
          session.runtime.heap.live = engine.heap.live)) := by
  have hFirst : InOrder (Engine.InOrder engine.heap) 0 (ofRuntime engine root) :=
    ⟨_, rfl, HandleTable.consistent_empty, Engine.inOrder_of_start hStart⟩
  obtain ⟨session, hSession, hTable, hRuntime⟩ := inOrder_serve Engine.conserving hFirst requests
  refine ⟨session, hSession, fun hRoom => ?_⟩
  obtain ⟨-, hBalanced⟩ := hRuntime hRoom
  rw [Multiset.zero_add] at hBalanced
  refine ⟨fun id hLive => ?_, fun h id hGet => ?_, fun hNone => ?_⟩
  · rw [hBalanced.references_eq hLive, hBalanced.childrenSince_eq, Multiset.coe_count]
  · exact hBalanced.held_live id (HandleTable.mem_objects_of_get? hGet)
  · rw [liveHandles, hSession] at hNone
    have hEmpty := List.length_eq_zero_iff.mp (hTable.live_eq.symm.trans hNone)
    rw [hEmpty] at hBalanced
    exact hBalanced.live_eq_base

/-- An array is made, walked and released, a call fails, a handle is stale, and the
objects are those of the start. -/
theorem serve_conserves_references_of_array :
    ∃ engine session, Engine.start (fun _ => true) ⟨0⟩ ⟨none, none, "numeric", some 7⟩ = .ok engine ∧
      ((ofRuntime engine "numeric").serve
        [.invoke (.positional "zeros" [.provided (.ints [2])]), .iterate ⟨0x100000000⟩,
          .next ⟨0x100000001⟩, .dispose ⟨0x100000001⟩,
          .call (.positional "lcm" [.provided (.str "x")]) .int64,
          .release ⟨0x100000000⟩, .release ⟨0x100000000⟩]).session = some session ∧
      session.runtime.heap.slots.size = 36 ∧ session.runtime.heap.live = engine.heap.live := by
  have hStart : Engine.start (fun _ => true) ⟨0⟩ ⟨none, none, "numeric", some 7⟩ = .ok
      ((Engine.createModules "numeric").run (Engine.bare ⟨none, none, "numeric", some 7⟩ ⟨0⟩)).2 := rfl
  obtain ⟨session, hSession, hLaw⟩ := serve_conserves_references hStart "numeric"
    [.invoke (.positional "zeros" [.provided (.ints [2])]), .iterate ⟨0x100000000⟩,
      .next ⟨0x100000001⟩, .dispose ⟨0x100000001⟩,
      .call (.positional "lcm" [.provided (.str "x")]) .int64,
      .release ⟨0x100000000⟩, .release ⟨0x100000000⟩]
  have hSlots := congrArg (Option.map fun session => session.runtime.heap.slots.size) hSession
  have hSize : session.runtime.heap.slots.size = 36 :=
    Option.some.inj (hSlots.symm.trans (by cbv))
  obtain ⟨-, -, hDrained⟩ := hLaw (by rw [hSize]; decide)
  exact ⟨_, session, hStart, hSession, hSize, hDrained (by cbv)⟩

end Interpreter

end ArrayBridge
