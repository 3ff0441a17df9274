import ArrayBridge.Proofs.HandleHistory
import ArrayBridge.Proofs.ReferenceCounts

/-! The protocol of handles.

A host that plays with an interpreter gets handles, and it gives them back by freeing,
releasing or disposing of them. Every step changes the table of the handles by
registrations and removals only, so what a handle stands for can be read off the history
of the whole play, and so can the outcome of freeing any word at any address. -/

namespace ArrayBridge

open HandleTable Operation

namespace Session

variable {σ : Type} {first : HandleTable} {taken rest failed : Multiset ObjectId}

/-- The handles came about from those of an earlier table. -/
def Evolves (first : HandleTable) : Ledger (Session σ) := fun _ session =>
  ∃ events, first.Changes events session.handles

theorem conserves_register_evolves (id : ObjectId) (kind : HandleKind) :
    Conserves (Evolves first) taken (register id kind : BridgeOp σ Handle) (fun _ => rest)
      failed := by
  rintro frame ⟨runtime, handles, root⟩ ⟨events, hChanges⟩
  exact ⟨_, hChanges.insert id kind⟩

theorem conserves_setState_evolves (h : Handle) (state : IterationState) :
    Conserves (Evolves first) taken (setState h state : BridgeOp σ Unit) (fun _ => rest)
      failed := by
  rintro frame ⟨runtime, handles, root⟩ ⟨events, hChanges⟩
  exact ⟨_, hChanges.setKind h _⟩

theorem conserves_remove_evolves (h : Handle) (given : Option ObjectId → Multiset ObjectId) :
    Conserves (Evolves first) taken
      (onHandles fun handles => handles.remove h : BridgeOp σ (Option ObjectId)) given failed := by
  rintro frame ⟨runtime, handles, root⟩ ⟨events, hChanges⟩
  exact hChanges.exists_remove h

variable [ForeignRuntime σ]

theorem conserves_freeBuffer_evolves (h : Handle) (address : Nat) :
    Conserves (Evolves first) 0 (freeBuffer h address : BridgeOp σ ReleaseStatus) (fun _ => 0)
      0 := by
  rintro frame ⟨runtime, handles, root⟩ ⟨events, hChanges⟩
  rw [perform_freeBuffer]
  cases handles.get? h with
  | none => exact ⟨events, hChanges⟩
  | some id =>
      dsimp only
      split_ifs
      · exact hChanges.exists_remove h
      · exact ⟨events, hChanges⟩

theorem carrying_evolves : Carrying (Evolves first : Ledger (Session σ)) where
  lift h := ⟨_, sustaining_anything, trivial, fun _ _ _ => h⟩
  share h _ := h
  adopt := fun ⟨_, hChanges⟩ _ => ⟨_, hChanges.insert _ _⟩
  freeBuffer := conserves_freeBuffer_evolves

theorem special_evolves (request : Request) :
    Interpreter.Special (Evolves first : Ledger (Session σ)) request := by
  have hCarrying : Carrying (Evolves first : Ledger (Session σ)) := carrying_evolves
  cases request with
  | iterate h =>
      refine Conserves.bind (conserves_lookup h) fun id => ?_
      apply (conserves_runtimeOp hCarrying (fun _ h => h.iterate id) "iter").bind
      intro iterator
      exact conserves_register_evolves iterator _
  | next h =>
      refine conserves_next hCarrying ?_ fun rest state => conserves_setState_evolves h state
      refine Conserves.bind (conserves_lookup h) fun id => ?_
      exact conserves_runtimeOp_of_lift (fun _ _ h =>
        ⟨fun _ _ => True, fun _ _ _ => trivial, trivial, fun _ _ _ => h⟩) _
  | dispose h => exact conserves_dispose hCarrying (conserves_remove_evolves h _)
  | release h => exact conserves_releaseHandle hCarrying (conserves_remove_evolves h _)
  | _ => trivial

end Session

namespace Interpreter

section Play

/-- What a host does with an interpreter. -/
inductive Action where
  | ask (request : Request)
  | shutDown
  deriving DecidableEq, Inhabited

variable {σ : Type} [ForeignRuntime σ] {first interpreter : Interpreter σ}

/-- The interpreter after an action. -/
def act (interpreter : Interpreter σ) : Action → Interpreter σ
  | .ask request => ((answer request).perform interpreter).2
  | .shutDown => interpreter.shutdown.2

/-- The interpreter after a list of actions. -/
def play (interpreter : Interpreter σ) (actions : List Action) : Interpreter σ :=
  actions.foldl act interpreter

/-- The handles of a running interpreter become those of another one; nothing is asked
of the handles of an interpreter that was shut down. -/
inductive Changes : Interpreter σ → List Event → Interpreter σ → Prop
  | running {before after : Session σ} {events : List Event} {root later : String}
      (hChanges : before.handles.Changes events after.handles) :
      Changes ⟨some before, root⟩ events ⟨some after, later⟩
  | released (interpreter : Interpreter σ) (root : String) : Changes interpreter [] ⟨none, root⟩

/-- What happened to the handles of an interpreter during a list of actions. -/
inductive Traces (first : Interpreter σ) : List Action → List Event → Prop
  | start : Traces first [] []
  | step {actions : List Action} {events new : List Event} {action : Action}
      (prior : Traces first actions events)
      (last : Changes (first.play actions) new (first.play (actions ++ [action]))) :
      Traces first (actions ++ [action]) (events ++ new)

theorem play_append (actions : List Action) (action : Action) :
    first.play (actions ++ [action]) = (first.play actions).act action := by
  simp [play]

/-- An interpreter that was shut down stays so. -/
theorem answer_of_released (request : Request) (root : String) :
    ((answer request).perform (⟨none, root⟩ : Interpreter σ)).2 = ⟨none, root⟩ := by
  cases request with
  | toVector a dtype =>
      rw [answer, toVector]
      cases a.checkDType dtype <;> rfl
  | _ => rfl

/-- An interpreter that runs goes on to run, and its handles change step by step. -/
theorem exists_changes_of_answer (session : Session σ) (root : String) (request : Request) :
    ∃ events next later, ((answer request).perform ⟨some session, root⟩).2 = ⟨some next, later⟩ ∧
      session.handles.Changes events next.handles := by
  have hRuns : Running (Session.Evolves session.handles) 0 ⟨some session, root⟩ :=
    ⟨session, rfl, [], .refl⟩
  obtain ⟨next, hNext, events, hChanges⟩ :=
    running_answer Session.carrying_evolves (Session.special_evolves request) hRuns
  generalize ((answer request).perform ⟨some session, root⟩).2 = after at hNext ⊢
  obtain ⟨_, later⟩ := after
  cases hNext
  exact ⟨events, next, later, rfl, hChanges⟩

omit [ForeignRuntime σ] in
theorem changes_of_handles {before after : Interpreter σ} {old new : HandleTable}
    {events : List Event} (hBefore : before.session.map Session.handles = some old)
    (hAfter : after.session.map Session.handles = some new) (hChanges : old.Changes events new) :
    Changes before events after := by
  obtain ⟨_ | session, root⟩ := before
  · cases hBefore
  · obtain ⟨_ | next, later⟩ := after
    · cases hAfter
    · cases hBefore
      cases hAfter
      exact .running hChanges

theorem exists_changes (interpreter : Interpreter σ) (action : Action) :
    ∃ events, Changes interpreter events (interpreter.act action) := by
  obtain ⟨_ | session, root⟩ := interpreter
  · cases action with
    | ask request =>
        rw [act, answer_of_released]
        exact ⟨[], .released _ _⟩
    | shutDown => exact ⟨[], .released _ _⟩
  · cases action with
    | ask request =>
        obtain ⟨events, next, later, hNext, hChanges⟩ :=
          exists_changes_of_answer session root request
        rw [act, hNext]
        exact ⟨events, .running hChanges⟩
    | shutDown => exact ⟨[], .released _ _⟩

/-- Every play has a trace. -/
theorem exists_traces (first : Interpreter σ) (actions : List Action) :
    ∃ events, Traces first actions events := by
  induction actions using List.reverseRecOn with
  | nil => exact ⟨[], .start⟩
  | append_singleton actions action ih =>
      obtain ⟨events, hTraces⟩ := ih
      obtain ⟨new, hChanges⟩ := exists_changes (first.play actions) action
      rw [← play_append] at hChanges
      exact ⟨_, hTraces.step hChanges⟩

theorem session_act_eq_none_iff (action : Action) :
    (interpreter.act action).session = none ↔ interpreter.session = none ∨ action = .shutDown := by
  obtain ⟨_ | session, root⟩ := interpreter
  · cases action with
    | ask request => simp [act, answer_of_released]
    | shutDown => simp [act, shutdown]
  · cases action with
    | ask request =>
        obtain ⟨-, next, later, hNext, -⟩ := exists_changes_of_answer session root request
        simp [act, hNext]
    | shutDown => simp [act, shutdown]

/-- Only a shutdown ends a session. -/
theorem session_play_eq_none_iff {session : Session σ} (hFirst : first.session = some session)
    (actions : List Action) :
    (first.play actions).session = none ↔ .shutDown ∈ actions := by
  induction actions using List.reverseRecOn with
  | nil => simp [play, hFirst]
  | append_singleton actions action ih =>
      rw [play_append, session_act_eq_none_iff, ih, List.mem_append, List.mem_singleton, eq_comm]

/-- The handles of a session follow what happened since there were none. -/
theorem Traces.exists_table {actions : List Action} {events : List Event}
    (hTraces : Traces first actions events)
    (hFirst : ∀ session, first.session = some session → session.handles = empty)
    (hRoom : (registrations events).length < Heap.slotLimit) :
    ∃ table : HandleTable, table.Follows events ∧
      ∀ session, (first.play actions).session = some session → session.handles = table := by
  induction hTraces with
  | start => exact ⟨empty, follows_empty, hFirst⟩
  | @step actions events new action prior last ih =>
      rw [registrations_append, List.length_append] at hRoom
      obtain ⟨table, hFollows, hTable⟩ := ih (by omega)
      generalize first.play actions = before at last hTable
      generalize first.play (actions ++ [action]) = after at last ⊢
      cases last with
      | @running before after new root later hChanges =>
          obtain rfl : before.handles = table := hTable before rfl
          refine ⟨after.handles, hChanges.follows hFollows ?_, ?_⟩
          · rwa [registrations_append, List.length_append]
          · rintro _ ⟨⟩
            rfl
      | released =>
          rw [List.append_nil]
          refine ⟨table, hFollows, ?_⟩
          rintro _ ⟨⟩

/-- What all requests keep holds of a session as long as it lasts. -/
theorem running_play {ledger : Ledger (Session σ)} (hCarrying : Session.Carrying ledger)
    (hSpecial : ∀ request, Special ledger request) (hFirst : Running ledger 0 first)
    (actions : List Action) :
    ∀ session, (first.play actions).session = some session → ledger 0 session := by
  induction actions using List.reverseRecOn with
  | nil =>
      intro session hSession
      obtain ⟨_, hFound, hOrder⟩ := hFirst
      cases hFound.symm.trans hSession
      exact hOrder
  | append_singleton actions action ih =>
      intro session hSession
      rw [play_append] at hSession
      generalize first.play actions = interpreter at ih hSession
      obtain ⟨_ | before, root⟩ := interpreter
      · rw [(session_act_eq_none_iff action).mpr (.inl rfl)] at hSession
        cases hSession
      · cases action with
        | shutDown => cases hSession
        | ask request =>
            have hRuns : Running ledger 0 ⟨some before, root⟩ := ⟨before, rfl, ih before rfl⟩
            obtain ⟨next, hNext, hOrder⟩ := running_answer hCarrying (hSpecial request) hRuns
            cases hNext.symm.trans hSession
            exact hOrder

/-- The references of a session are in order as long as it lasts. -/
theorem inOrder_play {ledger : Ledger σ} (hConserving : Conserving ledger)
    (hFirst : InOrder ledger 0 first) (actions : List Action) :
    ∀ session, (first.play actions).session = some session →
      Session.InOrder ledger 0 session :=
  running_play (Session.carrying_inOrder hConserving.toSustaining) (special_inOrder hConserving)
    hFirst actions

end Play

end Interpreter

namespace Heap

/-- Releasing an object that owns nothing takes one reference from it and leaves all
other objects as they are. -/
theorem release_of_children_eq_nil {heap : Heap} {id : ObjectId} {occupant : Occupant}
    (hOccupant : heap.occupant? id = some occupant) (hChildren : occupant.object.children = [])
    (hPositive : 0 < occupant.references) :
    (heap.release id).references id + 1 = heap.references id ∧
      ∀ other, other ≠ id → (heap.release id).occupant? other = heap.occupant? other := by
  obtain ⟨references, object⟩ := occupant
  dsimp only at hChildren hPositive
  have hBefore : heap.references id = references := by simp [Heap.references, hOccupant]
  unfold release
  rw [releaseAll]
  split
  · rename_i hNone
    rw [hOccupant] at hNone
    cases hNone
  · rename_i found other hFound
    rw [hOccupant] at hFound
    cases hFound
    split_ifs with hMany
    · rw [releaseAll]
      refine ⟨?_, fun other hOther => by rw [occupant?_put hOccupant, if_neg hOther]⟩
      rw [hBefore, Heap.references, occupant?_put hOccupant, if_pos rfl]
      dsimp only
      omega
    · rw [hChildren, List.reverse_nil, List.nil_append, releaseAll]
      refine ⟨?_, fun other hOther => by rw [occupant?_remove hOccupant, if_neg hOther]⟩
      rw [hBefore, Heap.references, occupant?_remove hOccupant, if_pos rfl]
      dsimp only
      omega

end Heap

namespace Session

/-- What freeing a word at an address does to a session. Its status says whether the word
is a handle and whether its object is an array at the address. Only success changes
anything: the handle goes, and with it one reference. -/
structure Frees (session : Session Engine) (h : Handle) (address : Nat) (status : ReleaseStatus)
    (next : Session Engine) : Prop where
  stale_iff : status = .staleHandle ↔ session.handles.get? h = none
  mismatch_iff : status = .bufferMismatch ↔
    ∃ id, session.handles.get? h = some id ∧ ¬ session.runtime.HasArrayAt id address
  ok_iff : status = .ok ↔
    ∃ id, session.handles.get? h = some id ∧ session.runtime.HasArrayAt id address
  not_released : status ≠ .runtimeReleased
  same : status ≠ .ok → next = session
  handles : status = .ok → ∀ other,
    next.handles.get? other = if other = h then none else session.handles.get? other
  references : status = .ok → ∀ id, session.handles.get? h = some id →
    next.runtime = { session.runtime with heap := session.runtime.heap.release id } ∧
      next.runtime.heap.references id + 1 = session.runtime.heap.references id ∧
      ∀ other, other ≠ id →
        next.runtime.heap.occupant? other = session.runtime.heap.occupant? other

/-- Only a registered handle can be freed, and then it goes. -/
theorem removes_of_ok {σ : Type} [ForeignRuntime σ] {session : Session σ} {h : Handle}
    {address : Nat} (hOk : ((freeBuffer h address).perform session).1 = .ok .ok) :
    (∃ id, session.handles.get? h = some id) ∧
      ((freeBuffer h address).perform session).2.handles = (session.handles.remove h).2 := by
  rw [perform_freeBuffer] at hOk ⊢
  cases hGet : session.handles.get? h with
  | none =>
      rw [hGet] at hOk
      cases hOk
  | some id =>
      rw [hGet] at hOk
      dsimp only at hOk ⊢
      split_ifs at hOk ⊢ with hCode
      · exact ⟨⟨id, rfl⟩, rfl⟩
      · rw [Except.ok.injEq] at hOk
        have hStatus : (ReleaseStatus.ofCode
            ((ForeignRuntime.releaseBuffer id address).run session.runtime).1).isOk = true := by
          rw [hOk]
          rfl
        exact absurd (isOk_ofCode.mp hStatus) hCode

theorem frees_freeBuffer {base : Heap} {session : Session Engine}
    (hOrder : InOrder (Engine.InOrder base) 0 session)
    (hRoom : session.runtime.heap.slots.size ≤ Heap.slotLimit) (h : Handle) (address : Nat) :
    ∃ status next, (freeBuffer h address).perform session = (.ok status, next) ∧
      session.Frees h address status next := by
  rw [perform_freeBuffer]
  cases hGet : session.handles.get? h with
  | none =>
      refine ⟨.staleHandle, session, rfl, ?_⟩
      constructor <;> simp [hGet]
  | some id =>
      obtain ⟨-, hRuntime⟩ := hOrder
      obtain ⟨-, hBalanced⟩ := hRuntime hRoom
      rw [Multiset.zero_add] at hBalanced
      have hLive := hBalanced.held_live id (mem_objects_of_get? hGet)
      dsimp only
      obtain ⟨hArray, hRun⟩ | ⟨hOther, hRun⟩ := Engine.run_releaseBuffer hLive address
      · rw [hRun]
        refine ⟨.ok, _, rfl, ?_⟩
        have ⟨a, hObject, _⟩ := hArray
        obtain ⟨count, hOccupant⟩ := Heap.get?_eq_some_iff.mp hObject
        have hLaw := Heap.release_of_children_eq_nil hOccupant rfl
          (hBalanced.positive id _ hOccupant)
        constructor
        · simp [hGet]
        · simp [hGet, hArray]
        · simp [hGet, hArray]
        · simp
        · simp
        · exact fun _ other => get?_remove h other
        · intro _ other hSame
          cases hGet.symm.trans hSame
          exact ⟨rfl, hLaw⟩
      · rw [hRun]
        refine ⟨.bufferMismatch, session, rfl, ?_⟩
        constructor <;> simp [hGet, hOther]

end Session

namespace Interpreter

variable {isDirectory : String → Bool} {entropy : Generator} {settings : EngineSettings}
  {engine : Engine} {first : Interpreter Engine}

/-- A longer play has the history of a shorter one at its start. -/
theorem Traces.split {before after : List Action} {events : List Event}
    (hTraces : Traces first (before ++ after) events) :
    ∃ old new, events = old ++ new ∧ Traces first before old := by
  induction after using List.reverseRecOn generalizing events with
  | nil => exact ⟨events, [], by simp, by simpa using hTraces⟩
  | append_singleton after action ih =>
      rw [← List.append_assoc] at hTraces
      generalize hActions : before ++ after ++ [action] = actions at hTraces
      cases hTraces with
      | start => simp at hActions
      | @step longer events new last prior _ =>
          obtain ⟨rfl, -⟩ := List.append_inj' hActions rfl
          obtain ⟨old, rest, rfl, hOld⟩ := ih prior
          exact ⟨old, rest ++ new, List.append_assoc old rest new, hOld⟩

theorem perform_free (h : Handle) (address : Nat) (session : Session Engine) (root : String) :
    (free h address).perform ⟨some session, root⟩
      = (((Session.freeBuffer h address).perform session).1,
        ⟨some ((Session.freeBuffer h address).perform session).2, root⟩) := rfl

/-- The result of an operation does not matter to the state. -/
theorem state_forget {σ α : Type} (op : InterpreterOp σ α) (interpreter : Interpreter σ) :
    ((forget op).perform interpreter).2 = (op.perform interpreter).2 := by
  rw [forget, perform_bind]
  cases op.perform interpreter with
  | mk outcome next => cases outcome <;> rfl

/-- A success of freeing a handle is part of the history. -/
theorem Traces.removed_of_freed {before after : List Action} {events : List Event} {h : Handle}
    {address : Nat} (hFirst : ∀ session, first.session = some session → session.handles = empty)
    (hTraces : Traces first (before ++ .ask (.free h address) :: after) events)
    (hRoom : (registrations events).length < Heap.slotLimit)
    (hOk : ((free h address).perform (first.play before)).1 = .ok .ok) : .removed h ∈ events := by
  rw [List.append_cons] at hTraces
  obtain ⟨mid, new, rfl, hMid⟩ := hTraces.split
  obtain ⟨old, step, rfl, hOld⟩ := hMid.split
  simp only [registrations_append, List.length_append] at hRoom
  obtain ⟨table, hTable, hBefore⟩ := hOld.exists_table hFirst (by omega)
  obtain ⟨later, hLater, hAfter⟩ := hMid.exists_table hFirst (by
    rw [registrations_append, List.length_append]
    omega)
  rw [play_append] at hAfter
  generalize first.play before = interpreter at hOk hBefore hAfter
  obtain ⟨_ | session, root⟩ := interpreter
  · cases hOk
  · rw [perform_free] at hOk
    obtain ⟨⟨id, hGet⟩, hHandles⟩ := Session.removes_of_ok hOk
    rw [hBefore session rfl] at hGet hHandles
    have hNext : (act ⟨some session, root⟩ (.ask (.free h address))).session
        = some ((Session.freeBuffer h address).perform session).2 := by
      rw [act, answer, state_forget, perform_free]
    have hGone : later.get? h = none := by
      rw [← hAfter _ hNext, hHandles, get?_remove, if_pos rfl]
    by_contra hKept
    simp only [List.mem_append, not_or] at hKept
    have hRegistered := ((hTable.get?_iff h id).mp hGet).1
    have hFound := (hLater.get?_iff h id).mpr ⟨List.mem_append.mpr (.inl hRegistered), by
      simpa only [List.mem_append, not_or] using hKept.1⟩
    rw [hGone] at hFound
    cases hFound

/-- The protocol of handles after a play with its history. -/
structure FreeProtocol (first : Interpreter Engine) (actions : List Action) (events : List Event) :
    Prop where
  /-- No handle is registered twice. -/
  registered_nodup : (registrations events).Nodup
  registered_ne_zero : ∀ h ∈ registrations events, h.raw ≠ 0
  /-- No handle is removed twice. -/
  removed_nodup : (removals events).Nodup
  /-- A handle names the object that it was registered for until it is removed. -/
  named_iff : ∀ session, (first.play actions).session = some session → ∀ h id,
    session.handles.get? h = some id ↔ .registered h id ∈ events ∧ .removed h ∉ events
  /-- Only a shutdown ends the session. -/
  released_iff : (first.play actions).session = none ↔ .shutDown ∈ actions
  free_released : (first.play actions).session = none → ∀ h address,
    (free h address).perform (first.play actions) = (.ok .runtimeReleased, first.play actions)
  free_running : ∀ session, (first.play actions).session = some session →
    session.runtime.heap.slots.size ≤ Heap.slotLimit → ∀ h address, ∃ status next,
      (free h address).perform (first.play actions)
          = (.ok status, ⟨some next, (first.play actions).root⟩) ∧
        session.Frees h address status next
  /-- A handle that was freed can never be freed again. -/
  freed_once : ∀ before h address after, actions = before ++ .ask (.free h address) :: after →
    ((free h address).perform (first.play before)).1 = .ok .ok →
    ∀ later, ((free h later).perform (first.play actions)).1 ≠ .ok .ok

/-- The protocol holds after every play that registers fewer handles than there are
words for the generations of a slot. -/
theorem play_free_protocol (hStart : Engine.start isDirectory entropy settings = .ok engine)
    (root : String) (actions : List Action) :
    (∃ events, Traces (ofRuntime engine root) actions events) ∧
      ∀ events, Traces (ofRuntime engine root) actions events →
        (registrations events).length < 2 ^ 32 →
          FreeProtocol (ofRuntime engine root) actions events := by
  refine ⟨exists_traces _ actions, fun events hTraces hRoom => ?_⟩
  have hFirst : InOrder (Engine.InOrder engine.heap) 0 (ofRuntime engine root) :=
    ⟨_, rfl, consistent_empty, Engine.inOrder_of_start hStart⟩
  have hEmpty (session : Session Engine) (hSession : (ofRuntime engine root).session = some session) :
      session.handles = empty := by
    cases hSession
    rfl
  obtain ⟨table, hFollows, hTable⟩ := hTraces.exists_table hEmpty hRoom
  constructor
  case registered_nodup => exact hFollows.nodup
  case registered_ne_zero => exact fun h hMem => Handle.raw_ne_zero (hFollows.earlier h hMem).2.1
  case removed_nodup => exact hFollows.removed_nodup
  case named_iff =>
    intro session hSession h id
    rw [hTable session hSession]
    exact hFollows.get?_iff h id
  case released_iff => exact session_play_eq_none_iff rfl actions
  case free_released =>
    intro hNone h address
    generalize (ofRuntime engine root).play actions = last at hNone
    obtain ⟨_, later⟩ := last
    cases hNone
    rfl
  case free_running =>
    intro session hSession hSlots h address
    have hOrder := inOrder_play Engine.conserving hFirst actions session hSession
    generalize (ofRuntime engine root).play actions = last at hSession
    obtain ⟨_, later⟩ := last
    cases hSession
    obtain ⟨status, next, hRun, hFrees⟩ := Session.frees_freeBuffer hOrder hSlots h address
    exact ⟨status, next, by rw [perform_free, hRun], hFrees⟩
  case freed_once =>
    intro before h address after hActions hOk later hAgain
    rw [hActions] at hTraces
    have hRemoved := hTraces.removed_of_freed hEmpty hRoom hOk
    generalize (ofRuntime engine root).play actions = last at hAgain hTable
    obtain ⟨_ | session, later⟩ := last
    · cases hAgain
    · rw [perform_free] at hAgain
      obtain ⟨⟨id, hGet⟩, -⟩ := Session.removes_of_ok hAgain
      rw [hTable session rfl, hFollows.get?_iff] at hGet
      exact hGet.2 hRemoved

/-- The slot of an array that was freed is used again under another handle. -/
theorem play_free_protocol_of_reuse :
    ∃ engine, Engine.start (fun _ => true) ⟨0⟩ ⟨none, none, "numeric", some 7⟩ = .ok engine ∧
      FreeProtocol (ofRuntime engine "numeric")
        [.ask (.callArray (.positional "zeros" [.provided (.ints [2])])),
          .ask (.free ⟨0x100000000⟩ 0x100000000),
          .ask (.callArray (.positional "zeros" [.provided (.ints [3])]))]
        [.registered ⟨0x100000000⟩ ⟨35, 0⟩, .removed ⟨0x100000000⟩,
          .registered ⟨0x200000000⟩ ⟨34, 1⟩] := by
  have hStart : Engine.start (fun _ => true) ⟨0⟩ ⟨none, none, "numeric", some 7⟩ = .ok
      ((Engine.createModules "numeric").run (Engine.bare ⟨none, none, "numeric", some 7⟩ ⟨0⟩)).2 := rfl
  refine ⟨_, hStart, (play_free_protocol hStart "numeric" _).2 _ ?_ (by decide)⟩
  generalize hFirst : ofRuntime _ "numeric" = first
  have hMade : (first.play [.ask (.callArray (.positional "zeros" [.provided (.ints [2])]))]
      ).session.map Session.handles = some (empty.insert ⟨35, 0⟩ .object).2 := by
    rw [← hFirst]
    cbv
  have hFreed : (first.play [.ask (.callArray (.positional "zeros" [.provided (.ints [2])])),
        .ask (.free ⟨0x100000000⟩ 0x100000000)]).session.map Session.handles
      = some ((empty.insert ⟨35, 0⟩ .object).2.remove ⟨0x100000000⟩).2 := by
    rw [← hFirst]
    cbv
  have hAgain : (first.play [.ask (.callArray (.positional "zeros" [.provided (.ints [2])])),
        .ask (.free ⟨0x100000000⟩ 0x100000000),
        .ask (.callArray (.positional "zeros" [.provided (.ints [3])]))]).session.map Session.handles
      = some (((empty.insert ⟨35, 0⟩ .object).2.remove ⟨0x100000000⟩).2.insert ⟨34, 1⟩ .object).2 := by
    rw [← hFirst]
    cbv
  have hEmpty : (first.play []).session.map Session.handles = some empty := by
    rw [← hFirst]
    rfl
  exact ((Traces.start.step (changes_of_handles hEmpty hMade (.insert .refl _ _))).step
    (changes_of_handles hMade hFreed (.remove .refl rfl))).step
    (changes_of_handles hFreed hAgain (.insert .refl _ _))

end Interpreter

end ArrayBridge
