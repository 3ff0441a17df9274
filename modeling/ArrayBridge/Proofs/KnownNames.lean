import ArrayBridge.Proofs.Lasting
import ArrayBridge.Proofs.Startup

/-! What an engine knows by name.

Names are given when an engine starts. After that no operation looks at them but to find an
object. So an engine in use knows the same names as at its start, the objects of its start are
all there, and its session goes on to look up unqualified names in the same module. -/

namespace ArrayBridge

open Operation

namespace Engine

variable {engine : Engine} {α β : Type}

/-- An action leaves alone what is known by name. -/
def KeepsNames (engine : Engine) (action : StateM Engine α) : Prop :=
  (action.run engine).2.names = engine.names

section Actions

theorem KeepsNames.bind {action : StateM Engine α} {rest : α → StateM Engine β}
    (h : KeepsNames engine action)
    (hRest : KeepsNames (action.run engine).2 (rest (action.run engine).1)) :
    KeepsNames engine (action >>= rest) := hRest.trans h

theorem keepsNames_onHeap (f : Heap → α × Heap) : KeepsNames engine (onHeap f) := rfl

theorem keepsNames_onBuffers (f : BufferStore → α × BufferStore) :
    KeepsNames engine (onBuffers f) := rfl

theorem keepsNames_draw (f : Generator → α × Generator) : KeepsNames engine (draw f) := rfl

theorem keepsNames_drawSeed : KeepsNames engine drawSeed := by
  obtain ⟨heap, buffers, generator, entropy, names⟩ := engine
  simp only [KeepsNames, StateT.run, drawSeed]

theorem keepsNames_create (object : Object) : KeepsNames engine (create object) :=
  keepsNames_onHeap _

theorem keepsNames_share (id : ObjectId) : KeepsNames engine (share id) :=
  .bind (keepsNames_onHeap _) rfl

theorem keepsNames_createArray (form : ArrayForm) : KeepsNames engine (createArray form) :=
  .bind (keepsNames_onBuffers _) (keepsNames_create _)

theorem keepsNames_createResult (form : ArrayForm) : KeepsNames engine (createResult form) := by
  unfold KeepsNames
  rw [run_createResult]
  split
  · exact keepsNames_create _
  · exact keepsNames_createArray form

theorem keepsNames_mapM_create (objects : List Object) :
    KeepsNames engine (objects.mapM create) := by
  induction objects generalizing engine with
  | nil => rfl
  | cons object objects ih =>
      rw [List.mapM_cons]
      exact .bind (keepsNames_create object) (.bind ih rfl)

theorem Makes.keepsNames {effect : Effect} (h : Makes effect) (engine : Engine) :
    KeepsNames engine effect := by
  induction h generalizing engine with
  | array form => exact keepsNames_createArray form
  | result form => exact keepsNames_createResult form
  | object object => exact keepsNames_create object
  | none => exact keepsNames_share _
  | drawn f rest _ ih => exact .bind (keepsNames_draw f) (ih _ _)
  | seeded rest _ ih => exact .bind keepsNames_drawSeed (ih _ _)
  | written f rest _ ih => exact .bind (keepsNames_onBuffers f) (ih _ _)

theorem Answers.keepsNames {effect : Effect} (h : Answers engine effect) :
    KeepsNames engine effect := by
  cases h with
  | makes hMakes => exact hMakes.keepsNames engine
  | shares id => exact keepsNames_share id
  | shuffles id items =>
      exact .bind (keepsNames_draw _) (.bind (keepsNames_onHeap _) (keepsNames_share _))

end Actions

section Requests

theorem keepsNames_arrayAttribute {a : NdArray} {name : String} {effect : Effect}
    (h : engine.arrayAttribute? a name = some effect) : KeepsNames engine effect := by
  unfold arrayAttribute? at h
  split at h
  · cases h
    exact .bind (keepsNames_mapM_create _) (keepsNames_create _)
  · cases h
    exact keepsNames_create _
  · cases h
    exact keepsNames_create _
  · cases h
    exact keepsNames_create _
  · cases h
    exact keepsNames_create _
  · cases h
    exact keepsNames_create _
  · cases h
    exact keepsNames_createArray _
  · cases h

theorem commits_keepsNames_itemAt (cursor : Cursor) :
    Commits (KeepsNames engine) (engine.itemAt cursor) engine := by
  refine commits_check fun object _ => ?_
  split
  · exact commits_check fun row _ => commits_always (keepsNames_createResult _)
  · exact commits_always (keepsNames_share _)
  · exact commits_always (keepsNames_share _)
  · exact commits_throw _

theorem commits_keepsNames_next (id : ObjectId) :
    Commits (KeepsNames engine) (next id) engine := by
  refine commits_get (commits_check fun object _ => ?_)
  split
  · rename_i cursor _
    split
    · exact commits_pure rfl
    · have hItem : Commits (KeepsNames engine) (engine.itemAt cursor) engine :=
        commits_keepsNames_itemAt cursor
      exact hItem.andThen fun effect hKeeps => .bind hKeeps rfl
  · exact commits_throw _

theorem commits_keepsNames_setItem (id key value : ObjectId) :
    Commits (KeepsNames engine) (setItem id key value) engine := by
  refine commits_get (commits_check fun object _ => ?_)
  split
  · refine commits_check fun selectors _ => commits_check fun contents _ =>
      commits_check fun writes _ => ?_
    exact commits_always (keepsNames_onBuffers _)
  · exact commits_check fun position _ => commits_always
      (.bind (keepsNames_onHeap _) (.bind (keepsNames_onHeap _) (keepsNames_onHeap _)))
  · exact commits_throw _

/-- Whatever is asked of an engine, it does not change what it knows by name. -/
theorem commits_keepsNames (request : RuntimeRequest α) :
    Commits (KeepsNames engine) request.operation engine := by
  cases request with
  | importModule name =>
      apply commits_get
      split
      · exact commits_always (keepsNames_share _)
      · exact commits_throw _
  | getAttribute id name =>
      refine commits_get (commits_check fun object _ => ?_)
      split
      · split
        · exact commits_always (keepsNames_share _)
        · exact commits_throw _
      · split
        · exact commits_always (keepsNames_arrayAttribute ‹_›)
        · exact commits_throw _
      · exact commits_throw _
  | call id positional keywords =>
      refine commits_get (commits_check fun object _ => ?_)
      split
      · exact ((plans_nativeCall _ _).commits engine).mono fun _ => Answers.keepsNames
      · exact commits_throw _
  | getItem id key =>
      refine commits_get (commits_check fun object _ => ?_)
      split
      · refine commits_check fun selectors _ => commits_check fun selected _ => ?_
        split
        · exact commits_always (keepsNames_createResult _)
        · exact commits_always (keepsNames_createArray _)
      · exact commits_check fun position _ => commits_always (keepsNames_share _)
      · exact commits_check fun position _ => commits_always (keepsNames_share _)
      · exact commits_throw _
  | setItem id key value => exact commits_keepsNames_setItem id key value
  | iterate id =>
      have hCursor (source : ObjectId) (length : Nat) :
          KeepsNames engine (createCursor source length) :=
        .bind (keepsNames_onHeap _) (keepsNames_create _)
      refine commits_get (commits_check fun object _ => ?_)
      split
      · split
        · exact commits_throw _
        · exact commits_always (hCursor _ _)
      · exact commits_always (hCursor _ _)
      · exact commits_always (hCursor _ _)
      · exact commits_always (keepsNames_share _)
      · exact commits_throw _
  | next id => exact commits_keepsNames_next id
  | asArray id =>
      refine commits_get (commits_check fun form _ => ?_)
      split
      · exact commits_always (keepsNames_share _)
      · exact commits_always (keepsNames_createArray _)
  | build value =>
      refine commits_always ?_
      cases value with
      | none => exact keepsNames_share _
      | noValue => exact keepsNames_share _
      | _ => exact keepsNames_create _
  | extract id => exact commits_get (commits_lift fun _ => rfl)

end Requests

/-- What an engine knows by name lasts. -/
theorem lasting_names (names : Namespace) : Lasting fun engine => engine.names = names where
  request request engine hNames := by
    have hCommits : Commits (KeepsNames engine) request.operation engine := commits_keepsNames request
    unfold RuntimeRequest.after
    cases hCommits with
    | refuses e hRun =>
        rw [hRun]
        exact hNames
    | acts action hKeeps hRun =>
        rw [hRun]
        exact hKeeps.trans hNames
  retain _ _ hNames := hNames
  release _ _ hNames := hNames

end Engine

namespace Session

variable {σ : Type} {root : String} {taken rest failed : Multiset ObjectId}

/-- Unqualified names are looked up in the module of a name. -/
def RootedAt (root : String) : Ledger (Session σ) := fun _ session => session.root = root

theorem conserves_onHandles_rooted {α : Type} (f : HandleTable → α × HandleTable)
    (given : α → Multiset ObjectId) :
    Conserves (RootedAt root) taken (onHandles f : BridgeOp σ α) given failed :=
  fun _ _ hRoot => hRoot

variable [ForeignRuntime σ]

theorem carrying_rooted : Carrying (RootedAt root : Ledger (Session σ)) where
  lift hRoot := ⟨_, sustaining_anything, trivial, fun _ _ _ => hRoot⟩
  share hRoot _ := hRoot
  adopt hRoot _ := hRoot
  freeBuffer h address := by
    rintro frame ⟨runtime, handles, _⟩ hRoot
    rw [perform_freeBuffer]
    cases handles.get? h with
    | none => exact hRoot
    | some id =>
        dsimp only
        split_ifs
        · exact hRoot
        · exact hRoot

theorem special_rooted (request : Request) :
    Interpreter.Special (RootedAt root : Ledger (Session σ)) request := by
  have hCarrying : Carrying (RootedAt root : Ledger (Session σ)) := carrying_rooted
  cases request with
  | iterate h =>
      refine Conserves.bind (conserves_lookup h) fun id => ?_
      apply (conserves_runtimeOp hCarrying (fun _ h => h.iterate id) "iter").bind
      intro iterator
      exact conserves_onHandles_rooted _ _
  | next h =>
      refine conserves_next hCarrying ?_ fun rest state => conserves_onHandles_rooted _ _
      refine Conserves.bind (conserves_lookup h) fun id => ?_
      exact conserves_runtimeOp_of_lift (fun _ _ h =>
        ⟨fun _ _ => True, fun _ _ _ => trivial, trivial, fun _ _ _ => h⟩) _
  | dispose h => exact conserves_dispose hCarrying (conserves_onHandles_rooted _ _)
  | release h => exact conserves_releaseHandle hCarrying (conserves_onHandles_rooted _ _)
  | _ => trivial

end Session

namespace Interpreter

/-- However long an engine was in use, its session knows by name what it knew at the start, and
unqualified names are looked up in the same module. -/
theorem known_of_play {engine : Engine} {root : String} (actions : List Action)
    {session : Session Engine}
    (hSession : ((ofRuntime engine root).play actions).session = some session) :
    session.runtime.names = engine.names ∧ session.root = root := by
  constructor
  · exact (Engine.lasting_names engine.names).of_play rfl root actions hSession
  · have hFirst : Running (Session.RootedAt root) 0 (ofRuntime engine root) := ⟨_, rfl, rfl⟩
    exact running_play Session.carrying_rooted Session.special_rooted hFirst actions
      session hSession

/-- However long an engine was in use, every reference has an owner, and the objects of its start
are there. -/
theorem balanced_of_play {isDirectory : String → Bool} {entropy : Generator}
    {settings : EngineSettings} {engine : Engine}
    (hStart : Engine.start isDirectory entropy settings = .ok engine) {root : String}
    {actions : List Action} {session : Session Engine}
    (hSession : ((ofRuntime engine root).play actions).session = some session)
    (hRoom : session.runtime.heap.slots.size ≤ Heap.slotLimit) :
    engine.heap.Balanced (0 + ↑session.handles.objects) session.runtime.heap := by
  have hFirst : InOrder (Engine.InOrder engine.heap) 0 (ofRuntime engine root) :=
    ⟨_, rfl, HandleTable.consistent_empty, Engine.inOrder_of_start hStart⟩
  obtain ⟨-, hOrder⟩ := inOrder_play Engine.conserving hFirst actions session hSession
  exact (hOrder hRoom).2

end Interpreter

end ArrayBridge
