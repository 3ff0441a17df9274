import ArrayBridge.Lifecycle
import ArrayBridge.Proofs.CallAnswers
import ArrayBridge.Proofs.KnownNames
import ArrayBridge.Proofs.RowDelivery
import ArrayBridge.Proofs.Startup

/-! Unqualified names.

A path without dots is looked up among the modules, and then among the attributes of the root
module. A started engine has three modules under names that depend on the configured one. The
bridge looks for its root module under the configured name, so the functions of the root module
are found by their names as long as this is the module that is registered under it. -/

namespace ArrayBridge

open Operation

/-- No function has a dot in its name. -/
theorem NumericFunction.dotless_name (f : NumericFunction) : '.' ∉ f.name.toList := by
  cases f <;> decide

theorem Namespace.lookup_register (names : Namespace) (name : String) (id : ObjectId) (key : String) :
    (names.register name id).modules.lookup key
      = if key = name then some id else names.modules.lookup key := by
  rw [register, List.lookup_cons]
  by_cases hSame : key = name
  · rw [if_pos hSame, hSame, beq_self_eq_true]
  · rw [if_neg hSame, beq_false_of_ne hSame]
    generalize names.modules = entries
    dsimp only
    induction entries with
    | nil => rfl
    | cons entry entries ih =>
        obtain ⟨other, object⟩ := entry
        by_cases hDropped : other = name
        · have hKey : (key == other) = false := beq_false_of_ne (hDropped ▸ hSame)
          rw [List.lookup_cons, hKey, List.filter_cons_of_neg (by simpa using hDropped), ih]
        · rw [List.filter_cons_of_pos (by simpa using hDropped), List.lookup_cons, List.lookup_cons, ih]

theorem EngineSettings.registeredRoot_of_ne {settings : EngineSettings}
    (h : settings.rootModule ≠ "") : settings.registeredRoot = settings.rootModule := if_neg h

namespace Engine

variable {engine : Engine} {count : Nat} {settings : EngineSettings} {entropy : Generator}
  {isDirectory : String → Bool}

section Modules

/-- An object is a function. -/
def IsNative (engine : Engine) (native : Native) (id : ObjectId) : Prop :=
  engine.object id = .ok (.native native)

/-- The members of a module are functions under their names. -/
def AreNatives (engine : Engine) (functions : List (String × Native))
    (members : List (String × ObjectId)) : Prop :=
  List.Forall₂ (fun entry member => entry.1 = member.1 ∧ engine.IsNative entry.2 member.2)
    functions members

theorem run_createNatives_cons (name : String) (native : Native) (functions : List (String × Native)) :
    (createNatives ((name, native) :: functions)).run engine
      = (let made := (create (.native native)).run engine
         let rest := (createNatives functions).run made.2
         ((name, made.1) :: rest.1, rest.2)) := by
  rw [createNatives, List.mapM_cons]
  rfl

theorem HasRoom.createNatives {functions : List (String × Native)}
    (h : engine.HasRoom (count + functions.length)) :
    ∃ members next, (Engine.createNatives functions).run engine = (members, next) ∧
      engine.Extends next ∧ next.HasRoom count ∧
      next.AreNatives functions members := by
  induction functions generalizing engine with
  | nil => exact ⟨[], engine, rfl, .refl engine, h, .nil⟩
  | cons entry functions ih =>
      obtain ⟨name, native⟩ := entry
      obtain ⟨id, middle, hCreate, hFirst, hRoom, hNative⟩ := HasRoom.create h (.native native)
      obtain ⟨members, next, hRest, hSecond, hLeft, hMembers⟩ := ih hRoom
      refine ⟨(name, id) :: members, next, ?_, hFirst.trans hSecond, hLeft,
        .cons ⟨rfl, hSecond.object_eq hNative⟩ hMembers⟩
      rw [run_createNatives_cons, hCreate]
      dsimp only
      rw [hRest]

theorem HasRoom.createRandomModule
    (h : engine.HasRoom (count + 1 + RandomFunction.attributes.length)) :
    ∃ random next, (Engine.createRandomModule).run engine = (random, next) ∧
      engine.Extends next ∧ next.HasRoom count ∧
      ∃ members, next.object random = .ok (.module ⟨"random", members⟩) := by
  rw [← List.length_map (f := Prod.map id Native.random)] at h
  obtain ⟨members, middle, hMembers, hFirst, hRoom, -⟩ := h.createNatives
  obtain ⟨random, next, hCreate, hSecond, hLeft, hModule⟩ :=
    HasRoom.create hRoom (.module ⟨"random", members⟩)
  refine ⟨random, next, ?_, hFirst.trans hSecond, hLeft, members, hModule⟩
  rw [Engine.createRandomModule, StateT.run_bind]
  change (Engine.createNatives (RandomFunction.attributes.map (Prod.map id Native.random))).run
    engine >>= _ = _
  rw [hMembers]
  exact hCreate

/-- The functions of the root module are members of an object. -/
def IsRootModule (engine : Engine) (root : String) (id : ObjectId) : Prop :=
  ∃ members, engine.object id = .ok (.module ⟨root, members⟩) ∧
    ∀ f : NumericFunction, ∃ callable, members.lookup f.name = some callable ∧
      engine.IsNative (.numeric f) callable

/-- The members that are made for the functions are found under their names. -/
theorem exists_member {members : List (String × ObjectId)}
    (h : engine.AreNatives (NumericFunction.all.map fun f => (f.name, .numeric f)) members)
    (f : NumericFunction) : ∃ callable, members.lookup f.name = some callable ∧
      engine.IsNative (.numeric f) callable := by
  have hRel := Arguments.rel_lookup h f.name
  have hFound : (NumericFunction.all.map fun f => (f.name, Native.numeric f)).lookup f.name
      = some (.numeric f) := by
    cases f <;> rfl
  rw [hFound] at hRel
  generalize members.lookup f.name = member at hRel ⊢
  cases hRel with
  | some hNative => exact ⟨_, rfl, hNative⟩

theorem HasRoom.createRootModule {random : ObjectId} {object : Object}
    (h : engine.HasRoom (count + 1 + NumericFunction.all.length))
    (hRandom : engine.object random = .ok object)
    (hNone : engine.object engine.names.noneId = .ok .none) (root : String) :
    ∃ numeric next, (Engine.createRootModule root random).run engine = (numeric, next) ∧
      engine.Extends next ∧ next.HasRoom count ∧ next.IsRootModule root numeric := by
  rw [← List.length_map (f := fun f => ((f.name, .numeric f) : String × Native))] at h
  obtain ⟨members, first, hMembers, hFirst, hRoom, hNatives⟩ := h.createNatives
  have hAxis : first.object first.names.noneId = .ok .none := by
    rw [hFirst.names_eq]
    exact hFirst.object_eq hNone
  obtain ⟨second, hShare, hSecond, hRoom⟩ := HasRoom.retain hRoom hAxis
  obtain ⟨third, hRetain, hThird, hRoom⟩ :=
    HasRoom.retain hRoom (hSecond.object_eq (hFirst.object_eq hRandom))
  obtain ⟨numeric, next, hCreate, hLast, hLeft, hModule⟩ := HasRoom.create hRoom
    (.module ⟨root, members ++ [("newaxis", first.names.noneId), ("random", random)]⟩)
  have hLater := hSecond.trans (hThird.trans hLast)
  refine ⟨numeric, next, ?_, hFirst.trans hLater, hLeft, _, hModule, fun f => ?_⟩
  · have hAxisRun : createNone.run first = (first.names.noneId, second) := by
      change (Engine.retain first.names.noneId >>= fun _ => pure first.names.noneId).run first = _
      rw [StateT.run_bind, hShare]
      rfl
    rw [Engine.createRootModule, StateT.run_bind, hMembers]
    change ((createNone >>= fun newAxis => _).run first) = _
    rw [StateT.run_bind, hAxisRun]
    change ((Engine.retain random >>= fun _ => _).run second) = _
    rw [StateT.run_bind, hRetain]
    exact hCreate
  · obtain ⟨callable, hMember, hNative⟩ := exists_member hNatives f
    refine ⟨callable, ?_, hLater.object_eq hNative⟩
    rw [List.lookup_append, hMember, Option.some_or]

/-- The modules of a started engine, by the name that the root module got. -/
theorem exists_modules (h : engine.HasRoom
      (1 + NumericFunction.all.length + 1 + RandomFunction.attributes.length))
    (hNone : engine.object engine.names.noneId = .ok .none) (root : String) :
    ∃ random numeric next, (createModules root).run engine = ((), next) ∧
      next.names = ((engine.names.register root numeric).register "random" random).register
        (root ++ ".random") random ∧
      next.IsRootModule root numeric ∧ next.heap.slots.size ≤ Heap.slotLimit := by
  have hEnough : 1 + NumericFunction.all.length = 0 + 1 + NumericFunction.all.length := by omega
  obtain ⟨random, first, hRandom, hFirst, hRoom, members, hModule⟩ := h.createRandomModule
  rw [hEnough] at hRoom
  have hAxis : first.object first.names.noneId = .ok .none := by
    rw [hFirst.names_eq]
    exact hFirst.object_eq hNone
  obtain ⟨numeric, second, hNumeric, hSecond, hLeft, members, hRoot, hMembers⟩ :=
    hRoom.createRootModule hModule hAxis root
  refine ⟨random, numeric, ?_⟩
  have hNames := hSecond.names_eq.trans hFirst.names_eq
  refine ⟨{ second with
    heap := second.heap.retain random
    names := ((second.names.register root numeric).register "random" random).register
      (root ++ ".random") random }, ?_, ?_, ?_, ?_⟩
  · rw [createModules, StateT.run_bind, hRandom]
    change ((createRootModule root random >>= fun numeric => _).run first) = _
    rw [StateT.run_bind, hNumeric]
    rfl
  · rw [hNames]
  · have hSame (id : ObjectId) : Engine.object { second with
        heap := second.heap.retain random
        names := ((second.names.register root numeric).register "random" random).register
          (root ++ ".random") random } id = second.object id := by
      unfold object
      rw [Heap.get?_retain]
    refine ⟨members, (hSame _).trans hRoot, fun f => ?_⟩
    obtain ⟨callable, hMember, hNative⟩ := hMembers f
    exact ⟨callable, hMember, (hSame _).trans hNative⟩
  · dsimp only
    rw [Heap.size_retain]
    exact hLeft.fits

theorem size_bare (settings : EngineSettings) (entropy : Generator) :
    (bare settings entropy).heap.slots.size = 2 := by
  unfold bare
  cases settings.seed <;> rfl

/-- The registered name of the root module stands for it, unless it is that of the random module,
and no other function has a name that is registered. -/
theorem exists_rootModule_of_start (h : start isDirectory entropy settings = .ok engine)
    (hOwn : settings.registeredRoot ≠ "random") :
    ∃ numeric, engine.names.modules.lookup settings.registeredRoot = some numeric ∧
      engine.IsRootModule settings.registeredRoot numeric ∧
      (∀ f : NumericFunction, f.name ≠ settings.registeredRoot →
        engine.names.modules.lookup f.name = none) ∧
      engine.heap.slots.size ≤ Heap.slotLimit := by
  obtain ⟨_, _, h⟩ := Outcome.bind_eq_ok_iff.mp h
  obtain ⟨_, _, h⟩ := Outcome.bind_eq_ok_iff.mp h
  obtain rfl := Outcome.pure_eq_ok_iff.mp h
  generalize settings.registeredRoot = root at hOwn ⊢
  have hSize := size_bare settings entropy
  have hModules : (bare settings entropy).names.modules = [] := by
    unfold bare
    cases settings.seed <;> rfl
  have hSmall : (bare settings entropy).heap.slots.size ≤ Heap.slotLimit :=
    hSize ▸ Nat.le_of_ble_eq_true rfl
  obtain ⟨hSettled, -, hKnown⟩ := starting_bare settings entropy hSmall
  have hRoom : (bare settings entropy).HasRoom
      (1 + NumericFunction.all.length + 1 + RandomFunction.attributes.length) :=
    ⟨(hSettled.balanced hSmall).toConsistent, hSize ▸ Nat.le_of_ble_eq_true rfl⟩
  have hNone : (bare settings entropy).object (bare settings entropy).names.noneId = .ok .none := by
    rw [object, hKnown.none]
  obtain ⟨random, numeric, next, hRun, hNames, hRoot, hFits⟩ := exists_modules hRoom hNone root
  rw [hRun]
  have hQualified : root ≠ root ++ ".random" := fun hSame => by
    have hLength := congrArg String.length hSame
    simp [String.length_append] at hLength
  refine ⟨numeric, ?_, hRoot, fun f hName => ?_, hFits⟩
  · rw [hNames, Namespace.lookup_register, if_neg hQualified, Namespace.lookup_register, if_neg hOwn,
      Namespace.lookup_register, if_pos rfl]
  · have hDot : f.name ≠ root ++ ".random" := fun hSame => by
      have hDotted : '.' ∈ f.name.toList := by simp [hSame]
      exact f.dotless_name hDotted
    have hRandom : f.name ≠ "random" := by cases f <;> decide
    rw [hNames, Namespace.lookup_register, if_neg hDot, Namespace.lookup_register, if_neg hRandom,
      Namespace.lookup_register, if_neg hName, hModules]
    rfl

end Modules

end Engine

namespace Heap

variable {heap : Heap} {id other : ObjectId}

/-- References are added to two objects in any order. -/
theorem retain_comm (hFirst : heap.isLive id = true) (hSecond : heap.isLive other = true) :
    (heap.retain id).retain other = (heap.retain other).retain id := by
  by_cases hSame : id = other
  · rw [hSame]
  · obtain ⟨first, hId⟩ := isLive_iff.mp hFirst
    obtain ⟨second, hOther⟩ := isLive_iff.mp hSecond
    have hSlots : id.index.toNat ≠ other.index.toNat := fun hIndex =>
      hSame (eq_of_index_eq hFirst hSecond (UInt32.toNat_inj.mp hIndex))
    have hSecondKept (next : Option Occupant) : (heap.put id next).occupant? other = some second := by
      rw [occupant?_put hId, if_neg (Ne.symm hSame), hOther]
    have hFirstKept (next : Option Occupant) : (heap.put other next).occupant? id = some first := by
      rw [occupant?_put hOther, if_neg hSame, hId]
    rw [retain_eq_put hId, retain_eq_put (hSecondKept _), retain_eq_put hOther,
      retain_eq_put (hFirstKept _)]
    obtain ⟨slots, free, live⟩ := heap
    simp only [put, mk.injEq, and_self, and_true]
    exact Array.setIfInBounds_comm _ _ hSlots

/-- A reference is given back while another object gets one. -/
theorem release_retain_retain {occupant : Occupant} (hOccupant : heap.occupant? id = some occupant)
    (hPositive : 0 < occupant.references) (hLive : heap.isLive other = true) :
    ((heap.retain id).retain other).release id = heap.retain other := by
  rw [retain_comm (isLive_iff.mpr ⟨occupant, hOccupant⟩) hLive]
  obtain ⟨second, hOther⟩ := isLive_iff.mp hLive
  by_cases hSame : id = other
  · subst hSame
    have hKept : (heap.retain id).occupant? id = some ⟨occupant.references + 1, occupant.object⟩ := by
      rw [retain_eq_put hOccupant, occupant?_put hOccupant, if_pos rfl]
    exact release_retain hKept (Nat.succ_pos _)
  · have hKept : (heap.retain other).occupant? id = some occupant := by
      rw [retain_eq_put hOther, occupant?_put hOther, if_neg hSame, hOccupant]
    exact release_retain hKept hPositive

end Heap

namespace Session

variable {session : Session Engine} {root callable : ObjectId} {name : String} {m : Module}

/-- A path without dots is one name. -/
theorem pathNames_of_dotless (h : '.' ∉ name.toList) : pathNames name = [name] := by
  rw [pathNames, List.splitOn_eq_singleton h, List.map_singleton, String.ofList_toList]

theorem perform_importModule_of_lookup (runtime : Engine) (handles : HandleTable) (top : String)
    (h : runtime.names.modules.lookup name = some root) :
    (tryRuntime (ForeignRuntime.importModule name)).perform ⟨runtime, handles, top⟩
      = (.ok (.ok root), ⟨{ runtime with heap := runtime.heap.retain root }, handles, top⟩) := by
  have hRun : (ForeignRuntime.importModule name : RuntimeOp Engine _).perform runtime
      = (Engine.importModule name).perform runtime := rfl
  rw [Engine.importModule, perform_get, h] at hRun
  rw [perform_tryRuntime, hRun]
  rfl

theorem perform_importModule_of_lookup_none (runtime : Engine) (handles : HandleTable)
    (top : String) (h : runtime.names.modules.lookup name = none) :
    (tryRuntime (ForeignRuntime.importModule name)).perform ⟨runtime, handles, top⟩
      = (.ok (.error (.moduleNotFound name)), ⟨runtime, handles, top⟩) := by
  have hRun : (ForeignRuntime.importModule name : RuntimeOp Engine _).perform runtime
      = (Engine.importModule name).perform runtime := rfl
  rw [Engine.importModule, perform_get, h] at hRun
  rw [perform_tryRuntime, hRun]
  rfl

/-- A member of a module is a new reference, and that to the module is given up. -/
theorem perform_stepInto_member (runtime : Engine) (handles : HandleTable) (top : String)
    (hModule : runtime.object root = .ok (.module m))
    (hMember : m.attributes.lookup name = some callable) :
    (stepInto root name : BridgeOp Engine _).perform ⟨runtime, handles, top⟩
      = (.ok (.ok callable), ⟨{ runtime with
        heap := (runtime.heap.retain callable).release root }, handles, top⟩) := by
  have hRun : (ForeignRuntime.getAttribute root name : RuntimeOp Engine _).perform runtime
      = (Engine.getAttribute root name).perform runtime := rfl
  rw [Engine.getAttribute, perform_get, perform_check, hModule] at hRun
  dsimp only at hRun
  rw [hMember] at hRun
  rw [stepInto, perform_bind, perform_tryRuntime, hRun]
  rfl

/-- A name that is not one of a module leads to a member of the root module. The reference to the
module itself is given up on the way. -/
theorem perform_resolve_member (hDotless : '.' ∉ name.toList) (hOther : name ≠ session.root)
    (hFree : session.runtime.names.modules.lookup name = none)
    (hRoot : session.runtime.names.modules.lookup session.root = some root)
    (hModule : session.runtime.object root = .ok (.module m))
    (hMember : m.attributes.lookup name = some callable) :
    (resolve name).perform session = (.ok callable, ⟨{ session.runtime with
      heap := ((session.runtime.heap.retain root).retain callable).release root },
      session.handles, session.root⟩) := by
  obtain ⟨runtime, handles, top⟩ := session
  dsimp only at hOther hFree hRoot hModule ⊢
  have hHeld : Engine.object { runtime with heap := runtime.heap.retain root } root
      = .ok (.module m) := by
    unfold Engine.object at hModule ⊢
    rwa [Heap.get?_retain]
  have hFirst : (resolveFirst name : BridgeOp Engine _).perform ⟨runtime, handles, top⟩
      = (.ok (.ok callable), ⟨{ runtime with
        heap := ((runtime.heap.retain root).retain callable).release root }, handles, top⟩) := by
    rw [resolveFirst, perform_bind, perform_importModule_of_lookup_none _ _ _ hFree]
    dsimp only
    rw [perform_get]
    dsimp only
    rw [if_pos ⟨rfl, hOther⟩, perform_bind, perform_importModule_of_lookup _ _ _ hRoot]
    dsimp only
    exact perform_stepInto_member _ _ _ hHeld hMember
  rw [resolve, pathNames_of_dotless hDotless]
  dsimp only [List.headD_cons, List.tail_cons]
  rw [perform_bind, hFirst]
  rfl

/-- The name of a function leads to this function, which is a member of the module of another
name. There is a new reference to the function then, and nothing else has changed. -/
structure Finds (session : Session Engine) (root : String) (f : NumericFunction)
    (callable : ObjectId) : Prop where
  object_eq : session.runtime.object callable = .ok (.native (.numeric f))
  member : ∃ module members, session.runtime.names.modules.lookup root = some module ∧
    session.runtime.object module = .ok (.module ⟨root, members⟩) ∧
    members.lookup f.name = some callable
  perform_eq : (resolve f.name).perform session = (.ok callable,
    ⟨{ session.runtime with heap := session.runtime.heap.retain callable }, session.handles,
      session.root⟩)

/-- What a path finds is what it names. -/
theorem Finds.names {f : NumericFunction} (h : session.Finds name f callable) :
    session.Names f.name (.numeric f) := by
  refine ⟨callable, _, h.perform_eq, ?_⟩
  have hObject := h.object_eq
  unfold Engine.object at hObject ⊢
  rwa [Heap.get?_retain]

end Session

namespace Interpreter

variable {engine : Engine} {settings : EngineSettings} {entropy : Generator}
  {isDirectory : String → Bool} {session : Session Engine} {f : NumericFunction}

/-- However long an engine was in use, the functions of its root module are found by their names,
as long as the bridge looks for that module under the name that it was registered under. -/
theorem exists_finds_of_play (hStart : Engine.start isDirectory entropy settings = .ok engine)
    (hNamed : settings.rootModule ≠ "") (hOwn : settings.rootModule ≠ "random")
    (actions : List Action)
    (hSession : ((ofRuntime engine settings.rootModule).play actions).session = some session)
    (hRoom : session.runtime.heap.slots.size ≤ Heap.slotLimit)
    (hName : f.name ≠ settings.rootModule) :
    ∃ callable, session.Finds settings.rootModule f callable := by
  have hRegistered := EngineSettings.registeredRoot_of_ne hNamed
  obtain ⟨root, hLookup, ⟨members, hModule, hMembers⟩, hFree, -⟩ :=
    Engine.exists_rootModule_of_start hStart (hRegistered ▸ hOwn)
  rw [hRegistered] at hLookup hModule hFree
  obtain ⟨hNames, hRoot⟩ := known_of_play actions hSession
  have hBalanced := balanced_of_play hStart hSession hRoom
  have hKept {id : ObjectId} {object : Object} (h : engine.object id = .ok object) :
      session.runtime.object id = .ok object := by
    rw [Engine.object, Session.object_of_base hBalanced (Engine.get?_of_object h)]
  obtain ⟨callable, hMember, hNative⟩ := hMembers f
  obtain ⟨references, hOccupant⟩ := Engine.object_eq_ok_iff.mp (hKept hModule)
  have hPositive := hBalanced.positive _ _ hOccupant
  have hLive := Engine.isLive_of_object (hKept hNative)
  rw [← hRoot] at hName
  rw [← hNames] at hLookup hFree
  have hTop := hLookup
  rw [← hRoot] at hTop
  refine ⟨callable, hKept hNative, ⟨root, members, hLookup, hKept hModule, hMember⟩, ?_⟩
  rw [Session.perform_resolve_member f.dotless_name hName (hFree f (hRoot ▸ hName)) hTop
    (hKept hModule) hMember, Heap.release_retain_retain hOccupant hPositive hLive]

end Interpreter

/-- What comes of a successful start is an engine behind a bridge. -/
theorem exists_engine_of_startWith {files : FileSystem} {entropy : Generator}
    {settings : Configuration.Settings} {interpreter : Interpreter Engine}
    (h : startWith files entropy settings = .started interpreter) :
    ∃ engine home libraryPath, Engine.start files.isDirectory entropy
        ⟨home, libraryPath, settings.rootModule, settings.seed⟩ = .ok engine ∧
      interpreter = .ofRuntime engine settings.rootModule := by
  unfold startWith at h
  split at h
  · cases h
  · rename_i installation _
    split at h
    · cases h
    · rename_i engine hStart
      cases h
      exact ⟨engine, _, _, hStart, rfl⟩

namespace Interpreter

variable {files : FileSystem} {entropy : Generator} {settings : Configuration.Settings}
  {interpreter : Interpreter Engine} {f : NumericFunction}

/-- Unqualified names are those of the configured root module, from the start on and after any
use. The name must not be empty, since the module gets another name then, and it must not be that
of the random module, which takes it over. -/
theorem finds_of_startWith (hStart : startWith files entropy settings = .started interpreter)
    (hNamed : settings.rootModule ≠ "") (hOwn : settings.rootModule ≠ "random")
    (hName : f.name ≠ settings.rootModule) :
    (∃ session callable, interpreter.session = some session ∧
      session.Finds settings.rootModule f callable) ∧
    ∀ actions session, (interpreter.play actions).session = some session →
      session.runtime.heap.slots.size ≤ Heap.slotLimit →
        ∃ callable, session.Finds settings.rootModule f callable := by
  obtain ⟨engine, home, libraryPath, hEngine, rfl⟩ := exists_engine_of_startWith hStart
  have hLater (actions : List Action) (session : Session Engine)
      (hSession : ((ofRuntime engine settings.rootModule).play actions).session = some session)
      (hRoom : session.runtime.heap.slots.size ≤ Heap.slotLimit) :
      ∃ callable, session.Finds settings.rootModule f callable :=
    exists_finds_of_play hEngine hNamed hOwn actions hSession hRoom hName
  refine ⟨?_, hLater⟩
  have hRegistered : EngineSettings.registeredRoot ⟨home, libraryPath, settings.rootModule,
      settings.seed⟩ = settings.rootModule := EngineSettings.registeredRoot_of_ne hNamed
  obtain ⟨-, -, -, -, hFits⟩ :=
    Engine.exists_rootModule_of_start hEngine (hRegistered.symm ▸ hOwn)
  obtain ⟨callable, hFinds⟩ := hLater [] _ rfl hFits
  exact ⟨_, callable, rfl, hFinds⟩

/-- A system in which every path is a directory. -/
def directories : FileSystem := ⟨fun _ => true, fun _ => true, fun _ => .ok "", fun _ => true, none⟩

/-- The root module has the name of one of its functions. -/
theorem finds_of_function_root : ∃ interpreter,
    startWith directories ⟨0⟩ ⟨none, none, [], "zeros", some 7⟩ = .started interpreter ∧
      ∃ session callable, interpreter.session = some session ∧
        session.Finds "zeros" .arange callable :=
  have hStart : startWith directories ⟨0⟩ ⟨none, none, [], "zeros", some 7⟩ = .started _ := rfl
  ⟨_, hStart, (finds_of_startWith hStart (by decide) (by decide) (by decide)).1⟩

/-- Without a name for the root module, the bridge finds nothing under the empty name. With the
name of the random module, it finds only the functions of that module. -/
theorem not_finds_unnamed_root :
    (∃ session root, startWith directories ⟨0⟩ ⟨none, none, [], "", some 7⟩
        = .started ⟨some session, root⟩ ∧
      ((Session.resolve "arange").perform session).1
        = .error (.foreignCall "arange" (.moduleNotFound ""))) ∧
    ∃ session root, startWith directories ⟨0⟩ ⟨none, none, [], "random", some 7⟩
        = .started ⟨some session, root⟩ ∧
      ((Session.resolve "arange").perform session).1
        = .error (.foreignCall "arange" (.noModuleAttribute "random" "arange")) :=
  ⟨⟨_, _, rfl, rfl⟩, _, _, rfl, rfl⟩

end Interpreter

end ArrayBridge
