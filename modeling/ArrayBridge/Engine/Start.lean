import ArrayBridge.Engine.Protocol

/-! Starting an engine.

An engine starts with the objects that stand for no value and for an argument
that was not supplied, the functions of the random module and that module, and
the functions of the root module and that module, allocated in this order. -/

namespace ArrayBridge

/-- The settings of an engine. -/
structure EngineSettings where
  home : Option String
  libraryPath : Option String
  rootModule : String
  seed : Option UInt64
  deriving DecidableEq, Inhabited

namespace EngineSettings

/-- The name of the root module if none is configured. -/
def defaultRoot : String := "numeric"

/-- The name under which the root module is registered. -/
def registeredRoot (settings : EngineSettings) : String :=
  if settings.rootModule = "" then defaultRoot else settings.rootModule

end EngineSettings

namespace Engine

/-- Creates a function object for each attribute name. -/
def createNatives (functions : List (String × Native)) : StateM Engine (List (String × ObjectId)) :=
  functions.mapM fun (name, native) => do
    let id ← create (.native native)
    return (name, id)

/-- Creates the random module. -/
def createRandomModule : Effect := do
  let attributes ← createNatives
    (RandomFunction.attributes.map fun (name, f) => (name, .random f))
  create (.module ⟨"random", attributes⟩)

/-- Creates the root module, which also has the random module as an attribute. -/
def createRootModule (root : String) (random : ObjectId) : Effect := do
  let attributes ← createNatives (NumericFunction.all.map fun f => (f.name, .numeric f))
  let newAxis ← createNone
  retain random
  create (.module ⟨root, attributes ++ [("newaxis", newAxis), ("random", random)]⟩)

/-- Registers a module for import. -/
def register (name : String) (id : ObjectId) : StateM Engine Unit := fun engine =>
  ((), { engine with names := engine.names.register name id })

/-- Creates and registers the modules. The random module can also be imported by
its name within the root module. -/
def createModules (root : String) : StateM Engine Unit := do
  let random ← createRandomModule
  let numeric ← createRootModule root random
  register root numeric
  register "random" random
  retain random
  register (root ++ ".random") random

/-- An engine with the two objects that every engine has. -/
def bare (settings : EngineSettings) (entropy : Generator) : Engine :=
  let (noneId, heap) := Heap.empty.allocate .none
  let (noValueId, heap) := heap.allocate .noValue
  let (seed, entropy) := match settings.seed with
    | some seed => (seed, entropy)
    | none => entropy.word
  ⟨heap, .empty, ⟨seed⟩, entropy,
    ⟨[], noneId, noValueId, settings.home, settings.libraryPath, false⟩⟩

/-- Checks that a configured directory exists. -/
def checkDirectory (isDirectory : String → Bool) (role : String) :
    Option String → Except Exception Unit
  | some path => if isDirectory path then .ok () else .error (.directoryNotFound role path)
  | none => .ok ()

/-- Starts an engine. Configured directories have to exist. -/
def start (isDirectory : String → Bool) (entropy : Generator) (settings : EngineSettings) :
    Except Exception Engine := do
  checkDirectory isDirectory "home" settings.home
  checkDirectory isDirectory "library path" settings.libraryPath
  return ((createModules settings.registeredRoot).run (bare settings entropy)).2

end Engine

end ArrayBridge
