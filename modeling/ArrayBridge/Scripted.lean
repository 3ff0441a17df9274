import ArrayBridge.Engine.Start

/-! A scripted runtime: an engine that reports how it is called and fails on
request.

It has one more module, `echo`, whose functions show what they were called with.
Some of them plan that a later operation of the runtime fails. Everything else is
left to the engine. -/

namespace ArrayBridge

/-- The operations of a runtime that can be made to fail. -/
inductive Method where
  | importModule
  | getAttribute
  | call
  | getItem
  | setItem
  | iterate
  | next
  | asArray
  | build
  | extract
  | arrayInfo
  deriving DecidableEq, Inhabited

namespace Method

def name : Method → String
  | importModule => "import"
  | getAttribute => "getattr"
  | call => "call"
  | getItem => "getitem"
  | setItem => "setitem"
  | iterate => "iter"
  | next => "next"
  | asArray => "as_array"
  | build => "build"
  | extract => "extract"
  | arrayInfo => "array_info"

def all : List Method :=
  [importModule, getAttribute, call, getItem, setItem, iterate, next, asArray, build, extract,
    arrayInfo]

def parse (text : String) : Option Method := all.find? fun method => method.name = text

end Method

/-- A planned failure: the operation fails after a number of calls of it. -/
structure FailurePlan where
  method : Method
  callsBefore : Nat
  exception : Exception
  deriving DecidableEq, Inhabited

structure Scripted where
  engine : Engine
  /-- The planned failures, the oldest first. -/
  plans : List FailurePlan
  /-- What the next release of a buffer reports instead of happening. -/
  status : Option Int
  deriving Inhabited

namespace Scripted

/-- A scripted runtime without any plans. -/
def ofEngine (engine : Engine) : Scripted := ⟨engine, [], none⟩

/-- Counts one call of a method against the oldest plan for it. If the plan is
due, it is used up and its failure is returned. -/
def countCall (method : Method) : List FailurePlan → Option Exception × List FailurePlan
  | [] => (none, [])
  | plan :: plans =>
    if plan.method = method then
      match plan.callsBefore with
      | 0 => (some plan.exception, plans)
      | n + 1 => (none, { plan with callsBefore := n } :: plans)
    else
      let (due, plans) := countCall method plans
      (due, plan :: plans)

/-- Runs an operation of the engine. -/
def forward {α : Type} (op : RuntimeOp Engine α) : RuntimeOp Scripted α := fun scripted =>
  match scripted with
  | ⟨engine, plans, status⟩ =>
    let (outcome, engine) := op.perform engine
    (outcome, ⟨engine, plans, status⟩)

/-- Runs an operation, unless a failure of it is due. -/
def counted {α : Type} (method : Method) (op : RuntimeOp Scripted α) : RuntimeOp Scripted α :=
  fun scripted =>
    match scripted with
    | ⟨engine, plans, status⟩ =>
      match countCall method plans with
      | (some e, plans) => (.error e, ⟨engine, plans, status⟩)
      | (none, plans) => op.perform ⟨engine, plans, status⟩

/-- Runs an action of the engine. -/
def onEngine {α : Type} (action : StateM Engine α) : RuntimeOp Scripted α :=
  forward (.always action)

/-- The text that all names of the module start with. -/
def marker : String := "echo:"

/-- The name that a marked text stands for. -/
def functionName? (text : String) : Option String :=
  if marker.toList.isPrefixOf text.toList then
    some (String.ofList (text.toList.drop marker.length))
  else none

/-- The text of an object. -/
def text? (engine : Engine) (id : ObjectId) : Option String :=
  match engine.primitive id with
  | .ok (.str text) => some text
  | _ => none

/-- The integer of an object. -/
def int? (engine : Engine) (id : ObjectId) : Option Int64 :=
  match engine.primitive id with
  | .ok (.int i) => some i
  | _ => none

/-- An exception of the named class; an unknown name stands for a runtime error. -/
def exceptionOf (engine : Engine) (kind message : Option ObjectId) : Exception :=
  let kind := (kind.bind (text? engine)).bind ExceptionKind.parse
  .raised (kind.getD .runtimeError) ((message.bind (text? engine)).getD "")

/-- New references to objects, in a new tuple. -/
def tupleOf (ids : List ObjectId) : Effect := do
  let ids ← ids.mapM Engine.share
  Engine.create (.tuple ids)

/-- Names and values of keyword arguments, in a new tuple. -/
def keywordTuple (keywords : List (String × ObjectId)) : Effect := do
  let pairs ← keywords.mapM fun (name, id) => do
    let name ← Engine.create (.str name)
    let id ← Engine.share id
    return [name, id]
  Engine.create (.tuple pairs.flatten)

/-- A new reference to the object that stands for no value, after a change of the
script. -/
def afterwards (change : Scripted → Scripted) : RuntimeOp Scripted ObjectId := do
  Operation.update change
  onEngine Engine.createNone

/-- The failure that the arguments of a plan describe. -/
def planOf (engine : Engine) (args : List ObjectId) : Option FailurePlan := do
  let method ← (← text? engine (← args[0]?)) |> Method.parse
  let callsBefore := ((args[1]?.bind (int? engine)).getD 0).toNatClampNeg
  return ⟨method, callsBefore, exceptionOf engine args[2]? args[3]?⟩

/-- Calls a function of the module. -/
def echo (name : String) (args : List ObjectId) (keywords : List (String × ObjectId)) :
    RuntimeOp Scripted ObjectId := do
  let engine := (← get).engine
  match name with
  | "id" =>
    match args with
    | id :: _ => onEngine (Engine.share id)
    | [] => throw (.raised .typeError "id() needs an argument")
  | "args" => onEngine (tupleOf args)
  | "kwargs" => onEngine (keywordTuple keywords)
  | "types" => onEngine (Engine.create (.str (",".intercalate (args.map engine.typeName))))
  | "slice" =>
    let bound (i : Nat) := args[i]?.bind (int? engine)
    onEngine (Engine.create (.slice ⟨bound 0, bound 1, bound 2⟩))
  | "novalue" => onEngine (Engine.share engine.names.noValueId)
  | "module" => forward (Engine.importModule "random")
  | "raise" => throw (exceptionOf engine args[0]? args[1]?)
  | "status" =>
    let code := ((args[0]?.bind (int? engine)).getD 0).toInt32.toInt
    afterwards fun scripted => { scripted with status := some code }
  | "fail" =>
    let plan := planOf engine args
    afterwards fun scripted => { scripted with plans := scripted.plans ++ plan.toList }
  | name => throw (.raised .typeError ("echo has no function '" ++ name ++ "'"))

def importModule (name : String) : RuntimeOp Scripted ObjectId :=
  if name = "echo" then onEngine (Engine.create (.str marker))
  else forward (Engine.importModule name)

/-- The functions of the module are attributes of its marker. -/
def getAttribute (id : ObjectId) (name : String) : RuntimeOp Scripted ObjectId := do
  let engine := (← get).engine
  if text? engine id = some marker then onEngine (Engine.create (.str (marker ++ name)))
  else forward (Engine.getAttribute id name)

/-- A marked text is called as the function that it names. -/
def call (id : ObjectId) (args : List ObjectId) (keywords : List (String × ObjectId)) :
    RuntimeOp Scripted ObjectId := do
  let engine := (← get).engine
  match (text? engine id).bind functionName? with
  | some name => echo name args keywords
  | none => forward (Engine.call id args keywords)

/-- The description of an array object. If a failure is due, there is none. -/
def arrayInfo (id : ObjectId) : StateM Scripted (Option ArrayInfo) := fun scripted =>
  match scripted with
  | ⟨engine, plans, status⟩ =>
    match countCall .arrayInfo plans with
    | (some _, plans) => (none, ⟨engine, plans, status⟩)
    | (none, plans) => (engine.arrayInfo? id, ⟨engine, plans, status⟩)

/-- Releases a buffer, unless a status is planned, which is then reported. -/
def releaseBuffer (id : ObjectId) (address : Nat) : StateM Scripted Int := fun scripted =>
  match scripted with
  | ⟨engine, plans, some code⟩ => (code, ⟨engine, plans, none⟩)
  | ⟨engine, plans, none⟩ =>
    let (code, engine) := Engine.releaseBuffer id address engine
    (code, ⟨engine, plans, none⟩)

instance : ForeignRuntime Scripted where
  name := Engine.runtimeName
  finalize scripted := { scripted with engine := scripted.engine.finalize }
  importModule name := counted .importModule (importModule name)
  getAttribute id name := counted .getAttribute (getAttribute id name)
  call id args keywords := counted .call (call id args keywords)
  getItem id key := counted .getItem (forward (Engine.getItem id key))
  setItem id key value := counted .setItem (forward (Engine.setItem id key value))
  iterate id := counted .iterate (forward (Engine.iterate id))
  next id := counted .next (forward (Engine.next id))
  asArray id := counted .asArray (forward (Engine.asArray id))
  build value := counted .build (forward (Engine.build value))
  extract id := counted .extract (forward (Engine.extract id))
  typeName scripted id := scripted.engine.typeName id
  arrayInfo := arrayInfo
  retain id scripted := { scripted with engine := (Engine.retain id scripted.engine).2 }
  release id scripted := { scripted with engine := (Engine.release id scripted.engine).2 }
  releaseBuffer := releaseBuffer

end Scripted

end ArrayBridge
