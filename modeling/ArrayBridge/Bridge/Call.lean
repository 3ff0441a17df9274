import ArrayBridge.Bridge.Result

/-! Foreign calls.

The callable is resolved, the arguments are built, the call is made, and all
temporary objects are released, whether or not the call succeeded. -/

namespace ArrayBridge

namespace CallSpec

/-- The positional arguments up to the last one that is provided. Omitted ones
after it are dropped, omitted ones before it keep their place. -/
def supplied (spec : CallSpec) : List Argument :=
  (spec.args.reverse.dropWhile fun arg => !arg.isProvided).reverse

/-- The keyword arguments that are provided. -/
def suppliedKeywords (spec : CallSpec) : List (String × HostValue) :=
  spec.keywords.filterMap fun
    | (name, .provided value) => some (name, value)
    | (_, .omitted) => none

end CallSpec

namespace Session

variable {σ : Type} [ForeignRuntime σ]

/-- Calls a callable with the given objects, of which the first is the callable
itself and the next are the positional arguments. -/
def callWith (spec : CallSpec) (temporaries : Array ObjectId) : BridgeOp σ ObjectId :=
  let positional := (temporaries.toList.drop 1).take spec.supplied.length
  let keywords := (spec.suppliedKeywords.map Prod.fst).zip
    (temporaries.toList.drop (1 + spec.supplied.length))
  runtimeOp spec.path (ForeignRuntime.call (temporaries.getD 0 default) positional keywords)

/-- Performs a call and returns a new reference to its result. -/
def callObject (spec : CallSpec) : BridgeOp σ ObjectId := do
  let callable ← resolve spec.path
  let temporaries ← collect (toForeignArgument spec.path) spec.supplied #[callable]
  let temporaries ← collect (fun (_, value) => toForeign value) spec.suppliedKeywords temporaries
  let result ← outcome (callWith spec temporaries)
  releaseAll temporaries.toList
  ofOutcome result

/-- Calls and brings the result into the form of the call's tag. Without a tag
the result becomes an item. -/
def invoke (spec : CallSpec) : BridgeOp σ Item := do
  let result ← callObject spec
  match spec.result with
  | none => toItem result spec.path
  | some tag => return .scalar (← consume result tag)

/-- Calls and reads the result as a host type. -/
def call (spec : CallSpec) (type : HostType) : BridgeOp σ HostValue := do
  let value ← consume (← callObject spec) type.tag
  ofOutcome (type.accept value)

/-- Calls and registers the result as an array. -/
def callArray (spec : CallSpec) : BridgeOp σ ArrayObject := do
  adoptArray (← callObject spec) spec.path

/-- Drops an array that is not needed any more. An array that cannot be freed is
left to the runtime. -/
def discard (a : ArrayObject) : BridgeOp σ Unit := do
  let _ ← freeBuffer a.handle a.buffer.address

/-- Checks the element type of an array; an array of another type is dropped. -/
def typed (a : ArrayObject) (dtype : DType) : BridgeOp σ ArrayObject := do
  match a.checkDType dtype with
  | .ok () => return a
  | .error e =>
    discard a
    throw e

/-- Calls and registers the result as an array of the given element type. -/
def callAs (spec : CallSpec) (dtype : DType) : BridgeOp σ ArrayObject := do
  typed (← callArray spec) dtype

end Session

end ArrayBridge
