import ArrayBridge.Exception

/-! Arguments of a function call and their assignment to parameters. -/

namespace ArrayBridge

/-- The arguments of a call. A positional slot without an object keeps the place
of an argument that was not supplied. -/
structure Arguments (α : Type) where
  positional : List (Option α)
  keywords : List (String × α)
  deriving Inhabited

/-- The parameters of a function with the arguments that were assigned to
them. -/
structure Bindings (α : Type) where
  function : String
  slots : List (String × Option α)
  deriving Inhabited

namespace Bindings

variable {α : Type}

/-- Puts an argument into the first slot of the given name. -/
def fill (name : String) (value : α) : List (String × Option α) → List (String × Option α)
  | [] => []
  | (n, v) :: slots =>
    if n = name then (n, some value) :: slots else (n, v) :: fill name value slots

/-- Gives a parameter its argument. The name must be that of a parameter without
an argument. -/
def assign (b : Bindings α) (name : String) (value : α) : Except Exception (Bindings α) :=
  match b.slots.lookup name with
  | none => .error (.unexpectedKeyword b.function name)
  | some (some _) => .error (.repeatedArgument b.function name)
  | some none => .ok { b with slots := fill name value b.slots }

/-- The argument of a parameter, if it has one. -/
def get? (b : Bindings α) (name : String) : Option α := (b.slots.lookup name).join

/-- The argument of a parameter that has to have one. -/
def required (b : Bindings α) (name : String) : Except Exception α :=
  match b.get? name with
  | some value => .ok value
  | none => .error (.missingArgument b.function name)

/-- The arguments in the order of the parameters. -/
def values (b : Bindings α) : List (Option α) := b.slots.map Prod.snd

end Bindings

namespace Arguments

variable {α : Type}

/-- Assigns positional arguments in order and then keyword arguments by name. -/
def bind (args : Arguments α) (function : String) (parameters : List String) :
    Except Exception (Bindings α) :=
  if parameters.length < args.positional.length then
    .error (.tooManyPositional function parameters.length args.positional.length)
  else
    let absent := List.replicate (parameters.length - args.positional.length) none
    args.keywords.foldlM (fun b (name, value) => b.assign name value)
      ⟨function, parameters.zip (args.positional ++ absent)⟩

/-- The supplied positional arguments of a function that takes no keywords. -/
def variadic (args : Arguments α) (function : String) : Except Exception (List α) :=
  match args.keywords with
  | (name, _) :: _ => .error (.unexpectedKeyword function name)
  | [] => .ok (args.positional.filterMap id)

end Arguments

end ArrayBridge
