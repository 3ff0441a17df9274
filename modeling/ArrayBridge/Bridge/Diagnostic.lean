import ArrayBridge.Bridge.Interpreter
import ArrayBridge.Text.Quoted

/-! Diagnostic texts of arrays and interpreters. -/

namespace ArrayBridge

namespace Diagnostic

/-- A record with its fields in order. -/
def record (name : String) (fields : List (String × String)) : String :=
  name ++ " \x7b " ++ ", ".intercalate (fields.map fun (field, value) => field ++ ": " ++ value)
    ++ " \x7d"

end Diagnostic

/-- The diagnostic form of an element type. -/
def DType.debugText : DType → String
  | .bool => "Bool"
  | .int64 => "Int64"
  | .float64 => "Float64"

/-- The diagnostic form of an array. -/
def ArrayObject.debugText (a : ArrayObject) : String :=
  Diagnostic.record "ArrayObject"
    [("handle", a.handle.debugText), ("dtype", a.dtype.debugText),
      ("shape", "[" ++ ", ".intercalate (a.shape.map toString) ++ "]")]

/-- The diagnostic form of an interpreter. -/
def Interpreter.debugText {σ : Type} [ForeignRuntime σ] (i : Interpreter σ) : String :=
  Diagnostic.record "Interpreter"
    [("runtime", Quoted.quote i.runtimeName), ("root", Quoted.quote i.root),
      ("released", if i.isReleased then "true" else "false")]

end ArrayBridge
