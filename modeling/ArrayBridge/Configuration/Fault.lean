import ArrayBridge.Text.Decimal
import ArrayBridge.Text.Place
import ArrayBridge.Text.Quoted

/-! What can be wrong with the text of a configuration. -/

namespace ArrayBridge.Configuration

/-- What a text holds where a value of another kind has to be. -/
inductive Found where
  | null
  | truth (value : Bool)
  | natural (value : Nat)
  /-- A negative integer, given by its magnitude. -/
  | negative (magnitude : Nat)
  | float (value : Float)
  | text (value : String)
  | list
  | object
  deriving DecidableEq, Inhabited

/-- The form of a value in messages. -/
def Found.description : Found → String
  | null => "null"
  | truth true => "boolean `true`"
  | truth false => "boolean `false`"
  | natural n => "integer `" ++ toString n ++ "`"
  | negative n => "integer `-" ++ toString n ++ "`"
  | float x => "floating point `" ++ Decimal.text x ++ "`"
  | text t => "string " ++ Quoted.quote t
  | list => "sequence"
  | object => "map"

/-- Why a text is not a configuration. -/
inductive Cause where
  -- The text ends too early
  | endOfValue
  | endOfText
  | endOfList
  | endOfObject
  -- Something else has to come here
  | expectedColon
  | expectedListEnd
  | expectedObjectEnd
  | expectedWord
  | expectedValue
  | nameNotQuoted
  | trailingComma
  | trailingCharacters
  -- Quoted texts and numbers
  | invalidEscape
  | loneSurrogate
  | unfinishedPair
  | controlCharacter
  | invalidNumber
  | numberOutOfRange
  -- Values and names
  | wrongKind (found : Found) (expected : String)
  | wrongValue (found : Found) (expected : String)
  | unknownField (name : String) (known : List String)
  | repeatedField (name : String)
  deriving DecidableEq, Inhabited

/-- A name as messages show it. -/
def ticked (name : String) : String := "`" ++ name ++ "`"

/-- The text of a cause. -/
def Cause.message : Cause → String
  | endOfValue => "EOF while parsing a value"
  | endOfText => "EOF while parsing a string"
  | endOfList => "EOF while parsing a list"
  | endOfObject => "EOF while parsing an object"
  | expectedColon => "expected `:`"
  | expectedListEnd => "expected `,` or `]`"
  | expectedObjectEnd => "expected `,` or `\x7d`"
  | expectedWord => "expected ident"
  | expectedValue => "expected value"
  | nameNotQuoted => "key must be a string"
  | trailingComma => "trailing comma"
  | trailingCharacters => "trailing characters"
  | invalidEscape => "invalid escape"
  | loneSurrogate => "lone leading surrogate in hex escape"
  | unfinishedPair => "unexpected end of hex escape"
  | controlCharacter => "control character (\\u0000-\\u001F) found while parsing a string"
  | invalidNumber => "invalid number"
  | numberOutOfRange => "number out of range"
  | wrongKind found expected => "invalid type: " ++ found.description ++ ", expected " ++ expected
  | wrongValue found expected => "invalid value: " ++ found.description ++ ", expected " ++ expected
  | unknownField name known =>
    "unknown field " ++ ticked name ++ ", expected one of " ++ ", ".intercalate (known.map ticked)
  | repeatedField name => "duplicate field " ++ ticked name

/-- A cause and the place in the text where it was met. -/
structure Fault where
  cause : Cause
  place : Place
  deriving DecidableEq, Inhabited

/-- The text of a fault. -/
def Fault.message (fault : Fault) : String := fault.cause.message ++ " at " ++ fault.place.text

end ArrayBridge.Configuration
