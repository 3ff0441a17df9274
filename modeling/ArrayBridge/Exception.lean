import ArrayBridge.ObjectId
import ArrayBridge.Shape.Basic

/-! Exceptions of an array runtime.

An exception is the cause of a failure. Its class and its text are functions of
the cause, so a caller can tell two failures apart without reading their texts. -/

namespace ArrayBridge

/-- The class of an exception. -/
inductive ExceptionKind where
  | typeError
  | valueError
  | indexError
  | keyError
  | attributeError
  | stopIteration
  | zeroDivisionError
  | moduleNotFoundError
  | overflowError
  | memoryError
  | runtimeError
  deriving DecidableEq, Inhabited

namespace ExceptionKind

def name : ExceptionKind → String
  | typeError => "TypeError"
  | valueError => "ValueError"
  | indexError => "IndexError"
  | keyError => "KeyError"
  | attributeError => "AttributeError"
  | stopIteration => "StopIteration"
  | zeroDivisionError => "ZeroDivisionError"
  | moduleNotFoundError => "ModuleNotFoundError"
  | overflowError => "OverflowError"
  | memoryError => "MemoryError"
  | runtimeError => "RuntimeError"

def all : List ExceptionKind :=
  [typeError, valueError, indexError, keyError, attributeError, stopIteration,
    zeroDivisionError, moduleNotFoundError, overflowError, memoryError, runtimeError]

/-- The class of the given name. -/
def parse (text : String) : Option ExceptionKind := all.find? fun kind => kind.name = text

end ExceptionKind

/-- A failure of the array runtime, named by its cause. -/
inductive Exception where
  /-- A failure that is known by its class and text only. -/
  | raised (kind : ExceptionKind) (message : String)
  -- Shapes and storage
  | shapeTooBig (shape : Shape)
  | cannotAllocate (count : Nat)
  /-- A product of lengths does not fit a machine word. Nobody is told of this failure: the
  work stops where it stands. -/
  | wordOverflow
  | notBroadcastable (left right : Shape)
  | cannotBroadcastInto (source target : Shape)
  | severalUnknownDimensions
  | negativeReshapeDimension
  | cannotReshape (size : Nat) (dimensions : List Int64)
  | negativeDimension
  -- Indexing
  | zeroSliceStep
  | indexOutOfBounds (index : Int64) (axis size : Nat)
  | tooManyIndices (rank given : Nat)
  | maskLength (axis size maskSize : Nat)
  | indexShapeMismatch (shapes : List Shape)
  | maskRank
  | floatIndex
  | notAnIndex (type : String)
  | sequenceIndexOutOfRange
  -- Names, attributes and arguments
  | releasedObject (id : ObjectId)
  | moduleNotFound (name : String)
  | noModuleAttribute (module name : String)
  | noAttribute (type name : String)
  | tooManyPositional (function : String) (limit given : Nat)
  | unexpectedKeyword (function name : String)
  | repeatedArgument (function name : String)
  | missingArgument (function name : String)
  -- Conversions
  | notAnInteger (type : String)
  | notANumber (type : String)
  | noTruthValue (type : String)
  | unknownDType (name : String)
  | notADType (type : String)
  | raggedNest
  | notArrayLike (type : String)
  | notAScalar (type : String)
  | nestTooDeep
  -- Protocols of objects
  | notCallable (type : String)
  | notSubscriptable (type : String)
  | notAssignable (type : String)
  | scalarIteration
  | notIterable (type : String)
  | notAnIterator (type : String)
  | iterationSourceChanged
  | notAScalarArray
  | noHostForm (type : String)
  -- Array functions
  | rangeLengthUndefined
  | rangeLengthTooLarge
  | zeroRangeStep
  | axisOutOfBounds (axis : Int64) (rank : Nat)
  | unsupportedOperands (function : String)
  -- Random functions
  | negativeSeed
  | emptyHalfOpenRange
  | emptyClosedRange
  | floatInteger
  | negativeScale
  | negativePopulation (function : String)
  | scalarPopulation (function : String)
  | populationRank
  | weightCount
  | negativeWeight
  | weightTotal
  | emptyPopulation
  | sampleTooLarge
  | negativeLength
  | notShufflable (type : String)
  -- Start-up
  | directoryNotFound (role path : String)
  deriving DecidableEq, Inhabited

namespace Exception

open ExceptionKind in
/-- The class that a failure is reported under. -/
def kind : Exception → ExceptionKind
  | raised kind _ => kind
  | shapeTooBig _ | notBroadcastable _ _ | cannotBroadcastInto _ _ | severalUnknownDimensions
  | negativeReshapeDimension | cannotReshape _ _ | negativeDimension | zeroSliceStep | raggedNest
  | rangeLengthUndefined | rangeLengthTooLarge | axisOutOfBounds _ _ | negativeSeed
  | emptyHalfOpenRange | emptyClosedRange | negativeScale | negativePopulation _
  | scalarPopulation _ | populationRank | weightCount | negativeWeight | weightTotal
  | emptyPopulation | sampleTooLarge | negativeLength => valueError
  | cannotAllocate _ => memoryError
  | wordOverflow => overflowError
  | indexOutOfBounds _ _ _ | tooManyIndices _ _ | maskLength _ _ _ | indexShapeMismatch _
  | maskRank | floatIndex | notAnIndex _ | sequenceIndexOutOfRange => indexError
  | moduleNotFound _ => moduleNotFoundError
  | noModuleAttribute _ _ | noAttribute _ _ => attributeError
  | zeroRangeStep => zeroDivisionError
  | releasedObject _ | nestTooDeep | directoryNotFound _ _ => runtimeError
  | tooManyPositional _ _ _ | unexpectedKeyword _ _ | repeatedArgument _ _ | missingArgument _ _
  | notAnInteger _ | notANumber _ | noTruthValue _ | unknownDType _ | notADType _ | notArrayLike _
  | notAScalar _ | notCallable _ | notSubscriptable _ | notAssignable _ | scalarIteration
  | notIterable _ | notAnIterator _ | iterationSourceChanged | notAScalarArray | noHostForm _
  | unsupportedOperands _ | floatInteger | notShufflable _ => typeError

/-- The text of a failure, without its class. -/
def message : Exception → String
  | raised _ message => message
  | shapeTooBig shape =>
    "array is too big; shape " ++ shape.text ++ " exceeds the maximum possible size"
  | cannotAllocate count => s!"unable to allocate an array with {count} elements"
  | wordOverflow => "attempt to multiply with overflow"
  | notBroadcastable left right =>
    "operands could not be broadcast together with shapes " ++ left.text ++ " " ++ right.text
  | cannotBroadcastInto source target =>
    "could not broadcast input array from shape " ++ source.text ++ " into shape " ++ target.text
  | severalUnknownDimensions => "can only specify one unknown dimension"
  | negativeReshapeDimension => "negative dimensions not allowed"
  | cannotReshape size dimensions =>
    s!"cannot reshape array of size {size} into shape ("
      ++ ", ".intercalate (dimensions.map fun d => toString d.toInt) ++ ")"
  | negativeDimension => "negative dimensions are not allowed"
  | zeroSliceStep => "slice step cannot be zero"
  | indexOutOfBounds index axis size =>
    s!"index {index.toInt} is out of bounds for axis {axis} with size {size}"
  | tooManyIndices rank given =>
    s!"too many indices for array: array is {rank}-dimensional, but {given} were indexed"
  | maskLength axis size maskSize =>
    s!"boolean index did not match indexed array along axis {axis}; size of axis is {size}"
      ++ s!" but size of corresponding boolean axis is {maskSize}"
  | indexShapeMismatch shapes =>
    "shape mismatch: indexing arrays could not be broadcast together with shapes "
      ++ " ".intercalate (shapes.map Shape.text)
  | maskRank => "boolean index arrays must be one-dimensional"
  | floatIndex => "arrays used as indices must be of integer (or boolean) type"
  | notAnIndex type =>
    s!"only integers, slices, and integer or boolean arrays are valid indices (got '{type}')"
  | sequenceIndexOutOfRange => "index out of range"
  | releasedObject id => "reference to a released object " ++ id.text
  | moduleNotFound name => s!"No module named '{name}'"
  | noModuleAttribute module name => s!"module '{module}' has no attribute '{name}'"
  | noAttribute type name => s!"'{type}' object has no attribute '{name}'"
  | tooManyPositional function limit given =>
    s!"{function}() takes at most {limit} positional arguments ({given} given)"
  | unexpectedKeyword function name =>
    s!"{function}() got an unexpected keyword argument '{name}'"
  | repeatedArgument function name =>
    s!"{function}() got multiple values for argument '{name}'"
  | missingArgument function name => s!"{function}() missing required argument '{name}'"
  | notAnInteger type => s!"'{type}' object cannot be interpreted as an integer"
  | notANumber type => s!"must be real number, not {type}"
  | noTruthValue type => s!"'{type}' has no truth value"
  | unknownDType name => s!"data type '{name}' not understood"
  | notADType type => s!"Cannot interpret '{type}' as a data type"
  | raggedNest => "setting an array element with a sequence"
  | notArrayLike type => s!"'{type}' object cannot be converted to an array"
  | notAScalar type => s!"expected a scalar, got '{type}'"
  | nestTooDeep => "maximum nesting depth exceeded"
  | notCallable type => s!"'{type}' object is not callable"
  | notSubscriptable type => s!"'{type}' object is not subscriptable"
  | notAssignable type => s!"'{type}' object does not support item assignment"
  | scalarIteration => "iteration over a 0-d array"
  | notIterable type => s!"'{type}' object is not iterable"
  | notAnIterator type => s!"'{type}' object is not an iterator"
  | iterationSourceChanged => "iterator source changed type"
  | notAScalarArray => "only 0-dimensional arrays can be converted to scalars"
  | noHostForm type => s!"'{type}' object has no host representation"
  | rangeLengthUndefined => "arange: cannot compute length"
  | rangeLengthTooLarge => "Maximum allowed size exceeded"
  | zeroRangeStep => "division by zero"
  | axisOutOfBounds axis rank =>
    s!"axis {axis.toInt} is out of bounds for array of dimension {rank}"
  | unsupportedOperands function => s!"ufunc '{function}' not supported for the input types"
  | negativeSeed => "Seed must be between 0 and 2**32 - 1"
  | emptyHalfOpenRange => "low >= high"
  | emptyClosedRange => "low > high"
  | floatInteger => "Unsupported dtype float64 for randint"
  | negativeScale => "scale < 0"
  | negativePopulation function => s!"{function}: a must be non-negative"
  | scalarPopulation function => s!"{function}: a must be 1-dimensional or an integer"
  | populationRank => "a must be 1-dimensional"
  | weightCount => "a and p must have same size"
  | negativeWeight => "probabilities are not non-negative"
  | weightTotal => "probabilities do not sum to 1"
  | emptyPopulation => "a cannot be empty unless no samples are taken"
  | sampleTooLarge => "Cannot take a larger sample than population when 'replace=False'"
  | negativeLength => "negative argument not allowed"
  | notShufflable type => s!"shuffle() expects a mutable sequence, got '{type}'"
  | directoryNotFound role path => s!"could not find runtime {role} at {path}"

/-- The text of a failure after its class. -/
def text (e : Exception) : String := e.kind.name ++ ": " ++ e.message

end Exception

end ArrayBridge
