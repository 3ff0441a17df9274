/-! The built-in functions of the array runtime, by name. What they compute is
defined where the engine is. -/

namespace ArrayBridge

/-- The functions of the root module. -/
inductive NumericFunction where
  | array
  | asarray
  | arange
  | zeros
  | ones
  | full
  | reshape
  | copy
  | sum
  | add
  | subtract
  | multiply
  | lcm
  | gcd
  deriving DecidableEq, Inhabited

namespace NumericFunction

def name : NumericFunction → String
  | array => "array"
  | asarray => "asarray"
  | arange => "arange"
  | zeros => "zeros"
  | ones => "ones"
  | full => "full"
  | reshape => "reshape"
  | copy => "copy"
  | sum => "sum"
  | add => "add"
  | subtract => "subtract"
  | multiply => "multiply"
  | lcm => "lcm"
  | gcd => "gcd"

/-- The names of the parameters in order. -/
def parameters : NumericFunction → List String
  | array => ["object", "dtype"]
  | asarray => ["a", "dtype"]
  | arange => ["start", "stop", "step", "dtype"]
  | zeros | ones => ["shape", "dtype"]
  | full => ["shape", "fill_value", "dtype"]
  | reshape => ["a", "newshape"]
  | copy => ["a"]
  | sum => ["a", "axis"]
  | add | subtract | multiply | lcm | gcd => ["x1", "x2"]

/-- The functions in the order in which the root module registers them. -/
def all : List NumericFunction :=
  [array, asarray, arange, zeros, ones, full, reshape, copy, sum, add, subtract, multiply,
    lcm, gcd]

end NumericFunction

/-- The functions of the random module. -/
inductive RandomFunction where
  | seed
  | rand
  | randn
  | randint
  | randomIntegers
  | choice
  | bytes
  | shuffle
  | permutation
  | uniform
  | normal
  | randomSample
  deriving DecidableEq, Inhabited

namespace RandomFunction

def name : RandomFunction → String
  | seed => "seed"
  | rand => "rand"
  | randn => "randn"
  | randint => "randint"
  | randomIntegers => "random_integers"
  | choice => "choice"
  | bytes => "bytes"
  | shuffle => "shuffle"
  | permutation => "permutation"
  | uniform => "uniform"
  | normal => "normal"
  | randomSample => "random_sample"

/-- The names of the parameters in order. A function without such a list takes
any number of dimensions, by position only. -/
def parameters? : RandomFunction → Option (List String)
  | seed => some ["seed"]
  | rand | randn => none
  | randint => some ["low", "high", "size", "dtype"]
  | randomIntegers => some ["low", "high", "size"]
  | choice => some ["a", "size", "replace", "p"]
  | bytes => some ["length"]
  | shuffle | permutation => some ["x"]
  | uniform => some ["low", "high", "size"]
  | normal => some ["loc", "scale", "size"]
  | randomSample => some ["size"]

/-- The attributes of the random module in the order of their registration. Four
names stand for the same sampler. -/
def attributes : List (String × RandomFunction) :=
  [("seed", seed), ("rand", rand), ("randn", randn), ("randint", randint),
    ("random_integers", randomIntegers), ("choice", choice), ("bytes", bytes),
    ("shuffle", shuffle), ("permutation", permutation), ("uniform", uniform),
    ("normal", normal), ("random_sample", randomSample), ("random", randomSample),
    ("ranf", randomSample), ("sample", randomSample)]

end RandomFunction

/-- A built-in function. -/
inductive Native where
  | numeric (function : NumericFunction)
  | random (function : RandomFunction)
  deriving DecidableEq, Inhabited

namespace Native

def name : Native → String
  | numeric f => f.name
  | random f => f.name

def parameters? : Native → Option (List String)
  | numeric f => some f.parameters
  | random f => f.parameters?

end Native

end ArrayBridge
