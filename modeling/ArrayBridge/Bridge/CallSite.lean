import ArrayBridge.Bridge.Call

/-! Call sites: foreign functions with the names of their parameters, and typed
calls of them.

A sampler without a size returns one host value, one with a size an array. -/

namespace ArrayBridge

/-- A foreign function that the host knows. -/
structure CallSite where
  path : String
  parameters : List String
  deriving DecidableEq, Inhabited

namespace CallSite

/-- Whether a function takes any number of arguments. The name of its first
parameter then starts with a star. -/
def isVariadic (site : CallSite) : Bool :=
  match site.parameters with
  | name :: _ => name.toList.head? = some '*'
  | [] => false

/-- A call of a function with arguments by position. -/
def spec (site : CallSite) (args : List Argument) : CallSpec := .positional site.path args

def seed : CallSite := ⟨"random.seed", ["seed"]⟩

def rand : CallSite := ⟨"random.rand", ["*dims"]⟩

def randn : CallSite := ⟨"random.randn", ["*dims"]⟩

def randint : CallSite := ⟨"random.randint", ["low", "high", "size", "dtype"]⟩

def randomIntegers : CallSite := ⟨"random.random_integers", ["low", "high", "size"]⟩

def randomSample : CallSite := ⟨"random.random_sample", ["size"]⟩

def random : CallSite := ⟨"random.random", ["size"]⟩

def ranf : CallSite := ⟨"random.ranf", ["size"]⟩

def sample : CallSite := ⟨"random.sample", ["size"]⟩

def choice : CallSite := ⟨"random.choice", ["a", "size", "replace", "p"]⟩

def bytes : CallSite := ⟨"random.bytes", ["length"]⟩

def shuffle : CallSite := ⟨"random.shuffle", ["x"]⟩

def permutation : CallSite := ⟨"random.permutation", ["x"]⟩

def uniform : CallSite := ⟨"random.uniform", ["low", "high", "size"]⟩

def normal : CallSite := ⟨"random.normal", ["loc", "scale", "size"]⟩

def lcm : CallSite := ⟨"lcm", ["x1", "x2"]⟩

def gcd : CallSite := ⟨"gcd", ["x1", "x2"]⟩

def all : List CallSite :=
  [seed, rand, randn, randint, randomIntegers, randomSample, random, ranf, sample, choice, bytes,
    shuffle, permutation, uniform, normal, lcm, gcd]

end CallSite

namespace Argument

def int (i : Int64) : Argument := provided (.int i)

def ints (values : List Int64) : Argument := provided (.ints values)

def float (x : Float) : Argument := provided (.float x)

end Argument

namespace Session

variable {σ : Type} [ForeignRuntime σ]

def seed (seed : UInt32) : BridgeOp σ HostValue :=
  call (CallSite.seed.spec [.int seed.toUInt64.toInt64]) .unit

def rand : BridgeOp σ HostValue := call (CallSite.rand.spec []) .float

def randArray (shape : List Int64) : BridgeOp σ ArrayObject :=
  callAs (CallSite.rand.spec (shape.map .int)) .float64

def randn : BridgeOp σ HostValue := call (CallSite.randn.spec []) .float

def randnArray (shape : List Int64) : BridgeOp σ ArrayObject :=
  callAs (CallSite.randn.spec (shape.map .int)) .float64

def randint (low : Int64) (high : Option Int64) : BridgeOp σ HostValue :=
  call (CallSite.randint.spec [.int low, .ofOption (high.map .int)]) .int64

def randintArray (low : Int64) (high : Option Int64) (size : List Int64) :
    BridgeOp σ ArrayObject :=
  callAs (CallSite.randint.spec [.int low, .ofOption (high.map .int), .ints size]) .int64

def randomIntegers (low : Int64) (high : Option Int64) : BridgeOp σ HostValue :=
  call (CallSite.randomIntegers.spec [.int low, .ofOption (high.map .int)]) .int64

def randomIntegersArray (low : Int64) (high : Option Int64) (size : List Int64) :
    BridgeOp σ ArrayObject :=
  callAs (CallSite.randomIntegers.spec [.int low, .ofOption (high.map .int), .ints size]) .int64

def randomSample : BridgeOp σ HostValue := call (CallSite.randomSample.spec []) .float

def randomSampleArray (size : List Int64) : BridgeOp σ ArrayObject :=
  callAs (CallSite.randomSample.spec [.ints size]) .float64

def choice (n : Int64) : BridgeOp σ HostValue := call (CallSite.choice.spec [.int n]) .int64

def choiceArray (population : HostValue) (size : List Int64) (replace : Bool)
    (weights : Option (List Float)) : BridgeOp σ ArrayObject :=
  callArray (CallSite.choice.spec
    [.provided population, .ints size, .provided (.bool replace), .ofOption (weights.map .floats)])

def randomBytes (length : Int64) : BridgeOp σ HostValue :=
  call (CallSite.bytes.spec [.int length]) .bytes

def shuffle (a : Handle) : BridgeOp σ HostValue :=
  call (CallSite.shuffle.spec [.provided (.handle a)]) .unit

def permutation (n : Int64) : BridgeOp σ ArrayObject :=
  callAs (CallSite.permutation.spec [.int n]) .int64

def permutationOf (a : Handle) : BridgeOp σ ArrayObject :=
  callArray (CallSite.permutation.spec [.provided (.handle a)])

def uniform (low high : Float) (size : List Int64) : BridgeOp σ ArrayObject :=
  callAs (CallSite.uniform.spec [.float low, .float high, .ints size]) .float64

def normal (location scale : Float) (size : List Int64) : BridgeOp σ ArrayObject :=
  callAs (CallSite.normal.spec [.float location, .float scale, .ints size]) .float64

def lcm (x y : Int64) : BridgeOp σ HostValue := call (CallSite.lcm.spec [.int x, .int y]) .int64

def gcd (x y : Int64) : BridgeOp σ HostValue := call (CallSite.gcd.spec [.int x, .int y]) .int64

def lcmArray (x y : HostValue) : BridgeOp σ ArrayObject :=
  callAs (CallSite.lcm.spec [.provided x, .provided y]) .int64

def gcdArray (x y : HostValue) : BridgeOp σ ArrayObject :=
  callAs (CallSite.gcd.spec [.provided x, .provided y]) .int64

end Session

end ArrayBridge
