import ArrayBridge.Choice
import ArrayBridge.Engine.Numeric

/-! The functions of the random module.

A sampler returns a number if no size is given and an array of that shape
otherwise. All draws come from the generator of the engine. -/

namespace ArrayBridge

namespace Generator

/-- Draws from the standard normal distribution: the square root of an
exponential draw along a random direction. -/
def standardNormal (g : Generator) : Float × Generator :=
  let (u, g) := g.unit
  let (v, g) := g.unit
  -- One minus the first draw keeps the logarithm finite; the constant is a full turn.
  let radius := (-2.0 * (1.0 - u).log).sqrt
  (radius * (Float.ofBits 0x401921fb54442d18 * v).cos, g)

/-- Draws the slots of a number of picks from `size` items without replacement. -/
def slots (size : Nat) : (count : Nat) → Generator → List Nat × Generator
  | 0, g => ([], g)
  | count + 1, g =>
    let (slot, g) := g.position size
    let (rest, g) := slots (size - 1) count g
    (slot :: rest, g)

end Generator

namespace Engine

open Operation

/-- A draw of one number. -/
abbrev Sampler := Generator → Scalar × Generator

/-- Draws one number, or an array of a checked shape. -/
def sample (dtype : DType) (sampler : Sampler) : Option Shape → NativeOp
  | none => always do
    let value ← draw sampler
    create (.ofScalar value)
  | some shape => do
    let count ← shape.checkedSize
    reserve count
    shape.checkStrides
    always do
      let values ← draw (Generator.replicate sampler count)
      createArray (.fresh (.ofValues dtype values shape))

/-- The size argument of a sampler, if it is given. -/
def size? (engine : Engine) (b : CallBindings) : Except Exception (Option Shape) :=
  optional engine.shape (engine.given (b.get? "size"))

/-- The shape of a list of dimension arguments; no arguments mean one number. -/
def dimensionShape? (engine : Engine) (ids : List ObjectId) : Except Exception (Option Shape) := do
  if ids.isEmpty then return none
  let lengths ← ids.mapM fun id => do
    let length ← engine.integer id
    if length < 0 then throw .negativeDimension
    return length
  return some (← checkShape lengths)

/-- A float argument with a default. -/
def floatOr (engine : Engine) (slot : Option ObjectId) (fallback : Float) :
    Except Exception Float :=
  match engine.given slot with
  | some id => engine.float id
  | none => .ok fallback

def unitSampler : Sampler := fun g =>
  let (x, g) := g.unit
  (.float x, g)

def normalSampler (location scale : Float) : Sampler := fun g =>
  let (x, g) := g.standardNormal
  (.float (location + scale * x), g)

def standardNormalSampler : Sampler := fun g =>
  let (x, g) := g.standardNormal
  (.float x, g)

def uniformSampler (low high : Float) : Sampler := fun g =>
  let (x, g) := g.unit
  (.float (low + (high - low) * x), g)

/-- Draws an integer between two bounds, both included, as an element of the
given type. -/
def integerSampler (low high : Int64) (dtype : DType) : Sampler := fun g =>
  let (i, g) := g.integer low high
  ((Scalar.int i).cast dtype, g)

/-- Seeds the generator; without a seed the environment provides one. -/
def seedOf (engine : Engine) (b : CallBindings) : NativeOp := do
  match engine.given (b.get? "seed") with
  | some id =>
    let seed ← engine.integer id
    if seed < 0 then throw .negativeSeed
    always do
      draw fun _ => ((), ⟨seed.toUInt64⟩)
      createNone
  | none =>
    always do
      let seed ← drawSeed
      draw fun _ => ((), ⟨seed⟩)
      createNone

/-- The bounds of an integer sampler. A single bound is the upper one. -/
def integerBounds (engine : Engine) (b : CallBindings) (implicitLow : Int64) :
    Except Exception (Int64 × Int64) := do
  let low ← engine.integer (← b.required "low")
  match engine.given (b.get? "high") with
  | some high => return (low, ← engine.integer high)
  | none => return (implicitLow, low)

/-- Integers from the lower bound up to, but not including, the upper one. -/
def randintOf (engine : Engine) (b : CallBindings) : NativeOp := do
  let (low, high) ← engine.integerBounds b 0
  if high ≤ low then throw .emptyHalfOpenRange
  let dtype := (← engine.dtype? (b.get? "dtype")).getD .int64
  if dtype = .float64 then throw .floatInteger
  sample dtype (integerSampler low (high - 1) dtype) (← engine.size? b)

/-- Integers from the lower bound up to and including the upper one. -/
def randomIntegersOf (engine : Engine) (b : CallBindings) : NativeOp := do
  let (low, high) ← engine.integerBounds b 1
  if high < low then throw .emptyClosedRange
  sample .int64 (integerSampler low high .int64) (← engine.size? b)

def randomSampleOf (engine : Engine) (b : CallBindings) : NativeOp := do
  sample .float64 unitSampler (← engine.size? b)

def uniformOf (engine : Engine) (b : CallBindings) : NativeOp := do
  let low ← engine.floatOr (b.get? "low") 0
  let high ← engine.floatOr (b.get? "high") 1
  sample .float64 (uniformSampler low high) (← engine.size? b)

def normalOf (engine : Engine) (b : CallBindings) : NativeOp := do
  let location ← engine.floatOr (b.get? "loc") 0
  let scale ← engine.floatOr (b.get? "scale") 1
  if scale < 0 then throw .negativeScale
  sample .float64 (normalSampler location scale) (← engine.size? b)

/-- The array that elements or rows are drawn from. An integer stands for the
numbers below it. -/
def population (engine : Engine) (id : ObjectId) (function : String) :
    Except Exception Contents := do
  match ← engine.object id with
  | .int n =>
    if n < 0 then throw (.negativePopulation function)
    let values := (Array.range n.toNatClampNeg).map fun i => Scalar.int i.toInt64
    return ⟨.int64, [n.toNatClampNeg], values⟩
  | _ =>
    let contents ← engine.arrayContents id
    if contents.rank = 0 then throw (.scalarPopulation function)
    return contents

/-- The running totals of checked weights. Weights must not be negative and have
to add up to one; a weight that is not a number passes both checks. -/
def cumulativeWeights (values : Array Scalar) (count : Nat) : Except Exception (List Float) := do
  let weights := values.toList.map Scalar.toFloat
  if weights.length ≠ count then throw .weightCount
  if weights.any (· < 0) then throw .negativeWeight
  let totals := Choice.runningTotals 0 weights
  if 1e-8 < (totals.getLast?.getD 0 - 1).abs then throw .weightTotal
  return totals

/-- The running totals of a weights argument. -/
def weightTotals (engine : Engine) (count : Nat) (id : ObjectId) :
    Except Exception (List Float) := do
  cumulativeWeights (← engine.arrayContents id).values count

/-- Draws the positions of `count` picks from a population of the given size. -/
def drawPicks (size count : Nat) (replace : Bool) (totals? : Option (List Float))
    (g : Generator) : List Nat × Generator :=
  match totals?, replace with
  | some totals, true =>
    let (shares, g) := g.replicate Generator.unit count
    (Choice.withReplacement totals shares.toList, g)
  | some totals, false =>
    let (shares, g) := g.replicate Generator.unit count
    let weights := (Choice.differences 0 totals).toArray
    (Choice.withoutReplacement weights (Array.range size) shares.toList, g)
  | none, true =>
    let (picks, g) := g.replicate (Generator.position size) count
    (picks.toList, g)
  | none, false =>
    let (slots, g) := g.slots size count
    (Choice.takeSlots (Array.range size) slots, g)

/-- Picks elements of a population, with or without replacement and with or
without weights. -/
def choiceOf (engine : Engine) (b : CallBindings) : NativeOp := do
  let pool ← engine.population (← b.required "a") "choice"
  if pool.rank ≠ 1 then throw .populationRank
  let n := pool.values.size
  let replace := (← optional engine.truth (engine.given (b.get? "replace"))).getD true
  let totals? ← optional (engine.weightTotals n) (engine.given (b.get? "p"))
  let shape? ← engine.size? b
  let count := (shape?.map Shape.size).getD 1
  if n = 0 ∧ 0 < count then throw .emptyPopulation
  if replace = false ∧ n < count then throw .sampleTooLarge
  (shape?.map Shape.checkStrides).getD (.ok ())
  always do
    let picks ← draw (drawPicks n count replace totals?)
    let chosen := (picks.map pool.get).toArray
    match shape? with
    | none => create (.ofScalar (chosen.getD 0 (.zero pool.dtype)))
    | some shape => createArray (.fresh (.ofValues pool.dtype chosen shape))

def bytesOf (engine : Engine) (b : CallBindings) : NativeOp := do
  let length ← engine.integer (← b.required "length")
  if length < 0 then throw .negativeLength
  always do
    let bytes ← draw (Generator.replicate Generator.byte length.toNatClampNeg)
    create (.bytes bytes.toList)

/-- The values of an array with its rows in the given order. -/
def rowsInOrder (c : Contents) (order : List Nat) : Array Scalar :=
  let rows := c.shape.headD 0
  let rowSize := if rows = 0 then 0 else c.values.size / rows
  (order.flatMap fun row => (List.range rowSize).map fun k => c.get (row * rowSize + k)).toArray

/-- Draws an order of the rows of an array. -/
def drawOrder (rows : Nat) : StateM Engine (List Nat) := do
  let order ← draw (Generator.shuffle (Array.range rows))
  return order.toList

/-- Shuffles the rows of an array, or the items of a list, in place. -/
def shuffleOf (engine : Engine) (b : CallBindings) : NativeOp := do
  let target ← b.required "x"
  match ← engine.object target with
  | .array a =>
    if a.rank = 0 then throw (.notShufflable (engine.typeName target))
    let contents := a.contents engine.buffers
    always do
      let order ← drawOrder (contents.shape.headD 0)
      write a.buffer (a.offsets.toList.zip (rowsInOrder contents order).toList)
      createNone
  | .list items =>
    always do
      let items ← draw (Generator.shuffle items.toArray)
      onHeap fun heap => ((), heap.replace target (.list items.toList))
      createNone
  | object => throw (.notShufflable object.typeName)

/-- A copy of a population with its rows shuffled. -/
def permutationOf (engine : Engine) (b : CallBindings) : NativeOp := do
  let pool ← engine.population (← b.required "x") "permutation"
  always do
    let order ← drawOrder (pool.shape.headD 0)
    createArray (.fresh (.ofValues pool.dtype (rowsInOrder pool order) pool.shape))

/-- Calls a function of the random module that has named parameters. -/
def randomCall (engine : Engine) (f : RandomFunction) (b : CallBindings) : NativeOp :=
  match f with
  | .seed => engine.seedOf b
  | .rand => sample .float64 unitSampler none
  | .randn => sample .float64 standardNormalSampler none
  | .randint => engine.randintOf b
  | .randomIntegers => engine.randomIntegersOf b
  | .choice => engine.choiceOf b
  | .bytes => engine.bytesOf b
  | .shuffle => engine.shuffleOf b
  | .permutation => engine.permutationOf b
  | .uniform => engine.uniformOf b
  | .normal => engine.normalOf b
  | .randomSample => engine.randomSampleOf b

/-- Calls a function of the random module that takes any number of dimensions. -/
def randomDimensionCall (engine : Engine) (f : RandomFunction) (ids : List ObjectId) :
    NativeOp := do
  let shape? ← engine.dimensionShape? ids
  match f with
  | .randn => sample .float64 standardNormalSampler shape?
  | _ => sample .float64 unitSampler shape?

/-- Calls a built-in function. -/
def nativeCall (engine : Engine) (native : Native) (args : Arguments ObjectId) : NativeOp := do
  match native with
  | .numeric f => engine.numericCall f (← args.bind f.name f.parameters)
  | .random f =>
    match f.parameters? with
    | some parameters => engine.randomCall f (← args.bind f.name parameters)
    | none => engine.randomDimensionCall f (← args.variadic f.name)

end Engine

end ArrayBridge
