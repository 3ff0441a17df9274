import ArrayBridge.Word

/-! The pseudo-random generator.

The state is one machine word that grows by an odd constant with every draw, so
a generator passes through all states before it repeats one. The drawn word is a
mix of the state. All other draws are made from words. -/

namespace ArrayBridge

/-- A pseudo-random generator. -/
structure Generator where
  state : UInt64
  deriving DecidableEq, Inhabited

namespace Generator

/-- The number of states. A draw that is repeated until it is accepted looks at
no more words than this. -/
def period : Nat := Word.count

/-- The amount by which the state grows. -/
def increment : UInt64 := 0x2d358dccaa6c78a5

/-- Folds the double-width product of the state and its masked copy into one
word. -/
def mix (state : UInt64) : UInt64 :=
  let (upper, lower) := Word.product state (state ^^^ 0x8bb84b93962eacc9)
  lower ^^^ upper

/-- Draws a word. -/
def word (g : Generator) : UInt64 × Generator :=
  let state := g.state + increment
  (mix state, ⟨state⟩)

/-- Draws until a value is accepted, but at most as often as the limit says. If
none is, the value of the last draw stands. -/
def retry {α : Type} (draw : Generator → α × Generator) (accepts : α → Bool) :
    Nat → Generator → α × Generator
  | 0, g => draw g
  | limit + 1, g =>
    let (x, g) := draw g
    if accepts x then (x, g) else retry draw accepts limit g

/-- Draws a float in the half-open unit interval: the upper 63 bits of a word, as
a fraction. -/
def unit (g : Generator) : Float × Generator :=
  retry (fun g =>
      let (w, g) := g.word
      ((w >>> 1).toFloat * Float.ofBits 0x3c00000000000000, g))
    (fun x => x < 1) period g

/-- Draws a number below a positive bound: the upper half of the product of a
word and the bound. Words for which the lower half is below the remainder of the
word range by the bound are drawn again, which makes all numbers equally
likely. -/
def below (bound : UInt64) (g : Generator) : UInt64 × Generator :=
  let remainder := (0 - bound) % bound
  let ((high, _), g) := retry (fun g =>
      let (w, g) := g.word
      (Word.product w bound, g))
    (fun (_, low) => remainder ≤ low) period g
  (high, g)

/-- Draws an integer between two bounds, both of which can be drawn. The width of
the range is counted in words; the full range is a word of its own. -/
def integer (low high : Int64) (g : Generator) : Int64 × Generator :=
  let width := high.toUInt64 - low.toUInt64 + 1
  if width = 0 then
    let (w, g) := g.word
    (w.toInt64, g)
  else
    let (offset, g) := g.below width
    (low + offset.toInt64, g)

/-- Draws a position below a positive count. -/
def position (count : Nat) (g : Generator) : Nat × Generator :=
  let (w, g) := g.below count.toUInt64
  (w.toNat, g)

/-- Draws a byte: the lowest bits of a word. -/
def byte (g : Generator) : UInt8 × Generator :=
  let (w, g) := g.word
  (w.toUInt8, g)

/-- Draws a number of values one after the other. -/
def replicate {α : Type} (draw : Generator → α × Generator) (count : Nat) (g : Generator) :
    Array α × Generator :=
  go count #[] g
where
  go : Nat → Array α → Generator → Array α × Generator
    | 0, drawn, g => (drawn, g)
    | n + 1, drawn, g =>
      let (x, g) := draw g
      go n (drawn.push x) g

/-- Exchanges each element, from the second on, with one that does not come
after it. -/
def shuffle {α : Type} (items : Array α) (g : Generator) : Array α × Generator :=
  (List.range' 1 (items.size - 1)).foldl
    (fun (items, g) i =>
      let (j, g) := g.position (i + 1)
      (items.swapIfInBounds i j, g))
    (items, g)

end Generator

end ArrayBridge
