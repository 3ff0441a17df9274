/-! Choosing positions of a population by weight.

Weights are numbers of any type with sums, differences and comparisons. Nothing
here needs the laws of numbers, so it holds for rounded numbers, too. -/

namespace ArrayBridge.Choice

section Weights

variable {α : Type} [OfNat α 0] [Add α] [Sub α] [Mul α] [LT α] [DecidableLT α]

/-- The sums of a list up to and including each of its elements, added to what
was summed before. -/
def runningTotals (before : α) : List α → List α
  | [] => []
  | x :: xs => (before + x) :: runningTotals (before + x) xs

/-- The differences of neighbours in a list; the first element is compared with
what came before it. -/
def differences (before : α) : List α → List α
  | [] => []
  | x :: xs => (x - before) :: differences x xs

/-- The position at which a share of the last total is first exceeded by a
running total. If none exceeds it, it is the last position. -/
def positionAt (share : α) (totals : List α) : Nat :=
  let target := share * totals.getLast?.getD 0
  (totals.findIdx? fun total => target < total).getD (totals.length - 1)

/-- Removes the element at a position by putting the last one in its place. -/
def swapRemove (remaining : Array Nat) (slot : Nat) : Nat × Array Nat :=
  let picked := remaining.getD slot 0
  (picked, (remaining.setIfInBounds slot (remaining.getD (remaining.size - 1) 0)).pop)

/-- Positions for a list of shares, each of them chosen among all. -/
def withReplacement (totals : List α) (shares : List α) : List Nat :=
  shares.map fun share => positionAt share totals

/-- Positions for a list of shares, each of them chosen among those that were not
chosen before, in proportion to their weights. -/
def withoutReplacement (weights : Array α) : (remaining : Array Nat) → List α → List Nat
  | _, [] => []
  | remaining, share :: shares =>
    let totals := runningTotals 0 (remaining.toList.map fun i => weights.getD i 0)
    let (picked, remaining) := swapRemove remaining (positionAt share totals)
    picked :: withoutReplacement weights remaining shares

end Weights

/-- Positions that are left after each of the given slots was taken from those
that remain. -/
def takeSlots : (remaining : Array Nat) → List Nat → List Nat
  | _, [] => []
  | remaining, slot :: slots =>
    let (picked, remaining) := swapRemove remaining slot
    picked :: takeSlots remaining slots

end ArrayBridge.Choice
