import ArrayBridge.Word

/-! Decimal notation of natural numbers. -/

namespace ArrayBridge.Natural

/-- The value of a decimal digit. -/
def digit? (c : Char) : Option Nat :=
  if '0' ≤ c && c ≤ '9' then some (c.toNat - '0'.toNat) else none

/-- The number that a list of digits denotes after those that were read. -/
def readFrom (value : Nat) : List Char → Option Nat
  | [] => some value
  | c :: cs => do readFrom (value * 10 + (← digit? c)) cs

/-- The number that a list of digits denotes. There has to be a digit. -/
def read? (digits : List Char) : Option Nat :=
  if digits.isEmpty then none else readFrom 0 digits

/-- The machine word that a text denotes: digits, after a plus sign or none. -/
def word? (text : List Char) : Option UInt64 := do
  let digits := match text with
    | '+' :: rest => rest
    | _ => text
  Word.ofNat? (← read? digits)

end ArrayBridge.Natural
