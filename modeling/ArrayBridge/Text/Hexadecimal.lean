/-! Hexadecimal notation of natural numbers. -/

namespace ArrayBridge.Hexadecimal

/-- The value of a hexadecimal digit in either case. -/
def digit? (c : Char) : Option Nat :=
  if '0' ≤ c && c ≤ '9' then some (c.toNat - '0'.toNat)
  else if 'a' ≤ c && c ≤ 'f' then some (c.toNat - 'a'.toNat + 10)
  else if 'A' ≤ c && c ≤ 'F' then some (c.toNat - 'A'.toNat + 10)
  else none

/-- The number that a list of digits denotes; no digits denote zero. -/
def read? (digits : List Char) : Option Nat :=
  digits.foldlM (fun value c => do return value * 16 + (← digit? c)) 0

/-- The digits of a number, with zeros in front up to the given width. -/
def write (width value : Nat) : String :=
  let digits := Nat.toDigits 16 value
  String.ofList (List.replicate (width - digits.length) '0' ++ digits)

end ArrayBridge.Hexadecimal
