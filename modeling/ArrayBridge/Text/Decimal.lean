/-! The shortest decimal text of a float.

Every float stands for the real numbers that are rounded to it. Of the decimals
among them, the text shows one with the fewest digits, and of those the nearest to
the float. All of it is computed with exact numbers. -/

namespace ArrayBridge.Decimal

/-- The magnitude of a finite float: `mantissa` times two to the power of
`exponent`. -/
structure Binary where
  mantissa : Nat
  exponent : Int
  /-- Whether the float below is only half as far away as the one above. -/
  narrowBelow : Bool
  deriving DecidableEq, Inhabited

/-- The magnitude of the float with the given bits, whose sign does not count. -/
def Binary.ofBits (bits : Nat) : Binary :=
  let exponent := bits / 0x10000000000000 % 0x800
  let fraction := bits % 0x10000000000000
  if exponent = 0 then ⟨fraction, -1074, false⟩
  else ⟨0x10000000000000 + fraction, exponent - 1075, fraction = 0 && 1 < exponent⟩

/-- A decimal: `digits` times ten to the power of `exponent`. -/
structure Scaled where
  digits : Nat
  exponent : Int
  deriving DecidableEq, Inhabited

/-- The left side of a comparison of `digits` times ten to the power of `ten` with
some number times two to the power of `two`, freed of fractions. -/
def decimalSide (digits : Nat) (ten two : Int) : Nat :=
  digits * Nat.pow 10 ten.toNat * Nat.pow 2 (-two).toNat

/-- The right side of the same comparison. -/
def binarySide (mantissa : Nat) (ten two : Int) : Nat :=
  mantissa * Nat.pow 2 two.toNat * Nat.pow 10 (-ten).toNat

namespace Binary

/-- Whether a decimal is rounded to the float. The ends of the interval belong to
it if the mantissa is even. -/
def readsBack (x : Binary) (d : Scaled) : Bool :=
  let quarter := x.exponent - 2
  let value := decimalSide d.digits d.exponent quarter
  let low := binarySide (4 * x.mantissa - if x.narrowBelow then 1 else 2) d.exponent quarter
  let high := binarySide (4 * x.mantissa + 2) d.exponent quarter
  if x.mantissa % 2 = 0 then low ≤ value && value ≤ high else low < value && value < high

/-- The multiples of a power of ten next to the float that are rounded to it, the
nearer one first. Of two that are equally near the even one comes first. -/
def neighbours (x : Binary) (exponent : Int) : List Scaled :=
  let value := binarySide x.mantissa exponent x.exponent
  let unit := decimalSide 1 exponent x.exponent
  let below := value / unit
  let middle := (2 * below + 1) * unit
  let order := if 2 * value < middle ∨ 2 * value = middle ∧ below % 2 = 0
    then [below, below + 1] else [below + 1, below]
  (order.map fun digits => ⟨digits, exponent⟩).filter x.readsBack

/-- The number of decimal digits of a natural number. -/
def digitCount (n : Nat) : Nat := (Nat.toDigits 10 n).length

/-- The least power of ten above a float that is not zero. -/
def magnitude (x : Binary) : Int :=
  let value := binarySide x.mantissa 0 x.exponent
  let unit := decimalSide 1 0 x.exponent
  if unit ≤ value then digitCount (value / unit)
  else 1 - digitCount ((unit - 1) / value)

/-- The float itself as a decimal. -/
def exact (x : Binary) : Scaled :=
  if 0 ≤ x.exponent then ⟨x.mantissa * Nat.pow 2 x.exponent.toNat, 0⟩
  else ⟨x.mantissa * Nat.pow 5 (-x.exponent).toNat, x.exponent⟩

/-- A decimal with the fewest digits that is rounded to the float. -/
def shortest (x : Binary) : Scaled :=
  let found := (List.range' 1 17).findSome? fun (digits : Nat) =>
    (x.neighbours (x.magnitude - digits)).head?
  found.getD x.exact

end Binary

/-- The digits of a decimal without zeros at the end. -/
def Scaled.significant (d : Scaled) : List Char :=
  ((Nat.toDigits 10 d.digits).reverse.dropWhile fun c => c = '0').reverse

/-- The text of an exponent, with its sign. -/
def exponentText (exponent : Int) : List Char :=
  'e' :: (if exponent < 0 then '-' else '+') :: Nat.toDigits 10 exponent.natAbs

/-- The text of digits with a point after the given number of them. Points far
away from the digits are written as an exponent. -/
def layOut (digits : List Char) (point : Int) : List Char :=
  let zeros (n : Int) := List.replicate n.toNat '0'
  if digits.length ≤ point ∧ point ≤ 16 then digits ++ zeros (point - digits.length) ++ ['.', '0']
  else if 0 < point ∧ point ≤ 16 then digits.take point.toNat ++ '.' :: digits.drop point.toNat
  else if -5 < point ∧ point ≤ 0 then '0' :: '.' :: zeros (-point) ++ digits
  else
    let exponent := exponentText (point - 1)
    match digits with
    | first :: second :: others => first :: '.' :: second :: others ++ exponent
    | digits => digits ++ exponent

/-- The text of a finite float. -/
def text (x : Float) : String :=
  let bits := x.toBits.toNat
  let sign := if 0x8000000000000000 ≤ bits then ['-'] else []
  let binary := Binary.ofBits bits
  let digits :=
    if binary.mantissa = 0 then ['0', '.', '0']
    else
      let d := binary.shortest
      layOut d.significant (d.exponent + Binary.digitCount d.digits)
  String.ofList (sign ++ digits)

end ArrayBridge.Decimal
