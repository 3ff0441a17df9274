import ArrayBridge.Configuration.Fault
import ArrayBridge.Text.Hexadecimal
import ArrayBridge.Text.Natural

/-! Reading the parts of a configuration text.

A configuration is written in JSON. Its readers take a part from the front of a text
and leave the rest, or stop with the cause and the number of bytes that come after
the place of the fault. Places count bytes, and a fault at a character that should
not be there is placed behind the first byte of it. -/

namespace ArrayBridge.Configuration

/-- Where and why reading stopped. -/
structure Stop where
  cause : Cause
  /-- The number of bytes behind the place. -/
  left : Nat
  deriving DecidableEq, Inhabited

/-- A reader takes a part from the front of a text and leaves the rest. -/
abbrev Reader (α : Type) := List Char → Except Stop (α × List Char)

/-- The number of bytes of a text. -/
def byteCount : List Char → Nat
  | [] => 0
  | c :: rest => c.utf8Size + byteCount rest

section Stops

variable {α : Type}

/-- Stops before a text. -/
def stopBefore (cause : Cause) (text : List Char) : Except Stop α :=
  .error ⟨cause, byteCount text⟩

/-- Stops behind the first byte of a text, or at its end if there is none. -/
def stopAt (cause : Cause) (text : List Char) : Except Stop α :=
  .error ⟨cause, byteCount text - 1⟩

/-- Stops at the end of all text. -/
def stopAtEnd (cause : Cause) : Except Stop α := .error ⟨cause, 0⟩

end Stops

def isSpace (c : Char) : Bool := c = ' ' || c = '\n' || c = '\t' || c = '\r'

def skipSpace (text : List Char) : List Char := text.dropWhile isSpace

/-- Reads a word. -/
def readWord : (word : List Char) → Reader Unit
  | [], text => .ok ((), text)
  | _ :: _, [] => stopAtEnd .endOfValue
  | c :: word, d :: rest => if c = d then readWord word rest else stopAt .expectedWord (d :: rest)

section Quotes

/-- The number of four hexadecimal digits. -/
def unit? (a b c d : Char) : Option Nat := Hexadecimal.read? [a, b, c, d]

/-- The character of a short escape. -/
def shortEscape? : Char → Option Char
  | '"' => some '"'
  | '\\' => some '\\'
  | '/' => some '/'
  | 'b' => some '\x08'
  | 'f' => some '\x0c'
  | 'n' => some '\n'
  | 'r' => some '\r'
  | 't' => some '\t'
  | _ => none

def isHighSurrogate (code : Nat) : Bool := 0xd800 ≤ code && code < 0xdc00

def isLowSurrogate (code : Nat) : Bool := 0xdc00 ≤ code && code < 0xe000

/-- The character that a pair of surrogates denotes. -/
def paired (high low : Nat) : Char :=
  Char.ofNat (0x10000 + (high - 0xd800) * 0x400 + (low - 0xdc00))

/-- Stops behind the four bytes that should be hexadecimal digits. -/
def stopAtUnit {α : Type} (text : List Char) : Except Stop α :=
  if byteCount text < 4 then stopAtEnd .endOfText else .error ⟨.invalidEscape, byteCount text - 4⟩

/-- Stops where the second half of a pair of surrogates is missing. -/
def stopAtPair {α : Type} : List Char → Except Stop α
  | [] => stopAtEnd .endOfText
  | '\\' :: [] => stopAtEnd .endOfText
  | '\\' :: 'u' :: rest => stopAtUnit rest
  | '\\' :: rest => stopAt .unfinishedPair rest
  | text => stopAt .unfinishedPair text

/-- Reads the rest of a quoted text, after its opening quote. Control characters
must be escaped, and surrogates must come in pairs. -/
def readQuoted : Reader (List Char)
  | [] => stopAtEnd .endOfText
  | '"' :: rest => .ok ([], rest)
  | '\\' :: 'u' :: a :: b :: c :: d :: rest =>
    match unit? a b c d with
    | none => stopAtUnit (a :: b :: c :: d :: rest)
    | some code =>
      if isLowSurrogate code then stopBefore .loneSurrogate rest
      else if isHighSurrogate code then
        match rest with
        | '\\' :: 'u' :: e :: f :: g :: h :: rest =>
          match unit? e f g h with
          | none => stopAtUnit (e :: f :: g :: h :: rest)
          | some low =>
            if isLowSurrogate low then do
              let (chars, rest) ← readQuoted rest
              return (paired code low :: chars, rest)
            else stopBefore .loneSurrogate rest
        | rest => stopAtPair rest
      else do
        let (chars, rest) ← readQuoted rest
        return (Char.ofNat code :: chars, rest)
  | '\\' :: 'u' :: rest => stopAtUnit rest
  | '\\' :: c :: rest =>
    match shortEscape? c with
    | none => stopAt .invalidEscape (c :: rest)
    | some char => do
      let (chars, rest) ← readQuoted rest
      return (char :: chars, rest)
  | '\\' :: [] => stopAtEnd .endOfText
  | c :: rest =>
    if c.toNat < 0x20 then stopBefore .controlCharacter rest
    else do
      let (chars, rest) ← readQuoted rest
      return (c :: chars, rest)

end Quotes

section Numbers

/-- A number. Integers that do not fit a machine word are floats. -/
inductive Number where
  | natural (value : Nat)
  /-- A negative integer, given by its magnitude. -/
  | negative (magnitude : Nat)
  | float (value : Float)
  deriving DecidableEq, Inhabited

def Number.found : Number → Found
  | natural n => .natural n
  | negative n => .negative n
  | float x => .float x

/-- The opposite of a number that was read without its sign. Only a negative float
can be zero. -/
def Number.negate : Number → Number
  | natural n =>
    if 0 < n ∧ n ≤ Word.count / 2 then negative n else float (-n.toUInt64.toFloat)
  | negative n => natural n
  | float x => float (-x)

/-- The first digits of a number, as many as fit a machine word, and how many
digits were read and left out. -/
structure Significand where
  value : Nat
  kept : Nat
  dropped : Nat
  deriving DecidableEq, Inhabited

def isDigit (c : Char) : Bool := (Natural.digit? c).isSome

/-- Reads digits after a number of digits that were kept before. Once a digit does
not fit, all later ones are left out. -/
def readDigits (value kept : Nat) : List Char → Significand × List Char
  | [] => (⟨value, kept, 0⟩, [])
  | c :: rest =>
    match Natural.digit? c with
    | none => (⟨value, kept, 0⟩, c :: rest)
    | some digit =>
      if value * 10 + digit < Word.count then readDigits (value * 10 + digit) (kept + 1) rest
      else
        (⟨value, kept, ((c :: rest).takeWhile isDigit).length⟩, (c :: rest).dropWhile isDigit)

/-- A power of ten. -/
def tenTo (exponent : Nat) : Float := Float.ofScientific 1 false exponent

/-- The largest exponent of a power of ten that is a float. -/
def exponentLimit : Nat := 308

/-- Divides by a power of ten, in several steps if it is not a float. -/
def scaleDown (x : Float) (exponent : Nat) : Float :=
  if exponent ≤ exponentLimit then x / tenTo exponent
  else if x == 0 then x
  else scaleDown (x / tenTo exponentLimit) (exponent - exponentLimit)
termination_by exponent
decreasing_by simp only [exponentLimit] at *; omega

/-- The float of a significand and a power of ten, unless it is too large. -/
def scaled? (value : Nat) (exponent : Int) : Option Float :=
  let x := value.toUInt64.toFloat
  if exponent < 0 then some (scaleDown x exponent.natAbs)
  else if exponent.natAbs ≤ exponentLimit then
    let y := x * tenTo exponent.natAbs
    if y.isInf then none else some y
  else if x == 0 then some x
  else none

/-- The number of a significand and a power of ten; `rest` comes after it. -/
def finishFloat (value : Nat) (exponent : Int) (rest : List Char) :
    Except Stop (Number × List Char) :=
  match scaled? value exponent with
  | some x => .ok (.float x, rest)
  | none => stopBefore .numberOutOfRange rest

/-- The number that an exponent stays below. -/
def exponentBound : Nat := 0x80000000

/-- Reads the digits of an exponent after those that were read. An exponent that is
too large makes the number too large or zero. -/
def readExponentDigits (value : Nat) (start : Int) (isNegative : Bool) (exponent : Nat) :
    Reader Number
  | [] => finishFloat value (if isNegative then start - exponent else start + exponent) []
  | c :: rest =>
    match Natural.digit? c with
    | none => finishFloat value (if isNegative then start - exponent else start + exponent) (c :: rest)
    | some digit =>
      if exponent * 10 + digit < exponentBound then
        readExponentDigits value start isNegative (exponent * 10 + digit) rest
      else if value ≠ 0 ∧ !isNegative then stopBefore .numberOutOfRange rest
      else .ok (.float 0, rest.dropWhile isDigit)

/-- Reads an exponent, after its mark. It has at least one digit. -/
def readExponent (value : Nat) (start : Int) (text : List Char) :
    Except Stop (Number × List Char) :=
  let (isNegative, digits) := match text with
    | '+' :: rest => (false, rest)
    | '-' :: rest => (true, rest)
    | text => (false, text)
  match digits with
  | [] => stopAtEnd .endOfValue
  | c :: rest =>
    if isDigit c then readExponentDigits value start isNegative 0 (c :: rest)
    else stopAt .invalidNumber (c :: rest)

/-- Reads the digits after a point, and an exponent if there is one. -/
def readFraction (value : Nat) (start : Int) (text : List Char) :
    Except Stop (Number × List Char) :=
  let (fraction, rest) := readDigits value 0 text
  let exponent := start - fraction.kept
  if fraction.kept = 0 ∧ fraction.dropped = 0 then
    if rest.isEmpty then stopAtEnd .endOfValue else stopAt .invalidNumber rest
  else match rest with
    | 'e' :: rest | 'E' :: rest => readExponent fraction.value exponent rest
    | rest => finishFloat fraction.value exponent rest

/-- Reads what follows the integer digits of a number. -/
def readTail (value dropped : Nat) : Reader Number
  | '.' :: rest => readFraction value dropped rest
  | 'e' :: rest | 'E' :: rest => readExponent value dropped rest
  | rest => if dropped = 0 then .ok (.natural value, rest) else finishFloat value dropped rest

/-- Reads a number without its sign. A leading zero stands alone. -/
def readMagnitude : Reader Number
  | [] => stopAtEnd .endOfValue
  | '0' :: rest => if rest.head?.any isDigit then stopAt .invalidNumber rest else readTail 0 0 rest
  | c :: rest =>
    if isDigit c then
      let (digits, rest) := readDigits 0 0 (c :: rest)
      readTail digits.value digits.dropped rest
    else stopAt .invalidNumber (c :: rest)

/-- Reads a number. -/
def readNumber : Reader Number
  | '-' :: rest => do
    let (number, rest) ← readMagnitude rest
    return (number.negate, rest)
  | text => readMagnitude text

/-- Whether a number can start with a character. -/
def startsNumber (c : Char) : Bool := c = '-' || isDigit c

end Numbers

section Values

variable {α : Type}

/-- Reads a value in order to say what it is. Lists and objects are not entered. -/
def readFound : Reader Found
  | 'n' :: rest => do
    let ((), rest) ← readWord ['u', 'l', 'l'] rest
    return (.null, rest)
  | 't' :: rest => do
    let ((), rest) ← readWord ['r', 'u', 'e'] rest
    return (.truth true, rest)
  | 'f' :: rest => do
    let ((), rest) ← readWord ['a', 'l', 's', 'e'] rest
    return (.truth false, rest)
  | '"' :: rest => do
    let (chars, rest) ← readQuoted rest
    return (.text (String.ofList chars), rest)
  | '[' :: rest => .ok (.list, '[' :: rest)
  | '\x7b' :: rest => .ok (.object, '\x7b' :: rest)
  | text =>
    if text.head?.any startsNumber then do
      let (number, rest) ← readNumber text
      return (number.found, rest)
    else stopAt .expectedValue text

/-- Stops at a value of another kind than the expected one. -/
def refuse (expected : String) (text : List Char) : Except Stop α := do
  let (found, rest) ← readFound text
  stopBefore (.wrongKind found expected) rest

/-- Reads a text; `expected` says what it is good for. -/
def readText (expected : String) : Reader String := fun text =>
  match skipSpace text with
  | [] => stopAtEnd .endOfValue
  | '"' :: rest => do
    let (chars, rest) ← readQuoted rest
    return (String.ofList chars, rest)
  | text => refuse expected text

/-- The kind of numbers that a machine word holds. -/
def wordKind : String := "u64"

/-- Reads a natural number that fits a machine word. -/
def readWordNumber : Reader Nat := fun text =>
  match skipSpace text with
  | [] => stopAtEnd .endOfValue
  | c :: rest =>
    if startsNumber c then do
      match ← readNumber (c :: rest) with
      | (.natural n, rest) => return (n, rest)
      | (.negative n, rest) => stopBefore (.wrongValue (.negative n) wordKind) rest
      | (.float x, rest) => stopBefore (.wrongKind (.float x) wordKind) rest
    else refuse wordKind (c :: rest)

/-- Reads a value that may be null. -/
def readOptional (value : Reader α) : Reader (Option α) := fun text =>
  match skipSpace text with
  | 'n' :: rest => do
    let ((), rest) ← readWord ['u', 'l', 'l'] rest
    return (none, rest)
  | text => do
    let (found, rest) ← value text
    return (some found, rest)

/-- What comes next in a list. -/
inductive ListStep where
  /-- The list ends, and the rest comes after it. -/
  | finished (rest : List Char)
  /-- An item starts. -/
  | item (text : List Char)
  deriving DecidableEq, Inhabited

/-- Reads up to the next item of a list or its end. Every item but the first comes
after a comma. -/
def nextItem (isFirst : Bool) (text : List Char) : Except Stop ListStep :=
  match skipSpace text with
  | [] => stopAtEnd .endOfList
  | ']' :: rest => .ok (.finished rest)
  | text =>
    if isFirst then .ok (.item text)
    else match text with
      | ',' :: rest =>
        match skipSpace rest with
        | [] => stopAtEnd .endOfValue
        | ']' :: rest => stopAt .trailingComma (']' :: rest)
        | text => .ok (.item text)
      | text => stopAt .expectedListEnd text

/-- Reads the items of a list up to and including its closing bracket. An item takes
at least one character, so the length of the text bounds the number of items. -/
def readItems (item : Reader α) (isFirst : Bool) : (bound : Nat) → Reader (List α)
  | 0, _ => stopAtEnd .endOfList
  | bound + 1, text => do
    match ← nextItem isFirst text with
    | .finished rest => return ([], rest)
    | .item text =>
      let (first, rest) ← item text
      let (others, rest) ← readItems item false bound rest
      return (first :: others, rest)

/-- Reads a list. -/
def readList (item : Reader α) : Reader (List α) := fun text =>
  match skipSpace text with
  | [] => stopAtEnd .endOfValue
  | '[' :: rest => readItems item true (rest.length + 1) rest
  | text => refuse "a sequence" text

end Values

end ArrayBridge.Configuration
