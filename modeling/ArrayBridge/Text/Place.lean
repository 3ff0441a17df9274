/-! Places in a text, by line and column. -/

namespace ArrayBridge

/-- A place between two bytes of a text. Lines are counted from one; the column is
the number of bytes of the line that come before. -/
structure Place where
  line : Nat
  column : Nat
  deriving DecidableEq, Inhabited

namespace Place

/-- The place behind some bytes. -/
def after (bytes : List UInt8) : Place :=
  ⟨bytes.count 10 + 1, (bytes.reverse.takeWhile fun b => b ≠ 10).length⟩

/-- The place in a text that has the given number of bytes behind it. -/
def before (text : String) (left : Nat) : Place :=
  after (text.toUTF8.toList.take (text.utf8ByteSize - left))

/-- The form of a place in messages. -/
def text (place : Place) : String := s!"line {place.line} column {place.column}"

end Place

end ArrayBridge
