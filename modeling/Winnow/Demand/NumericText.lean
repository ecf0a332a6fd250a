import Winnow.Number.Numeral
import Winnow.Number.Word

/-!
# Numeric texts

Which strings read as numbers, and the integer that such a string stands for. Fractions are dropped
and integers outside the range of `Int64` are clamped to it. Digits of every script look numeric;
the integer needs ASCII digits.
-/

namespace Winnow.NumericText

def isNumeric (s : String) : Bool :=
  (Numeral.read? s.toList).isSome

/-- The integer of a numeral in ASCII digits. A whole numeral within range is exact; any other goes
through the nearest binary64 number. -/
def integerOf (n : Numeral) : Int64 :=
  match if n.isWhole then int64? n.wholeValue else none with
  | some exact => exact
  | none => n.toDecimal.nearest.toInt64Clamp

def toInt64? (s : String) : Option Int64 := do
  let n ← Numeral.read? s.toList
  if n.digits.all Char.isDigit then some (integerOf n) else none

end Winnow.NumericText
