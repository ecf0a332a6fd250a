import Winnow.Number.Decimal
import Winnow.Text.Blank
import Winnow.Text.DecimalDigit

/-!
# Numerals

A numeral is a written decimal number: a sign, digits, a fraction after a point, and an exponent.
`Numeral.scan?` reads one at the start of a text, `Numeral.read?` reads a whole text that may have
blanks around it. Reading admits digits of every script; only ASCII digits have a value.
-/

namespace Winnow

inductive Sign where
  | plus
  | minus
deriving DecidableEq, Repr

/-- The parts of a written number, as written. -/
structure Numeral where
  sign : Option Sign
  whole : List Char
  /-- The digits after the point, if there is a point. -/
  fraction : Option (List Char)
  /-- The sign and the digits of the exponent, if there is one. -/
  exponent : Option (Option Sign × List Char)
deriving DecidableEq, Repr

namespace Numeral

/-- A sign at the start of a text, and what follows it. -/
def takeSign : List Char → Option Sign × List Char
  | '+' :: rest => (some .plus, rest)
  | '-' :: rest => (some .minus, rest)
  | cs => (none, cs)

/-- An exponent at the start of a text. Without a digit the mark is not an exponent. -/
def takeExponent (digit : Char → Bool) (cs : List Char) :
    Option (Option Sign × List Char) × List Char :=
  match cs with
  | c :: rest =>
    if c = 'e' ∨ c = 'E' then
      let (sign, rest) := takeSign rest
      match rest.takeWhile digit with
      | [] => (none, cs)
      | ds => (some (sign, ds), rest.dropWhile digit)
    else
      (none, cs)
  | [] => (none, cs)

/-- A fraction at the start of a text: a point and the digits after it, perhaps none. -/
def takeFraction (digit : Char → Bool) (cs : List Char) : Option (List Char) × List Char :=
  match cs with
  | '.' :: rest => (some (rest.takeWhile digit), rest.dropWhile digit)
  | cs => (none, cs)

/-- The longest numeral at the start of a text, and what follows it. A digit is needed before or
after the point. -/
def scan? (digit : Char → Bool) (cs : List Char) : Option (Numeral × List Char) :=
  let (sign, cs) := takeSign cs
  let whole := cs.takeWhile digit
  let (fraction, cs) := takeFraction digit (cs.dropWhile digit)
  if whole.isEmpty ∧ (fraction.getD []).isEmpty then
    none
  else
    let (exponent, cs) := takeExponent digit cs
    some (⟨sign, whole, fraction, exponent⟩, cs)

/-- The numeral that makes up a text, blanks around it aside. -/
def read? (cs : List Char) : Option Numeral := do
  let (n, rest) ← scan? isDecimalDigit (cs.dropWhile isBlank)
  if rest.all isBlank then some n else none

/-- All digits of a numeral, its exponent's included. -/
def digits (n : Numeral) : List Char :=
  n.whole ++ n.fraction.getD [] ++ (n.exponent.map (·.2)).getD []

def isNegative (n : Numeral) : Bool := n.sign == some .minus

/-- Neither point nor exponent is written. -/
def isWhole (n : Numeral) : Bool := n.fraction.isNone && n.exponent.isNone

/-- The exponent as written, zero if there is none. -/
def exponentValue (n : Numeral) : Int :=
  match n.exponent with
  | none => 0
  | some (some .minus, ds) => -(digitsValue ds : Int)
  | some (_, ds) => digitsValue ds

/-- The number that a numeral in ASCII digits spells. -/
def toDecimal (n : Numeral) : Decimal where
  negative := n.isNegative
  coefficient := digitsValue (n.whole ++ n.fraction.getD [])
  exponent := n.exponentValue - ((n.fraction.getD []).length : Int)

/-- The integer that a whole numeral in ASCII digits spells. -/
def wholeValue (n : Numeral) : Int :=
  if n.isNegative then -(digitsValue n.whole : Int) else digitsValue n.whole

end Numeral

end Winnow
