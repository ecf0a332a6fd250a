import Winnow.Number.Binary64

/-!
# Decimal numbers

A decimal is `coefficient * 10 ^ exponent` with a sign. `Decimal.nearest` is the binary64 number
nearest to it, and `Decimal.shortest` goes back: of the decimals that read as a given magnitude it
takes one of the fewest digits, and of these the one nearest to the magnitude.
-/

namespace Winnow

structure Decimal where
  negative : Bool
  coefficient : Nat
  exponent : Int
deriving DecidableEq, Repr

/-- What decides between two decimals that lie equally near: an even last digit, or magnitude. -/
inductive TieRule where
  | toEven
  | away
deriving DecidableEq, Repr

namespace Decimal

/-- The nearest binary64 number. A coefficient that is not zero lies between one and
`10 ^ (log2 + 1)`, so exponents outside the two bounds settle the answer without a power. -/
def nearest (d : Decimal) : Binary64 :=
  if d.coefficient = 0 then
    .finite (.zero d.negative)
  else if 400 < d.exponent then
    .infinite d.negative
  else if d.exponent < -(401 + d.coefficient.log2 : Int) then
    .finite (.zero d.negative)
  else
    Binary64.nearest d.negative
      (d.coefficient * Nat.pow 10 d.exponent.toNat * Binary64.one)
      (Nat.pow 10 (-d.exponent).toNat)

/-- How many decimal digits a positive number has. -/
def digitCount (n : Nat) : Nat := (Nat.toDigits 10 n).length

/-- Moves trailing zeros of a coefficient into the exponent, at most `fuel` of them. -/
def stripZeros : Nat → Nat → Int → Nat × Int
  | 0, c, e => (c, e)
  | fuel + 1, c, e => if c % 10 = 0 then stripZeros fuel (c / 10) (e + 1) else (c, e)

/-! All numbers that read as a magnitude lie between two ends: halfway to the neighbour below,
which is nearer at a power of two, and halfway to the one above. The ends themselves read as the
magnitude when its last bit is even. Both are counted in quarters of a unit. -/

/-- The lower end, in quarters of a unit. -/
def lowerEnd (units : Nat) : Nat :=
  let step := Binary64.spacing units
  if 1 < step ∧ units = Nat.pow 2 units.log2 then 4 * units - step else 4 * units - 2 * step

/-- The upper end, in quarters of a unit. -/
def upperEnd (units : Nat) : Nat :=
  4 * units + 2 * Binary64.spacing units

/-- Does `c * 10 ^ exponent` read as the magnitude `units`? The comparison clears denominators:
`up` and `down` are the powers of ten on either side. -/
def readsAs (units c : Nat) (exponent : Int) : Bool :=
  let up := Nat.pow 10 exponent.toNat
  let down := Nat.pow 10 (-exponent).toNat
  let value := 4 * c * up * Binary64.one
  let low := lowerEnd units * down
  let high := upperEnd units * down
  if units / Binary64.spacing units % 2 = 0 then
    decide (low ≤ value ∧ value ≤ high)
  else
    decide (low < value ∧ value < high)

/-- One unit has its leading digit this many places behind the point. -/
def unitPlaces : Nat := 324

/-- The decimal exponent of the leading digit. -/
def leadingExponent (units : Nat) : Int :=
  (digitCount (units * Nat.pow 10 unitPlaces / Binary64.one) : Int) - (unitPlaces + 1)

/-- On the grid of the multiples of `10 ^ exponent`, the nearest neighbour of the magnitude that
reads as it. -/
def onGrid? (tie : TieRule) (units : Nat) (exponent : Int) : Option Nat :=
  let num := units * Nat.pow 10 (-exponent).toNat
  let den := Binary64.one * Nat.pow 10 exponent.toNat
  let below := num / den
  let above := below + 1
  match readsAs units below exponent, readsAs units above exponent with
  | false, false => none
  | true, false => some below
  | false, true => some above
  | true, true =>
    let rest := 2 * (num % den)
    if rest < den then some below
    else if den < rest then some above
    else match tie with
      | .toEven => some (below + below % 2)
      | .away => some above

/-- The fewest digits that read back. Seventeen always do. -/
def shortest (tie : TieRule) (x : Finite64) : Decimal :=
  if x.units = 0 then
    ⟨x.negative, 0, 0⟩
  else
    let leading := leadingExponent x.units
    let found := (List.range 17).findSome? fun (k : Nat) =>
      let exponent := leading - k
      (onGrid? tie x.units exponent).map (·, exponent)
    let (c, e) := found.getD (0, 0)
    let (c, e) := stripZeros 17 c e
    ⟨x.negative, c, e⟩

end Decimal

end Winnow
