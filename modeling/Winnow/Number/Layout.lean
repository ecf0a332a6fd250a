import Winnow.Number.Decimal

/-!
# Number layouts

How a decimal is spelled: which exponents are written with a point in place and which with an
exponent mark, and whether a whole number keeps a fraction. The two layouts in use are
`NumberLayout.json` and `NumberLayout.literal`.
-/

namespace Winnow

structure NumberLayout where
  /-- Decides between two shortest decimals at the same distance. -/
  tie : TieRule
  /-- The least and greatest exponent of the leading digit written with the point in place;
  `none` writes every number so. -/
  window : Option (Int × Int)
  /-- A whole number with the point in place ends in `.0`. -/
  keepsFraction : Bool
deriving DecidableEq, Repr

namespace NumberLayout

/-- Numbers in JSON text keep a fraction and turn to an exponent mark outside `1e-5` to `1e15`. -/
def json : NumberLayout := ⟨.toEven, some (-5, 15), true⟩

/-- Numbers in condition text always have the point in place and drop an empty fraction. -/
def literal : NumberLayout := ⟨.away, none, false⟩

def digits (n : Nat) : List Char := Nat.toDigits 10 n

def signText (negative : Bool) : List Char := if negative then ['-'] else []

def positional? (layout : NumberLayout) (leading : Int) : Bool :=
  match layout.window with
  | none => true
  | some (least, greatest) => decide (least ≤ leading ∧ leading ≤ greatest)

/-- Digits with `point` of them before the decimal point. -/
def withPoint (keepsFraction : Bool) (ds : List Char) (point : Int) : List Char :=
  if point ≤ 0 then
    '0' :: '.' :: (List.replicate (-point).toNat '0' ++ ds)
  else if (ds.length : Int) ≤ point then
    ds ++ List.replicate (point - ds.length).toNat '0' ++ if keepsFraction then ['.', '0'] else []
  else
    ds.take point.toNat ++ '.' :: ds.drop point.toNat

/-- One digit before the point, and the exponent with its sign. -/
def withMark (ds : List Char) (leading : Int) : List Char :=
  let mantissa :=
    match ds with
    | [] => []
    | [d] => [d]
    | d :: rest => d :: '.' :: rest
  mantissa ++ 'e' :: (if leading < 0 then '-' else '+') :: digits leading.natAbs

/-- The text of a finite number: its shortest decimal in this layout. -/
def render (layout : NumberLayout) (x : Finite64) : List Char :=
  let d := Decimal.shortest layout.tie x
  let ds := digits d.coefficient
  let point : Int := if d.coefficient = 0 then 1 else ds.length + d.exponent
  signText x.negative ++
    if layout.positional? (point - 1) then
      withPoint layout.keepsFraction ds point
    else
      withMark ds (point - 1)

end NumberLayout

/-- The digits of an integer, after a minus sign when it is negative. -/
def integerText (n : Int) : List Char :=
  NumberLayout.signText (n < 0) ++ NumberLayout.digits n.natAbs

end Winnow
