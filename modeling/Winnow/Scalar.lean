import Winnow.Json.Basic
import Winnow.Number.Layout

/-!
# Scalars

A scalar is an operand of a restriction or the value of a record's field. Integers and floats are
one kind for ordering, though not for equality: `5` and `5.0` are ordered as equal and are not the
same scalar.
-/

namespace Winnow

inductive Scalar where
  | null
  | bool (b : Bool)
  | int (n : Int64)
  | float (x : Binary64)
  | string (s : String)
deriving DecidableEq

namespace Scalar

def isNull : Scalar → Bool
  | .null => true
  | _ => false

def isNumber : Scalar → Bool
  | .int _ | .float _ => true
  | _ => false

def string? : Scalar → Option String
  | .string s => some s
  | _ => none

def int? : Scalar → Option Int64
  | .int n => some n
  | _ => none

/-- The nearest binary64 number of a number. -/
def toBinary64? : Scalar → Option Binary64
  | .int n => some (.ofInt n.toInt)
  | .float x => some x
  | _ => none

/-- Null, false, zeros, the empty string and the string `0` are not truthy. -/
def isTruthy : Scalar → Bool
  | .null => false
  | .bool b => b
  | .int n => n != 0
  | .float x => !x.isZero
  | .string s => !(s == "" || s == "0")

/-- Equality of kind and value, where floats are equal as numbers: NaN differs from itself. -/
def equal : Scalar → Scalar → Bool
  | .float x, .float y => x.numEq y
  | a, b => a == b

/-- The order of two scalars of one kind; numbers of different kinds are compared as floats. -/
def compare? : Scalar → Scalar → Option Ordering
  | .null, .null => some .eq
  | .bool a, .bool b => some (compare a b)
  | .int a, .int b => some (compare a.toInt b.toInt)
  | .string a, .string b => some (compare a b)
  | a, b => do (← a.toBinary64?).compare? (← b.toBinary64?)

/-- The scalar of a JSON value that is no array and no object. -/
def ofJson? : Json → Option Scalar
  | .null => some .null
  | .bool b => some (.bool b)
  | .number (.int n) => some (.int n)
  | .number n => some (.float n.toBinary64)
  | .string s => some (.string s)
  | .array _ | .object _ => none

/-- JSON has no infinities and no NaN; they become null. -/
def toJson : Scalar → Json
  | .null => .null
  | .bool b => .bool b
  | .int n => .number (.int n)
  | .float (.finite x) => .number (.float x)
  | .float _ => .null
  | .string s => .string s

/-! The text of a scalar in a condition. -/

/-- A string between single quotes, with each single quote in it doubled. -/
def quoted (s : List Char) : List Char :=
  '\'' :: (s.flatMap (fun c => if c = '\'' then ['\'', '\''] else [c]) ++ ['\''])

def binary64Chars : Binary64 → List Char
  | .nan => ['N', 'a', 'N']
  | .infinite negative => NumberLayout.signText negative ++ ['i', 'n', 'f']
  | .finite x => NumberLayout.literal.render x

def chars : Scalar → List Char
  | .null => ['N', 'U', 'L', 'L']
  | .bool true => ['t', 'r', 'u', 'e']
  | .bool false => ['f', 'a', 'l', 's', 'e']
  | .int n => integerText n.toInt
  | .float x => binary64Chars x
  | .string s => quoted s.toList

/-- The literal that denotes a scalar in a condition. -/
def text (s : Scalar) : String := String.ofList s.chars

end Scalar

end Winnow
