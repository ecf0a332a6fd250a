import Winnow.Json.Basic
import Winnow.Json.Token

/-!
# Types of plain scalars

A scalar without quotes is null, a boolean, an integer in one of four bases, a float, or else a
string. Digits behind a needless zero make a string.
-/

namespace Winnow.Yaml

inductive Resolved where
  | null
  | bool (b : Bool)
  | integer (n : JsonNumber)
  | float (x : Binary64)
  | string
  /-- An integer of at most 128 bits that has more than 64 bits. -/
  | tooWide

namespace Resolved

def isNull (text : String) : Bool := ["null", "Null", "NULL", "~"].contains text

def bool? (text : String) : Option Bool :=
  if ["true", "True", "TRUE"].contains text then some true
  else if ["false", "False", "FALSE"].contains text then some false
  else none

def digits? (base : Nat) (cs : List Char) : Option Nat :=
  if cs.isEmpty then none
  else cs.foldlM (fun n c =>
    match Json.Token.hexDigit? c with
    | some d => if d < base then some (n * base + d) else none
    | none => none) 0

/-- The number of digits with the mark of a base before them. -/
def based? : List Char → Option Nat
  | '0' :: 'x' :: cs => digits? 16 cs
  | '0' :: 'o' :: cs => digits? 8 cs
  | '0' :: 'b' :: cs => digits? 2 cs
  | _ => none

/-- A zero and more digits, perhaps behind a sign. -/
def isPadded (cs : List Char) : Bool :=
  match (Numeral.takeSign cs).2 with
  | '0' :: c :: rest => (c :: rest).all Char.isDigit
  | _ => false

/-- The size of an integer behind its sign. -/
def magnitude? (cs : List Char) : Option Nat :=
  based? cs <|> if isPadded cs then none else digits? 10 cs

def integer? (text : String) : Option Int :=
  match Numeral.takeSign text.toList with
  | (some .minus, cs) => (magnitude? cs).map fun n => -(n : Int)
  | (_, cs) => (magnitude? cs).map Int.ofNat

/-- Integers of more bits are none. -/
def mostBits : Nat := 128

/-- Does an integer fit the most bits, with a sign or without? -/
def fitsWide (n : Int) : Bool :=
  let half : Nat := Nat.pow 2 (mostBits - 1)
  decide (-(half : Int) ≤ n ∧ n < 2 * half)

/-- What an integer stands for. Beyond 128 bits it is none. -/
def ofInteger? (text : String) : Option Resolved := do
  let n ← integer? text
  match JsonNumber.ofInt? n with
  | some n => some (.integer n)
  | none => if fitsWide n then some .tooWide else none

def special? (text : String) : Option Binary64 :=
  if [".inf", ".Inf", ".INF", "+.inf", "+.Inf", "+.INF"].contains text then some (.infinite false)
  else if ["-.inf", "-.Inf", "-.INF"].contains text then some (.infinite true)
  else if [".nan", ".NaN", ".NAN"].contains text then some .nan
  else none

/-- The float that a text spells. Decimals have to be within range. -/
def float? (text : String) : Option Binary64 :=
  match special? text with
  | some x => some x
  | none =>
    match Numeral.scan? Char.isDigit text.toList with
    | some (n, []) =>
      match n.toDecimal.nearest with
      | .finite x => some (.finite x)
      | _ => none
    | _ => none

def ofPlain (text : String) : Resolved :=
  if text = "" ∨ isNull text then .null
  else
    match bool? text, ofInteger? text, float? text with
    | some b, _, _ => .bool b
    | none, some resolved, _ => resolved
    | none, none, some x => if isPadded text.toList then .string else .float x
    | none, none, none => .string

/-- What a scalar with one of the standard tags stands for. Other tags make strings. -/
def ofTagged? (tag text : String) : Option Resolved :=
  if tag = "tag:yaml.org,2002:bool" then (bool? text).map .bool
  else if tag = "tag:yaml.org,2002:int" then ofInteger? text
  else if tag = "tag:yaml.org,2002:float" then (float? text).map .float
  else if tag = "tag:yaml.org,2002:null" then if isNull text then some .null else none
  else some .string

/-- The JSON value of a text. JSON has no infinities and no NaN; they become null. -/
def toJson? (text : String) : Resolved → Option Json
  | .null => some .null
  | .bool b => some (.bool b)
  | .integer n => some (.number n)
  | .float (.finite x) => some (.number (.float x))
  | .float _ => some .null
  | .string => some (.string text)
  | .tooWide => none

end Resolved

end Winnow.Yaml
