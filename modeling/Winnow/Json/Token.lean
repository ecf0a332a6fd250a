import Winnow.Json.Basic
import Winnow.Number.Numeral

/-!
# JSON tokens

Cutting JSON text into marks, literals, numbers and strings. Each lexeme function takes what
remains of the text and returns what remains after it.
-/

namespace Winnow.Json

inductive Token where
  | arrayOpen
  | arrayClose
  | objectOpen
  | objectClose
  | comma
  | colon
  | null
  | bool (b : Bool)
  | number (n : JsonNumber)
  | string (s : String)

namespace Token

/-- Only these four characters may stand between tokens. -/
def isSpace (c : Char) : Bool := c == ' ' || c == '\n' || c == '\t' || c == '\r'

def hexDigit? (c : Char) : Option Nat :=
  if c.isDigit then some (c.toNat - '0'.toNat)
  else if 'a' ≤ c ∧ c ≤ 'f' then some (c.toNat - 'a'.toNat + 10)
  else if 'A' ≤ c ∧ c ≤ 'F' then some (c.toNat - 'A'.toNat + 10)
  else none

def hexUnit? (a b c d : Char) : Option Nat := do
  return ((← hexDigit? a) * 16 + (← hexDigit? b)) * 256 +
    ((← hexDigit? c) * 16 + (← hexDigit? d))

/-- The character of a high and a low surrogate. -/
def surrogatePair? (high low : Nat) : Option Char :=
  if 0xD800 ≤ high ∧ high < 0xDC00 ∧ 0xDC00 ≤ low ∧ low < 0xE000 then
    some (Char.ofNat (0x10000 + (high - 0xD800) * 0x400 + (low - 0xDC00)))
  else
    none

def unitChar? (unit : Nat) : Option Char :=
  if 0xD800 ≤ unit ∧ unit < 0xE000 then none else some (Char.ofNat unit)

def simpleEscape? : Char → Option Char
  | '"' => some '"'
  | '\\' => some '\\'
  | '/' => some '/'
  | 'b' => some '\x08'
  | 'f' => some '\x0c'
  | 'n' => some '\n'
  | 'r' => some '\r'
  | 't' => some '\t'
  | _ => none

/-- The rest of a string after its opening quote, up to the closing one. -/
def stringBody? : List Char → Option (List Char × List Char)
  | '"' :: rest => some ([], rest)
  | '\\' :: 'u' :: a :: b :: c :: d :: rest =>
    match hexUnit? a b c d with
    | none => none
    | some unit =>
      match unitChar? unit with
      | some char => (stringBody? rest).map fun (body, rest) => (char :: body, rest)
      | none =>
        match rest with
        | '\\' :: 'u' :: e :: f :: g :: h :: rest => do
          let char ← surrogatePair? unit (← hexUnit? e f g h)
          let (body, rest) ← stringBody? rest
          return (char :: body, rest)
        | _ => none
  | '\\' :: c :: rest => do
    let char ← simpleEscape? c
    let (body, rest) ← stringBody? rest
    return (char :: body, rest)
  | c :: rest =>
    if c.toNat < 0x20 ∨ c = '\\' then
      none
    else
      (stringBody? rest).map fun (body, rest) => (c :: body, rest)
  | [] => none

/-- The number that a numeral denotes, if JSON admits the numeral: the whole part has no needless
zero, a point is followed by a digit, and the value is finite. Minus zero is no integer. -/
def number? (n : Numeral) : Option JsonNumber :=
  if n.whole = ['0'] ∨ (n.whole.head?.isSome ∧ n.whole.head? ≠ some '0') then
    if n.fraction = some [] then
      none
    else
      let exact :=
        if n.isWhole ∧ ¬(n.isNegative ∧ n.wholeValue = 0) then
          JsonNumber.ofInt? n.wholeValue
        else
          none
      match exact, n.toDecimal.nearest with
      | some whole, _ => some whole
      | none, .finite x => some (.float x)
      | none, _ => none
  else
    none

/-- The first token of a text that does not start with a space, and what follows it. -/
def first? : List Char → Option (Token × List Char)
  | '[' :: rest => some (.arrayOpen, rest)
  | ']' :: rest => some (.arrayClose, rest)
  | '{' :: rest => some (.objectOpen, rest)
  | '}' :: rest => some (.objectClose, rest)
  | ',' :: rest => some (.comma, rest)
  | ':' :: rest => some (.colon, rest)
  | 'n' :: 'u' :: 'l' :: 'l' :: rest => some (.null, rest)
  | 't' :: 'r' :: 'u' :: 'e' :: rest => some (.bool true, rest)
  | 'f' :: 'a' :: 'l' :: 's' :: 'e' :: rest => some (.bool false, rest)
  | '"' :: rest => (stringBody? rest).map fun (body, rest) => (.string (String.ofList body), rest)
  | c :: rest =>
    if c = '-' ∨ c.isDigit then do
      let (numeral, rest) ← Numeral.scan? Char.isDigit (c :: rest)
      return (.number (← number? numeral), rest)
    else
      none
  | [] => none

/-- Cuts a text into tokens, at most `fuel` of them. -/
def cut : Nat → List Char → Option (List Token)
  | 0, cs => if cs.all isSpace then some [] else none
  | fuel + 1, cs =>
    match cs.dropWhile isSpace with
    | [] => some []
    | cs => do
      let (token, rest) ← first? cs
      return token :: (← cut fuel rest)

/-- The tokens of a text. Each takes at least one character. -/
def all? (cs : List Char) : Option (List Token) := cut cs.length cs

end Token

end Winnow.Json
