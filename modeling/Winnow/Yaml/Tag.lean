import Winnow.Json.Token
import Winnow.Yaml.Cursor

/-!
# Tags

A tag is written whole between angle brackets, or as a handle and a suffix. A handle is an
exclamation mark, or a word between two of them; directives say what a handle stands for. Octets of
a tag may be escaped with a percent sign.
-/

namespace Winnow.Yaml

/-- A tag as written. An empty handle stands for nothing. -/
structure Tag where
  handle : String
  suffix : String
deriving DecidableEq

namespace Tag

/-- An octet written with two hexadecimal digits after a percent sign. -/
def takeOctet? (c : Cursor) : Option (Nat × Cursor) :=
  match c.rest with
  | '%' :: a :: b :: _ => do
    return ((← Json.Token.hexDigit? a) * 16 + (← Json.Token.hexDigit? b), c.advance 3)
  | _ => none

/-- How many octets follow a first octet, and what it adds to the number of the character. -/
def firstOctet? (octet : Nat) : Option (Nat × Nat) :=
  if octet < 0x80 then some (0, octet)
  else if 0xC0 ≤ octet ∧ octet < 0xE0 then some (1, octet - 0xC0)
  else if 0xE0 ≤ octet ∧ octet < 0xF0 then some (2, octet - 0xE0)
  else if 0xF0 ≤ octet ∧ octet < 0xF8 then some (3, octet - 0xF0)
  else none

def takeLaterOctets? : Nat → Nat → Cursor → Option (Nat × Cursor)
  | 0, n, c => some (n, c)
  | more + 1, n, c => do
    let (octet, c) ← takeOctet? c
    if octet / 0x40 = 2 then takeLaterOctets? more (n * 0x40 + octet % 0x40) c else none

def takeEscape? (c : Cursor) : Option (Char × Cursor) := do
  let (octet, c) ← takeOctet? c
  let (more, n) ← firstOctet? octet
  let (n, c) ← takeLaterOctets? more n c
  return (Char.ofNat n, c)

/-- The characters of a tag, escapes resolved. -/
def takeChars? (verbatim : Bool) : Nat → Cursor → List Char → Option (List Char × Cursor)
  | 0, c, taken => some (taken.reverse, c)
  | fuel + 1, c, taken =>
    match c.rest with
    | [] => some (taken.reverse, c)
    | char :: _ =>
      if char = '%' then do
        let (escaped, c) ← takeEscape? c
        takeChars? verbatim fuel c (escaped :: taken)
      else if isTagChar verbatim char then
        takeChars? verbatim fuel (c.advance 1) (char :: taken)
      else
        some (taken.reverse, c)

def takeSuffix? (verbatim : Bool) (c : Cursor) : Option (List Char × Cursor) := do
  let (chars, c) ← takeChars? verbatim c.rest.length c []
  if chars.isEmpty then none else some (chars, c)

/-- An exclamation mark, a word, and perhaps a second exclamation mark. -/
def takeHandle? (c : Cursor) : Option (List Char × Cursor) :=
  if c.startsWith '!' then
    let (word, c) := (c.advance 1).takeWhile isWord
    if c.startsWith '!' then some ('!' :: word ++ ['!'], c.advance 1)
    else some ('!' :: word, c)
  else
    none

/-- A handle that a directive can define: one exclamation mark, or one at both ends. -/
def isHandle (handle : List Char) : Bool :=
  handle == ['!'] || (1 < handle.length && handle.getLast? == some '!')

def takeBody? (c : Cursor) : Option (Tag × Cursor) :=
  if c.at? 1 = some '<' then do
    let (chars, c) ← takeSuffix? true (c.advance 2)
    if c.startsWith '>' then some (⟨"", String.ofList chars⟩, c.advance 1) else none
  else do
    let (handle, c) ← takeHandle? c
    if 1 < handle.length ∧ isHandle handle then
      let (chars, c) ← takeSuffix? false c
      return (⟨String.ofList handle, String.ofList chars⟩, c)
    else
      let (chars, c) ← takeChars? false c.rest.length c []
      match handle.drop 1 ++ chars with
      | [] => return (⟨"", "!"⟩, c)
      | suffix => return (⟨"!", String.ofList suffix⟩, c)

/-- A tag, which a gap or a break has to follow, or in a flow collection a comma. -/
def take? (inFlow : Bool) (c : Cursor) : Option (Tag × Cursor) := do
  let (tag, c) ← takeBody? c
  if c.endsWordAt 0 || (inFlow && c.startsWith ',') then some (tag, c) else none

end Tag

end Winnow.Yaml
