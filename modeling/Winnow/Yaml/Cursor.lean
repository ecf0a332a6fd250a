import Winnow.Yaml.Character

/-!
# Places in YAML text

A cursor is what remains of a text, with the place where it starts. Indentation is judged by
columns, and the reach of a key by lines and characters.
-/

namespace Winnow.Yaml

structure Cursor where
  rest : List Char
  index : Nat := 0
  line : Nat := 0
  column : Nat := 0

namespace Cursor

def at? (c : Cursor) (distance : Nat) : Option Char := c.rest[distance]?

def startsWith (c : Cursor) (char : Char) : Bool := c.rest.head? == some char

/-- The character at a distance is a gap, a break, or not there. -/
def endsWordAt (c : Cursor) (distance : Nat) : Bool :=
  match c.at? distance with
  | none => true
  | some char => isGap char || isBreak char

def atGap (c : Cursor) : Bool := c.rest.head?.any isGap

def atBreak (c : Cursor) : Bool := c.rest.head?.any isBreak

def atLineEnd (c : Cursor) : Bool := c.rest.head?.all isBreak

def advance (c : Cursor) (count : Nat) : Cursor :=
  { c with rest := c.rest.drop count, index := c.index + count, column := c.column + count }

/-- Moves over a line break of so many characters. -/
def nextLine (c : Cursor) (count : Nat) : Cursor :=
  ⟨c.rest.drop count, c.index + count, c.line + 1, 0⟩

/-- Takes a line break. Breaks read as line feeds, apart from the two separators of Unicode. -/
def takeBreak (c : Cursor) : List Char × Cursor :=
  match c.rest with
  | '\r' :: '\n' :: _ => (['\n'], c.nextLine 2)
  | '\u2028' :: _ => (['\u2028'], c.nextLine 1)
  | '\u2029' :: _ => (['\u2029'], c.nextLine 1)
  | char :: _ => if isBreak char then (['\n'], c.nextLine 1) else ([], c)
  | [] => ([], c)

/-- Takes characters of a class that holds no break. -/
def takeWhile (c : Cursor) (class? : Char → Bool) : List Char × Cursor :=
  let taken := c.rest.takeWhile class?
  (taken, c.advance taken.length)

def skipWhile (c : Cursor) (class? : Char → Bool) : Cursor :=
  (c.takeWhile class?).2

def takeLine (c : Cursor) : List Char × Cursor :=
  c.takeWhile fun char => !isBreak char

/-- Skips gaps and a comment; nothing else may be left of the line. -/
def endLine? (c : Cursor) : Option Cursor :=
  let c := c.skipWhile isGap
  let c := if c.startsWith '#' then c.takeLine.2 else c
  if c.atLineEnd then some c.takeBreak.2 else none

/-- Does a document mark of three equal characters start the line? -/
def atDocumentMark (c : Cursor) (mark : Char) : Bool :=
  c.column == 0 && c.rest.take 3 == [mark, mark, mark] && c.endsWordAt 3

/-- Does a line start that begins or ends a document? -/
def atDocumentEdge (c : Cursor) : Bool :=
  c.atDocumentMark '-' || c.atDocumentMark '.'

end Cursor

end Winnow.Yaml
