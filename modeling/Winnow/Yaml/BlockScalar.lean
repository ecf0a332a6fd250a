import Winnow.Yaml.Cursor

/-!
# Block scalars

The lines below a header, as deep as the first of them or as the header says. A literal scalar keeps
line breaks, a folded one joins lines that do not start with a gap. What follows the last line is
kept, cut to one break, or dropped.
-/

namespace Winnow.Yaml.BlockScalar

inductive Chomping where
  | strip
  | clip
  | keep
deriving DecidableEq

structure Header where
  chomping : Chomping := .clip
  /-- How much deeper the lines are than what encloses them, if the header says so. -/
  increment : Option Nat := none

def chomping? : Char → Option Chomping
  | '+' => some .keep
  | '-' => some .strip
  | _ => none

def takeChomping (h : Header) (c : Cursor) : Header × Cursor :=
  match c.rest.head? >>= chomping? with
  | some chomping => ({ h with chomping }, c.advance 1)
  | none => (h, c)

def takeIncrement? (h : Header) (c : Cursor) : Option (Header × Cursor) :=
  match c.rest with
  | char :: _ =>
    if char = '0' then none
    else if char.isDigit then
      some ({ h with increment := some (char.toNat - '0'.toNat) }, c.advance 1)
    else some (h, c)
  | [] => some (h, c)

/-- The header after its mark: a chomping mark and a digit, in either order. -/
def takeHeader? (c : Cursor) : Option (Header × Cursor) := do
  let (h, c) := takeChomping {} c
  let (h, c) ← takeIncrement? h c
  let (h, c) := if h.chomping = .clip then takeChomping h c else (h, c)
  return (h, ← c.endLine?)

/-- Empty lines and the indentation of the next line that is not empty. -/
structure Breaks where
  chars : List Char
  deepest : Nat
  cursor : Cursor

/-- Takes empty lines, and indentation up to `indent`, or all of it if that is not known yet. -/
def takeBreaks? (indent : Option Nat) : Nat → Breaks → Option Breaks
  | 0, breaks => some breaks
  | fuel + 1, breaks =>
    let c := breaks.cursor
    let spaces := (c.takeWhile (· == ' ')).1.length
    let c := c.advance (indent.elim spaces fun indent => min spaces (indent - c.column))
    let deepest := max breaks.deepest c.column
    if c.startsWith '\t' && indent.all (c.column < ·) then
      none
    else if c.atBreak then
      let (chars, c) := c.takeBreak
      takeBreaks? indent fuel ⟨breaks.chars ++ chars, deepest, c⟩
    else
      some ⟨breaks.chars, deepest, c⟩

/-- The lines read so far, and the break and the empty lines behind them. -/
structure Lines where
  text : List Char := []
  lastBreak : List Char := []
  emptyLines : List Char
  /-- The last line starts with a gap. -/
  gapped : Bool := false

/-- What joins the last line to the next. -/
def Lines.joint (folded : Bool) (lines : Lines) (nextGapped : Bool) : List Char :=
  if folded && lines.lastBreak == ['\n'] && !lines.gapped && !nextGapped then
    if lines.emptyLines.isEmpty then [' '] else lines.emptyLines
  else
    lines.lastBreak ++ lines.emptyLines

/-- Takes lines that start at the column `indent`. -/
def takeLines? (folded : Bool) (indent : Nat) : Nat → Lines → Cursor → Option (Lines × Cursor)
  | 0, lines, c => some (lines, c)
  | fuel + 1, lines, c =>
    if c.column = indent ∧ c.rest ≠ [] then do
      let gapped := c.atGap
      let (line, rest) := c.takeLine
      let (lastBreak, rest) := rest.takeBreak
      let breaks ← takeBreaks? (some indent) (rest.rest.length + 1) ⟨[], 0, rest⟩
      let text := lines.text ++ lines.joint folded gapped ++ line
      takeLines? folded indent fuel ⟨text, lastBreak, breaks.chars, gapped⟩ breaks.cursor
    else
      some (lines, c)

/-- The scalar after its mark. `enclosing` is the column of the collection around it, or -1. -/
def take? (folded : Bool) (enclosing : Int) (c : Cursor) : Option (List Char × Cursor) := do
  let (h, c) ← takeHeader? c
  let given : Option Nat := h.increment.map fun increment => enclosing.toNat + increment
  let breaks ← takeBreaks? given (c.rest.length + 1) ⟨[], 0, c⟩
  let indent := given.getD (max (max breaks.deepest (enclosing + 1).toNat) 1)
  let (lines, c) ← takeLines? folded indent (c.rest.length + 1)
    { emptyLines := breaks.chars } breaks.cursor
  let tail :=
    match h.chomping with
    | .strip => []
    | .clip => lines.lastBreak
    | .keep => lines.lastBreak ++ lines.emptyLines
  return (lines.text ++ tail, c)

end Winnow.Yaml.BlockScalar
