import Winnow.Yaml.Cursor

/-!
# Gaps and folding

Between two words of a scalar stand gap characters and line breaks. Within a line they are kept. A
single line break reads as a space, and of several line feeds the first is dropped.
-/

namespace Winnow.Yaml

/-- What stands between two words. -/
structure Gap where
  /-- Gap characters before the first break. -/
  spaces : List Char := []
  broken : Bool := false
  firstBreak : List Char := []
  laterBreaks : List Char := []

namespace Gap

def text (gap : Gap) : List Char :=
  if gap.broken then
    if gap.firstBreak = ['\n'] then
      if gap.laterBreaks.isEmpty then [' '] else gap.laterBreaks
    else
      gap.firstBreak ++ gap.laterBreaks
  else
    gap.spaces

def addBreak (gap : Gap) (chars : List Char) : Gap :=
  if gap.broken then
    { gap with laterBreaks := gap.laterBreaks ++ chars }
  else
    { gap with spaces := [], broken := true, firstBreak := chars }

/-- Takes gap characters and breaks. After a break, no tab may stand before the column `floor`. -/
def take? (floor : Nat) : Nat → Gap → Cursor → Option (Gap × Cursor)
  | 0, gap, c => some (gap, c)
  | fuel + 1, gap, c =>
    match c.rest with
    | [] => some (gap, c)
    | char :: _ =>
      if isGap char then
        if gap.broken then
          if char = '\t' ∧ c.column < floor then none
          else take? floor fuel gap (c.advance 1)
        else
          take? floor fuel { gap with spaces := gap.spaces ++ [char] } (c.advance 1)
      else if isBreak char then
        let (chars, c) := c.takeBreak
        take? floor fuel (gap.addBreak chars) c
      else
        some (gap, c)

end Gap

def Cursor.takeGap? (c : Cursor) (floor : Nat) (gap : Gap) : Option (Gap × Cursor) :=
  Gap.take? floor c.rest.length gap c

end Winnow.Yaml
