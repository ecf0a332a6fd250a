import Winnow.Yaml.Gap

/-!
# Plain scalars

A plain scalar has no quotes around it. It ends before a colon that ends a word, before a comment
after a gap, before a line that is not indented enough, and in flow collections before their marks.
-/

namespace Winnow.Yaml.PlainScalar

def startsAt (inFlow : Bool) (c : Cursor) : Bool :=
  match c.rest with
  | [] => false
  | char :: more =>
    (!isGap char && !isBreak char && !isIndicator char) ||
      (char == '-' && !more.head?.any isGap) ||
      (!inFlow && (char == '?' || char == ':') && !c.endsWordAt 1)

/-- A run of characters up to a gap, a break or an indicator that ends the scalar. In a flow
collection a colon must not stand right before a mark. -/
def takeRun? (inFlow : Bool) : Nat → Cursor → List Char → Option (List Char × Cursor)
  | 0, c, taken => some (taken.reverse, c)
  | fuel + 1, c, taken =>
    match c.rest with
    | [] => some (taken.reverse, c)
    | char :: more =>
      if isGap char || isBreak char then
        some (taken.reverse, c)
      else if inFlow && char == ':' && more.head?.any (fun d => d == '?' || isFlowMark d) then
        none
      else if (char == ':' && c.endsWordAt 1) || (inFlow && isFlowMark char) then
        some (taken.reverse, c)
      else
        takeRun? inFlow fuel (c.advance 1) (char :: taken)

/-- The text of a plain scalar, the cursor after it, and whether line breaks were skipped behind
its last word. -/
structure Result where
  text : List Char
  cursor : Cursor
  crossedBreak : Bool

/-- Runs and gaps. `floor` is the least column of a continuation line. -/
def takeBody? (inFlow : Bool) (floor : Nat) : Nat → Cursor → List Char → Gap → Option Result
  | 0, c, text, gap => some ⟨text, c, gap.broken⟩
  | fuel + 1, c, text, gap =>
    if c.atDocumentEdge || c.startsWith '#' then
      some ⟨text, c, gap.broken⟩
    else do
      let (run, c) ← takeRun? inFlow c.rest.length c []
      if run.isEmpty then
        return ⟨text, c, gap.broken⟩
      let text := text ++ gap.text ++ run
      if !c.atGap && !c.atBreak then
        return ⟨text, c, false⟩
      let (gap, c) ← c.takeGap? floor {}
      if !inFlow && c.column < floor then
        return ⟨text, c, gap.broken⟩
      takeBody? inFlow floor fuel c text gap

def take? (inFlow : Bool) (floor : Nat) (c : Cursor) : Option Result :=
  takeBody? inFlow floor (c.rest.length + 1) c [] {}

end Winnow.Yaml.PlainScalar
