import Winnow.Json.Token
import Winnow.Yaml.Gap

/-!
# Quoted scalars

Between single quotes a quote is written twice. Between double quotes a backslash starts an escape,
and before a line break it joins the lines. Line breaks are folded in both.
-/

namespace Winnow.Yaml.QuotedScalar

/-- Escapes of one character. -/
def escapes : List (Char × Char) :=
  [('0', '\x00'), ('a', '\x07'), ('b', '\x08'), ('t', '\t'), ('\t', '\t'), ('n', '\n'),
   ('v', '\x0b'), ('f', '\x0c'), ('r', '\r'), ('e', '\x1b'), (' ', ' '), ('"', '"'), ('/', '/'),
   ('\\', '\\'), ('N', '\u0085'), ('_', '\u00a0'), ('L', '\u2028'), ('P', '\u2029')]

/-- How many hexadecimal digits follow an escape by number. -/
def escapeLength? : Char → Option Nat
  | 'x' => some 2
  | 'u' => some 4
  | 'U' => some 8
  | _ => none

def hexNumber? (cs : List Char) : Option Nat :=
  cs.foldlM (fun n c => (Json.Token.hexDigit? c).map (n * 16 + ·)) 0

/-- The character of an escape after its backslash, and how many characters it takes. -/
def escape? (cs : List Char) : Option (Char × Nat) := do
  let c ← cs.head?
  match escapeLength? c with
  | none => (escapes.lookup c).map (·, 1)
  | some length =>
    let ds := (cs.drop 1).take length
    let n ← hexNumber? ds
    if ds.length = length ∧ n.isValidChar then some (Char.ofNat n, length + 1) else none

/-- A run of characters without gaps and breaks. It ends before a gap, a break or the closing
quote, or with an escaped line break. -/
structure Run where
  chars : List Char
  cursor : Cursor
  joinsLines : Bool := false

def takeRun? (single : Bool) : Nat → Cursor → List Char → Option Run
  | 0, _, _ => none
  | fuel + 1, c, taken =>
    let done (c : Cursor) (joinsLines : Bool) : Option Run := some ⟨taken.reverse, c, joinsLines⟩
    match c.rest with
    | [] => done c false
    | char :: more =>
      if isGap char || isBreak char then
        done c false
      else if single then
        if char = '\'' then
          if more.head? = some '\'' then takeRun? single fuel (c.advance 2) ('\'' :: taken)
          else done c false
        else
          takeRun? single fuel (c.advance 1) (char :: taken)
      else if char = '"' then
        done c false
      else if char = '\\' then
        if more.head?.any isBreak then
          done (c.advance 1).takeBreak.2 true
        else
          match escape? more with
          | some (escaped, length) =>
            takeRun? single fuel (c.advance (length + 1)) (escaped :: taken)
          | none => none
      else
        takeRun? single fuel (c.advance 1) (char :: taken)

/-- Runs and gaps up to the closing quote. No document mark may start a line. -/
def takeBody? (single : Bool) : Nat → Cursor → List Char → Option (List Char × Cursor)
  | 0, _, _ => none
  | fuel + 1, c, text =>
    if c.atDocumentEdge || c.rest.isEmpty then
      none
    else do
      let run ← takeRun? single (c.rest.length + 1) c []
      let text := text ++ run.chars
      if run.cursor.startsWith (if single then '\'' else '"') then
        return (text, run.cursor.advance 1)
      else
        let (gap, c) ← run.cursor.takeGap? 0 { broken := run.joinsLines }
        takeBody? single fuel c (text ++ gap.text)

/-- The scalar that follows an opening quote, and the cursor after its closing quote. -/
def take? (single : Bool) (c : Cursor) : Option (List Char × Cursor) :=
  takeBody? single (c.rest.length + 1) c []

end Winnow.Yaml.QuotedScalar
