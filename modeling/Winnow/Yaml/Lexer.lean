import Winnow.Yaml.BlockScalar
import Winnow.Yaml.PlainScalar
import Winnow.Yaml.QuotedScalar
import Winnow.Yaml.Token

/-!
# From YAML text to tokens

Two things are not seen in the text at the place where their tokens belong. Block collections start
and end by indentation. And a key without a mark of its own is known only by the colon behind it; so
the lexer remembers where a key may have started and puts the tokens in there.
-/

namespace Winnow.Yaml

/-- Where a key without a mark may have started. -/
structure PossibleKey where
  /-- At the indentation of a block mapping there has to be a key. -/
  required : Bool
  /-- How many tokens come before it. -/
  place : Nat
  index : Nat
  line : Nat
  column : Nat

structure Lexer where
  cursor : Cursor
  /-- The tokens so far, the last one first. -/
  tokens : List Token := []
  /-- The column of the innermost block collection, or -1. -/
  indent : Int := -1
  /-- The columns of the collections around it. -/
  outer : List Int := []
  /-- The possible key of each open flow collection, innermost first. -/
  flowKeys : List (Option PossibleKey) := []
  blockKey : Option PossibleKey := none
  /-- May a key without a mark start here? -/
  keyAllowed : Bool := true

namespace Lexer

def inFlow (l : Lexer) : Bool := !l.flowKeys.isEmpty

def emit (l : Lexer) (token : Token) : Lexer :=
  { l with tokens := token :: l.tokens }

/-- Puts a token before all but the first `place` tokens. -/
def emitAt (l : Lexer) (place : Nat) (token : Token) : Lexer :=
  { l with tokens := l.tokens.insertIdx (l.tokens.length - place) token }

def moveTo (l : Lexer) (cursor : Cursor) : Lexer := { l with cursor }

def allowKey (l : Lexer) (keyAllowed : Bool) : Lexer := { l with keyAllowed }

/-! Indentation. -/

/-- Opens a block collection if the column is deeper than the current one. -/
def openBlock (l : Lexer) (column place : Nat) (start : Token) : Lexer :=
  if !l.inFlow && l.indent < column then
    { l.emitAt place start with indent := column, outer := l.indent :: l.outer }
  else
    l

/-- Closes the innermost of the given columns while they are deeper than `column`. -/
def closeColumns (column : Int) (l : Lexer) : List Int → Lexer
  | [] => l
  | outer :: rest =>
    if column < l.indent then
      closeColumns column { l.emit .blockEnd with indent := outer, outer := rest } rest
    else
      l

def closeBlocks (l : Lexer) (column : Int) : Lexer :=
  if l.inFlow then l else closeColumns column l l.outer

/-! Possible keys. -/

def possibleKey (l : Lexer) : Option PossibleKey :=
  match l.flowKeys with
  | key :: _ => key
  | [] => l.blockKey

def setKey (l : Lexer) (key : Option PossibleKey) : Lexer :=
  match l.flowKeys with
  | _ :: rest => { l with flowKeys := key :: rest }
  | [] => { l with blockKey := key }

/-- Gives up the possible key, unless it is required. -/
def dropKey? (l : Lexer) : Option Lexer :=
  if l.possibleKey.any PossibleKey.required then none else some (l.setKey none)

def noteKey? (l : Lexer) : Option Lexer :=
  if l.keyAllowed then do
    let c := l.cursor
    let required := !l.inFlow && l.indent == c.column
    return (← l.dropKey?).setKey (some ⟨required, l.tokens.length, c.index, c.line, c.column⟩)
  else
    some l

/-- A key stays within one line and 1024 characters. -/
def PossibleKey.reaches (key : PossibleKey) (c : Cursor) : Bool :=
  key.line == c.line && c.index ≤ key.index + 1024

/-- Gives up a key that does not reach the cursor, unless it is required. -/
def refreshKey? (c : Cursor) : Option PossibleKey → Option (Option PossibleKey)
  | none => some none
  | some key =>
    if PossibleKey.reaches key c then some (some key)
    else if key.required then none
    else some none

def refreshKeys? (l : Lexer) : Option Lexer := do
  return { l with
    blockKey := ← refreshKey? l.cursor l.blockKey
    flowKeys := ← l.flowKeys.mapM (refreshKey? l.cursor) }

/-! Between tokens. -/

/-- Skips gaps, comments and breaks. A tab counts as a gap where it cannot be taken for
indentation. -/
def skipGaps : Nat → Lexer → Lexer
  | 0, l => l
  | fuel + 1, l =>
    let c := l.cursor
    let c := if c.column == 0 && c.startsWith byteOrderMark then c.advance 1 else c
    let c := c.skipWhile fun char =>
      char == ' ' || (char == '\t' && (l.inFlow || !l.keyAllowed))
    let c := if c.startsWith '#' then c.takeLine.2 else c
    if c.atBreak then
      skipGaps fuel { l with cursor := c.takeBreak.2, keyAllowed := l.keyAllowed || !l.inFlow }
    else
      l.moveTo c

/-! Tokens. -/

def mark (l : Lexer) (length : Nat) (token : Token) : Lexer :=
  (l.emit token).moveTo (l.cursor.advance length)

/-- A token that nothing of the blocks before it reaches beyond. -/
def atEdge? (l : Lexer) : Option Lexer := do
  return (← (l.closeBlocks (-1)).dropKey?).allowKey false

def takeNumber? (c : Cursor) : Option (Nat × Cursor) :=
  let (ds, c) := c.takeWhile Char.isDigit
  if ds.isEmpty ∨ 9 < ds.length then none else some (digitsValue ds, c)

def versionDirective? (c : Cursor) : Option (Token × Cursor) := do
  let (major, c) ← takeNumber? (c.skipWhile isGap)
  if c.startsWith '.' then
    let (minor, c) ← takeNumber? (c.advance 1)
    return (.version major minor, c)
  else
    none

def handleDirective? (c : Cursor) : Option (Token × Cursor) := do
  let (handle, c) ← Tag.takeHandle? (c.skipWhile isGap)
  if Tag.isHandle handle ∧ c.atGap then
    let (meaning, c) ← Tag.takeSuffix? true (c.skipWhile isGap)
    if c.endsWordAt 0 then
      return (.handle (String.ofList handle) (String.ofList meaning), c)
    else
      none
  else
    none

def directive? (l : Lexer) : Option Lexer := do
  let l ← l.atEdge?
  let (name, c) := (l.cursor.advance 1).takeWhile isWord
  if c.endsWordAt 0 then
    let (token, c) ←
      if name = ['Y', 'A', 'M', 'L'] then versionDirective? c
      else if name = ['T', 'A', 'G'] then handleDirective? c
      else none
    return (l.emit token).moveTo (← c.endLine?)
  else
    none

def documentMark? (l : Lexer) (token : Token) : Option Lexer := do
  return (← l.atEdge?).mark 3 token

def openFlow? (l : Lexer) (token : Token) : Option Lexer := do
  let l ← l.noteKey?
  return ({ l with flowKeys := none :: l.flowKeys, keyAllowed := true }).mark 1 token

def closeFlow? (l : Lexer) (token : Token) : Option Lexer := do
  let l ← l.dropKey?
  return ({ l with flowKeys := l.flowKeys.drop 1, keyAllowed := false }).mark 1 token

def flowEntry? (l : Lexer) : Option Lexer := do
  return ((← l.dropKey?).allowKey true).mark 1 .flowEntry

/-- Opens a block collection at a mark. The mark may stand only where a key may. -/
def openAtMark? (l : Lexer) (start : Token) : Option Lexer :=
  if l.inFlow then some l
  else if l.keyAllowed then some (l.openBlock l.cursor.column l.tokens.length start)
  else none

def blockEntry? (l : Lexer) : Option Lexer := do
  let l ← (← l.openAtMark? .blockSequence).dropKey?
  return (l.allowKey true).mark 1 .blockEntry

def key? (l : Lexer) : Option Lexer := do
  let l ← (← l.openAtMark? .blockMapping).dropKey?
  return (l.allowKey !l.inFlow).mark 1 .key

/-- A colon makes the possible key a key. Without one it is the value of an empty key. -/
def value? (l : Lexer) : Option Lexer := do
  let l ←
    match l.possibleKey with
    | some key =>
      pure ((((l.emitAt key.place .key).openBlock key.column key.place .blockMapping).setKey
        none).allowKey false)
    | none => (·.allowKey !l.inFlow) <$> l.openAtMark? .blockMapping
  return l.mark 1 .value

def takeName? (c : Cursor) : Option (String × Cursor) :=
  let (name, c) := (c.advance 1).takeWhile isWord
  let ends := c.endsWordAt 0 || c.rest.head?.any ("?:,]\x7d%@`".contains ·)
  if !name.isEmpty && ends then some (String.ofList name, c) else none

def reference? (l : Lexer) : Option Lexer := do
  let l ← l.noteKey?
  let (name, c) ← takeName? l.cursor
  return ((l.allowKey false).emit (.reference name)).moveTo c

def anchor? (l : Lexer) : Option Lexer := do
  let l ← l.noteKey?
  let (name, c) ← takeName? l.cursor
  return ((l.allowKey false).emit (.anchor name)).moveTo c

def tag? (l : Lexer) : Option Lexer := do
  let l ← l.noteKey?
  let (tag, c) ← Tag.take? l.inFlow l.cursor
  return ((l.allowKey false).emit (.tag tag)).moveTo c

def blockScalar? (l : Lexer) (folded : Bool) : Option Lexer := do
  let l ← l.dropKey?
  let (text, c) ← BlockScalar.take? folded l.indent (l.cursor.advance 1)
  return ((l.allowKey true).emit (.scalar false (String.ofList text))).moveTo c

def quotedScalar? (l : Lexer) (single : Bool) : Option Lexer := do
  let l ← l.noteKey?
  let (text, c) ← QuotedScalar.take? single (l.cursor.advance 1)
  return ((l.allowKey false).emit (.scalar false (String.ofList text))).moveTo c

def plainScalar? (l : Lexer) : Option Lexer := do
  let l ← l.noteKey?
  let result ← PlainScalar.take? l.inFlow (l.indent + 1).toNat l.cursor
  return ((l.allowKey result.crossedBreak).emit
    (.scalar true (String.ofList result.text))).moveTo result.cursor

def token? (l : Lexer) (char : Char) : Option Lexer :=
  let c := l.cursor
  let word := l.inFlow || c.endsWordAt 1
  if c.column == 0 && char == '%' then l.directive?
  else if c.atDocumentMark '-' then l.documentMark? .documentStart
  else if c.atDocumentMark '.' then l.documentMark? .documentEnd
  else if char == '[' then l.openFlow? .flowSequence
  else if char == '\x7b' then l.openFlow? .flowMapping
  else if char == ']' then l.closeFlow? .flowSequenceEnd
  else if char == '\x7d' then l.closeFlow? .flowMappingEnd
  else if char == ',' then l.flowEntry?
  else if char == '-' && c.endsWordAt 1 then l.blockEntry?
  else if char == '?' && word then l.key?
  else if char == ':' && word then l.value?
  else if char == '*' then l.reference?
  else if char == '&' then l.anchor?
  else if char == '!' then l.tag?
  else if char == '|' && !l.inFlow then l.blockScalar? false
  else if char == '>' && !l.inFlow then l.blockScalar? true
  else if char == '\'' then l.quotedScalar? true
  else if char == '"' then l.quotedScalar? false
  else if PlainScalar.startsAt l.inFlow c then l.plainScalar?
  else none

/-- Takes all tokens. Each takes at least one character, so `fuel` need not exceed the text. -/
def run? : Nat → Lexer → Option Lexer
  | 0, _ => none
  | fuel + 1, l => do
    let l := skipGaps (l.cursor.rest.length + 1) l
    let l ← l.refreshKeys?
    let l := l.closeBlocks l.cursor.column
    match l.cursor.rest with
    | [] => l.atEdge?
    | char :: _ => run? fuel (← l.token? char)

end Lexer

def Token.all? (text : String) : Option (List Token) := do
  let cs := text.toList
  let cs := if cs.head? = some byteOrderMark then cs.drop 1 else cs
  if cs.all isPrintable then
    let l ← Lexer.run? (cs.length + 1) { cursor := { rest := cs } }
    return l.tokens.reverse
  else
    none

end Winnow.Yaml
