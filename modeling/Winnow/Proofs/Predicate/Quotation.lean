import Winnow.Proofs.Predicate.Condition

/-!
# Literals in conditions

A condition is made of the literals of its operands and of what stands between these. The literal of
a string ends with the quote that closes it, whatever the string is, unless another quote follows;
and in a condition a literal is followed by a blank or a parenthesis, or by nothing.
-/

namespace Winnow

namespace Literal

/-- The string whose literal starts a text, and what follows the literal. -/
def readString? : List Char → Option (String × List Char)
  | '\'' :: cs => (readQuoted cs).map fun (s, rest) => (String.ofList s, rest)
  | _ => none

theorem readString?_chars (s : String) {rest : List Char}
    (unquoted : ∀ c ∈ rest.head?, c ≠ '\'') :
    readString? ((Scalar.string s).chars ++ rest) = some (s, rest) := by
  rw [Scalar.chars, Scalar.quoted, List.cons_append, List.append_assoc, List.singleton_append,
    readString?, readQuoted_flatMap s.toList unquoted]
  change some (String.ofList s.toList, rest) = _
  rw [String.ofList_toList]

end Literal

/-- A piece of the text of a condition. -/
inductive Piece where
  | operand (value : Scalar)
  /-- What stands before a literal, between two of them or after the last one. -/
  | between (cs : List Char)
deriving DecidableEq

namespace Piece

def chars : Piece → List Char
  | .operand value => value.chars
  | .between cs => cs

def operand? : Piece → Option Scalar
  | .operand value => some value
  | .between _ => none

/-- Where some pieces are followed by a text, the literals among them end as literals do. -/
def LiteralsEnd (rest : List Char) : List Piece → Prop
  | [] => True
  | .operand _ :: pieces =>
    Literal.EndsBefore (pieces.flatMap chars ++ rest) ∧ LiteralsEnd rest pieces
  | .between _ :: pieces => LiteralsEnd rest pieces

theorem literalsEnd_append_iff {first second : List Piece} {rest : List Char} :
    LiteralsEnd rest (first ++ second) ↔
      LiteralsEnd (second.flatMap chars ++ rest) first ∧ LiteralsEnd rest second := by
  induction first with
  | nil => simp [LiteralsEnd]
  | cons piece first ih =>
      cases piece with
      | operand value =>
          rw [List.cons_append, LiteralsEnd, LiteralsEnd, ih, List.flatMap_append,
            List.append_assoc, and_assoc]
      | between cs => exact ih

theorem LiteralsEnd.endsBefore {before after : List Piece} {value : Scalar} {rest : List Char}
    (ends : LiteralsEnd rest (before ++ .operand value :: after)) :
    Literal.EndsBefore (after.flatMap chars ++ rest) :=
  (literalsEnd_append_iff.mp ends).2.1

end Piece

namespace Predicate

mutual

/-- The operands of all comparisons of a predicate, in order of appearance. -/
def operands : Predicate → List Scalar
  | .compare _ _ operand => [operand]
  | .bare _ => []
  | .conj parts => partOperands parts
  | .disj parts => partOperands parts

def partOperands : List Predicate → List Scalar
  | [] => []
  | part :: rest => operands part ++ partOperands rest

end

theorem partOperands_eq (parts : List Predicate) : partOperands parts = parts.flatMap operands := by
  induction parts with
  | nil => rfl
  | cons part rest ih => rw [partOperands, List.flatMap_cons, ih]

theorem operands_combine (connective : Connective) (parts : List Predicate) :
    (connective.combine parts).operands = parts.flatMap operands := by
  rw [← partOperands_eq]
  cases connective <;> rfl

/-- What a comparison has before its operand. -/
def openingChars (field : String) (op : Comparison) (operand : Scalar) : List Char :=
  let symbol := if op = .eq ∧ operand = .null then "IS" else op.symbol
  field.toList ++ ' ' :: (symbol.toList ++ [' '])

/-- The pieces of a group from the end of its first part on. -/
def othersPieces (connective : Connective) (others : List (List Piece)) : List Piece :=
  others.foldr (fun part tail => .between connective.joiner :: (part ++ tail)) [.between [')']]

theorem othersPieces_cons (connective : Connective) (part : List Piece)
    (others : List (List Piece)) :
    othersPieces connective (part :: others) =
      .between connective.joiner :: (part ++ othersPieces connective others) := rfl

def groupPieces (connective : Connective) : List (List Piece) → List Piece
  | [] => [.between (connective.combine []).chars]
  | [part] => part
  | first :: others => .between ['('] :: (first ++ othersPieces connective others)

mutual

/-- The text of a predicate as a condition, cut at its literals. -/
def pieces : Predicate → List Piece
  | .compare field op operand => [.between (openingChars field op operand), .operand operand]
  | .bare field => [.between field.toList]
  | .conj parts => groupPieces .all (partPieces parts)
  | .disj parts => groupPieces .any (partPieces parts)

def partPieces : List Predicate → List (List Piece)
  | [] => []
  | part :: rest => pieces part :: partPieces rest

end

theorem partPieces_eq (parts : List Predicate) : partPieces parts = parts.map pieces := by
  induction parts with
  | nil => rfl
  | cons part rest ih => rw [partPieces, List.map_cons, ih]

theorem pieces_combine (connective : Connective) (parts : List Predicate) :
    (connective.combine parts).pieces = groupPieces connective (parts.map pieces) := by
  rw [← partPieces_eq]
  cases connective <;> rfl

/-! The pieces make up the text. -/

theorem openingChars_append (field : String) (op : Comparison) (operand : Scalar) :
    openingChars field op operand ++ operand.chars = comparisonChars field op operand := by
  rw [openingChars, comparisonChars]
  by_cases null : op = .eq ∧ operand = .null
  · rw [if_pos null, if_pos null, null.2]
    simp [Scalar.chars]
  · rw [if_neg null, if_neg null]
    simp

theorem flatMap_chars_othersPieces (connective : Connective) {others : List Predicate}
    (each : ∀ part ∈ others, part.pieces.flatMap Piece.chars = part.chars) (rest : List Char) :
    (othersPieces connective (others.map pieces)).flatMap Piece.chars ++ rest =
      othersChars connective others rest := by
  induction others with
  | nil => rfl
  | cons part others ih =>
      obtain ⟨first, tail⟩ := List.forall_mem_cons.mp each
      rw [List.map_cons, othersPieces_cons, List.flatMap_cons, List.flatMap_append, first,
        List.append_assoc, List.append_assoc, ih tail]
      rfl

theorem flatMap_chars_pieces (p : Predicate) : p.pieces.flatMap Piece.chars = p.chars := by
  induction p using Predicate.induction with
  | compare field op operand =>
      rw [chars, ← openingChars_append, pieces]
      simp [Piece.chars]
  | bare field => simp [pieces, chars, Piece.chars]
  | group connective parts ih =>
      rw [pieces_combine]
      cases parts with
      | nil => simp [groupPieces, Piece.chars]
      | cons first others =>
          obtain ⟨head, tail⟩ := List.forall_mem_cons.mp ih
          cases others with
          | nil =>
              rw [chars_single, ← head]
              rfl
          | cons second others =>
              have text := chars_several_append connective first second others []
              rw [List.append_nil, ← flatMap_chars_othersPieces connective tail [],
                List.append_nil, ← head, ← List.flatMap_append] at text
              exact text.symm

theorem filterMap_operand?_othersPieces (connective : Connective) {others : List Predicate}
    (each : ∀ part ∈ others, part.pieces.filterMap Piece.operand? = part.operands) :
    (othersPieces connective (others.map pieces)).filterMap Piece.operand? =
      others.flatMap operands := by
  induction others with
  | nil => rfl
  | cons part others ih =>
      obtain ⟨first, tail⟩ := List.forall_mem_cons.mp each
      rw [List.flatMap_cons, ← first, ← ih tail, ← List.filterMap_append]
      rfl

/-- Each operand has its literal in the text. -/
theorem filterMap_operand?_pieces (p : Predicate) :
    p.pieces.filterMap Piece.operand? = p.operands := by
  induction p using Predicate.induction with
  | compare field op operand => rfl
  | bare field => rfl
  | group connective parts ih =>
      rw [pieces_combine, operands_combine]
      cases parts with
      | nil => rfl
      | cons first others =>
          obtain ⟨head, tail⟩ := List.forall_mem_cons.mp ih
          cases others with
          | nil =>
              rw [List.flatMap_singleton, ← head]
              rfl
          | cons second others =>
              rw [List.flatMap_cons, ← head, ← filterMap_operand?_othersPieces connective tail,
                ← List.filterMap_append]
              rfl

/-! What follows the literals. -/

/-- A part is followed by a joiner or by the parenthesis of its group. -/
theorem endsBefore_othersPieces (connective : Connective) (others : List Predicate)
    (rest : List Char) :
    Literal.EndsBefore
      ((othersPieces connective (others.map pieces)).flatMap Piece.chars ++ rest) := by
  rw [flatMap_chars_othersPieces connective (fun part _ => flatMap_chars_pieces part) rest]
  exact (follows_othersChars connective others rest).endsBefore

theorem literalsEnd_othersPieces {connective : Connective} {others : List Predicate}
    (each : ∀ part ∈ others, ∀ {rest}, Literal.EndsBefore rest → Piece.LiteralsEnd rest part.pieces)
    (rest : List Char) : Piece.LiteralsEnd rest (othersPieces connective (others.map pieces)) := by
  induction others with
  | nil => trivial
  | cons part others ih =>
      obtain ⟨first, tail⟩ := List.forall_mem_cons.mp each
      have ends := endsBefore_othersPieces connective others rest
      exact Piece.literalsEnd_append_iff.mpr ⟨first ends, ih tail⟩

theorem literalsEnd_pieces (p : Predicate) {rest : List Char} (ends : Literal.EndsBefore rest) :
    Piece.LiteralsEnd rest p.pieces := by
  induction p using Predicate.induction generalizing rest with
  | compare field op operand => exact ⟨ends, trivial⟩
  | bare field => trivial
  | group connective parts ih =>
      rw [pieces_combine]
      cases parts with
      | nil => trivial
      | cons first others =>
          obtain ⟨head, tail⟩ := List.forall_mem_cons.mp ih
          cases others with
          | nil => exact head ends
          | cons second others =>
              have follows := endsBefore_othersPieces connective (second :: others) rest
              exact Piece.literalsEnd_append_iff.mpr
                ⟨head follows, literalsEnd_othersPieces tail rest⟩

/-- The literal of a string is read as the string, up to its closing quote, whatever follows it but
a quote. In the text of a predicate each operand has its literal, and nothing, a blank or a
parenthesis follows it, so that its strings are read back where they stand. -/
theorem literals_confined (p : Predicate) :
    (∀ (s : String) (rest : List Char), rest.head? ≠ some '\'' →
      Literal.readString? ((Scalar.string s).text.toList ++ rest) = some (s, rest)) ∧
    p.text = String.ofList (p.pieces.flatMap Piece.chars) ∧
    p.pieces.filterMap Piece.operand? = p.operands ∧
    ∀ before operand after, p.pieces = before ++ .operand operand :: after →
      (∀ c ∈ (after.flatMap Piece.chars).head?, c = ' ' ∨ c = ')') ∧
      ∀ s, operand = .string s →
        Literal.readString? (operand.text.toList ++ after.flatMap Piece.chars) =
          some (s, after.flatMap Piece.chars) := by
  have closes (s : String) (rest : List Char) (unquoted : rest.head? ≠ some '\'') :
      Literal.readString? ((Scalar.string s).text.toList ++ rest) = some (s, rest) := by
    rw [Scalar.text, String.toList_ofList]
    exact Literal.readString?_chars s fun c first quote => unquoted (quote ▸ first)
  refine ⟨closes, ?_, filterMap_operand?_pieces p, ?_⟩
  · rw [text, flatMap_chars_pieces]
  · intro before operand after cut
    have nothing : Literal.EndsBefore [] := fun c first => by cases first
    have ends : Literal.EndsBefore (after.flatMap Piece.chars) := by
      have all := literalsEnd_pieces p nothing
      rw [cut] at all
      simpa using all.endsBefore
    refine ⟨ends, fun s same => ?_⟩
    rw [same]
    refine closes s _ fun quote => ?_
    rcases ends '\'' quote with blank | close
    · cases blank
    · cases close

/-- A string that seems to close its literal and its group. -/
theorem literals_confined_parenthesis :
    let name : Scalar := .string "') OR ('"
    let p : Predicate := .disj [.compare "name" .eq name, .bare "active"]
    p.text = "(name = ''') OR (''' OR active)" ∧
      Literal.readString? (name.text.toList ++ [',']) = some ("') OR ('", [',']) ∧
      Literal.readString? (name.text.toList ++ " OR active)".toList) =
        some ("') OR ('", " OR active)".toList) := by
  intro name p
  obtain ⟨closes, _, _, each⟩ := literals_confined p
  let before : List Piece := [.between ['('], .between "name = ".toList]
  let after : List Piece := [.between " OR ".toList, .between "active".toList, .between [')']]
  have cut : p.pieces = before ++ .operand name :: after := by decide +kernel
  have following : after.flatMap Piece.chars = " OR active)".toList := by decide +kernel
  exact ⟨by decide +kernel, closes _ _ (by decide), following ▸ (each _ name _ cut).2 _ rfl⟩

end Predicate

end Winnow
