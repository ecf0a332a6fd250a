import Winnow.Predicate.Basic

/-!
# Conditions

The text of a predicate as the condition of a query. Parts of a group stand between parentheses if
there are at least two; a group of one reads as its part, and an empty group as a constant.
-/

namespace Winnow.Predicate

/-- Texts with a joiner between them, in parentheses. -/
def groupChars (joiner : List Char) (parts : List (List Char)) : List Char :=
  '(' :: (joiner.intercalate parts ++ [')'])

def comparisonChars (field : String) (op : Comparison) (operand : Scalar) : List Char :=
  if op = .eq ∧ operand = .null then
    field.toList ++ " IS NULL".toList
  else
    field.toList ++ ' ' :: (op.symbol.toList ++ ' ' :: operand.chars)

mutual

def chars : Predicate → List Char
  | .compare field op operand => comparisonChars field op operand
  | .bare field => field.toList
  | .conj [] => "1=1".toList
  | .conj [part] => chars part
  | .conj parts => groupChars " AND ".toList (partChars parts)
  | .disj [] => "1=0".toList
  | .disj [part] => chars part
  | .disj parts => groupChars " OR ".toList (partChars parts)

def partChars : List Predicate → List (List Char)
  | [] => []
  | part :: rest => chars part :: partChars rest

end

theorem partChars_eq (parts : List Predicate) : partChars parts = parts.map chars := by
  induction parts with
  | nil => rfl
  | cons part rest ih => simp [partChars, ih]

def text (p : Predicate) : String := String.ofList p.chars

end Winnow.Predicate
