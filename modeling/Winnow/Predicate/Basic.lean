import Winnow.Comparison
import Winnow.Scalar

/-!
# Predicates

A predicate compares fields with operands, or asks whether a field's value is truthy, under
conjunctions and disjunctions of any number of parts.
-/

namespace Winnow

inductive Predicate where
  | compare (field : String) (op : Comparison) (operand : Scalar)
  /-- A bare field, which holds where the field's value is truthy. -/
  | bare (field : String)
  | conj (parts : List Predicate)
  | disj (parts : List Predicate)

namespace Predicate

mutual

/-- The fields that a predicate refers to, in order of appearance. -/
def fields : Predicate → List String
  | .compare field _ _ => [field]
  | .bare field => [field]
  | .conj parts => partFields parts
  | .disj parts => partFields parts

def partFields : List Predicate → List String
  | [] => []
  | part :: rest => fields part ++ partFields rest

end

theorem partFields_eq (parts : List Predicate) : partFields parts = parts.flatMap fields := by
  induction parts with
  | nil => rfl
  | cons part rest ih => simp [partFields, ih]

/-- The empty conjunction holds of every record. -/
def isTrivial : Predicate → Bool
  | .conj [] => true
  | _ => false

mutual

def decEq : (p q : Predicate) → Decidable (p = q)
  | .compare f op v, .compare g op' w =>
    decidable_of_iff (f = g ∧ op = op' ∧ v = w) (by simp)
  | .bare f, .bare g => decidable_of_iff (f = g) (by simp)
  | .conj ps, .conj qs =>
    have := decEqParts ps qs
    decidable_of_iff (ps = qs) (by simp)
  | .disj ps, .disj qs =>
    have := decEqParts ps qs
    decidable_of_iff (ps = qs) (by simp)
  | .compare .., .bare _ | .compare .., .conj _ | .compare .., .disj _
  | .bare _, .compare .. | .bare _, .conj _ | .bare _, .disj _
  | .conj _, .compare .. | .conj _, .bare _ | .conj _, .disj _
  | .disj _, .compare .. | .disj _, .bare _ | .disj _, .conj _ => isFalse (by simp)

def decEqParts : (ps qs : List Predicate) → Decidable (ps = qs)
  | [], [] => isTrue rfl
  | [], _ :: _ | _ :: _, [] => isFalse (by simp)
  | p :: ps, q :: qs =>
    have := decEq p q
    have := decEqParts ps qs
    decidable_of_iff (p = q ∧ ps = qs) (by simp)

end

instance : DecidableEq Predicate := decEq

end Predicate

end Winnow
