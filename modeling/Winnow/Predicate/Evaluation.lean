import Std.Data.HashMap
import Std.Data.TreeMap
import Winnow.Fault
import Winnow.Predicate.Basic

/-!
# Evaluating predicates

A record gives values to some fields. A predicate holds of a record or not, or it refers to a field
that the record lacks. Groups are evaluated from left to right and only as far as needed.
-/

namespace Winnow

/-- Field access. A field that is there and has no value gives `some .null`. -/
class Record (ρ : Type) where
  value? : ρ → String → Option Scalar

instance : Record (Std.HashMap String Scalar) where
  value? record field := record[field]?

instance : Record (Std.TreeMap String Scalar) where
  value? record field := record[field]?

/-- Arrays and objects in a record read as null. -/
instance : Record Mapping where
  value? record field :=
    (Entries.get? record field).map fun json => (Scalar.ofJson? json).getD .null

namespace Predicate

variable {ρ : Type} [Record ρ]

def lookup (record : ρ) (field : String) : Except Fault Scalar :=
  match Record.value? record field with
  | some value => .ok value
  | none => .error (.invalidField field)

/-- Does a value stand to an operand as the operator asks? Values of different kinds stand in no
order. Equality with null asks for null, and nothing else holds of null as an operand. -/
def holds (value : Scalar) (op : Comparison) (operand : Scalar) : Bool :=
  if operand.isNull then
    op == .eq && value.isNull
  else
    (value.compare? operand).any op.admits

mutual

def eval (record : ρ) : Predicate → Except Fault Bool
  | .compare field op operand => do
    return holds (← lookup record field) op operand
  | .bare field => do
    return (← lookup record field).isTruthy
  | .conj parts => evalAll record parts
  | .disj parts => evalAny record parts

/-- Stops at the first part that does not hold. -/
def evalAll (record : ρ) : List Predicate → Except Fault Bool
  | [] => return true
  | part :: rest => do
    if ← eval record part then evalAll record rest else return false

/-- Stops at the first part that holds. -/
def evalAny (record : ρ) : List Predicate → Except Fault Bool
  | [] => return false
  | part :: rest => do
    if ← eval record part then return true else evalAny record rest

end

/-- The records of which a predicate holds, in order. The first fault ends the search. -/
def filter (p : Predicate) : List ρ → Except Fault (List ρ)
  | [] => return []
  | record :: rest => do
    if ← p.eval record then
      return record :: (← p.filter rest)
    else
      p.filter rest

def count (p : Predicate) (records : List ρ) : Except Fault Nat :=
  List.length <$> p.filter records

end Predicate

end Winnow
