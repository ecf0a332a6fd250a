import Winnow.Fault
import Winnow.Scalar
import Winnow.Json.Printer

/-!
# Restrictions

A restriction is an operator tag with an operand, read from a mapping that has both. A string tag is
looked up; any other value stands for an unknown tag, which is its JSON text.
-/

namespace Winnow

inductive Operand where
  | scalar (value : Scalar)
  | list (items : List Scalar)
deriving DecidableEq

namespace Operand

def scalar? : Operand → Option Scalar
  | .scalar value => some value
  | .list _ => none

def pair? : Operand → Option (Scalar × Scalar)
  | .list [low, high] => some (low, high)
  | _ => none

/-- The operand that a value stands for: a scalar, or a list of scalars. -/
def read (place : Place) (json : Json) : Except Fault Operand :=
  match Scalar.ofJson? json with
  | some value => .ok (.scalar value)
  | none =>
    match json with
    | .array items =>
      Operand.list <$> items.mapM fun item =>
        match Scalar.ofJson? item with
        | some value => .ok value
        | none => .error (.malformedDemand place .nestedOperand)
    | _ => .error (.malformedDemand place .notOperand)

end Operand

structure Restriction where
  operator : OperatorTag
  operand : Operand
deriving DecidableEq

namespace Restriction

def compare (op : Comparison) (value : Scalar) : Restriction :=
  ⟨.compare op, .scalar value⟩

def range (low high : Scalar) : Restriction :=
  ⟨.range, .list [low, high]⟩

def operatorTag : Json → OperatorTag
  | .string tag => .ofText tag
  | json => .unknown json.text

def require (place : Place) (members : Mapping) (key : RestrictionKey) : Except Fault Json :=
  match members.get? key.name with
  | some value => .ok value
  | none => .error (.missingKey place key)

def read (place : Place) (members : Mapping) : Except Fault Restriction := do
  let operator ← require place members .operator
  let value ← require place members .value
  return ⟨operatorTag operator, ← Operand.read place value⟩

end Restriction

def expectMapping (place : Place) (json : Json) : Except Fault Mapping :=
  match json with
  | .object members => .ok members
  | json => .error (.malformedDemand place (.notMapping json.kind))

namespace Restriction

/-- The restrictions that stand under a member's key: one mapping, or a list of them. -/
def readMany (group key : String) (json : Json) : Except Fault (List Restriction) :=
  match json with
  | .object members => return [← read (.member group key) members]
  | .array items =>
    items.zipIdx.mapM fun (item, index) => do
      let place := Place.listed group key index
      read place (← expectMapping place item)
  | _ => .error (.malformedDemand (.member group key) .notRestriction)

end Restriction

end Winnow
