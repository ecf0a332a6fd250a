import Winnow.Demand.NumericText
import Winnow.Fault

/-!
# Coercion of operands

Demands that come from query strings hold their numbers as strings. `coerce` turns the `value` of
each leaf into an integer if it reads as one.

A mapping below the root is a leaf if its `value` is truthy, and nothing else in a leaf is visited.
A mapping with a `value` that is not truthy is visited like any other.
-/

namespace Winnow

/-- Null, false, zeros, the empty string, the string `0` and empty containers are not truthy. -/
def Json.isTruthy : Json → Bool
  | .null => false
  | .bool b => b
  | .number (.int n) => n != 0
  | .number (.large _ _) => true
  | .number (.float x) => !x.isZero
  | .string s => !(s == "" || s == "0")
  | .array items => !items.isEmpty
  | .object members => !members.isEmpty

/-- What a leaf holds in place of a truthy value. -/
def coerceOperand : Json → Json
  | .string s =>
    match NumericText.toInt64? s with
    | some n => .number (.int n)
    | none => .string s
  | json => json

/-- The value that makes a mapping a leaf. -/
def leafValue? (members : Mapping) : Option Json :=
  (members.get? RestrictionKey.value.name).filter Json.isTruthy

mutual

/-- Coerces a node below the root. -/
def coerceNode : Json → Json
  | .array items => .array (coerceItems items)
  | .object members =>
    match leafValue? members with
    | some value =>
      .object (Entries.put members RestrictionKey.value.name (coerceOperand value))
    | none => .object (coerceMembers members)
  | json => json

def coerceItems : List Json → List Json
  | [] => []
  | item :: rest => coerceNode item :: coerceItems rest

def coerceMembers : List (String × Json) → List (String × Json)
  | [] => []
  | (key, value) :: rest => (key, coerceNode value) :: coerceMembers rest

end

/-- Coerces a value. The root is never a leaf. -/
def coerce : Json → Json
  | .array items => .array (coerceItems items)
  | .object members => .object (coerceMembers members)
  | json => json

def coerceDemand (raw : Mapping) : Mapping := coerceMembers raw

theorem coerceMembers_eq (members : Mapping) :
    coerceMembers members = members.mapValues coerceNode := by
  induction members with
  | nil => rfl
  | cons entry rest ih =>
    obtain ⟨key, value⟩ := entry
    simp [coerceMembers, ih, Entries.mapValues]

theorem coerceItems_eq (items : List Json) : coerceItems items = items.map coerceNode := by
  induction items with
  | nil => rfl
  | cons item rest ih => simp [coerceItems, ih]

end Winnow
