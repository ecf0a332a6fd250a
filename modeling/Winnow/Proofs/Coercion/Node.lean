import Winnow.Demand.Coercion
import Winnow.Proofs.Entries
import Winnow.Proofs.Json

/-!
# What coercion does to one node

Coercion keeps the keys of an object. Under the key of an operand it leaves `coercedValue`, whether
the object is a leaf or not. Under any other key it leaves what was there in a leaf, and the coerced
value elsewhere.
-/

namespace Winnow

/-- What coercion leaves under the key of an operand. -/
def coercedValue (value : Json) : Json :=
  if value.isTruthy then coerceOperand value else value

/-- The members of a coerced object. -/
def coerceObject (members : Mapping) : Mapping :=
  match leafValue? members with
  | some value => members.put RestrictionKey.value.name (coerceOperand value)
  | none => members.mapValues coerceNode

theorem coerceNode_object (members : Mapping) :
    coerceNode (.object members) = .object (coerceObject members) := by
  rw [coerceNode, coerceObject]
  cases leafValue? members with
  | some value => rfl
  | none => simp only [coerceMembers_eq]

theorem coerceNode_array (items : List Json) :
    coerceNode (.array items) = .array (items.map coerceNode) := by
  rw [coerceNode, coerceItems_eq]

theorem coerceNode_of_isScalar {json : Json} (scalar : json.IsScalar) : coerceNode json = json := by
  cases json with
  | array items => exact scalar.elim
  | object members => exact scalar.elim
  | _ => simp only [coerceNode]

/-- A value that is not truthy is a scalar or an empty container. -/
theorem coerceNode_of_not_truthy {json : Json} (falsy : json.isTruthy = false) :
    coerceNode json = json := by
  cases json with
  | array items =>
      have empty : items = [] := by simpa [Json.isTruthy] using falsy
      subst empty
      rfl
  | object members =>
      have empty : members = [] := by simpa [Json.isTruthy] using falsy
      subst empty
      rfl
  | _ => exact coerceNode_of_isScalar trivial

theorem leafValue?_eq_some_iff {members : Mapping} {value : Json} :
    leafValue? members = some value ↔
      members.get? RestrictionKey.value.name = some value ∧ value.isTruthy := by
  simp only [leafValue?, Option.filter_eq_some_iff]

theorem leafValue?_eq_none_iff {members : Mapping} :
    leafValue? members = none ↔
      ∀ value, members.get? RestrictionKey.value.name = some value → value.isTruthy = false := by
  simp only [leafValue?, Option.filter_eq_none_iff, Bool.not_eq_true]

theorem coerceObject_of_leaf {members : Mapping} {value : Json}
    (leaf : leafValue? members = some value) :
    coerceObject members = members.put RestrictionKey.value.name (coerceOperand value) := by
  rw [coerceObject, leaf]

theorem coerceObject_of_not_leaf {members : Mapping} (inner : leafValue? members = none) :
    coerceObject members = members.mapValues coerceNode := by
  rw [coerceObject, inner]

@[simp] theorem keys_coerceObject (members : Mapping) :
    (coerceObject members).keys = members.keys := by
  cases leaf : leafValue? members with
  | none => rw [coerceObject_of_not_leaf leaf, Entries.keys_mapValues]
  | some value =>
      have found := (leafValue?_eq_some_iff.mp leaf).1
      rw [coerceObject_of_leaf leaf, Entries.keys_put_of_mem]
      rw [← Entries.isSome_get?_iff, found]
      rfl

theorem get?_coerceObject_value (members : Mapping) :
    (coerceObject members).get? RestrictionKey.value.name =
      (members.get? RestrictionKey.value.name).map coercedValue := by
  cases leaf : leafValue? members with
  | none =>
      rw [coerceObject_of_not_leaf leaf, Entries.get?_mapValues]
      cases found : members.get? RestrictionKey.value.name with
      | none => rfl
      | some value =>
          have falsy := leafValue?_eq_none_iff.mp leaf value found
          simp [coercedValue, falsy, coerceNode_of_not_truthy]
  | some value =>
      obtain ⟨found, truthy⟩ := leafValue?_eq_some_iff.mp leaf
      rw [coerceObject_of_leaf leaf, Entries.get?_put, if_pos rfl, found]
      simp [coercedValue, truthy]

/-- Under any key but that of an operand a member stays as it is or is coerced as a node. -/
theorem get?_coerceObject_of_ne (members : Mapping) {key : String}
    (other : key ≠ RestrictionKey.value.name) :
    (coerceObject members).get? key = members.get? key ∨
      (coerceObject members).get? key = (members.get? key).map coerceNode := by
  cases leaf : leafValue? members with
  | none =>
      right
      rw [coerceObject_of_not_leaf leaf, Entries.get?_mapValues]
  | some value =>
      left
      rw [coerceObject_of_leaf leaf, Entries.get?_put, if_neg other.symm]

end Winnow
