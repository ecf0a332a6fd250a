import Winnow.Json.Basic

/-!
# The structure of JSON values

A value is a scalar, an array or an object, and a property that passes from the children of a value
to the value holds of every value.
-/

namespace Winnow.Json

/-- Neither an array nor an object. -/
def IsScalar : Json → Prop
  | .array _ | .object _ => False
  | _ => True

instance (json : Json) : Decidable json.IsScalar := by
  cases json <;> unfold IsScalar <;> infer_instance

/-- What an object has under a key. -/
def member? (json : Json) (key : String) : Option Json :=
  json.mapping?.bind (Entries.get? · key)

/-- The values that stand for one value: the items of an array, or the value itself. -/
def listed : Json → List Json
  | .array items => items
  | json => [json]

/-- The values directly below a value. -/
def children : Json → List Json
  | .array items => items
  | .object members => members.map Prod.snd
  | _ => []

@[elab_as_elim] theorem induction {motive : Json → Prop}
    (scalar : ∀ json, json.IsScalar → motive json)
    (array : ∀ items, (∀ item ∈ items, motive item) → motive (.array items))
    (object : ∀ members : Mapping, (∀ entry ∈ members, motive entry.2) → motive (.object members))
    (json : Json) : motive json := by
  -- One property for each of the types that values are nested in: lists, members, one member.
  refine @Json.rec motive (fun items => ∀ item ∈ items, motive item)
    (fun members => ∀ entry ∈ members, motive entry.2) (fun entry => motive entry.2)
    (scalar _ trivial) (fun _ => scalar _ trivial) (fun _ => scalar _ trivial)
    (fun _ => scalar _ trivial) array object ?_ ?_ ?_ ?_ (fun _ _ => id) json
  · exact List.forall_mem_nil _
  · exact fun _ _ first others => List.forall_mem_cons.mpr ⟨first, others⟩
  · exact List.forall_mem_nil _
  · exact fun _ _ first others => List.forall_mem_cons.mpr ⟨first, others⟩

end Winnow.Json
