import Winnow.Proofs.Grammar.Fault

/-!
# Places of faults

A fault of an entry that names a place names that of the node it is about: the text of the place
spells the keys on the way to the node, and the node is at fault as the fault says.
-/

namespace Winnow

/-- A node of a demand, under the path that spells the keys on the way to it and, in an array, its
position. -/
inductive StandsAt (demand : Mapping) : String → Json → Prop
  | entry {key : String} {json : Json} (entry : (key, json) ∈ demand) : StandsAt demand key json
  | member {group key : String} {members : Mapping} {json : Json}
      (entry : (group, .object members) ∈ demand) (member : (key, json) ∈ members) :
      StandsAt demand (group ++ "." ++ key) json
  | listed {group key : String} {members : Mapping} {items : List Json} {json : Json} {index : Nat}
      (entry : (group, .object members) ∈ demand) (member : (key, .array items) ∈ members)
      (item : items[index]? = some json) :
      StandsAt demand (group ++ "." ++ key ++ "[" ++ toString index ++ "]") json

/-- The place that a fault of a demand names. -/
def Fault.place? : Fault → Option Place
  | .malformedDemand place _ => some place
  | .missingKey place _ => some place
  | _ => none

/-- What a node has done for a fault that names its place. -/
inductive Offends : Json → Fault → Prop
  | missingKey {members : Mapping} {place : Place} {key : RestrictionKey}
      (absent : key.name ∉ members.keys) : Offends (.object members) (.missingKey place key)
  | notMapping {json : Json} {place : Place} (other : json.mapping? = none) :
      Offends json (.malformedDemand place (.notMapping json.kind))
  | notRestriction {json : Json} {place : Place} (scalar : json.IsScalar) :
      Offends json (.malformedDemand place .notRestriction)
  | operand {members : Mapping} {json : Json} {place : Place} {misfit : Misfit}
      (value : members.get? RestrictionKey.value.name = some json)
      (unfit : OperandMisfit json misfit) :
      Offends (.object members) (.malformedDemand place misfit)

/-- If the fault names a place, a node stands there that it is about. -/
def Located (demand : Mapping) (fault : Fault) : Prop :=
  ∀ place, fault.place? = some place →
    ∃ json, StandsAt demand place.text json ∧ Offends json fault

section Located

variable {demand : Mapping} {fault : Fault}

theorem located_of_place?_eq_none (silent : fault.place? = none) : Located demand fault := by
  intro place named
  cases silent.symm.trans named

theorem RestrictionFault.located {place : Place} {members : Mapping}
    (stands : StandsAt demand place.text (.object members))
    (faulted : RestrictionFault place members fault) : Located demand fault := by
  intro named same
  cases faulted with
  | operator absent =>
      cases same
      exact ⟨_, stands, .missingKey absent⟩
  | value _ absent =>
      cases same
      exact ⟨_, stands, .missingKey absent⟩
  | operand _ value unfit =>
      cases same
      exact ⟨_, stands, .operand value unfit⟩

theorem ListedFault.located {place : Place} {json : Json} (stands : StandsAt demand place.text json)
    (faulted : ListedFault place json fault) : Located demand fault := by
  cases faulted with
  | notMapping other =>
      intro named same
      cases same
      exact ⟨_, stands, .notMapping other⟩
  | mapping faulted => exact faulted.located stands

theorem RestrictionsFault.located {group key : String} {members : Mapping} {json : Json}
    (entry : (group, .object members) ∈ demand) (member : (key, json) ∈ members)
    (faulted : RestrictionsFault group key json fault) : Located demand fault := by
  have stands : StandsAt demand (Place.member group key).text json := .member entry member
  cases faulted with
  | single faulted => exact faulted.located stands
  | listed first =>
      obtain ⟨before, ⟨item, index⟩, after, split, _, faulted⟩ := first
      have found : (item, index) ∈ List.zipIdx _ := split ▸ List.mem_append_cons_self
      have stands : StandsAt demand (Place.listed group key index).text item :=
        .listed entry member (List.mk_mem_zipIdx_iff_getElem?.mp found)
      exact faulted.located stands
  | scalar scalar =>
      intro named same
      cases same
      exact ⟨_, stands, .notRestriction scalar⟩

theorem EntryFault.located {entry : String × Json} (listed : entry ∈ demand)
    (faulted : EntryFault entry fault) : Located demand fault := by
  cases faulted with
  | notMapping other =>
      intro named same
      cases same
      exact ⟨_, .entry listed, .notMapping other⟩
  | leafKey => exact located_of_place?_eq_none rfl
  | @leafRestriction key _ _ _ _ _ faulted =>
      have stands : StandsAt demand (Place.entry key).text _ := .entry listed
      exact faulted.located stands
  | connective => exact located_of_place?_eq_none rfl
  | member _ _ first =>
      obtain ⟨before, member, after, split, _, faulted⟩ := first
      cases faulted with
      | key => exact located_of_place?_eq_none rfl
      | restrictions _ faulted =>
          exact faulted.located listed (split ▸ List.mem_append_cons_self)

end Located

end Winnow
