import Winnow.Proofs.Compilation.Fault
import Winnow.Proofs.Entries.Extension

/-!
# Renaming tables

Table aliases decide how fields are named and nothing else. Under other aliases a demand has a tree
of the same form, with the same comparisons and operands, or a fault that differs at most in the
name of a field.
-/

namespace Winnow

variable {policy : UnknownOperatorPolicy} {aliases aliases' : TableAliases}

/-! Trees. -/

/-- Trees that differ at most in the names of their fields, with the aliases that their comparisons
and bare fields stem from, in order. The names are those of the aliases. -/
inductive Predicate.Renamed (aliases aliases' : TableAliases) :
    List FieldAlias → Predicate → Predicate → Prop
  | compare {target field field'} (refers : RefersTo aliases target field)
      (refers' : RefersTo aliases' target field') (op operand) :
      Renamed aliases aliases' [target] (.compare field op operand) (.compare field' op operand)
  | bare {target field field'} (refers : RefersTo aliases target field)
      (refers' : RefersTo aliases' target field') :
      Renamed aliases aliases' [target] (.bare field) (.bare field')
  | group (connective : Connective) {targets parts parts'}
      (each : Aligned (Renamed aliases aliases') targets parts parts') :
      Renamed aliases aliases' targets.flatten (connective.combine parts)
        (connective.combine parts')

open Predicate

theorem Predicate.Renamed.joined {targets : List (List FieldAlias)} {parts parts' : List Predicate}
    (each : Aligned (Renamed aliases aliases') targets parts parts') :
    Renamed aliases aliases' targets.flatten (joined parts) (joined parts') := by
  match each with
  | .nil => exact .group .all .nil
  | .cons (a := targets) head .nil =>
      rw [List.flatten_cons, List.flatten_nil, List.append_nil]
      exact head
  | .cons head (.cons next rest) => exact .group .all (.cons head (.cons next rest))

theorem Emits.renamed (r : FieldRestriction) (part part' : Predicate)
    (emits : Emits policy (r.target.qualified aliases) r.restriction part)
    (emits' : Emits policy (r.target.qualified aliases') r.restriction part') :
    Renamed aliases aliases' r.mentions part part' := by
  obtain ⟨target, restriction⟩ := r
  have refers := refersTo_qualified aliases target
  have refers' := refersTo_qualified aliases' target
  cases emits with
  | compare op value =>
      cases emits'
      exact .compare refers refers' op value
  | range low high =>
      cases emits'
      have bounds := Aligned.cons (Renamed.compare refers refers' .gte low)
        (.cons (Renamed.compare refers refers' .lte high) .nil)
      exact .group .all bounds
  | bare tag operand =>
      cases emits'
      exact .bare refers refers'

theorem NodeEmits.renamed {node : Node} {part part' : Predicate}
    (emits : NodeEmits policy aliases node part) (emits' : NodeEmits policy aliases' node part') :
    Renamed aliases aliases' (node.restrictions.flatMap FieldRestriction.mentions) part part' := by
  cases node with
  | leaf r =>
      rw [Node.restrictions, List.flatMap_singleton]
      exact Emits.renamed r _ _ (nodeEmits_leaf_iff.mp emits) (nodeEmits_leaf_iff.mp emits')
  | group connective group =>
      obtain ⟨parts, first, rfl⟩ := nodeEmits_group_iff.mp emits
      obtain ⟨parts', second, rfl⟩ := nodeEmits_group_iff.mp emits'
      have each := Aligned.of_forall₂ first second Emits.renamed
      rw [List.flatMap_def]
      exact .group connective (each.map_left FieldRestriction.mentions)

theorem Demand.renamed {demand : Demand} {parts parts' : List Predicate}
    (emits : List.Forall₂ (fun entry part => NodeEmits policy aliases entry.2 part)
      demand.entries parts)
    (emits' : List.Forall₂ (fun entry part => NodeEmits policy aliases' entry.2 part)
      demand.entries parts') :
    Renamed aliases aliases' (demand.restrictions.map FieldRestriction.mentions).flatten
      (joined parts) (joined parts') := by
  have each := Aligned.of_forall₂ emits emits' fun _ _ _ => NodeEmits.renamed
  have renamed := Renamed.joined
    (each.map_left fun entry : String × Node =>
      entry.2.restrictions.flatMap FieldRestriction.mentions)
  rw [← List.flatMap_def, ← List.flatMap_assoc, List.flatMap_def] at renamed
  exact renamed

/-! Faults. -/

def Fault.field? : Fault → Option String
  | .invalidOperand field _ | .unknownOperator field _ | .invalidField field => some field
  | _ => none

/-- Faults that differ at most in the name of a field. -/
inductive Fault.Renamed (aliases aliases' : TableAliases) : Fault → Fault → Prop
  | unnamed {fault : Fault} (silent : fault.field? = none) : Renamed aliases aliases' fault fault
  | invalidOperand {target field field'} (refers : RefersTo aliases target field)
      (refers' : RefersTo aliases' target field') (expected) :
      Renamed aliases aliases' (.invalidOperand field expected) (.invalidOperand field' expected)
  | unknownOperator {target field field'} (refers : RefersTo aliases target field)
      (refers' : RefersTo aliases' target field') (operator) :
      Renamed aliases aliases' (.unknownOperator field operator) (.unknownOperator field' operator)

section Unnamed

variable {fault : Fault}

theorem RestrictionFault.field?_eq_none {place : Place} {members : Mapping}
    (faulted : RestrictionFault place members fault) : fault.field? = none := by
  cases faulted <;> rfl

theorem ListedFault.field?_eq_none {place : Place} {json : Json}
    (faulted : ListedFault place json fault) : fault.field? = none := by
  cases faulted with
  | notMapping => rfl
  | mapping faulted => exact faulted.field?_eq_none

theorem RestrictionsFault.field?_eq_none {group key : String} {json : Json}
    (faulted : RestrictionsFault group key json fault) : fault.field? = none := by
  cases faulted with
  | single faulted => exact faulted.field?_eq_none
  | listed first =>
      obtain ⟨_, _, _, _, _, faulted⟩ := first
      exact faulted.field?_eq_none
  | scalar => rfl

theorem EntryFault.field?_eq_none {entry : String × Json} (faulted : EntryFault entry fault) :
    fault.field? = none := by
  -- Keys are all that a fault of reading names: a field gets its name when it is built.
  cases faulted with
  | notMapping | leafKey | connective => rfl
  | leafRestriction _ _ faulted => exact faulted.field?_eq_none
  | member _ _ first =>
      obtain ⟨_, _, _, _, _, faulted⟩ := first
      cases faulted with
      | key => rfl
      | restrictions _ faulted => exact faulted.field?_eq_none

end Unnamed

theorem Rejected.exists_renamed {target : FieldAlias} {restriction : Restriction} {fault : Fault}
    (rejected : Rejected policy (target.qualified aliases) restriction fault)
    (aliases' : TableAliases) :
    ∃ fault', Rejected policy (target.qualified aliases') restriction fault' ∧
      Fault.Renamed aliases aliases' fault fault' := by
  have refers := refersTo_qualified aliases target
  have refers' := refersTo_qualified aliases' target
  cases rejected with
  | single => exact ⟨_, .single, .invalidOperand refers refers' _⟩
  | pair other => exact ⟨_, .pair other, .invalidOperand refers refers' _⟩
  | unknown reject => exact ⟨_, .unknown reject, .unknownOperator refers refers' _⟩

theorem DemandFault.exists_renamed {raw : Mapping} {fault : Fault}
    (faulted : DemandFault policy aliases raw fault) (aliases' : TableAliases) :
    ∃ fault', DemandFault policy aliases' raw fault' ∧
      Fault.Renamed aliases aliases' fault fault' := by
  cases faulted with
  | unread first =>
      have silent : fault.field? = none := by
        obtain ⟨_, _, _, _, _, faulted⟩ := first
        exact faulted.field?_eq_none
      exact ⟨fault, .unread first, .unnamed silent⟩
  | unbuilt reads written coerced first =>
      obtain ⟨before, r, after, split, fits, rejected⟩ := first
      obtain ⟨fault', rejected', renamed⟩ := rejected.exists_renamed aliases'
      exact ⟨fault', .unbuilt reads written coerced ⟨before, r, after, split, fits, rejected'⟩,
        renamed⟩

/-! Compiling. -/

namespace Compiler

variable {compiler : Compiler} {raw : Mapping}

theorem exists_renamed_tree {tree : Predicate} (compiled : compiler.tree? aliases raw = .ok tree)
    (aliases' : TableAliases) :
    ∃ tree' mentions, compiler.tree? aliases' raw = .ok tree' ∧
      List.Forall₂ Mentions (demandRestrictions raw) mentions ∧
      Predicate.Renamed aliases aliases' mentions.flatten tree tree' := by
  obtain ⟨demand, read, parts, emits, rfl⟩ := tree?_eq_ok_iff.mp compiled
  have fits : ∀ entry ∈ demand.entries, entry.2.Fits compiler.unknownOperator :=
    (exists_forall₂_nodeEmits_iff aliases).mp ⟨parts, emits⟩
  obtain ⟨parts', emits'⟩ := (exists_forall₂_nodeEmits_iff aliases').mpr fits
  exact ⟨joined parts', _, tree?_eq_ok_iff.mpr ⟨demand, read, parts', emits', rfl⟩,
    Demand.forall₂_mentions read, Demand.renamed emits emits'⟩

/-- Other table aliases rename fields and change nothing else, be it of the tree or of the fault. A
table is renamed as the last of the pairs says that the aliases are made of. -/
theorem tree?_renamed (compiler : Compiler) (aliases aliases' : TableAliases) (raw : Mapping) :
    ((∃ tree tree' mentions, compiler.tree? aliases raw = .ok tree ∧
        compiler.tree? aliases' raw = .ok tree' ∧
        List.Forall₂ Mentions (demandRestrictions raw) mentions ∧
        Predicate.Renamed aliases aliases' mentions.flatten tree tree') ∨
      ∃ fault fault', compiler.tree? aliases raw = .error fault ∧
        compiler.tree? aliases' raw = .error fault' ∧
        Fault.Renamed aliases aliases' fault fault') ∧
    ∀ (pairs : List (String × String)) (table : String),
      let built : TableAliases := pairs.foldl (fun built (key, query) => built.put key query) []
      built.get? table = pairs.reverse.lookup table ∧
        (Entries.ofList pairs).get? table = pairs.reverse.lookup table := by
  constructor
  · cases compiled : compiler.tree? aliases raw with
    | ok tree =>
        obtain ⟨tree', mentions, compiled', mentioned, renamed⟩ :=
          exists_renamed_tree compiled aliases'
        exact .inl ⟨tree, tree', mentions, rfl, compiled', mentioned, renamed⟩
    | error fault =>
        obtain ⟨fault', faulted', renamed⟩ :=
          (tree?_eq_error_iff.mp compiled).exists_renamed aliases'
        exact .inr ⟨fault, fault', rfl, tree?_eq_error_iff.mpr faulted', renamed⟩
  · intro pairs table
    have last : (Entries.ofList pairs).get? table = pairs.reverse.lookup table := by
      rw [Entries.ofList, Entries.get?_extend_writes, Entries.get?_nil, Option.or_none]
    exact ⟨last, last⟩

end Compiler

end Winnow
