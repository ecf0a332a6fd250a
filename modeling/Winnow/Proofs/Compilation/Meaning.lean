import Winnow.Proofs.Coercion.Reading
import Winnow.Proofs.Grammar.Operator
import Winnow.Proofs.Predicate.Decision

/-!
# What a demand means

When a record meets a raw demand, said of the entries of the demand and their JSON values. The tree
of the demand holds of the record exactly then.
-/

namespace Winnow

/-- A field's value meets what the value of an operator asks with an operand. -/
inductive Satisfies (value : Scalar) : Json → Operand → Prop
  | compare (op : Comparison) {operand} (compares : Compares value op operand) :
      Satisfies value (.string op.tag) (.scalar operand)
  | range {low high} (least : Compares value .gte low) (greatest : Compares value .lte high) :
      Satisfies value (.string OperatorTag.rangeTag) (.list [low, high])
  | unknown {tag operand} (noComparison : ∀ op : Comparison, tag ≠ .string op.tag)
      (noRange : tag ≠ .string OperatorTag.rangeTag) (truthy : value.isTruthy = true) :
      Satisfies value tag operand

/-- The operand is the one that is written, coerced. -/
inductive RestrictionHolds (value : Scalar) : Json → Prop
  | intro {members : Mapping} {tag json operand}
      (operator : members.get? RestrictionKey.operator.name = some tag)
      (written : members.get? RestrictionKey.value.name = some json)
      (reads : OperandReads json operand) (satisfied : Satisfies value tag operand.coerced) :
      RestrictionHolds value (.object members)

section Holds

variable {ρ : Type} [Record ρ] (aliases : TableAliases) (record : ρ)

/-- The field that the key spells has a value, and the restriction holds of it. -/
def FieldHolds (key : String) (json : Json) : Prop :=
  ∃ target, Spells key target ∧
    Predicate.FieldHas record (target.qualified aliases) fun value => RestrictionHolds value json

def EntryHolds (entry : String × Json) : Prop :=
  match entry.2 with
  | .object members =>
    if RestrictionKey.operator.name ∈ Entries.keys members then
      FieldHolds aliases record entry.1 (.object members)
    else
      (Connects entry.1 .any ∧
        ∃ member ∈ members, ∃ json ∈ member.2.listed, FieldHolds aliases record member.1 json) ∨
      (Connects entry.1 .all ∧
        ∀ member ∈ members, ∀ json ∈ member.2.listed, FieldHolds aliases record member.1 json)
  | _ => False

end Holds

/-! Restrictions. -/

def OperatorTag.Holds (value : Scalar) (operand : Operand) : OperatorTag → Prop
  | .compare op => ∃ bound, operand = .scalar bound ∧ Compares value op bound
  | .range =>
    ∃ low high, operand = .list [low, high] ∧ Compares value .gte low ∧ Compares value .lte high
  | .unknown _ => value.isTruthy = true

def Restriction.Holds (value : Scalar) (restriction : Restriction) : Prop :=
  restriction.operator.Holds value restriction.operand

theorem OperatorTag.holds_iff_of_isUnknown {value : Scalar} {operand : Operand}
    {operator : OperatorTag} (unknown : operator.isUnknown = true) :
    operator.Holds value operand ↔ value.isTruthy = true := by
  cases operator with
  | unknown tag => rfl
  | _ => cases unknown

theorem Restriction.operatorTag_holds_iff {value : Scalar} {tag : Json} {operand : Operand} :
    (operatorTag tag).Holds value operand ↔ Satisfies value tag operand := by
  constructor
  · intro holds
    have names := names_operatorTag tag
    generalize operatorTag tag = operator at names holds
    cases names with
    | compare op =>
        obtain ⟨_, scalar, compares⟩ := holds
        rw [scalar]
        exact .compare op compares
    | range =>
        obtain ⟨_, _, pair, least, greatest⟩ := holds
        rw [pair]
        exact .range least greatest
    | unknown noComparison noRange => exact .unknown noComparison noRange holds
  · intro satisfied
    cases satisfied with
    | compare op compares =>
        rw [operatorTag_eq_compare_iff.mpr rfl]
        exact ⟨_, rfl, compares⟩
    | range least greatest =>
        rw [operatorTag_eq_range_iff.mpr rfl]
        exact ⟨_, _, rfl, least, greatest⟩
    | unknown noComparison noRange truthy =>
        have unknown := isUnknown_operatorTag_iff.mpr ⟨noComparison, noRange⟩
        exact (OperatorTag.holds_iff_of_isUnknown unknown).mpr truthy

/-- What a restriction reads as, once coerced. -/
def CoercedReading (json : Json) (restriction : Restriction) : Prop :=
  ∃ before, RestrictionReads json before ∧ CoercedRestriction json before restriction

theorem CoercedReading.holds_iff {json : Json} {restriction : Restriction} {value : Scalar}
    (reading : CoercedReading json restriction) :
    restriction.Holds value ↔ RestrictionHolds value json := by
  obtain ⟨before, reads, coerced⟩ := reading
  cases reads with
  | @intro members tag json operand operator written read =>
      -- An operator that is no scalar may read as another text once coerced, and is unknown still.
      have sameOperator : restriction.operator.Holds value operand.coerced ↔
          (Restriction.operatorTag tag).Holds value operand.coerced := by
        rcases coerced.unknown with same | ⟨unknownBefore, unknownAfter⟩
        · rw [same]
        · rw [OperatorTag.holds_iff_of_isUnknown unknownBefore,
            OperatorTag.holds_iff_of_isUnknown unknownAfter]
      rw [Restriction.Holds, coerced.operand, sameOperator, Restriction.operatorTag_holds_iff]
      constructor
      · intro satisfied
        exact .intro operator written read satisfied
      · intro holds
        cases holds with
        | intro operator' written' read' satisfied =>
            cases operator.symm.trans operator'
            cases written.symm.trans written'
            rw [read.unique read']
            exact satisfied

section Decides

open Predicate

variable {ρ : Type} [Record ρ] {record : ρ} {policy : UnknownOperatorPolicy}
variable {aliases : TableAliases}

theorem Emits.decides {field : String} {restriction : Restriction} {part : Predicate}
    (emits : Emits policy field restriction part) :
    Decides record part (FieldHas record field fun value => restriction.Holds value) := by
  cases emits with
  | compare op operand =>
      refine (Decides.compare field op operand).congr ?_
      simp [Restriction.Holds, OperatorTag.Holds]
  | range low high =>
      have each : List.Forall₂ (fun (bound : Comparison × Scalar) part =>
          Decides record part (FieldHas record field fun value => Compares value bound.1 bound.2))
          [(.gte, low), (.lte, high)] [.compare field .gte low, .compare field .lte high] :=
        .cons (Decides.compare field .gte low) (.cons (Decides.compare field .lte high) .nil)
      refine (Decides.conj each).congr ?_
      simp [FieldHas.and, Restriction.Holds, OperatorTag.Holds]
  | bare tag operand placeholder => exact Decides.bare field

/-- The part that a restriction emits decides whether the restriction holds as it was written. -/
theorem Emits.decides_fieldHolds {key : String} {json : Json} {target : FieldAlias}
    {restriction : Restriction} {part : Predicate} (spelled : Spells key target)
    (reading : CoercedReading json restriction)
    (emits : Emits policy (target.qualified aliases) restriction part) :
    Decides record part (FieldHolds aliases record key json) := by
  refine emits.decides.congr ?_
  simp only [reading.holds_iff]
  constructor
  · intro has
    exact ⟨target, spelled, has⟩
  · intro ⟨other, spelledOther, has⟩
    rw [spelled.unique spelledOther]
    exact has

/-! Groups. -/

/-- What a member of a group reads as, once coerced. -/
structure CoercedMemberReading (entry : String × Json) (member : Member) : Prop where
  target : Spells entry.1 member.target
  restrictions : List.Forall₂ CoercedReading entry.2.listed member.restrictions

theorem CoercedMember.reading {entry : String × Json} {before after : Member}
    (coerced : CoercedMember entry before after) (reads : MemberReads entry before) :
    CoercedMemberReading entry after where
  target := by
    rw [coerced.target]
    exact reads.target
  restrictions := coerced.restrictions.forall₂ reads.restrictions

/-- The restrictions of a group as they are written, each with the key it stands under. -/
def writtenRestrictions (members : Mapping) : List (String × Json) :=
  members.flatMap fun entry => entry.2.listed.map (entry.1, ·)

theorem forall_mem_writtenRestrictions (members : Mapping) {P : String → Json → Prop} :
    (∀ written ∈ writtenRestrictions members, P written.1 written.2) ↔
      ∀ entry ∈ members, ∀ json ∈ entry.2.listed, P entry.1 json := by
  simp only [writtenRestrictions, List.forall_mem_flatMap, List.forall_mem_map]

theorem exists_mem_writtenRestrictions (members : Mapping) {P : String → Json → Prop} :
    (∃ written ∈ writtenRestrictions members, P written.1 written.2) ↔
      ∃ entry ∈ members, ∃ json ∈ entry.2.listed, P entry.1 json := by
  have none := forall_mem_writtenRestrictions members (P := fun key json => ¬ P key json)
  simpa using not_congr none

/-- Restrictions are those that are written, in the same order, each read as `reads` says. -/
abbrev ReadInOrder (reads : Json → Restriction → Prop) (written : List (String × Json))
    (restrictions : List FieldRestriction) : Prop :=
  List.Forall₂ (fun written r => Spells written.1 r.target ∧ reads written.2 r.restriction)
    written restrictions

theorem Group.readInOrder {reads : Json → Restriction → Prop} {members : Mapping} {group : Group}
    (each : List.Forall₂ (fun entry member => Spells entry.1 member.target ∧
      List.Forall₂ reads entry.2.listed member.restrictions) members group.members) :
    ReadInOrder reads (writtenRestrictions members) group.restrictions := by
  refine List.rel_flatMap each fun entry member ⟨target, restrictions⟩ => ?_
  rw [List.forall₂_map_left_iff, List.forall₂_map_right_iff]
  exact restrictions.imp fun _ _ restriction => ⟨target, restriction⟩

theorem CoercedMemberReading.flatten {members : Mapping} {group : Group}
    (readings : List.Forall₂ CoercedMemberReading members group.members) :
    ReadInOrder CoercedReading (writtenRestrictions members) group.restrictions :=
  Group.readInOrder (readings.imp fun _ _ reading => ⟨reading.target, reading.restrictions⟩)

theorem entryHolds_leaf_iff {key : String} {members : Mapping}
    (operator : RestrictionKey.operator.name ∈ members.keys) :
    EntryHolds aliases record (key, .object members) ↔
      FieldHolds aliases record key (.object members) := by
  simp only [EntryHolds, if_pos operator]

theorem entryHolds_any_iff {key : String} {members : Mapping}
    (operator : RestrictionKey.operator.name ∉ members.keys) (connects : Connects key .any) :
    EntryHolds aliases record (key, .object members) ↔
      ∃ written ∈ writtenRestrictions members, FieldHolds aliases record written.1 written.2 := by
  have other : ¬ Connects key .all := fun all => by cases connects.unique all
  simp only [EntryHolds, operator, connects, other, exists_mem_writtenRestrictions, if_false,
    true_and, false_and, or_false]

theorem entryHolds_all_iff {key : String} {members : Mapping}
    (operator : RestrictionKey.operator.name ∉ members.keys) (connects : Connects key .all) :
    EntryHolds aliases record (key, .object members) ↔
      ∀ written ∈ writtenRestrictions members, FieldHolds aliases record written.1 written.2 := by
  have other : ¬ Connects key .any := fun any => by cases connects.unique any
  simp only [EntryHolds, operator, connects, other, forall_mem_writtenRestrictions, if_false,
    true_and, false_and, false_or]

theorem NodeEmits.decides_group {key : String} {members : Mapping} {connective : Connective}
    {group : Group} {part : Predicate}
    (operator : RestrictionKey.operator.name ∉ members.keys) (connects : Connects key connective)
    (readings : List.Forall₂ CoercedMemberReading members group.members)
    (emits : NodeEmits policy aliases (.group connective group) part) :
    Decides record part (EntryHolds aliases record (key, .object members)) := by
  cases emits with
  | group emitted =>
      have each : List.Forall₂ (fun written part =>
          Decides record part (FieldHolds aliases record written.1 written.2))
          (writtenRestrictions members) _ :=
        (forall₂_comp (CoercedMemberReading.flatten readings) emitted).imp
          fun _ _ ⟨_, ⟨spelled, reading⟩, emits⟩ => emits.decides_fieldHolds spelled reading
      cases connective with
      | any => exact (Decides.disj each).congr (entryHolds_any_iff operator connects).symm
      | all => exact (Decides.conj each).congr (entryHolds_all_iff operator connects).symm

/-! Entries. -/

theorem NodeEmits.decides {entry : String × Json} {before after : Node} {part : Predicate}
    (reads : NodeReads entry before) (coerced : CoercedNode entry.2 before after)
    (emits : NodeEmits policy aliases after part) :
    Decides record part (EntryHolds aliases record entry) := by
  cases reads with
  | leaf operator spelled read =>
      cases coerced with
      | leaf restriction =>
          cases emits with
          | leaf emits =>
              exact (emits.decides_fieldHolds spelled ⟨_, read, restriction⟩).congr
                (entryHolds_leaf_iff operator).symm
  | group operator connects reads =>
      cases coerced with
      | group aligned =>
          have readings : List.Forall₂ CoercedMemberReading _ _ :=
            (aligned.forall₂ reads).imp fun _ _ ⟨_, read, coerced⟩ => coerced.reading read
          exact emits.decides_group operator connects readings

/-- The entries of a raw demand, each with what it reads as and what that reads as once coerced. -/
theorem Demand.coerced_readings {raw : Mapping} {demand : Demand}
    (read : Demand.read (coerceDemand raw) = .ok demand) :
    List.Forall₂ (fun entry after => ∃ before, NodeReads entry before ∧
      CoercedNode entry.2 before after.2) raw demand.entries := by
  have agree := mapM_readEntry_coerceDemand raw
  rw [read_eq_ok_iff_mapM.mp read] at agree
  obtain ⟨entries, readRaw, aligned⟩ := agree.exists_of_ok
  refine (aligned.forall₂ (Outcome.mapM_eq_ok_iff.mp readRaw)).imp ?_
  intro entry after ⟨before, readEntry, coerced⟩
  exact ⟨before.2, (readEntry_eq_ok_iff.mp readEntry).2, coerced.node⟩

/-- A demand means what its entries mean: of any record with a value for each field of its tree, the
tree says whether all entries hold. -/
theorem Compiler.tree?_decides (compiler : Compiler) (aliases : TableAliases) (raw : Mapping)
    (tree : Predicate) (compiled : compiler.tree? aliases raw = .ok tree) (record : ρ)
    (present : ∀ field ∈ tree.fields, (Record.value? record field).isSome) :
    ∃ answer, tree.eval record = .ok answer ∧
      (answer = true ↔ ∀ entry ∈ raw, EntryHolds aliases record entry) := by
  obtain ⟨demand, read, parts, emitted, rfl⟩ := tree?_eq_ok_iff.mp compiled
  have each : List.Forall₂ (fun entry part =>
      Decides record part (EntryHolds aliases record entry)) raw parts :=
    (forall₂_comp (Demand.coerced_readings read) emitted).imp
      fun _ _ ⟨_, ⟨_, reads, coerced⟩, emits⟩ => emits.decides reads coerced
  exact Decides.joined each present

/-- Five is in the range of the first entry and equal to the operand of a member of the second. -/
theorem tree?_decides_five :
    let range : Json := .object [("operator", .string "-"),
      ("value", .array [.number (.int 1), .number (.int 5)])]
    let equal : Json := .object [("operator", .string "EQ"), ("value", .string "5")]
    let group : Json := .object [("t-g", equal), ("t-f", .array [equal])]
    let record : Mapping := [("f", .number (.int 5)), ("g", .null)]
    ∀ entry ∈ [("t-f", range), ("or-x", group)], EntryHolds [] record entry := by
  intro range equal group record
  let tree : Predicate := .conj [.conj [.compare "f" .gte (.int 1), .compare "f" .lte (.int 5)],
    .disj [.compare "g" .eq (.int 5), .compare "f" .eq (.int 5)]]
  have compiled : Compiler.tree? ⟨.reject⟩ [] [("t-f", range), ("or-x", group)] = .ok tree := by
    decide +kernel
  have present : ∀ field ∈ tree.fields, (Record.value? record field).isSome := by decide +kernel
  obtain ⟨answer, evaluated, holds⟩ := Compiler.tree?_decides _ _ _ _ compiled record present
  have met : tree.eval record = .ok true := by decide +kernel
  exact holds.mp (Except.ok.inj (evaluated.symm.trans met))

end Decides

end Winnow
