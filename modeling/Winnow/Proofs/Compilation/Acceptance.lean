import Winnow.Proofs.Coercion.Reading
import Winnow.Proofs.Compilation.Builders
import Winnow.Proofs.Grammar.Operator

/-!
# Which demands compile

A raw demand compiles if and only if each of its entries is valid on its own. Validity is said of
JSON values: coercion, reading and building have no part in it.
-/

namespace Winnow

/-- What the value of an operator asks of the value of the operand. -/
inductive Suits (policy : UnknownOperatorPolicy) : Json → Json → Prop
  | compare (op : Comparison) {value} (scalar : value.IsScalar) :
      Suits policy (.string op.tag) value
  | range {low high} (lowScalar : low.IsScalar) (highScalar : high.IsScalar) :
      Suits policy (.string OperatorTag.rangeTag) (.array [low, high])
  | unknown {tag value} (placeholder : policy = .placeholder)
      (noComparison : ∀ op : Comparison, tag ≠ .string op.tag)
      (noRange : tag ≠ .string OperatorTag.rangeTag) (operand : value.IsOperand) :
      Suits policy tag value

inductive ValidRestriction (policy : UnknownOperatorPolicy) : Json → Prop
  | intro {members : Mapping} {tag value}
      (operator : members.get? RestrictionKey.operator.name = some tag)
      (operand : members.get? RestrictionKey.value.name = some value)
      (suits : Suits policy tag value) :
      ValidRestriction policy (.object members)

/-- A member has one restriction or an array of restrictions. -/
structure ValidMember (policy : UnknownOperatorPolicy) (entry : String × Json) : Prop where
  key : AliasShaped entry.1
  restrictions : ∀ json ∈ entry.2.listed, ValidRestriction policy json

inductive ValidEntry (policy : UnknownOperatorPolicy) : String × Json → Prop
  | leaf {key} {members : Mapping} (operator : RestrictionKey.operator.name ∈ members.keys)
      (shaped : AliasShaped key) (valid : ValidRestriction policy (.object members)) :
      ValidEntry policy (key, .object members)
  | group {key connective} {members : Mapping}
      (operator : RestrictionKey.operator.name ∉ members.keys)
      (connects : Connects key connective) (valid : ∀ entry ∈ members, ValidMember policy entry) :
      ValidEntry policy (key, .object members)

/-! What has been read can be built if each operand fits its operator. -/

def Restriction.Fits (policy : UnknownOperatorPolicy) (restriction : Restriction) : Prop :=
  match restriction.operator with
  | .compare _ => ∃ value, restriction.operand = .scalar value
  | .range => ∃ low high, restriction.operand = .list [low, high]
  | .unknown _ => policy = .placeholder

def Node.Fits (policy : UnknownOperatorPolicy) : Node → Prop
  | .leaf r => r.restriction.Fits policy
  | .group _ grouped => ∀ member ∈ grouped.members, ∀ r ∈ member.restrictions, r.Fits policy

theorem exists_emits_iff {policy : UnknownOperatorPolicy} (field : String)
    {restriction : Restriction} :
    (∃ part, Emits policy field restriction part) ↔ restriction.Fits policy := by
  constructor
  · intro ⟨part, emits⟩
    cases emits with
    | compare op value => exact ⟨value, rfl⟩
    | range low high => exact ⟨low, high, rfl⟩
    | bare tag operand placeholder => exact placeholder
  · intro fits
    obtain ⟨operator, operand⟩ := restriction
    cases operator with
    | compare op =>
        obtain ⟨value, scalar⟩ : ∃ value, operand = .scalar value := fits
        rw [scalar]
        exact ⟨_, .compare op value⟩
    | range =>
        obtain ⟨low, high, pair⟩ : ∃ low high, operand = .list [low, high] := fits
        rw [pair]
        exact ⟨_, .range low high⟩
    | unknown tag => exact ⟨_, .bare tag operand fits⟩

theorem Group.forall_mem_restrictions {group : Group} {P : Restriction → Prop} :
    (∀ r ∈ group.restrictions, P r.restriction) ↔
      ∀ member ∈ group.members, ∀ restriction ∈ member.restrictions, P restriction := by
  simp only [Group.restrictions, List.forall_mem_flatMap, List.forall_mem_map]

theorem exists_nodeEmits_iff {policy : UnknownOperatorPolicy} {aliases : TableAliases}
    {node : Node} : (∃ part, NodeEmits policy aliases node part) ↔ node.Fits policy := by
  cases node with
  | leaf r => simp only [nodeEmits_leaf_iff, exists_emits_iff, Node.Fits]
  | group connective group =>
      have each : (∃ parts, List.Forall₂ (fun r part =>
          Emits policy (r.target.qualified aliases) r.restriction part) group.restrictions parts) ↔
          ∀ r ∈ group.restrictions, r.restriction.Fits policy := by
        simp only [exists_forall₂_iff, exists_emits_iff]
      rw [Node.Fits, ← Group.forall_mem_restrictions, ← each]
      simp only [nodeEmits_group_iff]
      constructor
      · intro ⟨part, parts, emits, _⟩
        exact ⟨parts, emits⟩
      · intro ⟨parts, emits⟩
        exact ⟨_, parts, emits, rfl⟩

theorem exists_forall₂_nodeEmits_iff {policy : UnknownOperatorPolicy} (aliases : TableAliases)
    {entries : List (String × Node)} :
    (∃ parts, List.Forall₂ (fun entry part => NodeEmits policy aliases entry.2 part)
      entries parts) ↔ ∀ entry ∈ entries, entry.2.Fits policy := by
  simp only [exists_forall₂_iff, exists_nodeEmits_iff]

/-! Coercion changes neither whether an operand is a list nor, of a list, anything at all. -/

theorem Operand.exists_coerced_eq_scalar_iff {operand : Operand} :
    (∃ value, operand.coerced = .scalar value) ↔ ∃ value, operand = .scalar value := by
  cases operand with
  | list items => rfl
  | scalar value =>
      refine ⟨fun _ => ⟨value, rfl⟩, fun _ => ?_⟩
      unfold coerced
      split
      · split
        · exact ⟨_, rfl⟩
        · split <;> exact ⟨_, rfl⟩
      · exact ⟨value, rfl⟩

theorem Operand.coerced_eq_list_iff {operand : Operand} {items : List Scalar} :
    operand.coerced = .list items ↔ operand = .list items := by
  cases operand with
  | list others => rfl
  | scalar value =>
      obtain ⟨coerced, same⟩ := exists_coerced_eq_scalar_iff.mpr ⟨value, rfl⟩
      simp [same]

theorem Restriction.fits_coerced_iff {policy : UnknownOperatorPolicy} {operator : OperatorTag}
    {operand : Operand} :
    Fits policy ⟨operator, operand.coerced⟩ ↔ Fits policy ⟨operator, operand⟩ := by
  cases operator with
  | compare op => exact Operand.exists_coerced_eq_scalar_iff
  | range => simp only [Fits, Operand.coerced_eq_list_iff]
  | unknown tag => rfl

theorem Restriction.fits_iff_of_isUnknown {policy : UnknownOperatorPolicy}
    {restriction : Restriction} (unknown : restriction.operator.isUnknown) :
    restriction.Fits policy ↔ policy = .placeholder := by
  obtain ⟨operator, operand⟩ := restriction
  cases operator with
  | unknown tag => rfl
  | _ => cases unknown

theorem CoercedRestriction.fits_iff {policy : UnknownOperatorPolicy} {source : Json}
    {before after : Restriction} (coerced : CoercedRestriction source before after) :
    before.Fits policy ↔ after.Fits policy := by
  rcases coerced.unknown with same | ⟨unknownBefore, unknownAfter⟩
  · obtain ⟨operator, operand⟩ := before
    obtain ⟨operator', operand'⟩ := after
    have sameOperator : operator' = operator := same
    have sameOperand : operand' = operand.coerced := coerced.operand
    rw [sameOperator, sameOperand, Restriction.fits_coerced_iff]
  · rw [Restriction.fits_iff_of_isUnknown unknownBefore,
      Restriction.fits_iff_of_isUnknown unknownAfter]

theorem CoercedNode.fits_iff {policy : UnknownOperatorPolicy} {source : Json} {before after : Node}
    (coerced : CoercedNode source before after) : before.Fits policy ↔ after.Fits policy := by
  cases coerced with
  | leaf restriction => exact restriction.fits_iff
  | group members =>
      exact members.forall_mem_iff fun _ _ _ member =>
        member.restrictions.forall_mem_iff fun _ _ _ restriction => restriction.fits_iff

/-! Reading, and fitting, one level after the other. -/

theorem exists_operandReads_fits_iff {policy : UnknownOperatorPolicy} {tag json : Json} :
    (∃ operand, OperandReads json operand ∧
        Restriction.Fits policy ⟨Restriction.operatorTag tag, operand⟩) ↔
      Suits policy tag json := by
  constructor
  · intro ⟨operand, reads, fits⟩
    have names := Restriction.names_operatorTag tag
    generalize Restriction.operatorTag tag = operator at names fits
    cases names with
    | compare op =>
        obtain ⟨value, scalar⟩ : ∃ value, operand = .scalar value := fits
        rw [scalar] at reads
        cases reads with
        | scalar read => exact .compare op (Json.isScalar_iff.mpr ⟨_, read⟩)
    | range =>
        obtain ⟨low, high, pair⟩ : ∃ low high, operand = .list [low, high] := fits
        rw [pair] at reads
        cases reads with
        | list read =>
            cases read with
            | cons readLow rest =>
                cases rest with
                | cons readHigh rest =>
                    cases rest
                    exact .range (Json.isScalar_iff.mpr ⟨_, readLow⟩)
                      (Json.isScalar_iff.mpr ⟨_, readHigh⟩)
    | unknown noComparison noRange =>
        exact .unknown fits noComparison noRange (Json.isOperand_iff.mpr ⟨operand, reads⟩)
  · intro suits
    cases suits with
    | compare op scalar =>
        obtain ⟨value, read⟩ := Json.isScalar_iff.mp scalar
        rw [Restriction.operatorTag_eq_compare_iff.mpr rfl]
        exact ⟨_, .scalar read, value, rfl⟩
    | range lowScalar highScalar =>
        obtain ⟨low, readLow⟩ := Json.isScalar_iff.mp lowScalar
        obtain ⟨high, readHigh⟩ := Json.isScalar_iff.mp highScalar
        rw [Restriction.operatorTag_eq_range_iff.mpr rfl]
        exact ⟨_, .list (.cons readLow (.cons readHigh .nil)), low, high, rfl⟩
    | unknown placeholder noComparison noRange operand =>
        obtain ⟨operand, reads⟩ := Json.isOperand_iff.mp operand
        have isUnknown := Restriction.isUnknown_operatorTag_iff.mpr ⟨noComparison, noRange⟩
        exact ⟨operand, reads, (Restriction.fits_iff_of_isUnknown isUnknown).mpr placeholder⟩

theorem exists_restrictionReads_fits_iff {policy : UnknownOperatorPolicy} {json : Json} :
    (∃ restriction, RestrictionReads json restriction ∧ restriction.Fits policy) ↔
      ValidRestriction policy json := by
  constructor
  · intro ⟨restriction, reads, fits⟩
    cases reads with
    | intro operator operand read =>
        exact .intro operator operand (exists_operandReads_fits_iff.mp ⟨_, read, fits⟩)
  · intro valid
    cases valid with
    | intro operator operand suits =>
        obtain ⟨_, read, fits⟩ := exists_operandReads_fits_iff.mpr suits
        exact ⟨_, .intro operator operand read, fits⟩

theorem exists_memberReads_fits_iff {policy : UnknownOperatorPolicy} {entry : String × Json} :
    (∃ member, MemberReads entry member ∧ ∀ r ∈ member.restrictions, r.Fits policy) ↔
      ValidMember policy entry := by
  have restrictions : (∃ restrictions, List.Forall₂ RestrictionReads entry.2.listed restrictions ∧
      ∀ r ∈ restrictions, r.Fits policy) ↔
        ∀ json ∈ entry.2.listed, ValidRestriction policy json := by
    simp only [exists_forall₂_and_iff, exists_restrictionReads_fits_iff]
  constructor
  · intro ⟨member, reads, fits⟩
    exact ⟨(aliasShaped_iff entry.1).mpr ⟨_, reads.target⟩,
      restrictions.mp ⟨_, reads.restrictions, fits⟩⟩
  · intro valid
    obtain ⟨target, spelled⟩ := (aliasShaped_iff entry.1).mp valid.key
    obtain ⟨found, reads, fits⟩ := restrictions.mpr valid.restrictions
    exact ⟨⟨target, found⟩, ⟨spelled, reads⟩, fits⟩

theorem exists_nodeReads_fits_iff {policy : UnknownOperatorPolicy} {entry : String × Json} :
    (∃ node, NodeReads entry node ∧ node.Fits policy) ↔ ValidEntry policy entry := by
  constructor
  · intro ⟨node, reads, fits⟩
    cases reads with
    | leaf operator spelled read =>
        exact .leaf operator ((aliasShaped_iff _).mpr ⟨_, spelled⟩)
          (exists_restrictionReads_fits_iff.mp ⟨_, read, fits⟩)
    | group operator connects reads =>
        refine .group operator connects ?_
        simp only [← exists_memberReads_fits_iff, ← exists_forall₂_and_iff]
        exact ⟨_, reads, fits⟩
  · intro valid
    cases valid with
    | leaf operator shaped valid =>
        obtain ⟨target, spelled⟩ := (aliasShaped_iff _).mp shaped
        obtain ⟨restriction, read, fits⟩ := exists_restrictionReads_fits_iff.mpr valid
        exact ⟨_, .leaf operator spelled read, fits⟩
    | group operator connects valid =>
        simp only [← exists_memberReads_fits_iff, ← exists_forall₂_and_iff] at valid
        obtain ⟨members, reads, fits⟩ := valid
        exact ⟨_, .group operator connects reads, fits⟩

/-! Whole demands. -/

theorem exists_readEntry_fits_iff {policy : UnknownOperatorPolicy} {entry : String × Json} :
    (∃ result, Demand.readEntry entry = .ok result ∧ result.2.Fits policy) ↔
      ValidEntry policy entry := by
  simp only [Demand.readEntry_eq_ok_iff, ← exists_nodeReads_fits_iff]
  constructor
  · intro ⟨result, ⟨_, reads⟩, fits⟩
    exact ⟨result.2, reads, fits⟩
  · intro ⟨node, reads, fits⟩
    exact ⟨(entry.1, node), ⟨rfl, reads⟩, fits⟩

theorem exists_entries_fit_iff {policy : UnknownOperatorPolicy} {raw : Mapping} :
    (∃ entries, raw.mapM Demand.readEntry = .ok entries ∧
        ∀ entry ∈ entries, entry.2.Fits policy) ↔
      ∀ entry ∈ raw, ValidEntry policy entry := by
  simp only [Outcome.mapM_eq_ok_iff, exists_forall₂_and_iff, exists_readEntry_fits_iff]

theorem exists_coerced_entries_fit_iff {policy : UnknownOperatorPolicy} {raw : Mapping} :
    (∃ entries, (coerceDemand raw).mapM Demand.readEntry = .ok entries ∧
        ∀ entry ∈ entries, entry.2.Fits policy) ↔
      ∃ entries, raw.mapM Demand.readEntry = .ok entries ∧
        ∀ entry ∈ entries, entry.2.Fits policy := by
  refine ((Demand.mapM_readEntry_coerceDemand raw).exists_ok_iff ?_).symm
  intro before after aligned
  exact aligned.forall_mem_iff fun _ _ _ coerced => coerced.node.fits_iff

namespace Compiler

theorem exists_tree?_iff_fits {compiler : Compiler} {aliases : TableAliases} {raw : Mapping} :
    (∃ tree, compiler.tree? aliases raw = .ok tree) ↔
      ∃ entries, (coerceDemand raw).mapM Demand.readEntry = .ok entries ∧
        ∀ entry ∈ entries, entry.2.Fits compiler.unknownOperator := by
  simp only [tree?_eq_ok_iff, Demand.read_eq_ok_iff_mapM, ← exists_forall₂_nodeEmits_iff aliases]
  constructor
  · intro ⟨tree, demand, read, emitted, emits, _⟩
    exact ⟨demand.entries, read, emitted, emits⟩
  · intro ⟨entries, read, emitted, emits⟩
    exact ⟨joined emitted, ⟨entries⟩, read, emitted, emits, rfl⟩

/-- There is a tree if and only if each entry is valid. -/
theorem exists_tree?_iff (compiler : Compiler) (aliases : TableAliases) (raw : Mapping) :
    (∃ tree, compiler.tree? aliases raw = .ok tree) ↔
      ∀ entry ∈ raw, ValidEntry compiler.unknownOperator entry := by
  rw [exists_tree?_iff_fits, exists_coerced_entries_fit_iff, exists_entries_fit_iff]

/-- Any builder without effects builds where there is a tree. -/
theorem exists_outcome_compile_iff {P : Type} (compiler : Compiler) (aliases : TableAliases)
    (b : Builder Id P) (raw : Mapping) :
    (∃ built, outcome (compiler.compile aliases b raw) = .ok built) ↔
      ∃ tree, compiler.tree? aliases raw = .ok tree := by
  have agree := (Builder.related_true b .tree).compile compiler aliases raw
  simpa [tree?] using
    agree.exists_ok_iff (P := fun _ => True) (Q := fun _ => True) fun _ _ _ => Iff.rfl

/-- A demand compiles, with any builder, if and only if each of its entries is valid. Where a
builder has effects, a valid demand is built and any other ends in a fault. -/
theorem compile_succeeds_iff (compiler : Compiler) (aliases : TableAliases) (raw : Mapping) :
    (∀ {P : Type} (b : Builder Id P),
      (∃ built, outcome (compiler.compile aliases b raw) = .ok built) ↔
        ∀ entry ∈ raw, ValidEntry compiler.unknownOperator entry) ∧
    (∀ {m : Type → Type} [Monad m] [LawfulMonad m] {P : Type} (b : Builder m P),
      ((∀ entry ∈ raw, ValidEntry compiler.unknownOperator entry) →
        Succeeds (compiler.compile aliases b raw)) ∧
      ((¬ ∀ entry ∈ raw, ValidEntry compiler.unknownOperator entry) →
        ∃ fault, FailsWith fault (compiler.compile aliases b raw))) := by
  refine ⟨fun b => ?_, fun b => ?_⟩
  · rw [exists_outcome_compile_iff, exists_tree?_iff]
  · rw [← exists_tree?_iff compiler aliases,
      ← exists_outcome_compile_iff compiler aliases b.deferred]
    have realizes := compiler.realizes_compile aliases b raw
    exact ⟨realizes.succeeds, realizes.fails⟩

/-- A builder that counts its calls builds a restriction, and fails on an entry that is no
object. -/
theorem compile_succeeds_counted :
    let counted : Builder (StateM Nat) Predicate := Builder.noting (fun _ => modify Nat.succ) .tree
    let compiler : Compiler := ⟨.reject⟩
    let restriction : Json := .object [("operator", .string "LT"), ("value", .string "5")]
    Succeeds (compiler.compile [] counted [("t-f", restriction)]) ∧
      ∃ fault, FailsWith fault (compiler.compile [] counted [("t-f", .null)]) := by
  intro counted compiler restriction
  have shaped : AliasShaped "t-f" := ⟨['t'], ['f'], [], by decide, by decide, by decide⟩
  constructor
  · refine ((compile_succeeds_iff compiler [] [("t-f", restriction)]).2 counted).1 ?_
    rw [List.forall_mem_singleton]
    exact .leaf (by decide) shaped (.intro rfl rfl (.compare .lt trivial))
  · refine ((compile_succeeds_iff compiler [] [("t-f", .null)]).2 counted).2 ?_
    rw [List.forall_mem_singleton]
    intro valid
    cases valid

end Compiler

end Winnow
