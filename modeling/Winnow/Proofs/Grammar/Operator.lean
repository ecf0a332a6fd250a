import Winnow.Proofs.Grammar.Reading

/-!
# Operators and their operands

Which values of an operator name a comparison or the range, and which values read as operands.
-/

namespace Winnow

theorem Comparison.ofTag?_eq_some_iff {tag : String} {op : Comparison} :
    ofTag? tag = some op ↔ tag = op.tag := by
  constructor
  · intro found
    have named := List.find?_some found
    exact (eq_of_beq named).symm
  · intro named
    rw [named]
    cases op <;> rfl

theorem Comparison.tag_ne_rangeTag (op : Comparison) : op.tag ≠ OperatorTag.rangeTag := by
  cases op <;> decide

namespace Restriction

theorem operatorTag_eq_compare_iff {json : Json} {op : Comparison} :
    operatorTag json = .compare op ↔ json = .string op.tag := by
  cases json with
  | string tag =>
      rw [operatorTag, OperatorTag.ofText, Json.string.injEq, ← Comparison.ofTag?_eq_some_iff]
      cases Comparison.ofTag? tag with
      | some found => simp
      | none =>
          refine ⟨fun impossible => ?_, fun impossible => by cases impossible⟩
          dsimp only at impossible
          split at impossible <;> cases impossible
  | _ => simp [operatorTag]

theorem operatorTag_eq_range_iff {json : Json} :
    operatorTag json = .range ↔ json = .string OperatorTag.rangeTag := by
  cases json with
  | string tag =>
      rw [operatorTag, OperatorTag.ofText, Json.string.injEq]
      cases found : Comparison.ofTag? tag with
      | some op =>
          rw [Comparison.ofTag?_eq_some_iff.mp found]
          simp [op.tag_ne_rangeTag]
      | none =>
          by_cases range : tag = OperatorTag.rangeTag
          · simp [range]
          · simp [range]
  | _ => simp [operatorTag]

theorem isUnknown_operatorTag_iff {json : Json} :
    (operatorTag json).isUnknown = true ↔
      (∀ op : Comparison, json ≠ .string op.tag) ∧ json ≠ .string OperatorTag.rangeTag := by
  simp only [ne_eq, ← operatorTag_eq_compare_iff, ← operatorTag_eq_range_iff]
  cases operatorTag json <;> simp [OperatorTag.isUnknown]

/-- How the value of an operator names the operator that it reads as. -/
inductive Names : Json → OperatorTag → Prop
  | compare (op : Comparison) : Names (.string op.tag) (.compare op)
  | range : Names (.string OperatorTag.rangeTag) .range
  | unknown {json text} (noComparison : ∀ op : Comparison, json ≠ .string op.tag)
      (noRange : json ≠ .string OperatorTag.rangeTag) : Names json (.unknown text)

theorem names_operatorTag (json : Json) : Names json (operatorTag json) := by
  cases operator : operatorTag json with
  | compare op =>
      rw [operatorTag_eq_compare_iff.mp operator]
      exact .compare op
  | range =>
      rw [operatorTag_eq_range_iff.mp operator]
      exact .range
  | unknown text =>
      have unknown : (operatorTag json).isUnknown := by
        rw [operator]
        rfl
      obtain ⟨noComparison, noRange⟩ := isUnknown_operatorTag_iff.mp unknown
      exact .unknown noComparison noRange

end Restriction

namespace Json

theorem isScalar_iff {json : Json} :
    json.IsScalar ↔ ∃ value, Scalar.ofJson? json = some value := by
  cases json with
  | number n => cases n <;> simp [IsScalar, Scalar.ofJson?]
  | _ => simp [IsScalar, Scalar.ofJson?]

/-- A scalar, or an array of scalars. -/
def IsOperand (json : Json) : Prop :=
  json.IsScalar ∨ ∃ items, json = .array items ∧ ∀ item ∈ items, item.IsScalar

theorem isOperand_iff {json : Json} : json.IsOperand ↔ ∃ operand, OperandReads json operand := by
  simp only [IsOperand, isScalar_iff, ← exists_forall₂_iff]
  constructor
  · intro operand
    rcases operand with ⟨value, read⟩ | ⟨items, rfl, values, read⟩
    · exact ⟨_, .scalar read⟩
    · exact ⟨_, .list read⟩
  · intro ⟨operand, reads⟩
    cases reads with
    | scalar read => exact .inl ⟨_, read⟩
    | list read => exact .inr ⟨_, rfl, _, read⟩

end Json

end Winnow
