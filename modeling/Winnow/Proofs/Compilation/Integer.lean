import Winnow.Proofs.Coercion.Node
import Winnow.Proofs.Compilation.Tree
import Winnow.Proofs.Grammar.Operator
import Winnow.Proofs.Grammar.Reading
import Winnow.Proofs.Predicate.Comparison
import Winnow.Proofs.Scalar.Integer

/-!
# Comparing integers, from a demand to a record

Integers are written in demands and in records, and a restriction compares the one with the other.
It does so exactly below `2 ^ 63`, and wherever the two have different binary64 numbers nearest to
them. From `2 ^ 63` on only these nearest numbers are compared.
-/

namespace Winnow

/-- A restriction by a comparison with one operand. -/
def comparisonMembers (op : Comparison) (operand : Json) : Mapping :=
  [(RestrictionKey.operator.name, .string op.tag), (RestrictionKey.value.name, operand)]

theorem coerceNode_comparisonMembers (op : Comparison) (number : JsonNumber) :
    coerceNode (.object (comparisonMembers op (.number number))) =
      .object (comparisonMembers op (.number number)) := by
  rw [coerceNode_object]
  cases leaf : leafValue? (comparisonMembers op (.number number)) with
  | none =>
      rw [coerceObject_of_not_leaf leaf]
      rfl
  | some value =>
      rw [coerceObject_of_leaf leaf]
      have found : some (.number number) = some value := (leafValue?_eq_some_iff.mp leaf).1
      cases found
      rfl

theorem restrictionReads_comparisonMembers {operand : Json} {value : Scalar} (op : Comparison)
    (read : Scalar.ofJson? operand = some value) :
    RestrictionReads (.object (comparisonMembers op operand)) ⟨.compare op, .scalar value⟩ := by
  have tag : Restriction.operatorTag (.string op.tag) = .compare op :=
    Restriction.operatorTag_eq_compare_iff.mpr rfl
  rw [← tag]
  exact .intro rfl rfl (.scalar read)

theorem holds_iff_relates {value operand : Scalar} {op : Comparison} {m n : ℤ}
    (notNull : operand ≠ .null) (compared : value.compare? operand = some (compare m n)) :
    Predicate.holds value op operand = true ↔ op.Relates m n := by
  rw [Predicate.holds_eq_true_iff, compares_of_some notNull compared,
    Comparison.admits_compare_iff]

namespace Compiler

variable {compiler : Compiler} {aliases : TableAliases}

theorem tree?_comparisonMembers {key : String} {target : FieldAlias} (spelled : Spells key target)
    {number : JsonNumber} {value : Scalar} (op : Comparison)
    (read : Scalar.ofJson? (.number number) = some value) :
    compiler.tree? aliases [(key, .object (comparisonMembers op (.number number)))] =
      .ok (.compare (target.qualified aliases) op value) := by
  have uncoerced : coerceDemand [(key, .object (comparisonMembers op (.number number)))] =
      [(key, .object (comparisonMembers op (.number number)))] := by
    rw [coerceDemand, coerceMembers, coerceMembers, coerceNode_comparisonMembers]
  have node : NodeReads (key, .object (comparisonMembers op (.number number)))
      (.leaf ⟨target, .compare op, .scalar value⟩) :=
    .leaf (by simp [comparisonMembers, Entries.keys]) spelled
      (restrictionReads_comparisonMembers op read)
  refine tree?_eq_ok_iff.mpr ⟨⟨[(key, .leaf ⟨target, .compare op, .scalar value⟩)]⟩, ?_, ?_⟩
  · rw [uncoerced, Demand.read_eq_ok_iff_mapM, Outcome.mapM_eq_ok_iff]
    exact .cons (Demand.readEntry_eq_ok_iff.mpr ⟨rfl, node⟩) .nil
  · exact ⟨_, .cons (.leaf (.compare op value)) .nil, rfl⟩

theorem spells_table_field : Spells "t-f" ⟨"t", "f"⟩ := FieldAlias.read_eq_ok_iff.mp rfl

/-- A restriction compares two integers as they are, if they are below `2 ^ 63` or no binary64
number is nearest to both; and from `2 ^ 63` on as their nearest multiples of 2048. -/
theorem tree?_compares_integers (compiler : Compiler) (op : Comparison) {m n : ℤ}
    {written operand : List Char} (mWritten : IntegerLiteral written m)
    (nWritten : IntegerLiteral operand n) (mLeast : -2 ^ 63 ≤ m) (mGreatest : m < 2 ^ 64)
    (nLeast : -2 ^ 63 ≤ n) (nGreatest : n < 2 ^ 64) :
    ∃ value bound, Json.read? (String.ofList written) = some value ∧
      Json.read? (String.ofList operand) = some bound ∧
      ∃ tree, compiler.tree? []
          [("t-f", .object [("operator", .string op.tag), ("value", bound)])] = .ok tree ∧
        ∃ answer, tree.eval (ρ := Mapping) [("f", value)] = .ok answer ∧
          (m < 2 ^ 63 ∧ n < 2 ^ 63 ∨ (Binary64.ofInt m).numEq (.ofInt n) = false →
            (answer = true ↔ op.Relates m n)) ∧
          (2 ^ 63 ≤ m → 2 ^ 63 ≤ n →
            (answer = true ↔
              op.Relates (Binary64.nearestSteps m) (Binary64.nearestSteps n))) := by
  obtain ⟨mNumber, mRead, mKept⟩ := Json.read?_integerLiteral mWritten mLeast mGreatest
  obtain ⟨nNumber, nRead, nKept⟩ := Json.read?_integerLiteral nWritten nLeast nGreatest
  obtain ⟨a, mScalar, mStands⟩ := Scalar.exists_standsFor mKept
  obtain ⟨b, nScalar, nStands⟩ := Scalar.exists_standsFor nKept
  have compiled : compiler.tree? [] [("t-f", .object (comparisonMembers op (.number nNumber)))] =
      .ok (.compare "f" op b) := tree?_comparisonMembers spells_table_field op nScalar
  let record : Mapping := [("f", .number mNumber)]
  have found : Record.value? record "f" = some a := by
    have read : Record.value? record "f" =
        some ((Scalar.ofJson? (.number mNumber)).getD .null) := rfl
    rw [read, mScalar]
    rfl
  refine ⟨_, _, mRead, nRead, _, compiled, _, Predicate.eval_compare found op b, ?apart, ?large⟩
  case apart =>
    intro apart
    apply holds_iff_relates nStands.ne_null
    rcases apart with ⟨mSmall, nSmall⟩ | differ
    · exact Scalar.compare?_of_small mStands nStands mSmall nSmall
    · refine Scalar.compare?_of_distinct mStands nStands fun same => ?_
      cases differ.symm.trans (Binary64.numEq_ofInt_iff.mpr same)
  case large =>
    intro mLarge nLarge
    apply holds_iff_relates nStands.ne_null
    exact Scalar.compare?_of_large mStands nStands mLarge mGreatest nLarge nGreatest

theorem tree?_compares_integers_largest :
    IntegerLiteral "18446744073709551615".toList (2 ^ 64 - 1) ∧
      IntegerLiteral "-1".toList (-1) ∧
      ∃ value bound, Json.read? (String.ofList "18446744073709551615".toList) = some value ∧
        Json.read? (String.ofList "-1".toList) = some bound ∧
        ∃ tree, tree? ⟨.reject⟩ []
            [("t-f", .object [("operator", .string "GT"), ("value", bound)])] = .ok tree ∧
          ∃ answer, tree.eval (ρ := Mapping) [("f", value)] = .ok answer ∧
            (answer = true ↔ Comparison.gt.Relates (2 ^ 64 - 1) (-1)) := by
  have largest : placeValue "18446744073709551615".toList = 2 ^ 64 - 1 := by decide +kernel
  have one : placeValue ['1'] = 1 := by decide
  have written : IntegerLiteral "18446744073709551615".toList (2 ^ 64 - 1) := by
    have row : DigitRow "18446744073709551615".toList := ⟨by simp, by decide, by decide⟩
    have literal := IntegerLiteral.unsigned row
    rw [largest] at literal
    exact literal
  have operand : IntegerLiteral "-1".toList (-1) := by
    have row : DigitRow ['1'] := ⟨by simp, by decide, by decide⟩
    have literal := IntegerLiteral.negative row
    rw [one] at literal
    exact literal
  obtain ⟨value, bound, valueRead, boundRead, tree, compiled, answer, evaluated, apart, _⟩ :=
    tree?_compares_integers ⟨.reject⟩ .gt written operand (by decide) (by decide) (by decide)
      (by decide)
  have differ : (Binary64.ofInt (2 ^ 64 - 1)).numEq (.ofInt (-1)) = false := by decide +kernel
  exact ⟨written, operand, value, bound, valueRead, boundRead, tree, compiled, answer, evaluated,
    apart (.inr differ)⟩

/-- Two different integers from `2 ^ 63` on pass for equal. -/
theorem tree?_merges_integers :
    ∃ value bound, Json.read? "9223372036854775809" = some value ∧
      Json.read? "9223372036854775808" = some bound ∧
      (∃ tree, tree? ⟨.reject⟩ []
          [("t-f", .object [("operator", .string "EQ"), ("value", bound)])] = .ok tree ∧
        tree.eval (ρ := Mapping) [("f", value)] = .ok true) ∧
      ¬ Comparison.eq.Relates 9223372036854775809 9223372036854775808 := by
  refine ⟨.number (.large 9223372036854775809 (by decide)),
    .number (.large 9223372036854775808 (by decide)), by decide +kernel, by decide +kernel,
    ⟨.compare "f" .eq (.float (.ofInt 9223372036854775808)), by decide +kernel, by decide +kernel⟩,
    ?_⟩
  unfold Comparison.Relates
  decide

end Compiler

end Winnow
