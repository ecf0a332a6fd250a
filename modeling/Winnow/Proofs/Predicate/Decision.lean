import Mathlib.Data.List.Forall2
import Winnow.Predicate.Evaluation
import Winnow.Proofs.Compilation.Tree
import Winnow.Proofs.Outcome

/-!
# What predicates decide

A predicate decides a property of a record if evaluation says whether the record has it. Evaluation
stops as soon as the answer is known; what is decided does not depend on that.
-/

namespace Winnow

/-- A value stands to an operand as a comparison asks. Only null is equal to null, and null is in no
other comparison. -/
def Compares (value : Scalar) (op : Comparison) (operand : Scalar) : Prop :=
  if operand = .null then op = .eq ∧ value = .null
  else ∃ order, value.compare? operand = some order ∧ op.admits order = true

namespace Predicate

theorem holds_eq_true_iff {value operand : Scalar} {op : Comparison} :
    holds value op operand = true ↔ Compares value op operand := by
  have isNull (s : Scalar) : s.isNull = true ↔ s = .null := by
    cases s <;> simp [Scalar.isNull]
  unfold holds Compares
  by_cases null : operand = .null
  · rw [if_pos ((isNull operand).mpr null), if_pos null, Bool.and_eq_true, beq_iff_eq, isNull]
  · rw [if_neg fun h => null ((isNull operand).mp h), if_neg null, Option.any_eq_true]

variable {ρ : Type} [Record ρ]

/-- The record has a value for the field, and the value has the property. -/
def FieldHas (record : ρ) (field : String) (P : Scalar → Prop) : Prop :=
  ∃ value, Record.value? record field = some value ∧ P value

theorem FieldHas.and {record : ρ} {field : String} {P Q : Scalar → Prop} :
    FieldHas record field P ∧ FieldHas record field Q ↔
      FieldHas record field fun value => P value ∧ Q value := by
  constructor
  · intro ⟨⟨value, found, first⟩, other, found', second⟩
    cases found.symm.trans found'
    exact ⟨value, found, first, second⟩
  · intro ⟨value, found, first, second⟩
    exact ⟨⟨value, found, first⟩, value, found, second⟩

/-- Of a record that has all of its fields, the predicate says whether the record has a property. -/
def Decides (record : ρ) (p : Predicate) (P : Prop) : Prop :=
  (∀ field ∈ p.fields, (Record.value? record field).isSome) →
    ∃ answer, p.eval record = .ok answer ∧ (answer = true ↔ P)

namespace Decides

variable {record : ρ} {p : Predicate} {P Q : Prop}

theorem congr (decides : Decides record p P) (same : P ↔ Q) : Decides record p Q := by
  intro present
  obtain ⟨answer, evaluated, correct⟩ := decides present
  exact ⟨answer, evaluated, correct.trans same⟩

/-- A predicate that puts one field's value to a test. -/
theorem of_lookup {P : Scalar → Prop} (field : String) (test : Scalar → Bool)
    (fields : p.fields = [field]) (evaluated : p.eval record = test <$> lookup record field)
    (tests : ∀ value, test value = true ↔ P value) :
    Decides record p (FieldHas record field P) := by
  intro present
  rw [fields, List.forall_mem_singleton, Option.isSome_iff_exists] at present
  obtain ⟨value, found⟩ := present
  refine ⟨test value, ?_, ?_⟩
  · rw [evaluated, lookup, found]
    rfl
  · rw [tests]
    constructor
    · intro has
      exact ⟨value, found, has⟩
    · intro ⟨other, foundOther, has⟩
      cases found.symm.trans foundOther
      exact has

theorem compare (field : String) (op : Comparison) (operand : Scalar) :
    Decides record (.compare field op operand)
      (FieldHas record field fun value => Compares value op operand) := by
  have evaluated : (Predicate.compare field op operand).eval record =
      (holds · op operand) <$> lookup record field := by
    rw [eval]
    cases lookup record field <;> rfl
  exact of_lookup field _ (by rw [Predicate.fields]) evaluated fun _ => holds_eq_true_iff

theorem bare (field : String) :
    Decides record (.bare field) (FieldHas record field fun value => value.isTruthy = true) := by
  have evaluated : (Predicate.bare field).eval record =
      Scalar.isTruthy <$> lookup record field := by
    rw [eval]
    cases lookup record field <;> rfl
  exact of_lookup field _ (by rw [Predicate.fields]) evaluated fun _ => Iff.rfl

variable {σ : Type} {S : σ → Prop} {sources : List σ} {parts : List Predicate}

theorem conj (each : List.Forall₂ (fun s part => Decides record part (S s)) sources parts) :
    Decides record (.conj parts) (∀ s ∈ sources, S s) := by
  induction each with
  | nil =>
      intro _
      refine ⟨true, ?_, by simp⟩
      rw [eval, evalAll]
      rfl
  | @cons s part sources parts head _ ih =>
      intro present
      simp only [fields, partFields, List.forall_mem_append] at present ih
      obtain ⟨first, evaluated, correct⟩ := head present.1
      -- The rest has an answer also where evaluation stops before it.
      obtain ⟨rest, evaluatedRest, correctRest⟩ := ih present.2
      rw [eval] at evaluatedRest
      rw [eval, evalAll, evaluated, Outcome.ok_bind, List.forall_mem_cons, ← correct, ← correctRest,
        evaluatedRest]
      cases first with
      | true => exact ⟨rest, rfl, by simp⟩
      | false => exact ⟨false, rfl, by simp⟩

theorem disj (each : List.Forall₂ (fun s part => Decides record part (S s)) sources parts) :
    Decides record (.disj parts) (∃ s ∈ sources, S s) := by
  induction each with
  | nil =>
      intro _
      refine ⟨false, ?_, by simp⟩
      rw [eval, evalAny]
      rfl
  | @cons s part sources parts head _ ih =>
      intro present
      simp only [fields, partFields, List.forall_mem_append] at present ih
      obtain ⟨first, evaluated, correct⟩ := head present.1
      obtain ⟨rest, evaluatedRest, correctRest⟩ := ih present.2
      rw [eval] at evaluatedRest
      rw [eval, evalAny, evaluated, Outcome.ok_bind, List.exists_mem_cons_iff, ← correct,
        ← correctRest, evaluatedRest]
      cases first with
      | true => exact ⟨true, rfl, by simp⟩
      | false => exact ⟨rest, rfl, by simp⟩

theorem joined (each : List.Forall₂ (fun s part => Decides record part (S s)) sources parts) :
    Decides record (joined parts) (∀ s ∈ sources, S s) := by
  unfold Winnow.joined
  split
  · cases each with
    | cons head tail =>
        cases tail
        exact head.congr (by simp)
  · exact conj each

end Decides

end Predicate

end Winnow
