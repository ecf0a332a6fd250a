import Winnow.Predicate.Evaluation
import Winnow.Proofs.Outcome

/-!
# Filtering records

A filter succeeds if the predicate can be evaluated on every record, and then gives the records of
which it holds. Filtering by one predicate after another is filtering by one that asks the second
where the first holds.
-/

namespace Winnow.Predicate

variable {ρ : Type} [Record ρ]

/-- Evaluation ends without a fault, and the predicate holds. -/
def HoldsOf (p : Predicate) (record : ρ) : Prop :=
  p.eval record = .ok true

instance (p : Predicate) (record : ρ) : Decidable (p.HoldsOf record) :=
  inferInstanceAs (Decidable (p.eval record = .ok true))

theorem filter_cons (p : Predicate) (record : ρ) (rest : List ρ) :
    p.filter (record :: rest) = p.eval record >>= fun answer =>
      if answer then (record :: ·) <$> p.filter rest else p.filter rest := by
  rw [filter]
  cases p.eval record with
  | error fault => rfl
  | ok answer => cases answer <;> cases p.filter rest <;> rfl

theorem filter_eq_ok_iff {p : Predicate} {records found : List ρ} :
    p.filter records = .ok found ↔
      (∀ record ∈ records, ∃ answer, p.eval record = .ok answer) ∧
        records.filter (p.HoldsOf ·) = found := by
  induction records generalizing found with
  | nil => simp [filter, pure, Except.pure]
  | cons record rest ih =>
      rw [filter_cons, List.forall_mem_cons, List.filter_cons]
      cases evaluated : p.eval record with
      | error fault => simp
      | ok answer =>
          have holds : p.HoldsOf record ↔ answer = true := by simp [HoldsOf, evaluated]
          cases answer with
          | true => simp [holds, Outcome.map_eq_ok_iff, ih]
          | false => simp [holds, ih]

/-- The answer of the second predicate where the first holds, and that of the first elsewhere. -/
def evalThen (first second : Predicate) (record : ρ) : Except Fault Bool :=
  match first.eval record with
  | .ok true => second.eval record
  | answer => answer

theorem exists_evalThen_iff {first second : Predicate} {record : ρ} :
    (∃ answer, first.evalThen second record = .ok answer) ↔
      (∃ answer, first.eval record = .ok answer) ∧
        (first.HoldsOf record → ∃ answer, second.eval record = .ok answer) := by
  unfold evalThen HoldsOf
  cases first.eval record with
  | error fault => simp
  | ok answer => cases answer <;> simp

theorem evalThen_eq_true_iff {first second : Predicate} {record : ρ} :
    first.evalThen second record = .ok true ↔ first.HoldsOf record ∧ second.HoldsOf record := by
  unfold evalThen HoldsOf
  cases first.eval record with
  | error fault => simp
  | ok answer => cases answer <;> simp

/-- The second predicate need not be evaluated on the records that the first one drops. -/
theorem filter_eq_ok_iff_of_evalThen {p first second : Predicate} {records found : List ρ}
    (sequenced : ∀ record : ρ, p.eval record = first.evalThen second record) :
    p.filter records = .ok found ↔
      ∃ kept, first.filter records = .ok kept ∧ second.filter kept = .ok found := by
  have holds (record : ρ) : p.HoldsOf record ↔ first.HoldsOf record ∧ second.HoldsOf record := by
    rw [HoldsOf, sequenced, evalThen_eq_true_iff]
  have filtered : records.filter (p.HoldsOf ·) =
      (records.filter (first.HoldsOf ·)).filter (second.HoldsOf ·) := by
    simp only [List.filter_filter, holds, Bool.decide_and, Bool.and_comm]
  simp only [filter_eq_ok_iff, sequenced, exists_evalThen_iff, filtered]
  constructor
  · intro ⟨evaluated, same⟩
    refine ⟨_, ⟨fun record member => (evaluated record member).1, rfl⟩, ?_, same⟩
    intro record member
    obtain ⟨listed, held⟩ := List.mem_filter.mp member
    exact (evaluated record listed).2 (of_decide_eq_true held)
  · intro ⟨kept, ⟨evaluated, keeps⟩, evaluatedKept, same⟩
    subst keeps
    refine ⟨fun record member => ⟨evaluated record member, fun held => ?_⟩, same⟩
    exact evaluatedKept record (List.mem_filter.mpr ⟨member, decide_eq_true held⟩)

theorem filter_sublist {p : Predicate} {records found : List ρ}
    (filtered : p.filter records = .ok found) : found.Sublist records := by
  rw [← (filter_eq_ok_iff.mp filtered).2]
  exact List.filter_sublist

end Winnow.Predicate
