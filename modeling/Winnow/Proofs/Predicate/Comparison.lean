import Winnow.Proofs.Predicate.Decision
import Winnow.Proofs.Predicate.Filtering
import Winnow.Proofs.Scalar.Kind

/-!
# Comparisons from both sides

A comparison of a value with an operand is the mirrored comparison of the operand with the value,
null included: null as an operand admits equality alone, and null as a value is ordered with null
alone. The five comparisons with an operand that is not null fit together as those of an order do.
-/

namespace Winnow

namespace Comparison

/-- The comparison seen from the operand. -/
def mirror : Comparison → Comparison
  | .eq => .eq
  | .gt => .lt
  | .gte => .lte
  | .lt => .gt
  | .lte => .gte

theorem mirror_eq_eq_iff {op : Comparison} : op.mirror = .eq ↔ op = .eq := by
  cases op <;> simp [mirror]

theorem mirror_admits_swap (op : Comparison) (order : Ordering) :
    op.mirror.admits order.swap = op.admits order := by
  cases op <;> cases order <;> rfl

/-- Five conditions, one for each comparison, that fit together as in an order. -/
structure Coherent (Holds : Comparison → Prop) : Prop where
  gte_iff : Holds .gte ↔ Holds .gt ∨ Holds .eq
  lte_iff : Holds .lte ↔ Holds .lt ∨ Holds .eq
  not_lt_and_eq : ¬ (Holds .lt ∧ Holds .eq)
  not_lt_and_gt : ¬ (Holds .lt ∧ Holds .gt)
  not_eq_and_gt : ¬ (Holds .eq ∧ Holds .gt)

theorem coherent_admits (order : Ordering) : Coherent fun op => op.admits order = true := by
  cases order <;> constructor <;> decide

theorem exists_admits (order : Ordering) : ∃ op : Comparison, op.admits order = true := by
  cases order with
  | lt => exact ⟨.lt, rfl⟩
  | eq => exact ⟨.eq, rfl⟩
  | gt => exact ⟨.gt, rfl⟩

theorem Coherent.of_none {Holds : Comparison → Prop} (none : ∀ op, ¬ Holds op) :
    Coherent Holds := by
  constructor <;> simp [none]

theorem Coherent.congr {Holds Holds' : Comparison → Prop} (coherent : Coherent Holds)
    (same : ∀ op, Holds' op ↔ Holds op) : Coherent Holds' := by
  obtain rfl : Holds' = Holds := funext fun op => propext (same op)
  exact coherent

end Comparison

section Comparing

variable {value operand : Scalar} {op : Comparison}

/-- A form that treats both sides alike. -/
theorem compares_iff :
    Compares value op operand ↔
      (value = .null → operand = .null → op = .eq) ∧
        ∃ order, value.compare? operand = some order ∧ op.admits order = true := by
  unfold Compares
  split_ifs with null
  · subst null
    constructor
    · rintro ⟨rfl, rfl⟩
      exact ⟨fun _ _ => rfl, .eq, rfl, rfl⟩
    · intro ⟨onNull, order, compared, _⟩
      have isNull : value = .null :=
        Scalar.kind_eq_null_iff.mp (Scalar.kind_eq_of_compare? compared)
      exact ⟨onNull isNull rfl, isNull⟩
  · exact ⟨fun ordered => ⟨fun _ isNull => absurd isNull null, ordered⟩, And.right⟩

theorem compares_mirror : Compares operand op.mirror value ↔ Compares value op operand := by
  rw [compares_iff, compares_iff, Scalar.compare?_swap value, Comparison.mirror_eq_eq_iff]
  refine and_congr forall_comm ?_
  simp only [Option.map_eq_some_iff]
  constructor
  · rintro ⟨_, ⟨order, compared, rfl⟩, admitted⟩
    exact ⟨order, compared, Comparison.mirror_admits_swap op order ▸ admitted⟩
  · intro ⟨order, compared, admitted⟩
    exact ⟨order.swap, ⟨order, compared, rfl⟩,
      (Comparison.mirror_admits_swap op order).trans admitted⟩

theorem compares_of_some {order : Ordering} (notNull : operand ≠ .null)
    (compared : value.compare? operand = some order) :
    Compares value op operand ↔ op.admits order = true := by
  simp [Compares, notNull, compared]

theorem not_compares_of_none (notNull : operand ≠ .null)
    (apart : value.compare? operand = none) : ¬ Compares value op operand := by
  simp [Compares, notNull, apart]

theorem compares_coherent (notNull : operand ≠ .null) :
    Comparison.Coherent fun op => Compares value op operand := by
  cases compared : value.compare? operand with
  | none => exact .of_none fun _ => not_compares_of_none notNull compared
  | some order =>
      exact (Comparison.coherent_admits order).congr fun _ => compares_of_some notNull compared

theorem forall_not_compares_iff (notNull : operand ≠ .null) :
    (∀ op, ¬ Compares value op operand) ↔
      value.kind ≠ operand.kind ∨ value = .float .nan ∨ operand = .float .nan := by
  rw [← Scalar.compare?_eq_none_iff]
  cases compared : value.compare? operand with
  | none => exact iff_of_true (fun _ => not_compares_of_none notNull compared) rfl
  | some order =>
      obtain ⟨op, admitted⟩ := Comparison.exists_admits order
      refine iff_of_false (fun none => none op ?_) nofun
      exact (compares_of_some notNull compared).mpr admitted

end Comparing

namespace Predicate

variable {ρ σ : Type} [Record ρ] [Record σ]

theorem eval_compare {record : ρ} {field : String} {value : Scalar}
    (found : Record.value? record field = some value) (op : Comparison) (operand : Scalar) :
    (compare field op operand).eval record = .ok (holds value op operand) := by
  rw [eval, lookup, found]
  rfl

theorem holdsOf_compare_iff {record : ρ} {field : String} {value : Scalar}
    (found : Record.value? record field = some value) {op : Comparison} {operand : Scalar} :
    (compare field op operand).HoldsOf record ↔ Compares value op operand := by
  rw [HoldsOf, eval_compare found, Except.ok.injEq, holds_eq_true_iff]

theorem holds_mirror {value operand : Scalar} {op : Comparison} :
    holds operand op.mirror value = holds value op operand := by
  rw [Bool.eq_iff_iff, holds_eq_true_iff, holds_eq_true_iff, compares_mirror]

/-- A comparison, its mirror image, and the comparisons of the same operands with each other. -/
theorem eval_compare_coherent {record : ρ} {other : σ} {field : String} {x v : Scalar}
    (found : Record.value? record field = some x)
    (foundOther : Record.value? other field = some v) :
    (∀ op : Comparison, ∃ answer, (compare field op v).eval record = .ok answer ∧
        (compare field op.mirror x).eval other = .ok answer) ∧
      (v ≠ .null →
        Comparison.Coherent (fun op => (compare field op v).HoldsOf record) ∧
          ((∀ op, ¬ (compare field op v).HoldsOf record) ↔
            x.kind ≠ v.kind ∨ x = .float .nan ∨ v = .float .nan)) ∧
      (x.compare? v = some .eq ↔ x.equal v = true ∨ Scalar.NearestEqual x v) := by
  refine ⟨fun op => ?mirrored, fun notNull => ⟨?coherent, ?none⟩, Scalar.compare?_eq_eq_iff⟩
  case mirrored =>
    refine ⟨holds x op v, eval_compare found op v, ?_⟩
    rw [eval_compare foundOther, holds_mirror]
  case coherent =>
    exact (compares_coherent notNull).congr fun _ => holdsOf_compare_iff found
  case none =>
    simp only [holdsOf_compare_iff found]
    exact forall_not_compares_iff notNull

/-- An integer in a mapping and a float in a table. -/
theorem eval_compare_coherent_mixed :
    let mapping : Mapping := [("f", .number (.int 5))]
    let x := Scalar.int 5
    let v := Scalar.float (.ofInt 5)
    let table := (∅ : Std.HashMap String Scalar).insert "f" v
    (∃ answer, (compare "f" .gte v).eval mapping = .ok answer ∧
        (compare "f" .lte x).eval table = .ok answer) ∧
      Comparison.Coherent (fun op => (compare "f" op v).HoldsOf mapping) ∧
      (¬ ∀ op, ¬ (compare "f" op v).HoldsOf mapping) ∧
      x.compare? v = some .eq := by
  intro mapping x v table
  have found : Record.value? mapping "f" = some x := by decide +kernel
  have foundOther : Record.value? table "f" = some v := Std.HashMap.getElem?_insert_self
  obtain ⟨mirrored, related, equal⟩ := eval_compare_coherent found foundOther
  obtain ⟨coherent, none⟩ := related nofun
  have ordinary : ¬ (x.kind ≠ v.kind ∨ x = .float .nan ∨ v = .float .nan) := by decide +kernel
  have nearest : Scalar.NearestEqual x v := .intFloat (by decide +kernel)
  exact ⟨mirrored .gte, coherent, mt none.mp ordinary, equal.mpr (.inr nearest)⟩

end Predicate

end Winnow
