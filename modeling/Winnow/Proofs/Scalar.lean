import Winnow.Proofs.Number.Truncation
import Winnow.Scalar

/-!
# The order of scalars

Two integers are compared exactly, but an integer and a float by way of the binary64 number nearest
to the integer. Rounding is monotone, so the two ways do not contradict each other; the second sees
fewer differences. A chain of comparisons can therefore be cut short, unless it goes through two
integers and a float to which both integers are the same number.
-/

namespace Winnow

/-- A chain of two comparisons that do not go down, cut short. -/
theorem compare_then {α : Type} [Ord α] [Std.TransOrd α] {a b c : α}
    (first : compare a b ≠ .gt) (second : compare b c ≠ .gt) :
    compare a c = (compare a b).then (compare b c) := by
  cases left : compare a b with
  | gt => exact absurd left first
  | lt =>
      cases right : compare b c with
      | gt => exact absurd right second
      | lt => exact Std.TransCmp.lt_trans left right
      | eq => exact Std.TransCmp.lt_of_lt_of_eq left right
  | eq =>
      cases right : compare b c with
      | gt => exact absurd right second
      | lt => exact Std.TransCmp.lt_of_eq_of_lt left right
      | eq => exact Std.TransCmp.eq_trans left right

namespace Binary64

/-! Where the binary64 number nearest to an integer stands. -/

def magnitudeRank (n : Nat) : Nat := min (nearestUnits (n * one) 1) limit

def intRank (n : ℤ) : ℤ :=
  if n < 0 then -(magnitudeRank n.natAbs : ℤ) else magnitudeRank n.natAbs

theorem rank?_ofInt (n : ℤ) : (ofInt n).rank? = some (intRank n) := by
  unfold ofInt intRank magnitudeRank
  by_cases finite : nearestUnits (n.natAbs * one) 1 < limit
  · obtain ⟨x, same, sign, units⟩ := nearest_of_lt (decide (n < 0)) finite
    rw [same, rank?, Finite64.signed, sign, units, min_eq_left (Nat.le_of_lt finite)]
    simp only [decide_eq_true_eq]
  · rw [nearest_of_not_lt _ finite, min_eq_right (Nat.le_of_not_lt finite)]
    by_cases negative : n < 0
    · simp only [negative, decide_true, rank?, if_true]
    · simp only [negative, decide_false, rank?, if_false]

theorem magnitudeRank_mono {m n : Nat} (le : m ≤ n) : magnitudeRank m ≤ magnitudeRank n := by
  refine min_le_min_right limit (nearestUnits_mono Nat.one_pos ?_)
  exact Nat.mul_le_mul_right one le

theorem intRank_mono {m n : ℤ} (le : m ≤ n) : intRank m ≤ intRank n := by
  unfold intRank
  split_ifs with mNegative nNegative nNegative
  · have grows : magnitudeRank n.natAbs ≤ magnitudeRank m.natAbs := magnitudeRank_mono (by omega)
    omega
  · omega
  · omega
  · have grows : magnitudeRank m.natAbs ≤ magnitudeRank n.natAbs := magnitudeRank_mono (by omega)
    omega

theorem magnitudeRank_of_le {n : Nat} (small : n ≤ 2 ^ 53) : magnitudeRank n = n * one := by
  have finite : n * one ≤ limit := by
    calc
      n * one ≤ 2 ^ 53 * one := Nat.mul_le_mul_right one small
      _ = 2 ^ (53 + places) := two_pow_mul_one 53
      _ ≤ limit := by
        rw [limit_eq]
        exact Nat.pow_le_pow_right Nat.two_pos (by omega)
  rw [magnitudeRank, nearestUnits_eq (spacing_mul_one_dvd small), min_eq_left finite]

/-- Integers up to `2 ^ 53` are binary64 numbers. -/
theorem intRank_of_le {n : ℤ} (small : n.natAbs ≤ 2 ^ 53) : intRank n = n * one := by
  unfold intRank
  rw [magnitudeRank_of_le small, Nat.cast_mul]
  split_ifs with negative
  · rw [Int.ofNat_natAbs_of_nonpos (Int.le_of_lt negative), Int.neg_mul, Int.neg_neg]
  · rw [Int.natAbs_of_nonneg (Int.not_lt.mp negative)]

end Binary64

namespace Scalar

variable {a b c : Scalar} {r s : ℤ} {o o₁ o₂ : Ordering}

/-- Where a number stands among the floats. -/
def rank? (a : Scalar) : Option ℤ := a.toBinary64?.bind Binary64.rank?

theorem rank?_int (n : Int64) : (int n).rank? = some (Binary64.intRank n.toInt) := by
  rw [rank?, toBinary64?, Option.bind_some, Binary64.rank?_ofInt]

theorem compare?_int (m n : Int64) :
    (int m).compare? (.int n) = some (compare m.toInt n.toInt) := rfl

/-- Numbers are compared as floats, unless both are integers. -/
theorem compare?_of_ranks (left : a.rank? = some r) (right : b.rank? = some s) :
    a.compare? b = some (compare r s) ∨
      ∃ m n, a = .int m ∧ b = .int n ∧
        r = Binary64.intRank m.toInt ∧ s = Binary64.intRank n.toInt := by
  have asFloats : (do (← a.toBinary64?).compare? (← b.toBinary64?)) = some (compare r s) := by
    obtain ⟨x, toX, xRank⟩ := Option.bind_eq_some_iff.mp left
    obtain ⟨y, toY, yRank⟩ := Option.bind_eq_some_iff.mp right
    simp only [toX, toY, Binary64.compare?, xRank, yRank, Option.bind_eq_bind, Option.bind_some]
    rfl
  cases a with
  | null | bool | string => cases left
  | int m =>
      cases b with
      | null | bool | string => cases right
      | int n =>
          rw [rank?_int] at left right
          exact .inr ⟨m, n, rfl, rfl, (Option.some.inj left).symm, (Option.some.inj right).symm⟩
      | float y => exact .inl asFloats
  | float x =>
      cases b with
      | null | bool | string => cases right
      | int n => exact .inl asFloats
      | float y => exact .inl asFloats

theorem exists_ranks (number : a.isNumber = true) (compared : a.compare? b = some o) :
    ∃ r s, a.rank? = some r ∧ b.rank? = some s := by
  have asFloats (compared : (do (← a.toBinary64?).compare? (← b.toBinary64?)) = some o) :
      ∃ r s, a.rank? = some r ∧ b.rank? = some s := by
    simp only [Binary64.compare?, Option.bind_eq_bind, Option.bind_eq_some_iff] at compared
    obtain ⟨x, toX, y, toY, r, xRank, s, yRank, _⟩ := compared
    exact ⟨r, s, Option.bind_eq_some_iff.mpr ⟨x, toX, xRank⟩,
      Option.bind_eq_some_iff.mpr ⟨y, toY, yRank⟩⟩
  cases a with
  | null | bool | string => cases number
  | float x => cases b <;> exact asFloats compared
  | int m =>
      cases b with
      | null | bool | string => exact asFloats compared
      | int n => exact ⟨_, _, rank?_int m, rank?_int n⟩
      | float y => exact asFloats compared

section Ranked

variable (left : a.rank? = some r) (right : b.rank? = some s)

include left right

theorem compare?_of_lt (less : r < s) : a.compare? b = some .lt := by
  rcases compare?_of_ranks left right with compared | ⟨m, n, rfl, rfl, rfl, rfl⟩
  · rw [compared, Int.compare_eq_lt.mpr less]
  · have less : m.toInt < n.toInt := by
      by_contra notLess
      exact Int.not_le.mpr less (Binary64.intRank_mono (Int.not_lt.mp notLess))
    rw [compare?_int, Int.compare_eq_lt.mpr less]

theorem rank_le (compared : a.compare? b = some o) (notGreater : o ≠ .gt) : r ≤ s := by
  rcases compare?_of_ranks left right with same | ⟨m, n, rfl, rfl, rfl, rfl⟩
  · cases same.symm.trans compared
    exact Int.compare_ne_gt.mp notGreater
  · cases compared
    exact Binary64.intRank_mono (Int.compare_ne_gt.mp notGreater)

theorem rank_eq (compared : a.compare? b = some .eq) : r = s := by
  rcases compare?_of_ranks left right with same | ⟨m, n, rfl, rfl, rfl, rfl⟩
  · exact Int.compare_eq_eq.mp (Option.some.inj (same.symm.trans compared))
  · rw [Int.compare_eq_eq.mp (Option.some.inj compared)]

end Ranked

theorem compare?_eq_of_float (left : a.rank? = some r) (right : b.rank? = some r)
    (float : a.int? = none ∨ b.int? = none) : a.compare? b = some .eq := by
  rcases compare?_of_ranks left right with compared | ⟨m, n, rfl, rfl, _⟩
  · rw [compared, Int.compare_eq_eq.mpr rfl]
  · rcases float with absent | absent <;> cases absent

/-- Two different integers are one number to a float. -/
structure Merges (m n : Int64) (x : Binary64) : Prop where
  distinct : m ≠ n
  left : (Binary64.ofInt m.toInt).numEq x = true
  right : (Binary64.ofInt n.toInt).numEq x = true

/-- A chain of three numbers has two integers and a float to which both are the same. -/
inductive Merged : Scalar → Scalar → Scalar → Prop
  | floatFirst {m n : Int64} {x : Binary64} (merges : Merges m n x) :
      Merged (.float x) (.int m) (.int n)
  | floatBetween {m n : Int64} {x : Binary64} (merges : Merges m n x) :
      Merged (.int m) (.float x) (.int n)
  | floatLast {m n : Int64} {x : Binary64} (merges : Merges m n x) :
      Merged (.int m) (.int n) (.float x)

section Merging

variable {m n : Int64} {x : Binary64}

theorem numEq_iff : (Binary64.ofInt m.toInt).numEq x = true ↔ (int m).rank? = x.rank? := by
  rw [rank?_int]
  cases rank : x.rank? with
  | none => simp [Binary64.numEq, Binary64.compare?, rank]
  | some r => simp [Binary64.numEq, Binary64.compare?, rank, Binary64.rank?_ofInt]

theorem merges_iff :
    Merges m n x ↔ m ≠ n ∧ (int m).rank? = (float x).rank? ∧ (int n).rank? = (float x).rank? := by
  have asFloat : (float x).rank? = x.rank? := rfl
  rw [asFloat, ← numEq_iff, ← numEq_iff]
  exact ⟨fun ⟨distinct, left, right⟩ => ⟨distinct, left, right⟩,
    fun ⟨distinct, left, right⟩ => ⟨distinct, left, right⟩⟩

theorem Merged.rank_eq (merged : Merged a b c) : a.rank? = c.rank? := by
  cases merged with
  | floatFirst merges => exact (merges_iff.mp merges).2.2.symm
  | floatBetween merges =>
      obtain ⟨_, left, right⟩ := merges_iff.mp merges
      exact left.trans right.symm
  | floatLast merges => exact (merges_iff.mp merges).2.1

/-- Only beyond `2 ^ 53` are two integers one number to a float. -/
theorem Merges.large (merges : Merges m n x) :
    2 ^ 53 < m.toInt.natAbs ∨ 2 ^ 53 < n.toInt.natAbs := by
  by_contra small
  obtain ⟨smallLeft, smallRight⟩ := not_or.mp small
  obtain ⟨distinct, left, right⟩ := merges_iff.mp merges
  have same := left.trans right.symm
  rw [rank?_int, rank?_int, Option.some_inj, Binary64.intRank_of_le (not_lt.mp smallLeft),
    Binary64.intRank_of_le (not_lt.mp smallRight)] at same
  have unit : (Binary64.one : ℤ) ≠ 0 := by exact_mod_cast Binary64.one_pos.ne'
  exact distinct (Int64.toInt_inj.mp (mul_right_cancel₀ unit same))

theorem compare_eq_iff_not_merges (left : (int m).rank? = some r) (right : (int n).rank? = some r)
    (float : (float x).rank? = some r) : compare m.toInt n.toInt = .eq ↔ ¬ Merges m n x := by
  have same : Merges m n x ↔ m ≠ n := by
    rw [merges_iff, left, right, float]
    simp only [and_true]
  rw [same, not_not, Int.compare_eq_eq, Int64.toInt_inj]

end Merging

section Chains

variable (first : a.compare? b = some o₁) (second : b.compare? c = some o₂)
  (notGreater₁ : o₁ ≠ .gt) (notGreater₂ : o₂ ≠ .gt)

include first second notGreater₁ notGreater₂

theorem compare?_trans_iff_of_rank (left : a.rank? = some r) (middle : b.rank? = some r)
    (right : c.rank? = some r) : a.compare? c = some (o₁.then o₂) ↔ ¬ Merged a b c := by
  -- All that is compared with a float is equal.
  have leftEq := compare?_eq_of_float left middle
  have rightEq := compare?_eq_of_float middle right
  have bothEq := compare?_eq_of_float left right
  cases a with
  | null | bool | string => cases left
  | int m =>
      cases b with
      | null | bool | string => cases middle
      | int n =>
          cases first
          cases c with
          | null | bool | string => cases right
          | int k =>
              cases second
              rw [compare?_int, compare_then notGreater₁ notGreater₂]
              exact iff_of_true rfl fun merged => nomatch merged
          | float x =>
              cases (rightEq (.inr rfl)).symm.trans second
              rw [bothEq (.inr rfl), Ordering.then_eq, Option.some_inj, eq_comm,
                compare_eq_iff_not_merges left middle right]
              exact not_congr ⟨.floatLast, fun | .floatLast merges => merges⟩
      | float x =>
          cases (leftEq (.inr rfl)).symm.trans first
          cases (rightEq (.inl rfl)).symm.trans second
          cases c with
          | null | bool | string => cases right
          | int n =>
              rw [compare?_int, Option.some_inj, Ordering.then_eq,
                compare_eq_iff_not_merges left right middle]
              exact not_congr ⟨.floatBetween, fun | .floatBetween merges => merges⟩
          | float y =>
              rw [bothEq (.inr rfl)]
              exact iff_of_true rfl fun merged => nomatch merged
  | float x =>
      cases (leftEq (.inl rfl)).symm.trans first
      rw [bothEq (.inl rfl), Ordering.eq_then, Option.some_inj, eq_comm]
      cases b with
      | null | bool | string => cases middle
      | int m =>
          cases c with
          | null | bool | string => cases right
          | int n =>
              cases second
              rw [compare_eq_iff_not_merges middle right left]
              exact not_congr ⟨.floatFirst, fun | .floatFirst merges => merges⟩
          | float y =>
              cases (rightEq (.inr rfl)).symm.trans second
              exact iff_of_true rfl fun merged => nomatch merged
      | float y =>
          cases (rightEq (.inl rfl)).symm.trans second
          exact iff_of_true rfl fun merged => nomatch merged

theorem compare?_trans_iff_of_number (number : a.isNumber = true) :
    a.compare? c = some (o₁.then o₂) ↔ ¬ Merged a b c := by
  obtain ⟨r, s, left, middle⟩ := exists_ranks number first
  have numberB : b.isNumber = true := by
    cases b with
    | null | bool | string => cases middle
    | int | float => rfl
  obtain ⟨s', t, middle', right⟩ := exists_ranks numberB second
  cases middle'.symm.trans middle
  have rs := rank_le left middle first notGreater₁
  have st := rank_le middle right second notGreater₂
  by_cases less : r < t
  · have down : o₁.then o₂ = .lt := by
      cases o₁ with
      | lt => rfl
      | gt => exact absurd rfl notGreater₁
      | eq =>
          cases o₂ with
          | lt => rfl
          | gt => exact absurd rfl notGreater₂
          | eq =>
              have same := (rank_eq left middle first).trans (rank_eq middle right second)
              omega
    rw [compare?_of_lt left right less, down]
    refine iff_of_true rfl fun merged => ?_
    have same : r = t := Option.some.inj (left.symm.trans (merged.rank_eq.trans right))
    omega
  · obtain rfl : r = s := by omega
    obtain rfl : r = t := by omega
    exact compare?_trans_iff_of_rank first second notGreater₁ notGreater₂ left middle right

end Chains

/-- A chain of two comparisons that do not go down can be cut short, unless it is merged. -/
theorem compare?_trans_iff (first : a.compare? b = some o₁) (second : b.compare? c = some o₂)
    (notGreater₁ : o₁ ≠ .gt) (notGreater₂ : o₂ ≠ .gt) :
    a.compare? c = some (o₁.then o₂) ↔ ¬ Merged a b c := by
  cases a with
  | int m => exact compare?_trans_iff_of_number first second notGreater₁ notGreater₂ rfl
  | float x => exact compare?_trans_iff_of_number first second notGreater₁ notGreater₂ rfl
  | null =>
      cases b with
      | bool | int | float | string => cases first
      | null =>
          cases first
          cases c with
          | bool | int | float | string => cases second
          | null =>
              cases second
              exact iff_of_true rfl fun merged => nomatch merged
  | bool x =>
      cases b with
      | null | int | float | string => cases first
      | bool y =>
          cases first
          cases c with
          | null | int | float | string => cases second
          | bool z =>
              cases second
              refine iff_of_true (congrArg some ?_) fun merged => nomatch merged
              exact compare_then notGreater₁ notGreater₂
  | string x =>
      cases b with
      | null | bool | int | float => cases first
      | string y =>
          cases first
          cases c with
          | null | bool | int | float => cases second
          | string z =>
              cases second
              refine iff_of_true (congrArg some ?_) fun merged => nomatch merged
              exact compare_then notGreater₁ notGreater₂

theorem compare?_trans_mixed :
    (int 2).compare? (.float (.ofInt 3)) = some .lt ∧
      (float (.ofInt 3)).compare? (.int 3) = some .eq ∧
      ((int 2).compare? (.int 3) = some (Ordering.lt.then .eq) ↔
        ¬ Merged (.int 2) (.float (.ofInt 3)) (.int 3)) :=
  ⟨by decide +kernel, by decide +kernel,
    compare?_trans_iff (by decide +kernel) (by decide +kernel) (by decide) (by decide)⟩

/-- A float between the two least integers that are one number to it. -/
theorem compare?_not_trans :
    let x := Binary64.ofInt (2 ^ 53)
    (int (2 ^ 53 + 1)).compare? (.float x) = some .eq ∧
      (float x).compare? (.int (2 ^ 53)) = some .eq ∧
      (int (2 ^ 53 + 1)).compare? (.int (2 ^ 53)) = some .gt := by
  decide +kernel

end Scalar

end Winnow
