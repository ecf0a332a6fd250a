import Winnow.Comparison
import Winnow.Proofs.Grammar.Integer
import Winnow.Proofs.Scalar

/-!
# Comparing integers

Integers of JSON are words or, from `2 ^ 63` on, floats. Below `2 ^ 63` they are compared as
integers. Where a float is among the two they are compared by their nearest binary64 numbers, which
does the same as long as these differ. From `2 ^ 63` to `2 ^ 64` the nearest numbers are the nearest
multiples of 2048.
-/

namespace Winnow

namespace Binary64

variable {m n : ℤ}

/-- The distance of neighbouring binary64 numbers from `2 ^ 63` to `2 ^ 64`. -/
def largeStep : Nat := 2048

theorem largeStep_eq : largeStep = 2 ^ 11 := rfl

theorem magnitudeRank_of_large {n : Nat} (least : 2 ^ 63 ≤ n) (greatest : n < 2 ^ 64) :
    magnitudeRank n = roundHalfEven n largeStep * (largeStep * one) := by
  have log : n.log2 = 63 := (Nat.log2_eq_iff (by omega)).mpr ⟨least, greatest⟩
  have step : spacing (n * one / 1) = largeStep * one := by
    rw [spacing_mul_one_div Nat.one_pos (w := n) (by omega) (Nat.div_one n), log, largeStep_eq,
      Nat.mul_comm]
  have rounded : nearestUnits (n * one) 1 = roundHalfEven n largeStep * (largeStep * one) := by
    rw [nearestUnits, step, Nat.one_mul, roundHalfEven_mul n largeStep one_pos]
  have small : roundHalfEven n largeStep ≤ 2 ^ 53 := by
    have above := roundHalfEven_le n largeStep
    rw [largeStep_eq] at above ⊢
    omega
  have finite : roundHalfEven n largeStep * (largeStep * one) ≤ limit := by
    calc
      roundHalfEven n largeStep * (largeStep * one) ≤ 2 ^ 53 * (largeStep * one) :=
        Nat.mul_le_mul_right _ small
      _ = 2 ^ (53 + 11) * one := by rw [largeStep_eq, ← Nat.mul_assoc, ← pow_add]
      _ = 2 ^ (53 + 11 + places) := two_pow_mul_one _
      _ ≤ limit := by
        rw [limit_eq]
        exact Nat.pow_le_pow_right Nat.two_pos (by omega)
  rw [magnitudeRank, rounded, min_eq_left finite]

/-- How many steps the nearest multiple of the step is, a half going to the even multiple. -/
def nearestSteps (n : ℤ) : ℤ := roundHalfEven n.toNat largeStep

theorem intRank_of_large (least : 2 ^ 63 ≤ n) (greatest : n < 2 ^ 64) :
    intRank n = nearestSteps n * (largeStep * one : Nat) := by
  have notNegative : ¬ n < 0 := by omega
  have magnitude : n.natAbs = n.toNat := by omega
  rw [intRank, if_neg notNegative, magnitude, magnitudeRank_of_large (by omega) (by omega),
    nearestSteps, Nat.cast_mul]

theorem compare_intRank_of_large (mLeast : 2 ^ 63 ≤ m) (mGreatest : m < 2 ^ 64)
    (nLeast : 2 ^ 63 ≤ n) (nGreatest : n < 2 ^ 64) :
    compare (intRank m) (intRank n) = compare (nearestSteps m) (nearestSteps n) := by
  rw [intRank_of_large mLeast mGreatest, intRank_of_large nLeast nGreatest]
  have positive : (0 : ℤ) < (largeStep * one : Nat) := by
    exact_mod_cast Nat.mul_pos (by decide) one_pos
  generalize ((largeStep * one : Nat) : ℤ) = step at positive
  rcases lt_trichotomy (nearestSteps m) (nearestSteps n) with less | same | greater
  · rw [Int.compare_eq_lt.mpr less, Int.compare_eq_lt]
    exact Int.mul_lt_mul_of_pos_right less positive
  · rw [same, Int.compare_eq_eq.mpr rfl, Int.compare_eq_eq.mpr rfl]
  · rw [Int.compare_eq_gt.mpr greater, Int.compare_eq_gt]
    exact Int.mul_lt_mul_of_pos_right greater positive

theorem compare_intRank (distinct : intRank m = intRank n → m = n) :
    compare (intRank m) (intRank n) = compare m n := by
  rcases lt_trichotomy m n with less | rfl | greater
  · have ranks := lt_of_le_of_ne (intRank_mono (Int.le_of_lt less)) fun same =>
      Int.ne_of_lt less (distinct same)
    rw [Int.compare_eq_lt.mpr less, Int.compare_eq_lt.mpr ranks]
  · rw [Int.compare_eq_eq.mpr rfl, Int.compare_eq_eq.mpr rfl]
  · have ranks := lt_of_le_of_ne (intRank_mono (Int.le_of_lt greater)) fun same =>
      Int.ne_of_gt greater (distinct same.symm)
    rw [Int.compare_eq_gt.mpr greater, Int.compare_eq_gt.mpr ranks]

theorem intRank_zero : intRank 0 = 0 := by
  rw [intRank_of_le (by decide), Int.zero_mul]

theorem eq_zero_of_intRank_eq_zero (zero : intRank n = 0) : n = 0 := by
  have unit : (0 : ℤ) < one := by exact_mod_cast one_pos
  have below : intRank (-1) = -1 * one := intRank_of_le (by decide)
  have above : intRank 1 = 1 * one := intRank_of_le (by decide)
  rcases lt_trichotomy n 0 with negative | same | positive
  · have rank := intRank_mono (Int.le_sub_one_of_lt negative)
    rw [Int.zero_sub, below] at rank
    omega
  · exact same
  · have rank := intRank_mono (Int.add_one_le_of_lt positive)
    rw [Int.zero_add, above] at rank
    omega

/-- Zero is the nearest binary64 number of no other integer. -/
theorem eq_of_intRank_eq (zero : m = 0 ∨ n = 0) (same : intRank m = intRank n) : m = n := by
  rcases zero with rfl | rfl
  · rw [eq_zero_of_intRank_eq_zero (same.symm.trans intRank_zero)]
  · rw [eq_zero_of_intRank_eq_zero (same.trans intRank_zero)]

theorem numEq_ofInt_iff : (ofInt m).numEq (ofInt n) = true ↔ intRank m = intRank n := by
  simp [numEq, compare?, rank?_ofInt]

end Binary64

/-- The relation between integers that a comparison asks for. -/
def Comparison.Relates (op : Comparison) (m n : ℤ) : Prop :=
  match op with
  | .eq => m = n
  | .gt => n < m
  | .gte => n ≤ m
  | .lt => m < n
  | .lte => m ≤ n

theorem Comparison.admits_compare_iff {op : Comparison} {m n : ℤ} :
    op.admits (compare m n) = true ↔ op.Relates m n := by
  rcases lt_trichotomy m n with less | rfl | greater
  · rw [Int.compare_eq_lt.mpr less]
    cases op <;> simp [admits, Relates] <;> omega
  · rw [Int.compare_eq_eq.mpr rfl]
    cases op <;> simp [admits, Relates]
  · rw [Int.compare_eq_gt.mpr greater]
    cases op <;> simp [admits, Relates] <;> omega

namespace Scalar

/-- A scalar that an integer of JSON becomes. -/
inductive StandsFor : Scalar → ℤ → Prop
  | int (word : Int64) : StandsFor (.int word) word.toInt
  | large {n : ℤ} (beyond : 2 ^ 63 ≤ n) : StandsFor (.float (.ofInt n)) n
  | minusZero : StandsFor (.float (.finite (.zero true))) 0

theorem exists_standsFor {number : JsonNumber} {n : ℤ} (keeps : number.Keeps n) :
    ∃ s, ofJson? (.number number) = some s ∧ s.StandsFor n := by
  cases keeps with
  | int word => exact ⟨_, rfl, .int word⟩
  | large word beyond =>
      have greatest : Int64.maxValue.toInt = 2 ^ 63 - 1 := rfl
      have nearest : JsonNumber.toBinary64 (.large word beyond) = .ofInt word.toNat := by
        rw [JsonNumber.toBinary64]
      refine ⟨.float (JsonNumber.toBinary64 (.large word beyond)), rfl, ?_⟩
      rw [nearest]
      exact .large (by omega)
  | minusZero => exact ⟨_, rfl, .minusZero⟩

variable {a b : Scalar} {m n : ℤ}

theorem rank?_of_standsFor (stands : a.StandsFor n) : a.rank? = some (Binary64.intRank n) := by
  cases stands with
  | int word => exact rank?_int word
  | large beyond => rw [rank?, toBinary64?, Option.bind_some, Binary64.rank?_ofInt]
  | minusZero =>
      rw [Binary64.intRank_zero]
      rfl

theorem StandsFor.ne_null (stands : a.StandsFor n) : a ≠ .null := by
  rintro rfl
  cases stands

section Pair

variable (left : a.StandsFor m) (right : b.StandsFor n)

include left right

/-- Two words are compared as they are, and any other pair by the nearest binary64 numbers. -/
theorem compare?_of_standsFor :
    a.compare? b = some (compare (Binary64.intRank m) (Binary64.intRank n)) ∨
      m < 2 ^ 63 ∧ n < 2 ^ 63 ∧ a.compare? b = some (compare m n) := by
  have leftRank := rank?_of_standsFor left
  have rightRank := rank?_of_standsFor right
  rcases compare?_of_ranks leftRank rightRank with compared | ⟨v, w, rfl, rfl, _⟩
  · exact .inl compared
  · cases left
    cases right
    exact .inr ⟨v.toInt_lt, w.toInt_lt, compare?_int v w⟩

theorem compare?_of_distinct
    (distinct : Binary64.intRank m = Binary64.intRank n → m = n) :
    a.compare? b = some (compare m n) := by
  rcases compare?_of_standsFor left right with compared | ⟨_, _, compared⟩
  · rw [compared, Binary64.compare_intRank distinct]
  · exact compared

/-- The only float below `2 ^ 63` is a zero. -/
theorem compare?_of_small (mSmall : m < 2 ^ 63) (nSmall : n < 2 ^ 63) :
    a.compare? b = some (compare m n) := by
  cases id left with
  | large beyond => omega
  | minusZero => exact compare?_of_distinct left right (Binary64.eq_of_intRank_eq (.inl rfl))
  | int v =>
      cases id right with
      | large beyond => omega
      | minusZero => exact compare?_of_distinct left right (Binary64.eq_of_intRank_eq (.inr rfl))
      | int w => exact compare?_int v w

theorem compare?_of_large (mLeast : 2 ^ 63 ≤ m) (mGreatest : m < 2 ^ 64) (nLeast : 2 ^ 63 ≤ n)
    (nGreatest : n < 2 ^ 64) :
    a.compare? b = some (compare (Binary64.nearestSteps m) (Binary64.nearestSteps n)) := by
  rcases compare?_of_standsFor left right with compared | ⟨mSmall, _⟩
  · rw [compared, Binary64.compare_intRank_of_large mLeast mGreatest nLeast nGreatest]
  · omega

end Pair

end Scalar

end Winnow
