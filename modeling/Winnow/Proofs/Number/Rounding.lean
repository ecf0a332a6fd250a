import Mathlib.Algebra.Order.Group.Nat
import Mathlib.Tactic.Linarith
import Mathlib.Tactic.Ring
import Winnow.Number.Binary64

/-!
# Rounding to the nearest magnitude

The magnitudes on the grid are those that their own spacing divides. Rounding does not move a number
across any of them: it gives at most a magnitude that the number does not exceed, and at least one
that does not exceed the number. So it keeps the order of numbers and leaves those on the grid.
-/

namespace Winnow.Binary64

/-- A quotient is rounded to `q` or less if it is less than a half above `q`, or just a half and `q`
is even. -/
theorem roundHalfEven_le_iff {num den q : Nat} (pos : 0 < den) :
    roundHalfEven num den ≤ q ↔
      2 * num < (2 * q + 1) * den ∨ 2 * num = (2 * q + 1) * den ∧ q % 2 = 0 := by
  have split : den * (num / den) + num % den = num := Nat.div_add_mod num den
  have rest : num % den < den := Nat.mod_lt num pos
  have scaled : (2 * q + 1) * den = 2 * (den * q) + den := by ring
  rw [scaled, roundHalfEven]
  rcases Nat.lt_trichotomy (num / den) q with less | same | greater
  · have step : den * (num / den) + den ≤ den * q := by
      rw [← Nat.mul_succ]
      exact Nat.mul_le_mul_left den less
    constructor
    · intro _
      omega
    · intro _
      split_ifs <;> omega
  · rw [same] at split ⊢
    split_ifs <;> omega
  · have step : den * q + den ≤ den * (num / den) := by
      rw [← Nat.mul_succ]
      exact Nat.mul_le_mul_left den greater
    constructor
    · intro _
      split_ifs at * <;> omega
    · intro _
      omega

theorem roundHalfEven_mono {m n den : Nat} (pos : 0 < den) (le : m ≤ n) :
    roundHalfEven m den ≤ roundHalfEven n den := by
  rw [roundHalfEven_le_iff pos]
  have upper := (roundHalfEven_le_iff pos).mp (Nat.le_refl (roundHalfEven n den))
  omega

theorem le_roundHalfEven {num den q : Nat} (pos : 0 < den) (le : q * den ≤ num) :
    q ≤ roundHalfEven num den := by
  by_contra less
  have below : roundHalfEven num den ≤ q - 1 := by omega
  obtain ⟨p, rfl⟩ : ∃ p, q = p + 1 := ⟨q - 1, by omega⟩
  rw [Nat.add_sub_cancel, roundHalfEven_le_iff pos] at below
  have left : (2 * p + 1) * den = 2 * (p * den) + den := by ring
  have right : (p + 1) * den = p * den + den := by ring
  omega

theorem roundHalfEven_mul (num den : Nat) {k : Nat} (pos : 0 < k) :
    roundHalfEven (num * k) (den * k) = roundHalfEven num den := by
  have quotient : num * k / (den * k) = num / den := Nat.mul_div_mul_right num den pos
  have rest : num * k % (den * k) = num % den * k := Nat.mul_mod_mul_right k num den
  have below : 2 * (num % den * k) < den * k ↔ 2 * (num % den) < den := by
    rw [← Nat.mul_assoc, Nat.mul_lt_mul_right pos]
  have above : den * k < 2 * (num % den * k) ↔ den < 2 * (num % den) := by
    rw [← Nat.mul_assoc, Nat.mul_lt_mul_right pos]
  simp only [roundHalfEven, quotient, rest, below, above]

theorem spacing_pos (units : Nat) : 0 < spacing units := Nat.two_pow_pos _

theorem spacing_dvd_spacing {m n : Nat} (le : m ≤ n) : spacing m ∣ spacing n := by
  have logs : m.log2 ≤ n.log2 := by
    by_cases zero : m = 0
    · simp [zero]
    · exact (Nat.le_log2 (by omega)).mpr (Nat.le_trans (Nat.log2_self_le zero) le)
  exact Nat.pow_dvd_pow 2 (by omega)

theorem spacing_two_pow_dvd (k : Nat) : spacing (2 ^ k) ∣ 2 ^ k := by
  have grid := spacing_dvd_mul 1 k (Nat.one_le_two_pow)
  simpa using grid

variable {num den units : Nat}

theorem nearestUnits_le (pos : 0 < den) (grid : spacing units ∣ units) (le : num ≤ units * den) :
    nearestUnits num den ≤ units := by
  have floor : num / den ≤ units := Nat.div_le_of_le_mul (by rwa [Nat.mul_comm])
  obtain ⟨q, multiple⟩ := Nat.dvd_trans (spacing_dvd_spacing floor) grid
  have positive := spacing_pos (num / den)
  rw [nearestUnits]
  generalize spacing (num / den) = step at *
  have scaled : 0 < den * step := Nat.mul_pos pos positive
  have rounded : roundHalfEven num (den * step) ≤ q := by
    rw [roundHalfEven_le_iff scaled]
    left
    have same : units * den = q * (den * step) := by rw [multiple]; ring
    have spread : (2 * q + 1) * (den * step) = 2 * (q * (den * step)) + den * step := by ring
    omega
  calc
    roundHalfEven num (den * step) * step ≤ q * step := Nat.mul_le_mul_right step rounded
    _ = units := by rw [multiple, Nat.mul_comm]

theorem le_nearestUnits_of_dvd (pos : 0 < den) (multiple : spacing (num / den) ∣ units)
    (le : units * den ≤ num) : units ≤ nearestUnits num den := by
  obtain ⟨q, multiple⟩ := multiple
  have positive := spacing_pos (num / den)
  rw [nearestUnits]
  generalize spacing (num / den) = step at *
  have rounded : q ≤ roundHalfEven num (den * step) := by
    refine le_roundHalfEven (Nat.mul_pos pos positive) ?_
    calc
      q * (den * step) = units * den := by rw [multiple]; ring
      _ ≤ num := le
  calc
    units = q * step := by rw [multiple, Nat.mul_comm]
    _ ≤ roundHalfEven num (den * step) * step := Nat.mul_le_mul_right step rounded

theorem le_nearestUnits (pos : 0 < den) (grid : spacing units ∣ units) (le : units * den ≤ num) :
    units ≤ nearestUnits num den := by
  have floor : units ≤ num / den := (Nat.le_div_iff_mul_le pos).mpr le
  by_cases zero : units = 0
  · omega
  rcases Nat.lt_or_ge units.log2 (num / den).log2 with below | same
  · -- The power of two below the quotient is between the two and is a multiple of the step.
    have power : 2 ^ (num / den).log2 ≤ num / den := Nat.log2_self_le (by omega)
    have step : spacing (num / den) ∣ 2 ^ (num / den).log2 := Nat.pow_dvd_pow 2 (by omega)
    calc
      units ≤ 2 ^ (num / den).log2 := Nat.le_of_lt ((Nat.log2_lt zero).mp below)
      _ ≤ nearestUnits num den :=
        le_nearestUnits_of_dvd pos step ((Nat.le_div_iff_mul_le pos).mp power)
  · have step : spacing (num / den) ∣ spacing units := Nat.pow_dvd_pow 2 (by omega)
    exact le_nearestUnits_of_dvd pos (Nat.dvd_trans step grid) le

theorem nearestUnits_eq (grid : spacing units ∣ units) : nearestUnits units 1 = units := by
  apply Nat.le_antisymm
  · exact nearestUnits_le Nat.one_pos grid (by omega)
  · exact le_nearestUnits Nat.one_pos grid (by omega)

theorem nearestUnits_mono {m n : Nat} (pos : 0 < den) (le : m ≤ n) :
    nearestUnits m den ≤ nearestUnits n den := by
  have floors : m / den ≤ n / den := Nat.div_le_div_right le
  by_cases same : spacing (m / den) = spacing (n / den)
  · rw [nearestUnits, nearestUnits, same]
    apply Nat.mul_le_mul_right
    exact roundHalfEven_mono (Nat.mul_pos pos (spacing_pos _)) le
  · -- Between numbers with different steps there is a power of two.
    have logs : (m / den).log2 < (n / den).log2 := by
      have dvd := Nat.le_of_dvd (spacing_pos _) (spacing_dvd_spacing floors)
      by_contra notLess
      have exponents : (n / den).log2 - fractionBits ≤ (m / den).log2 - fractionBits := by omega
      exact same (Nat.le_antisymm dvd (Nat.pow_le_pow_right Nat.two_pos exponents))
    have power : 2 ^ (n / den).log2 ≤ n / den := by
      refine Nat.log2_self_le fun zero => ?_
      rw [zero] at logs
      exact Nat.not_lt_zero _ logs
    have above : m ≤ 2 ^ (n / den).log2 * den := by
      refine Nat.le_of_lt ((Nat.div_lt_iff_lt_mul pos).mp ?_)
      by_cases zero : m / den = 0
      · rw [zero]
        exact Nat.two_pow_pos _
      · exact (Nat.log2_lt zero).mp logs
    calc
      nearestUnits m den ≤ 2 ^ (n / den).log2 := nearestUnits_le pos (spacing_two_pow_dvd _) above
      _ ≤ nearestUnits n den :=
        le_nearestUnits pos (spacing_two_pow_dvd _) ((Nat.le_div_iff_mul_le pos).mp power)

end Winnow.Binary64
