import Mathlib.Data.Nat.Digits.Defs
import Winnow.Demand.NumericText
import Winnow.Proofs.Grammar.Numeral
import Winnow.Proofs.Number.Decimal

/-!
# The integer of a numeric text

A numeral stands for the rational number that its digits spell. Written without point and exponent
it stands for an integer, and that integer is read exactly, or clamped, whatever its length. With a
fraction or an exponent the number is rounded to binary64 before its fraction is dropped, so the
integer read is that of the number itself where rounding does not carry it to another integer.
-/

namespace Winnow

/-- The number that decimal digits spell, the last of them counting ones. -/
def placeValue (ds : List Char) : ℕ :=
  Nat.ofDigits 10 (ds.reverse.map fun c => c.toNat - '0'.toNat)

theorem placeValue_append_singleton (ds : List Char) (c : Char) :
    placeValue (ds ++ [c]) = 10 * placeValue ds + (c.toNat - '0'.toNat) := by
  simp [placeValue, Nat.ofDigits_cons, Nat.add_comm]

theorem placeValue_append (ds es : List Char) :
    placeValue (ds ++ es) = placeValue ds * 10 ^ es.length + placeValue es := by
  simp [placeValue, Nat.ofDigits_append, Nat.mul_comm, Nat.add_comm]

theorem digitsValue_eq_placeValue (ds : List Char) : digitsValue ds = placeValue ds := by
  induction ds using List.reverseRecOn with
  | nil => rfl
  | append_singleton ds c ih =>
      rw [placeValue_append_singleton, ← ih, digitsValue, digitsValue, List.foldl_append]
      rfl

/-- An integer with a sign as written. -/
def Sign.apply (sign : Option Sign) (n : ℤ) : ℤ :=
  if sign = some .minus then -n else n

namespace Numeral

/-- The exponent that is written, zero if there is none. -/
def power (n : Numeral) : ℤ :=
  match n.exponent with
  | none => 0
  | some (sign, ds) => Sign.apply sign (placeValue ds)

/-- The number that a numeral stands for. -/
def value (n : Numeral) : ℚ :=
  let fraction := n.fraction.getD []
  signed n.isNegative
    ((placeValue n.whole + placeValue fraction / 10 ^ fraction.length) * 10 ^ n.power)

theorem exponentValue_eq (n : Numeral) : n.exponentValue = n.power := by
  obtain ⟨sign, whole, fraction, exponent⟩ := n
  rcases exponent with _ | ⟨_ | _ | _, ds⟩ <;>
    simp [exponentValue, power, Sign.apply, digitsValue_eq_placeValue]

theorem value_toDecimal (n : Numeral) : n.toDecimal.value = n.value := by
  have ten : (10 : ℚ) ≠ 0 := by norm_num
  rw [Decimal.value, value, toDecimal]
  dsimp only
  rw [digitsValue_eq_placeValue, placeValue_append, exponentValue_eq, zpow_sub₀ ten, zpow_natCast]
  congr 1
  push_cast
  field_simp

theorem wholeValue_eq (n : Numeral) : n.wholeValue = Sign.apply n.sign (placeValue n.whole) := by
  simp [wholeValue, Sign.apply, isNegative, digitsValue_eq_placeValue]

theorem value_of_isWhole {n : Numeral} (whole : n.isWhole = true) : n.value = n.wholeValue := by
  obtain ⟨sign, ds, fraction, exponent⟩ := n
  obtain ⟨rfl, rfl⟩ : fraction = none ∧ exponent = none := by simpa [isWhole] using whole
  rw [wholeValue_eq]
  rcases sign with _ | _ | _ <;> simp [value, power, signed, isNegative, Sign.apply, placeValue]

end Numeral

theorem truncation_intCast (n : ℤ) : truncation n = n := by
  unfold truncation
  split_ifs
  · exact Int.ceil_intCast n
  · exact Int.floor_intCast n

theorem toInt_eq_clampInt64 {n : ℤ} {word : Int64} (fits : int64? n = some word) :
    word.toInt = clampInt64 n := by
  have lower := word.le_toInt
  have upper := word.toInt_lt
  have exact := toInt_of_int64? fits
  unfold clampInt64
  omega

theorem int64?_eq_none {n : ℤ} (beyond : int64? n = none) : 2 ^ 63 ≤ |n| := by
  have least : Int64.minValue.toInt = -2 ^ 63 := rfl
  have greatest : Int64.maxValue.toInt = 2 ^ 63 - 1 := rfl
  unfold int64? at beyond
  split at beyond
  · cases beyond
  · next outside =>
    rw [least, greatest] at outside
    rw [le_abs]
    omega

namespace NumericText

variable {s : String} {n : Numeral}

theorem isNumeric_iff : isNumeric s = true ↔ ∃ n : Numeral, n.SpelledBy s.toList := by
  simp only [isNumeric, Option.isSome_iff_exists, Numeral.read?_eq_some_iff]

theorem toInt64?_of_spelledBy (spelled : n.SpelledBy s.toList)
    (ascii : ∀ c ∈ n.digits, c.isDigit = true) : toInt64? s = some (integerOf n) := by
  have read := Numeral.read?_eq_some_iff.mpr spelled
  have digits : n.digits.all Char.isDigit = true := List.all_eq_true.mpr ascii
  simp only [toInt64?, read, Option.bind_eq_bind, Option.bind_some, digits, if_true]

theorem toInt_integerOf_of_isWhole (whole : n.isWhole = true) :
    (integerOf n).toInt = clampInt64 n.wholeValue := by
  rw [integerOf, whole, if_pos rfl]
  cases fits : int64? n.wholeValue with
  | some exact => exact toInt_eq_clampInt64 fits
  | none =>
      have value : n.toDecimal.value = n.wholeValue := by
        rw [Numeral.value_toDecimal, Numeral.value_of_isWhole whole]
      have large : (2 : ℚ) ^ 63 ≤ |n.toDecimal.value| := by
        rw [value]
        exact_mod_cast int64?_eq_none fits
      rw [← truncation_intCast n.wholeValue, ← value]
      exact n.toDecimal.toInt_nearest_eq_iff.mpr (.inr (.inl large))

theorem toInt_integerOf_eq_iff (fractional : n.isWhole = false) :
    (integerOf n).toInt = clampInt64 (truncation n.value) ↔
      Binary64.RoundsWithin |n.value| ∨ 2 ^ 63 ≤ |n.value| ∨ 2 ^ 63 - 1 ≤ n.value := by
  have rounded : integerOf n = n.toDecimal.nearest.toInt64Clamp := by
    simp only [integerOf, fractional, Bool.false_eq_true, if_false]
  rw [rounded, ← n.value_toDecimal]
  exact n.toDecimal.toInt_nearest_eq_iff

/-- Digits with a sign and blanks around them are read as the integer that they spell. -/
theorem toInt64?_whole {before digits after : List Char} (sign : Option Sign)
    (blankBefore : ∀ c ∈ before, isBlank c = true) (some : digits ≠ [])
    (ascii : ∀ c ∈ digits, c.isDigit = true) (blankAfter : ∀ c ∈ after, isBlank c = true) :
    (toInt64? (String.ofList (before ++ (Numeral.signChars sign ++ (digits ++ after))))).map
      Int64.toInt = .some (clampInt64 (Sign.apply sign (placeValue digits))) := by
  have digitsOf : Numeral.digits ⟨sign, digits, none, none⟩ = digits := by simp [Numeral.digits]
  have spelled : Numeral.SpelledBy ⟨sign, digits, none, none⟩
      (before ++ (Numeral.signChars sign ++ (digits ++ after))) := by
    refine ⟨⟨?_, .inl some, ?_⟩, before, 'e', after, ?_, blankBefore, .inl rfl, blankAfter⟩
    · intro c member
      exact isDecimalDigit_of_isDigit c (ascii c (digitsOf ▸ member))
    · intro _ _ absent
      cases absent
    · simp [Numeral.chars, Numeral.fractionChars, Numeral.exponentChars]
  rw [toInt64?_of_spelledBy (String.toList_ofList.symm ▸ spelled) (digitsOf.symm ▸ ascii),
    Option.map_some, toInt_integerOf_of_isWhole rfl, Numeral.wholeValue_eq]

theorem toInt64?_whole_clamped :
    let before := ['\u00a0', ' ']
    let digits := "0099999999999999999999".toList
    let after := ['\u3000']
    (∀ c ∈ before, isBlank c = true) ∧ digits ≠ [] ∧ (∀ c ∈ digits, c.isDigit = true) ∧
      (∀ c ∈ after, isBlank c = true) ∧
      (toInt64? (String.ofList (before ++ (Numeral.signChars (some .minus) ++
        (digits ++ after))))).map Int64.toInt = some (-2 ^ 63) := by
  have blankBefore : ∀ c ∈ ['\u00a0', ' '], isBlank c = true := by simp [isBlank, blankRuns]
  have blankAfter : ∀ c ∈ ['\u3000'], isBlank c = true := by simp [isBlank, blankRuns]
  have some : "0099999999999999999999".toList ≠ [] := by decide
  have ascii : ∀ c ∈ "0099999999999999999999".toList, c.isDigit = true := by simp
  refine ⟨blankBefore, some, ascii, blankAfter, ?_⟩
  exact (toInt64?_whole (.some .minus) blankBefore some ascii blankAfter).trans (by decide)

/-- An ASCII text with a fraction or an exponent is read as the integer part of its number, clamped,
just where rounding to binary64 makes no other integer of it. -/
theorem toInt64?_fractional_iff (ascii : ∀ c ∈ s.toList, c.toNat < 128)
    (numeric : isNumeric s = true) :
    (∃ n : Numeral, n.SpelledBy s.toList) ∧
      ∀ n : Numeral, n.SpelledBy s.toList → n.fraction.isSome ∨ n.exponent.isSome →
        ∃ word, toInt64? s = some word ∧
          (word.toInt = clampInt64 (truncation n.value) ↔
            Binary64.RoundsWithin |n.value| ∨ 2 ^ 63 ≤ |n.value| ∨ 2 ^ 63 - 1 ≤ n.value) := by
  refine ⟨isNumeric_iff.mp numeric, fun n spelled written => ?_⟩
  have fractional : n.isWhole = false := by
    rcases n with ⟨sign, whole, _ | fraction, _ | exponent⟩
    · simp at written
    all_goals rfl
  have digits : ∀ c ∈ n.digits, c.isDigit = true := by
    intro c member
    obtain ⟨before, mark, after, text, _⟩ := spelled.text
    apply isDigit_of_isDecimalDigit (spelled.proper.digits c member)
    apply ascii
    rw [text]
    have inChars := Numeral.mem_chars_of_mem_digits member mark
    exact List.mem_append_right _ (List.mem_append_left _ inChars)
  exact ⟨integerOf n, toInt64?_of_spelledBy spelled digits, toInt_integerOf_eq_iff fractional⟩

theorem toInt64?_fractional_negative :
    let n : Numeral := ⟨some .minus, ['1'], some ['9'], some (none, ['2'])⟩
    (∀ c ∈ "-1.9e2".toList, c.toNat < 128) ∧ isNumeric "-1.9e2" = true ∧
      n.SpelledBy "-1.9e2".toList ∧
      ∃ word, toInt64? "-1.9e2" = some word ∧
        (word.toInt = clampInt64 (truncation n.value) ↔
          Binary64.RoundsWithin |n.value| ∨ 2 ^ 63 ≤ |n.value| ∨ 2 ^ 63 - 1 ≤ n.value) := by
  intro n
  have ascii : ∀ c ∈ "-1.9e2".toList, c.toNat < 128 := by simp
  have numeric : isNumeric "-1.9e2" = true := by decide
  have spelled : n.SpelledBy "-1.9e2".toList := Numeral.read?_eq_some_iff.mp (by decide)
  exact ⟨ascii, numeric, spelled, (toInt64?_fractional_iff ascii numeric).2 n spelled (.inl rfl)⟩

/-- Seventeen nines behind the point are rounded to the integer above. -/
theorem toInt64?_ne_truncation :
    ∃ n : Numeral, n.SpelledBy "0.99999999999999999".toList ∧ n.fraction.isSome ∧
      isNumeric "0.99999999999999999" = true ∧ clampInt64 (truncation n.value) = 0 ∧
      toInt64? "0.99999999999999999" = some 1 := by
  let n : Numeral := ⟨none, ['0'], some (List.replicate 17 '9'), none⟩
  have spelled : n.SpelledBy "0.99999999999999999".toList :=
    Numeral.read?_eq_some_iff.mp (by decide)
  have whole : placeValue n.whole = 0 := by decide
  have fraction : placeValue (n.fraction.getD []) = 99999999999999999 := by decide
  have length : (n.fraction.getD []).length = 17 := rfl
  have power : n.power = 0 := rfl
  have positive : n.isNegative = false := rfl
  have truncated : truncation n.value = 0 := by
    norm_num [Numeral.value, signed, whole, fraction, length, power, positive, truncation,
      Int.floor_eq_zero_iff]
  exact ⟨n, spelled, rfl, isNumeric_iff.mpr ⟨n, spelled⟩, by rw [truncated]; rfl, by decide +kernel⟩

end NumericText

end Winnow
