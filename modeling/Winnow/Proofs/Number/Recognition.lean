import Mathlib.Data.List.DropRight
import Winnow.Proofs.Number.NumericText

/-!
# Recognizing numeric texts and reading them

A text that looks numeric is cut from the blanks around it and read as an integer; where that fails
it is read as a float whose fraction is dropped. All three grammars are those of numerals, but the
first admits the digits of every script and the two readers ASCII digits only. So a numeric text has
an integer just if it has no foreign digit.
-/

namespace Winnow

namespace Numeral

variable {n : Numeral} {mark c : Char}

theorem isBlank_eq_false_of_mem_chars (proper : n.Proper) (isMark : IsMark mark)
    (member : c ∈ n.chars mark) : isBlank c = false := by
  rcases mem_chars member with digit | rfl | rfl | rfl | rfl
  · by_contra blank
    have notDigit := isDecimalDigit_eq_false_of_isBlank ((Bool.not_eq_false _).mp blank)
    cases notDigit.symm.trans (proper.digits c digit)
  · decide
  · decide
  · decide
  · rcases isMark with rfl | rfl <;> decide

/-- Without its sign, a numeral is a row of digits only if it is whole. -/
def unsignedChars (mark : Char) (n : Numeral) : List Char :=
  n.whole ++ (fractionChars n.fraction ++ exponentChars mark n.exponent)

theorem takeSign_chars (proper : n.Proper) :
    takeSign (n.chars mark) = (n.sign, n.unsignedChars mark) :=
  takeSign_signChars n.sign (head?_mantissa separates_isDecimalDigit proper.mantissa
    (isDecimalDigit_of_mem_whole proper))

theorem unsignedChars_of_isWhole (proper : n.Proper) (whole : n.isWhole = true) :
    n.unsignedChars mark = n.whole ∧ n.digits = n.whole ∧ n.whole ≠ [] := by
  obtain ⟨sign, ds, fraction, exponent⟩ := n
  obtain ⟨rfl, rfl⟩ : fraction = none ∧ exponent = none := by simpa [isWhole] using whole
  have some : ds ≠ [] := by simpa using proper.mantissa
  simp [unsignedChars, fractionChars, exponentChars, digits, some]

theorem exists_not_isDigit_of_not_isWhole (fractional : n.isWhole = false) (isMark : IsMark mark) :
    ∃ c ∈ n.unsignedChars mark, c.isDigit = false := by
  rcases n with ⟨sign, ds, _ | fraction, _ | exponent⟩
  · cases fractional
  · exact ⟨mark, by simp [unsignedChars, exponentChars], separates_isDigit.mark mark isMark⟩
  · exact ⟨'.', by simp [unsignedChars, fractionChars], rfl⟩
  · exact ⟨'.', by simp [unsignedChars, fractionChars], rfl⟩

end Numeral

namespace NumericText

/-! The readers, each on its own. -/

/-- A text without the blanks at its ends. -/
def trimmed (cs : List Char) : List Char :=
  (cs.dropWhile isBlank).rdropWhile isBlank

/-- The integer that digits with a sign before them spell, if it is a word. -/
def word? (cs : List Char) : Option Int64 :=
  let (sign, ds) := Numeral.takeSign cs
  if !ds.isEmpty && ds.all Char.isDigit then int64? (Sign.apply sign (placeValue ds)) else none

/-- What is no finite number has a name, in letters of either case. -/
def named? (negative : Bool) (cs : List Char) : Option Binary64 :=
  let name := cs.map Char.toLower
  if name = "nan".toList then some .nan
  else if name = "inf".toList ∨ name = "infinity".toList then some (.infinite negative)
  else none

/-- The float that a text is a name or a numeral of. -/
def binary64? (cs : List Char) : Option Binary64 :=
  let (sign, name) := Numeral.takeSign cs
  named? (sign == some .minus) name <|>
    match Numeral.scan? Char.isDigit cs with
    | some (n, []) => some n.toDecimal.nearest
    | _ => none

variable {n : Numeral} {mark : Char}

theorem trimmed_eq {before after : List Char} (proper : n.Proper) (isMark : Numeral.IsMark mark)
    (blankBefore : ∀ c ∈ before, isBlank c = true) (blankAfter : ∀ c ∈ after, isBlank c = true) :
    trimmed (before ++ (n.chars mark ++ after)) = n.chars mark := by
  have inside (c : Char) (member : c ∈ n.chars mark) : isBlank c = false :=
    Numeral.isBlank_eq_false_of_mem_chars proper isMark member
  have front : ∀ c ∈ (n.chars mark ++ after).head?, isBlank c = false := Numeral.head?_chars proper
  have back : ∀ c ∈ (n.chars mark).reverse.head?, isBlank c = false := by
    intro c last
    exact inside c (List.mem_reverse.mp (List.mem_of_mem_head? last))
  have blankBack : ∀ c ∈ after.reverse, isBlank c = true := by
    intro c member
    exact blankAfter c (List.mem_reverse.mp member)
  rw [trimmed, (span_append blankBefore front).2, List.rdropWhile, List.reverse_append,
    (span_append blankBack back).2, List.reverse_reverse]

theorem word?_chars (proper : n.Proper) (isMark : Numeral.IsMark mark) :
    word? (n.chars mark) =
      if n.isWhole && n.digits.all Char.isDigit then int64? n.wholeValue else none := by
  rw [word?, Numeral.takeSign_chars proper]
  dsimp only
  cases whole : n.isWhole with
  | true =>
      obtain ⟨unsigned, digits, some⟩ := Numeral.unsignedChars_of_isWhole proper whole
      have nonempty : n.whole.isEmpty = false := List.isEmpty_eq_false_iff.mpr some
      rw [unsigned, digits, Numeral.wholeValue_eq, nonempty]
      rfl
  | false =>
      obtain ⟨c, member, notDigit⟩ := Numeral.exists_not_isDigit_of_not_isWhole whole isMark
      have inexact : (n.unsignedChars mark).all Char.isDigit = false :=
        List.all_eq_false.mpr ⟨c, member, ne_true_of_eq_false notDigit⟩
      rw [inexact, Bool.and_false]
      rfl

theorem toLower_of_isDecimalDigit {c : Char} (digit : isDecimalDigit c = true) :
    c.toLower = c := by
  have apart : ∀ first ∈ digitZeros, first + 10 ≤ 65 ∨ 90 < first := by decide
  obtain ⟨first, isFirst, within⟩ := List.any_eq_true.mp digit
  have apart := apart first isFirst
  simp only [decide_eq_true_eq] at within
  refine dif_neg fun capital => ?_
  have lower : 65 ≤ c.toNat := capital.1
  have upper : c.toNat ≤ 90 := capital.2
  omega

theorem named?_eq_none {cs : List Char} (negative : Bool)
    (first : ∀ c ∈ cs.head?, c = '.' ∨ isDecimalDigit c = true) : named? negative cs = none := by
  cases cs with
  | nil => rfl
  | cons c cs =>
      have other : c.toLower ≠ 'n' ∧ c.toLower ≠ 'i' := by
        rcases first c rfl with rfl | digit
        · decide
        · rw [toLower_of_isDecimalDigit digit]
          constructor <;> rintro rfl <;> exact absurd digit (by decide)
      simp [named?, other]

theorem binary64?_chars (proper : n.Proper) (isMark : Numeral.IsMark mark) :
    binary64? (n.chars mark) =
      if n.digits.all Char.isDigit then some n.toDecimal.nearest else none := by
  have first : ∀ c ∈ (n.unsignedChars mark).head?, c = '.' ∨ isDecimalDigit c = true :=
    Numeral.pointOrDigit_of_head? proper.mantissa (Numeral.isDecimalDigit_of_mem_whole proper)
  rw [binary64?, Numeral.takeSign_chars proper]
  dsimp only
  rw [named?_eq_none _ first]
  split_ifs with ascii
  · have scanned := Numeral.scan?_chars Numeral.separates_isDigit proper
      (List.all_eq_true.mp ascii) isMark (Numeral.ends_nil Char.isDigit)
    rw [List.append_nil] at scanned
    rw [scanned]
    rfl
  · cases scanned : Numeral.scan? Char.isDigit (n.chars mark) with
    | none => rfl
    | some found =>
        obtain ⟨m, rest⟩ := found
        cases rest with
        | cons c rest => rfl
        | nil =>
            -- A text spells one numeral at most, so its digits would all be ASCII.
            obtain ⟨properM, asciiM, markM, isMarkM, text⟩ :=
              Numeral.proper_and_chars_of_scan? isDecimalDigit_of_isDigit scanned
            have spelledM : m.SpelledBy (n.chars mark) := by
              rw [← text, List.append_nil]
              exact Numeral.spelledBy_chars properM isMarkM
            have same := (Numeral.read?_eq_some_iff.mpr spelledM).symm.trans
              (Numeral.read?_eq_some_iff.mpr (Numeral.spelledBy_chars proper isMark))
            cases same
            exact absurd (List.all_eq_true.mpr asciiM) ascii

variable {s : String}

/-- The integer of a text as the readers find it, one after the other. -/
def staged? (s : String) : Option Int64 :=
  let text := trimmed s.toList
  word? text <|> (binary64? text).map Binary64.toInt64Clamp

theorem staged?_of_spelledBy (spelled : n.SpelledBy s.toList) :
    staged? s = if n.digits.all Char.isDigit then some (integerOf n) else none := by
  obtain ⟨proper, before, mark, after, text, blankBefore, isMark, blankAfter⟩ := spelled
  rw [staged?, text, trimmed_eq proper isMark blankBefore blankAfter, word?_chars proper isMark,
    binary64?_chars proper isMark]
  cases n.digits.all Char.isDigit with
  | false =>
      rw [Bool.and_false]
      rfl
  | true =>
      rw [Bool.and_true, integerOf, if_pos rfl, if_pos rfl]
      cases if n.isWhole = true then int64? n.wholeValue else none <;> rfl

theorem toInt64?_eq_staged? (s : String) :
    toInt64? s = if isNumeric s = true then staged? s else none := by
  split_ifs with numeric
  · obtain ⟨n, spelled⟩ := isNumeric_iff.mp numeric
    rw [staged?_of_spelledBy spelled, toInt64?, Numeral.read?_eq_some_iff.mpr spelled]
    rfl
  · rw [isNumeric, Bool.not_eq_true, Option.isSome_eq_false_iff,
      Option.isNone_iff_eq_none] at numeric
    rw [toInt64?, numeric]
    rfl

/-- The text has a decimal digit that is no ASCII digit. -/
def ForeignDigit (s : String) : Prop :=
  ∃ c ∈ s.toList, isDecimalDigit c = true ∧ c.isDigit = false

theorem foreignDigit_iff (spelled : n.SpelledBy s.toList) :
    ForeignDigit s ↔ n.digits.all Char.isDigit = false := by
  obtain ⟨proper, before, mark, after, text, blankBefore, isMark, blankAfter⟩ := spelled
  have notBlank {c : Char} (digit : isDecimalDigit c = true) : ¬ isBlank c = true := by
    intro blank
    cases digit.symm.trans (isDecimalDigit_eq_false_of_isBlank blank)
  rw [ForeignDigit, text, List.all_eq_false]
  constructor
  · intro ⟨c, member, digit, foreign⟩
    simp only [List.mem_append] at member
    rcases member with inBefore | inChars | inAfter
    · exact absurd (blankBefore c inBefore) (notBlank digit)
    · rcases Numeral.mem_chars inChars with inDigits | rfl | rfl | rfl | rfl
      · exact ⟨c, inDigits, ne_true_of_eq_false foreign⟩
      · exact absurd digit (by decide)
      · exact absurd digit (by decide)
      · exact absurd digit (by decide)
      · cases digit.symm.trans (Numeral.separates_isDecimalDigit.mark _ isMark)
    · exact absurd (blankAfter c inAfter) (notBlank digit)
  · intro ⟨c, member, foreign⟩
    have inChars := Numeral.mem_chars_of_mem_digits member mark
    refine ⟨c, ?_, proper.digits c member, Bool.eq_false_of_not_eq_true foreign⟩
    exact List.mem_append_right _ (List.mem_append_left _ inChars)

theorem isSome_toInt64?_iff :
    (toInt64? s).isSome = true ↔ isNumeric s = true ∧ ¬ ForeignDigit s := by
  rw [toInt64?_eq_staged?]
  split_ifs with numeric
  · obtain ⟨n, spelled⟩ := isNumeric_iff.mp numeric
    rw [staged?_of_spelledBy spelled, foreignDigit_iff spelled, and_iff_right numeric]
    cases n.digits.all Char.isDigit <;> simp
  · simp [numeric]

end NumericText

end Winnow
