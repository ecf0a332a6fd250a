import Mathlib.Data.List.TakeWhile
import Winnow.Number.Numeral
import Winnow.Proofs.Predicate.Literal

/-!
# The grammar of numerals

A numeral is read from the texts that have its characters, and from no others. No character can
begin two parts of a numeral, and none that follows a numeral, which is a blank, can continue it: so
a text spells one numeral at most, and the reader finds it part by part.
-/

namespace Winnow

theorem isDecimalDigit_eq_false_of_isBlank {c : Char} (blank : isBlank c = true) :
    isDecimalDigit c = false := by
  have apart : ∀ run ∈ blankRuns, ∀ first ∈ digitZeros, run.2 < first ∨ first + 10 ≤ run.1 := by
    decide
  obtain ⟨run, isRun, within⟩ := List.any_eq_true.mp blank
  rw [isDecimalDigit, List.any_eq_false]
  intro first isFirst
  have apart := apart run isRun first isFirst
  simp only [decide_eq_true_eq] at within ⊢
  omega

theorem isDigit_of_isDecimalDigit {c : Char} (digit : isDecimalDigit c = true)
    (ascii : c.toNat < 128) : c.isDigit = true := by
  have rows : ∀ first ∈ digitZeros, first = 48 ∨ 128 ≤ first := by decide
  obtain ⟨first, isFirst, within⟩ := List.any_eq_true.mp digit
  simp only [decide_eq_true_eq] at within
  have row : first = 48 := (rows first isFirst).resolve_right (by omega)
  subst row
  simp only [Char.isDigit, ge_iff_le, Bool.and_eq_true, decide_eq_true_eq]
  exact ⟨within.1, Nat.le_of_lt_succ within.2⟩

def Sign.char : Sign → Char
  | .plus => '+'
  | .minus => '-'

namespace Numeral

/-! How the parts of a numeral are written. -/

def signChars (sign : Option Sign) : List Char :=
  (sign.map Sign.char).toList

def fractionChars : Option (List Char) → List Char
  | none => []
  | some ds => '.' :: ds

def exponentChars (mark : Char) : Option (Option Sign × List Char) → List Char
  | none => []
  | some (sign, ds) => mark :: (signChars sign ++ ds)

def chars (mark : Char) (n : Numeral) : List Char :=
  signChars n.sign ++ (n.whole ++ (fractionChars n.fraction ++ exponentChars mark n.exponent))

/-- Digits stand where digits have to stand, and nothing else does. -/
structure Proper (n : Numeral) : Prop where
  digits : ∀ c ∈ n.digits, isDecimalDigit c = true
  mantissa : n.whole ≠ [] ∨ n.fraction.getD [] ≠ []
  exponent : ∀ sign ds, n.exponent = some (sign, ds) → ds ≠ []

/-- The mark of an exponent. -/
def IsMark (c : Char) : Prop := c = 'e' ∨ c = 'E'

/-- A text has the characters of a numeral, and blanks around them at most. -/
structure SpelledBy (n : Numeral) (cs : List Char) : Prop where
  proper : n.Proper
  text : ∃ before mark after, cs = before ++ (n.chars mark ++ after) ∧
    (∀ c ∈ before, isBlank c = true) ∧ IsMark mark ∧ ∀ c ∈ after, isBlank c = true

theorem spelledBy_chars {n : Numeral} {mark : Char} (proper : n.Proper) (isMark : IsMark mark) :
    n.SpelledBy (n.chars mark) :=
  ⟨proper, [], mark, [], by simp, nofun, isMark, nofun⟩

/-! The characters of a numeral. -/

section Characters

variable {n : Numeral} {mark c : Char}

theorem mem_signChars {sign : Option Sign} (member : c ∈ signChars sign) : c = '+' ∨ c = '-' := by
  rcases sign with _ | _ | _
  · cases member
  · exact .inl (List.mem_singleton.mp member)
  · exact .inr (List.mem_singleton.mp member)

theorem mem_fractionChars_iff {fraction : Option (List Char)} :
    c ∈ fractionChars fraction ↔ fraction.isSome = true ∧ c = '.' ∨ c ∈ fraction.getD [] := by
  cases fraction <;> simp [fractionChars]

theorem mem_exponentChars_iff {exponent : Option (Option Sign × List Char)} :
    c ∈ exponentChars mark exponent ↔
      exponent.isSome = true ∧ c = mark ∨ (∃ e ∈ exponent, c ∈ signChars e.1) ∨
        c ∈ (exponent.map (·.2)).getD [] := by
  cases exponent <;> simp [exponentChars]

/-- Signs, the point and the mark of the exponent are all that is written besides the digits. -/
theorem mem_chars (member : c ∈ n.chars mark) :
    c ∈ n.digits ∨ c = '+' ∨ c = '-' ∨ c = '.' ∨ c = mark := by
  simp only [chars, List.mem_append, mem_fractionChars_iff, mem_exponentChars_iff] at member
  simp only [digits, List.mem_append]
  rcases member with inSign | inWhole | (⟨_, isPoint⟩ | inFraction) |
    (⟨_, isMark⟩ | ⟨_, _, inSign⟩ | inExponent)
  · exact .inr ((mem_signChars inSign).imp_right .inl)
  · exact .inl (.inl (.inl inWhole))
  · exact .inr (.inr (.inr (.inl isPoint)))
  · exact .inl (.inl (.inr inFraction))
  · exact .inr (.inr (.inr (.inr isMark)))
  · exact .inr ((mem_signChars inSign).imp_right .inl)
  · exact .inl (.inr inExponent)

theorem mem_chars_of_mem_digits (member : c ∈ n.digits) (mark : Char) : c ∈ n.chars mark := by
  simp only [digits, List.mem_append] at member
  simp only [chars, List.mem_append, mem_fractionChars_iff, mem_exponentChars_iff]
  rcases member with (inWhole | inFraction) | inExponent
  · exact .inr (.inl inWhole)
  · exact .inr (.inr (.inl (.inr inFraction)))
  · exact .inr (.inr (.inr (.inr (.inr inExponent))))

end Characters

section Reading

variable {digit : Char → Bool} {cs rest : List Char}

/-! What the reader takes from a text, and what it leaves, make up the text. -/

theorem signChars_takeSign (cs : List Char) :
    signChars (takeSign cs).1 ++ (takeSign cs).2 = cs := by
  unfold takeSign
  split <;> rfl

theorem fractionChars_takeFraction (digit : Char → Bool) (cs : List Char) :
    fractionChars (takeFraction digit cs).1 ++ (takeFraction digit cs).2 = cs := by
  unfold takeFraction
  split
  · exact congrArg ('.' :: ·) List.takeWhile_append_dropWhile
  · rfl

theorem digit_of_mem_takeFraction {c : Char} (member : c ∈ (takeFraction digit cs).1.getD []) :
    digit c = true := by
  unfold takeFraction at member
  split at member
  · exact List.mem_takeWhile_imp member
  · cases member

theorem takeExponent_of_head (other : ∀ c ∈ cs.head?, ¬ IsMark c) :
    takeExponent digit cs = (none, cs) := by
  cases cs with
  | nil => rfl
  | cons c cs =>
      have notMark : ¬ (c = 'e' ∨ c = 'E') := other c rfl
      rw [takeExponent, if_neg notMark]

theorem takeExponent_of_isMark {mark : Char} (isMark : IsMark mark) (digit : Char → Bool)
    (cs : List Char) :
    takeExponent digit (mark :: cs) =
      if (takeSign cs).2.takeWhile digit = [] then (none, mark :: cs)
      else (some ((takeSign cs).1, (takeSign cs).2.takeWhile digit),
        (takeSign cs).2.dropWhile digit) := by
  have isMark : mark = 'e' ∨ mark = 'E' := isMark
  rw [takeExponent, if_pos isMark]
  obtain ⟨sign, rest⟩ := takeSign cs
  dsimp only
  cases rest.takeWhile digit with
  | nil => rfl
  | cons d ds => rfl

theorem exponentChars_takeExponent (digit : Char → Bool) (cs : List Char) :
    ∃ mark, IsMark mark ∧
      exponentChars mark (takeExponent digit cs).1 ++ (takeExponent digit cs).2 = cs := by
  by_cases other : ∀ c ∈ cs.head?, ¬ IsMark c
  · rw [takeExponent_of_head other]
    exact ⟨'e', .inl rfl, rfl⟩
  · obtain ⟨mark, rest, rfl, isMark⟩ : ∃ mark rest, cs = mark :: rest ∧ IsMark mark := by
      cases cs with
      | nil => exact absurd (fun _ impossible => by cases impossible) other
      | cons c cs => exact ⟨c, cs, rfl, by simpa using other⟩
    refine ⟨mark, isMark, ?_⟩
    rw [takeExponent_of_isMark isMark]
    split
    · rfl
    · simp only [exponentChars, List.cons_append, List.append_assoc,
        List.takeWhile_append_dropWhile, signChars_takeSign]

theorem takeExponent_digits {sign : Option Sign} {ds : List Char}
    (taken : (takeExponent digit cs).1 = some (sign, ds)) :
    ds ≠ [] ∧ ∀ c ∈ ds, digit c = true := by
  by_cases other : ∀ c ∈ cs.head?, ¬ IsMark c
  · rw [takeExponent_of_head other] at taken
    cases taken
  · cases cs with
    | nil => exact absurd (fun _ impossible => by cases impossible) other
    | cons mark cs =>
        have isMark : IsMark mark := by simpa using other
        rw [takeExponent_of_isMark isMark] at taken
        split at taken
        · cases taken
        · next some =>
          cases taken
          exact ⟨some, fun c member => List.mem_takeWhile_imp member⟩

theorem scan?_eq (digit : Char → Bool) (cs : List Char) :
    scan? digit cs =
      let signed := takeSign cs
      let fractioned := takeFraction digit (signed.2.dropWhile digit)
      let raised := takeExponent digit fractioned.2
      if (signed.2.takeWhile digit).isEmpty ∧ (fractioned.1.getD []).isEmpty then none
      else some (⟨signed.1, signed.2.takeWhile digit, fractioned.1, raised.1⟩, raised.2) :=
  rfl

theorem proper_and_chars_of_scan? {n : Numeral}
    (decimal : ∀ c, digit c = true → isDecimalDigit c = true)
    (scanned : scan? digit cs = some (n, rest)) :
    n.Proper ∧ (∀ c ∈ n.digits, digit c = true) ∧
      ∃ mark, IsMark mark ∧ n.chars mark ++ rest = cs := by
  rw [scan?_eq] at scanned
  dsimp only at scanned
  split at scanned
  · cases scanned
  · next some =>
    obtain ⟨rfl, rfl⟩ := Prod.mk.inj (Option.some.inj scanned)
    generalize unread : (takeFraction digit ((takeSign cs).2.dropWhile digit)).2 = raised
    have digits : ∀ c ∈ (takeSign cs).2.takeWhile digit ++
        (takeFraction digit ((takeSign cs).2.dropWhile digit)).1.getD [] ++
        ((takeExponent digit raised).1.map (·.2)).getD [], digit c = true := by
      intro c member
      simp only [List.mem_append] at member
      rcases member with (inWhole | inFraction) | inExponent
      · exact List.mem_takeWhile_imp inWhole
      · exact digit_of_mem_takeFraction inFraction
      · cases taken : (takeExponent digit raised).1 with
        | none =>
            rw [taken] at inExponent
            cases inExponent
        | some exponent =>
            rw [taken] at inExponent
            exact (takeExponent_digits taken).2 c inExponent
    refine ⟨⟨fun c member => decimal c (digits c member), ?_, ?_⟩, digits, ?_⟩
    · simpa [Classical.or_iff_not_imp_left] using some
    · intro sign ds taken
      exact (takeExponent_digits taken).1
    · obtain ⟨mark, isMark, text⟩ := exponentChars_takeExponent digit raised
      refine ⟨mark, isMark, ?_⟩
      rw [chars, List.append_assoc, List.append_assoc, List.append_assoc, text, ← unread,
        fractionChars_takeFraction, List.takeWhile_append_dropWhile, signChars_takeSign]

/-! What makes up a text is taken from it. -/

theorem takeSign_signChars (sign : Option Sign)
    (other : ∀ c ∈ rest.head?, c ≠ '+' ∧ c ≠ '-') :
    takeSign (signChars sign ++ rest) = (sign, rest) := by
  cases sign with
  | some sign => cases sign <;> rfl
  | none =>
      change takeSign rest = _
      unfold takeSign
      split
      · exact absurd rfl (other _ rfl).1
      · exact absurd rfl (other _ rfl).2
      · rfl

theorem takeFraction_fractionChars {fraction : Option (List Char)}
    (digits : ∀ c ∈ fraction.getD [], digit c = true)
    (other : ∀ c ∈ rest.head?, c ≠ '.' ∧ digit c = false) :
    takeFraction digit (fractionChars fraction ++ rest) = (fraction, rest) := by
  cases fraction with
  | none =>
      change takeFraction digit rest = _
      unfold takeFraction
      split
      · exact absurd rfl (other _ rfl).1
      · rfl
  | some ds =>
      have digits : ∀ c ∈ ds, digit c = true := digits
      obtain ⟨taken, dropped⟩ := span_append digits fun c first => (other c first).2
      rw [fractionChars, List.cons_append, takeFraction, taken, dropped]

theorem takeExponent_exponentChars {exponent : Option (Option Sign × List Char)} {mark : Char}
    (isMark : IsMark mark)
    (digits : ∀ sign ds, exponent = some (sign, ds) → ds ≠ [] ∧ ∀ c ∈ ds, digit c = true)
    (unsigned : digit '+' = false ∧ digit '-' = false)
    (other : ∀ c ∈ rest.head?, ¬ IsMark c ∧ digit c = false) :
    takeExponent digit (exponentChars mark exponent ++ rest) = (exponent, rest) := by
  cases exponent with
  | none => exact takeExponent_of_head fun c first => (other c first).1
  | some exponent =>
      obtain ⟨sign, ds⟩ := exponent
      obtain ⟨some, each⟩ := digits sign ds rfl
      obtain ⟨taken, dropped⟩ := span_append each fun c first => (other c first).2
      have signed : takeSign (signChars sign ++ (ds ++ rest)) = (sign, ds ++ rest) := by
        refine takeSign_signChars sign fun c first => ?_
        cases ds with
        | nil => exact absurd rfl some
        | cons d ds =>
            obtain rfl : d = c := Option.some.inj first
            have isDigit := each d List.mem_cons_self
            constructor
            · rintro rfl
              rw [unsigned.1] at isDigit
              cases isDigit
            · rintro rfl
              rw [unsigned.2] at isDigit
              cases isDigit
      rw [exponentChars, List.cons_append, List.append_assoc, takeExponent_of_isMark isMark, signed,
        taken, dropped, if_neg some]

/-! Which characters can begin what follows a part of a numeral. -/

/-- The characters that begin a part of a numeral are no digits. -/
structure Separates (digit : Char → Bool) : Prop where
  plus : digit '+' = false
  minus : digit '-' = false
  point : digit '.' = false
  mark : ∀ c, IsMark c → digit c = false

theorem separates_isDecimalDigit : Separates isDecimalDigit :=
  ⟨by decide, by decide, by decide, by rintro _ (rfl | rfl) <;> decide⟩

theorem separates_isDigit : Separates Char.isDigit :=
  ⟨rfl, rfl, rfl, by rintro _ (rfl | rfl) <;> rfl⟩

/-- What follows a numeral does not continue it. -/
def Ends (digit : Char → Bool) (rest : List Char) : Prop :=
  ∀ c ∈ rest.head?, ¬ IsMark c ∧ c ≠ '.' ∧ digit c = false

theorem ends_of_blank (blank : ∀ c ∈ rest.head?, isBlank c = true) :
    Ends isDecimalDigit rest := by
  intro c first
  have isBlank := blank c first
  refine ⟨?_, ?_, isDecimalDigit_eq_false_of_isBlank isBlank⟩
  · rintro (rfl | rfl) <;> exact absurd isBlank (by decide)
  · rintro rfl
    exact absurd isBlank (by decide)

theorem ends_nil (digit : Char → Bool) : Ends digit [] := by
  intro c first
  cases first

theorem pointOrDigit_of_head? {whole : List Char} {fraction : Option (List Char)}
    (some : whole ≠ [] ∨ fraction.getD [] ≠ []) (digits : ∀ c ∈ whole, digit c = true) :
    ∀ c ∈ (whole ++ (fractionChars fraction ++ rest)).head?, c = '.' ∨ digit c = true := by
  intro c first
  cases whole with
  | nil =>
      cases fraction with
      | none => simp at some
      | some ds => exact .inl (Option.some.inj first).symm
  | cons d whole =>
      obtain rfl : d = c := Option.some.inj first
      exact .inr (digits d List.mem_cons_self)

section Heads

variable (separates : Separates digit)

include separates

theorem head?_exponentChars {exponent : Option (Option Sign × List Char)} {mark : Char}
    (isMark : IsMark mark) (ends : Ends digit rest) :
    ∀ c ∈ (exponentChars mark exponent ++ rest).head?, c ≠ '.' ∧ digit c = false := by
  intro c first
  cases exponent with
  | none => exact (ends c first).2
  | some exponent =>
      obtain rfl : mark = c := Option.some.inj first
      refine ⟨?_, separates.mark mark isMark⟩
      rcases isMark with rfl | rfl <;> decide

theorem head?_fractionChars {fraction : Option (List Char)}
    (other : ∀ c ∈ rest.head?, digit c = false) :
    ∀ c ∈ (fractionChars fraction ++ rest).head?, digit c = false := by
  intro c first
  cases fraction with
  | none => exact other c first
  | some ds =>
      obtain rfl : '.' = c := Option.some.inj first
      exact separates.point

theorem head?_mantissa {whole : List Char} {fraction : Option (List Char)}
    (some : whole ≠ [] ∨ fraction.getD [] ≠ []) (digits : ∀ c ∈ whole, digit c = true) :
    ∀ c ∈ (whole ++ (fractionChars fraction ++ rest)).head?, c ≠ '+' ∧ c ≠ '-' := by
  intro c first
  rcases pointOrDigit_of_head? some digits c first with rfl | isDigit
  · decide
  · constructor
    · rintro rfl
      cases isDigit.symm.trans separates.plus
    · rintro rfl
      cases isDigit.symm.trans separates.minus

end Heads

theorem isDecimalDigit_of_mem_whole {n : Numeral} (proper : n.Proper) :
    ∀ c ∈ n.whole, isDecimalDigit c = true := by
  intro c member
  refine proper.digits c ?_
  simp only [digits, List.mem_append]
  exact .inl (.inl member)

theorem head?_chars {n : Numeral} {mark : Char} (proper : n.Proper) :
    ∀ c ∈ (n.chars mark ++ rest).head?, isBlank c = false := by
  intro c first
  rw [chars, List.append_assoc, List.append_assoc, List.append_assoc] at first
  cases signed : n.sign with
  | some sign =>
      rw [signed] at first
      obtain rfl : sign.char = c := Option.some.inj first
      cases sign <;> decide
  | none =>
      rw [signed] at first
      rcases pointOrDigit_of_head? proper.mantissa (isDecimalDigit_of_mem_whole proper) c first with
        rfl | isDigit
      · decide
      · by_contra blank
        rw [isDecimalDigit_eq_false_of_isBlank (by simpa using blank)] at isDigit
        cases isDigit

theorem scan?_chars {n : Numeral} {mark : Char} (separates : Separates digit) (proper : n.Proper)
    (digits : ∀ c ∈ n.digits, digit c = true) (isMark : IsMark mark) (ends : Ends digit rest) :
    scan? digit (n.chars mark ++ rest) = some (n, rest) := by
  obtain ⟨sign, whole, fraction, exponent⟩ := n
  simp only [Numeral.digits, List.mem_append] at digits
  have raised : takeExponent digit (exponentChars mark exponent ++ rest) = (exponent, rest) := by
    refine takeExponent_exponentChars isMark ?_ ⟨separates.plus, separates.minus⟩ fun c first => ?_
    · rintro sign ds rfl
      exact ⟨proper.exponent sign ds rfl, fun c member => digits c (.inr member)⟩
    · obtain ⟨notMark, _, notDigit⟩ := ends c first
      exact ⟨notMark, notDigit⟩
  have afterFraction : ∀ c ∈ (exponentChars mark exponent ++ rest).head?,
      c ≠ '.' ∧ digit c = false := head?_exponentChars separates isMark ends
  have fractioned := takeFraction_fractionChars
    (fun c member => digits c (.inl (.inr member))) afterFraction
  have afterWhole : ∀ c ∈ (fractionChars fraction ++ (exponentChars mark exponent ++ rest)).head?,
      digit c = false := head?_fractionChars separates fun c first => (afterFraction c first).2
  have inWhole (c : Char) (member : c ∈ whole) : digit c = true :=
    digits c (.inl (.inl member))
  obtain ⟨taken, dropped⟩ := span_append inWhole afterWhole
  have afterSign : ∀ c ∈
      (whole ++ (fractionChars fraction ++ (exponentChars mark exponent ++ rest))).head?,
      c ≠ '+' ∧ c ≠ '-' := head?_mantissa separates proper.mantissa inWhole
  have signed := takeSign_signChars sign afterSign
  have present : ¬ (whole.isEmpty = true ∧ (fraction.getD []).isEmpty = true) := by
    simpa [Classical.or_iff_not_imp_left] using proper.mantissa
  rw [scan?_eq, chars, List.append_assoc, List.append_assoc, List.append_assoc, signed]
  simp only [taken, dropped, fractioned, raised, if_neg present]

end Reading

/-- A numeral is read from the texts that spell it. -/
theorem read?_eq_some_iff {cs : List Char} {n : Numeral} :
    read? cs = some n ↔ n.SpelledBy cs := by
  constructor
  · intro read
    simp only [read?, Option.bind_eq_bind, Option.bind_eq_some_iff, Prod.exists] at read
    obtain ⟨n', after, scanned, finished⟩ := read
    split at finished
    · next blank =>
      cases finished
      obtain ⟨proper, _, mark, isMark, text⟩ := proper_and_chars_of_scan? (fun _ => id) scanned
      refine ⟨proper, cs.takeWhile isBlank, mark, after, ?_, ?_, isMark, ?_⟩
      · rw [text, List.takeWhile_append_dropWhile]
      · exact fun c member => List.mem_takeWhile_imp member
      · exact List.all_eq_true.mp blank
    · cases finished
  · intro ⟨proper, before, mark, after, text, blankBefore, isMark, blankAfter⟩
    have headAfter : ∀ c ∈ after.head?, isBlank c = true :=
      fun c first => blankAfter c (List.mem_of_mem_head? first)
    have afterBlanks : ∀ c ∈ (n.chars mark ++ after).head?, isBlank c = false := head?_chars proper
    obtain ⟨_, dropped⟩ := span_append blankBefore afterBlanks
    have blank : after.all isBlank = true := List.all_eq_true.mpr blankAfter
    rw [read?, text, dropped, scan?_chars separates_isDecimalDigit proper proper.digits isMark
      (ends_of_blank headAfter)]
    exact if_pos blank

end Numeral

end Winnow
