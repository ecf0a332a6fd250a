import Winnow.Predicate.Text
import Winnow.Proofs.Predicate.Literal
import Winnow.Proofs.Predicate.Structure

/-!
# What a condition tells of its predicate

The text of a predicate determines the predicate, groups of one part aside. A text that starts with
a parenthesis is a group; any other starts with a word, and what follows the word tells whether the
field is asked for, tested for null or compared.
-/

namespace Winnow

def isWordChar (c : Char) : Bool :=
  c.isAlphanum || c == '_' || c == '.'

/-- ASCII letters, digits, underscores and points, and at least one of these. -/
def IsWord (field : String) : Prop :=
  field ≠ "" ∧ ∀ c ∈ field.toList, isWordChar c = true

instance (field : String) : Decidable (IsWord field) :=
  decidable_of_iff (field ≠ "" ∧ field.toList.all isWordChar = true)
    (and_congr Iff.rfl List.all_eq_true)

def Connective.joiner : Connective → List Char
  | .any => " OR ".toList
  | .all => " AND ".toList

namespace Predicate

/-- All fields are words, and no operand is a float. -/
inductive Plain : Predicate → Prop
  | compare {field op operand} (word : IsWord field) (exact : ∀ x, operand ≠ .float x) :
      Plain (.compare field op operand)
  | bare {field} (word : IsWord field) : Plain (.bare field)
  | conj {parts} (each : ∀ part ∈ parts, Plain part) : Plain (.conj parts)
  | disj {parts} (each : ∀ part ∈ parts, Plain part) : Plain (.disj parts)

theorem plain_combine_iff {connective : Connective} {parts : List Predicate} :
    Plain (connective.combine parts) ↔ ∀ part ∈ parts, Plain part := by
  cases connective with
  | any => exact ⟨fun plain => by cases plain; assumption, .disj⟩
  | all => exact ⟨fun plain => by cases plain; assumption, .conj⟩

/-! The text of a group. -/

/-- What follows the first part of a group: the other parts, each after the joiner, and what follows
the group. -/
def othersChars (connective : Connective) (others : List Predicate) (rest : List Char) :
    List Char :=
  others.foldr (fun part tail => connective.joiner ++ (part.chars ++ tail)) (')' :: rest)

theorem chars_single (connective : Connective) (part : Predicate) :
    (connective.combine [part]).chars = part.chars := by
  cases connective <;> rfl

theorem chars_several (connective : Connective) (first second : Predicate)
    (others : List Predicate) :
    (connective.combine (first :: second :: others)).chars =
      groupChars connective.joiner ((first :: second :: others).map chars) := by
  rw [← partChars_eq]
  cases connective <;> rfl

theorem intercalate_chars_append (connective : Connective) (first : Predicate)
    (others : List Predicate) (rest : List Char) :
    connective.joiner.intercalate ((first :: others).map chars) ++ ')' :: rest =
      first.chars ++ othersChars connective others rest := by
  induction others generalizing first with
  | nil => simp [othersChars]
  | cons second others ih =>
      rw [List.map_cons, List.map_cons, List.intercalate_cons_cons, List.append_assoc,
        List.append_assoc, ← List.map_cons, ih]
      rfl

theorem chars_several_append (connective : Connective) (first second : Predicate)
    (others : List Predicate) (rest : List Char) :
    (connective.combine (first :: second :: others)).chars ++ rest =
      '(' :: (first.chars ++ othersChars connective (second :: others) rest) := by
  rw [chars_several, groupChars, List.cons_append, List.append_assoc, List.singleton_append,
    intercalate_chars_append]

theorem chars_unwrap (p : Predicate) : p.unwrap.chars = p.chars := by
  induction p using Predicate.induction with
  | compare field op operand => rfl
  | bare field => rfl
  | group connective parts ih =>
      match parts, ih with
      | [], _ => rw [unwrap_empty]
      | [part], ih => rw [unwrap_single, chars_single, ih part List.mem_cons_self]
      | first :: second :: rest, ih =>
          have texts : (first.unwrap :: second.unwrap :: rest.map unwrap).map chars =
              (first :: second :: rest).map chars := by
            rw [← List.map_cons, ← List.map_cons, List.map_map]
            exact List.map_congr_left ih
          rw [unwrap_several, chars_several, chars_several, texts]

end Predicate

/-! The text of a condition that is no group. -/

/-- What follows the word at the start of a condition. The word `1` starts the empty groups. -/
inductive Ending where
  | bare
  | isNull
  | against (op : Comparison) (operand : Scalar)
  | constant (connective : Connective)

/-- What may follow a condition. -/
inductive Follows : List Char → Prop
  | nothing : Follows []
  | close (rest) : Follows (')' :: rest)
  | joiner (connective : Connective) (rest) : Follows (connective.joiner ++ rest)

theorem Follows.endsBefore {rest : List Char} (follows : Follows rest) :
    Literal.EndsBefore rest := by
  intro c first
  cases follows with
  | nothing => cases first
  | close rest => exact .inr (Option.some.inj first).symm
  | joiner connective rest =>
      cases connective <;> exact .inl (Option.some.inj first).symm

namespace Ending

def predicate (word : String) : Ending → Predicate
  | .bare => .bare word
  | .isNull => .compare word .eq .null
  | .against op operand => .compare word op operand
  | .constant connective => connective.combine []

def chars : Ending → List Char
  | .bare => []
  | .isNull => " IS NULL".toList
  | .against op operand => ' ' :: (op.symbol.toList ++ ' ' :: operand.chars)
  | .constant .any => "=0".toList
  | .constant .all => "=1".toList

/-- Whether a word with this ending is the text of the predicate. -/
def Fits (word : String) : Ending → Prop
  | .bare => True
  | .isNull => True
  | .against op operand => (∀ x, operand ≠ .float x) ∧ ¬ (op = .eq ∧ operand = .null)
  | .constant _ => word = "1"

theorem chars_predicate {word : String} {ending : Ending} (fits : ending.Fits word) :
    (ending.predicate word).chars = word.toList ++ ending.chars := by
  cases ending with
  | bare => exact (List.append_nil _).symm
  | isNull => rfl
  | against op operand =>
      rw [predicate, Predicate.chars, Predicate.comparisonChars, if_neg fits.2]
      rfl
  | constant connective =>
      rw [show word = "1" from fits]
      cases connective <;> rfl

/-- The comparison whose symbol starts a text, and what follows the blank after it. -/
def readSymbol (cs : List Char) : Option (Comparison × List Char) :=
  Comparison.all.findSome? fun op =>
    ((op.symbol.toList ++ [' ']).isPrefixOf? cs).map (op, ·)

def read : List Char → Option (Ending × List Char)
  | '=' :: '0' :: cs => some (.constant .any, cs)
  | '=' :: '1' :: cs => some (.constant .all, cs)
  | ' ' :: 'I' :: 'S' :: ' ' :: 'N' :: 'U' :: 'L' :: 'L' :: cs => some (.isNull, cs)
  | ' ' :: cs =>
    match readSymbol cs with
    | some (op, cs) => (Literal.read cs).map fun (operand, rest) => (.against op operand, rest)
    | none => some (.bare, ' ' :: cs)
  | cs => some (.bare, cs)

theorem read_follows {rest : List Char} (follows : Follows rest) :
    read rest = some (.bare, rest) := by
  cases follows with
  | nothing => rfl
  | close rest => rfl
  | joiner connective rest => cases connective <;> rfl

theorem read_chars {word : String} {ending : Ending} (fits : ending.Fits word) {rest : List Char}
    (follows : Follows rest) : read (ending.chars ++ rest) = some (ending, rest) := by
  cases ending with
  | bare => exact read_follows follows
  | isNull => rfl
  | constant connective => cases connective <;> rfl
  | against op operand =>
      have literal := Literal.read_chars fits.1 follows.endsBefore
      have unfolded : read ((against op operand).chars ++ rest) =
          (Literal.read (operand.chars ++ rest)).map fun (operand, rest) =>
            (.against op operand, rest) := by
        cases op <;> rfl
      rw [unfolded, literal]
      rfl

/-- A word goes no further than its ending. -/
theorem head_chars_append (ending : Ending) {rest : List Char} (follows : Follows rest) :
    ∀ c ∈ (ending.chars ++ rest).head?, isWordChar c = false := by
  cases ending with
  | bare => exact follows.endsBefore.head_eq_false rfl rfl
  | isNull => exact fun _ first => Option.some.inj first ▸ rfl
  | against op operand => exact fun _ first => Option.some.inj first ▸ rfl
  | constant connective =>
      cases connective <;> exact fun _ first => Option.some.inj first ▸ rfl

theorem predicate_append_inj {word word' : String} {ending ending' : Ending}
    (isWord : IsWord word) (isWord' : IsWord word') (fits : ending.Fits word)
    (fits' : ending'.Fits word') {rest rest' : List Char} (follows : Follows rest)
    (follows' : Follows rest')
    (same : (ending.predicate word).chars ++ rest = (ending'.predicate word').chars ++ rest') :
    ending.predicate word = ending'.predicate word' ∧ rest = rest' := by
  rw [chars_predicate fits, chars_predicate fits', List.append_assoc, List.append_assoc] at same
  obtain ⟨taken, dropped⟩ := span_append isWord.2 (ending.head_chars_append follows)
  obtain ⟨taken', dropped'⟩ := span_append isWord'.2 (ending'.head_chars_append follows')
  have words : word = word' := String.toList_inj.mp (by rw [← taken, same, taken'])
  have remains : ending.chars ++ rest = ending'.chars ++ rest' := by rw [← dropped, same, dropped']
  have endings : (ending, rest) = (ending', rest') :=
    Option.some.inj (by rw [← read_chars fits follows, remains, read_chars fits' follows'])
  cases endings
  rw [words]
  exact ⟨rfl, rfl⟩

theorem chars_predicate_ne_group {word : String} {ending : Ending} (isWord : IsWord word)
    (fits : ending.Fits word) (rest cs : List Char) :
    (ending.predicate word).chars ++ rest ≠ '(' :: cs := by
  intro same
  rw [chars_predicate fits] at same
  cases characters : word.toList with
  | nil => exact isWord.1 (String.toList_eq_nil_iff.mp characters)
  | cons c word =>
      rw [characters] at same
      have parenthesis : isWordChar c = true := isWord.2 c (by simp [characters])
      rw [(List.cons.inj same).1] at parenthesis
      cases parenthesis

end Ending

namespace Predicate

/-- Words with an ending, and groups of at least two parts. -/
inductive Canonical : Predicate → Prop
  | condition (word : String) (ending : Ending) (isWord : IsWord word) (fits : ending.Fits word) :
      Canonical (ending.predicate word)
  | group (connective : Connective) (first second : Predicate) (others : List Predicate)
      (each : ∀ part ∈ first :: second :: others, Canonical part) :
      Canonical (connective.combine (first :: second :: others))

theorem Plain.canonical_unwrap {p : Predicate} (plain : p.Plain) : p.unwrap.Canonical := by
  induction p using Predicate.induction with
  | compare field op operand =>
      cases plain with
      | compare isWord exact =>
          by_cases asksNull : op = .eq ∧ operand = .null
          · rw [asksNull.1, asksNull.2]
            exact .condition field .isNull isWord trivial
          · exact .condition field (.against op operand) isWord ⟨exact, asksNull⟩
  | bare field =>
      cases plain with
      | bare isWord => exact .condition field .bare isWord trivial
  | group connective parts ih =>
      have each := plain_combine_iff.mp plain
      match parts, ih, each with
      | [], _, _ =>
          rw [unwrap_empty]
          exact .condition "1" (.constant connective) (by decide) rfl
      | [part], ih, each =>
          rw [unwrap_single]
          exact ih part List.mem_cons_self (each part List.mem_cons_self)
      | first :: second :: rest, ih, each =>
          rw [unwrap_several]
          refine .group connective _ _ _ ?_
          rw [← List.map_cons, ← List.map_cons]
          exact List.forall_mem_map.mpr fun part member => ih part member (each part member)

/-- Where the text of the predicate starts a text, the text of no other predicate does. -/
def Determined (p : Predicate) : Prop :=
  ∀ {q : Predicate} {rest rest' : List Char}, q.Canonical → Follows rest → Follows rest' →
    p.chars ++ rest = q.chars ++ rest' → p = q ∧ rest = rest'

theorem follows_othersChars (connective : Connective) (others : List Predicate)
    (rest : List Char) : Follows (othersChars connective others rest) := by
  cases others with
  | nil => exact .close rest
  | cons part others => exact .joiner connective _

theorem othersChars_cons_connective {connective connective' : Connective}
    {second second' : Predicate} {others others' : List Predicate} {rest rest' : List Char}
    (same : othersChars connective (second :: others) rest =
      othersChars connective' (second' :: others') rest') : connective = connective' := by
  cases connective with
  | any =>
      cases connective' with
      | any => rfl
      | all => cases (List.cons.inj (List.cons.inj same).2).1
  | all =>
      cases connective' with
      | any => cases (List.cons.inj (List.cons.inj same).2).1
      | all => rfl

theorem othersChars_inj {connective : Connective} {others others' : List Predicate}
    {rest rest' : List Char} (determined : ∀ part ∈ others, Determined part)
    (canonical : ∀ part ∈ others', Canonical part)
    (same : othersChars connective others rest = othersChars connective others' rest') :
    others = others' ∧ rest = rest' := by
  induction others generalizing others' with
  | nil =>
      cases others' with
      | nil => exact ⟨rfl, (List.cons.inj same).2⟩
      | cons part' others' =>
          -- A parenthesis closes one group, and a blank before a joiner goes on with the other.
          cases connective <;> cases (List.cons.inj same).1
  | cons part others ih =>
      cases others' with
      | nil => cases connective <;> cases (List.cons.inj same).1
      | cons part' others' =>
          obtain ⟨first, tail⟩ := List.forall_mem_cons.mp determined
          obtain ⟨first', tail'⟩ := List.forall_mem_cons.mp canonical
          obtain ⟨parts, remains⟩ := first first' (follows_othersChars connective others rest)
            (follows_othersChars connective others' rest') (List.append_cancel_left same)
          obtain ⟨others, rests⟩ := ih tail tail' remains
          exact ⟨by rw [parts, others], rests⟩

theorem determined_group {connective : Connective} {first second : Predicate}
    {others : List Predicate} (each : ∀ part ∈ first :: second :: others, Determined part) :
    Determined (connective.combine (first :: second :: others)) := by
  intro q rest rest' canonical follows follows' same
  rw [chars_several_append] at same
  cases canonical with
  | condition word ending isWord fits =>
      -- A group opens with a parenthesis.
      exact absurd same.symm (ending.chars_predicate_ne_group isWord fits rest' _)
  | group connective' first' second' others' canonical =>
      rw [chars_several_append] at same
      obtain ⟨firstDetermined, othersDetermined⟩ := List.forall_mem_cons.mp each
      obtain ⟨firstCanonical, othersCanonical⟩ := List.forall_mem_cons.mp canonical
      obtain ⟨firsts, remains⟩ := firstDetermined firstCanonical
        (follows_othersChars connective _ rest) (follows_othersChars connective' _ rest')
        (List.cons.inj same).2
      -- Where the first parts end, the same joiner follows.
      cases othersChars_cons_connective remains
      obtain ⟨tails, rests⟩ := othersChars_inj othersDetermined othersCanonical remains
      exact ⟨by rw [firsts, tails], rests⟩

theorem Canonical.determined {p : Predicate} (canonical : p.Canonical) : p.Determined := by
  induction canonical with
  | condition word ending isWord fits =>
      intro q rest rest' canonical' follows follows' same
      cases canonical' with
      | condition word' ending' isWord' fits' =>
          exact Ending.predicate_append_inj isWord isWord' fits fits' follows follows' same
      | group connective first second others each =>
          rw [chars_several_append] at same
          exact absurd same (ending.chars_predicate_ne_group isWord fits rest _)
  | group connective first second others each ih => exact determined_group ih

/-- Predicates with the same text are the same but for groups of one part, and give the same answers
and faults. -/
theorem text_eq_iff_unwrap_eq {p q : Predicate} (plain : p.Plain) (plain' : q.Plain) :
    (p.text = q.text ↔ p.unwrap = q.unwrap) ∧
      (p.text = q.text →
        ∀ {ρ : Type} [Record ρ] (record : ρ), p.eval record = q.eval record) := by
  have sameTexts : p.text = q.text ↔ p.unwrap.chars = q.unwrap.chars := by
    rw [text, text, String.ofList_inj, chars_unwrap, chars_unwrap]
  have texts : p.text = q.text ↔ p.unwrap = q.unwrap := by
    rw [sameTexts]
    constructor
    · intro same
      refine (plain.canonical_unwrap.determined plain'.canonical_unwrap .nothing .nothing ?_).1
      rw [same]
    · exact congrArg chars
  refine ⟨texts, ?_⟩
  intro same ρ _ record
  rw [← eval_unwrap p, texts.mp same, eval_unwrap q]

theorem text_eq_iff_unwrap_eq_quoted :
    let quoted : Predicate := .compare "AND" .eq (.string "it's) AND (x")
    let p : Predicate := .conj [.disj [quoted], .bare "IS", .disj []]
    let q : Predicate := .conj [quoted, .conj [.conj [.bare "IS"]], .disj []]
    let record : Mapping := [("AND", .string "it's) AND (x")]
    p.Plain ∧ q.Plain ∧ p.text = "(AND = 'it''s) AND (x' AND IS AND 1=0)" ∧ p.unwrap = q.unwrap ∧
      p.eval record = q.eval record ∧ q.eval record = .error (.invalidField "IS") := by
  intro quoted p q record
  have plainQuoted : quoted.Plain := .compare (by decide) (by simp)
  have plainBare : Plain (.bare "IS") := .bare (by decide)
  have plainEmpty : Plain (.disj []) := .disj (by simp)
  have plain : p.Plain := .conj (by simp [plainQuoted, plainBare, plainEmpty, Plain.disj])
  have plain' : q.Plain := .conj (by simp [plainQuoted, plainBare, plainEmpty, Plain.conj])
  have text : p.text = "(AND = 'it''s) AND (x' AND IS AND 1=0)" := by decide +kernel
  have sameText : p.text = q.text := by decide +kernel
  obtain ⟨texts, evaluations⟩ := text_eq_iff_unwrap_eq plain plain'
  exact ⟨plain, plain', text, texts.mp sameText, evaluations sameText record, by decide +kernel⟩

end Predicate

end Winnow
