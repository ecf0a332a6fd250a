import Winnow.Demand.FieldAlias
import Winnow.Proofs.Outcome

/-!
# The grammar of keys

Keys are sequences of segments. The first two make a field alias unless one of them is empty, and
the first alone names the connective of a group.
-/

namespace Winnow

/-- What stands between the separators of a key. -/
def segments (key : String) : List (List Char) :=
  key.toList.splitOn separator

/-- The first two segments of a key are the table and the field, neither of them empty. -/
structure Spells (key : String) (target : FieldAlias) : Prop where
  table_ne : target.table ≠ ""
  field_ne : target.field ≠ ""
  segments : ∃ rest, segments key = target.table.toList :: target.field.toList :: rest

/-- A key has two segments at least, and its first two are not empty. -/
def AliasShaped (key : String) : Prop :=
  ∃ table field rest, segments key = table :: field :: rest ∧ table ≠ [] ∧ field ≠ []

/-- The first segment of a key, or all of it, is the name of a connective. -/
def Connects (key : String) (connective : Connective) : Prop :=
  (segments key).head? = some connective.name.toList

theorem aliasShaped_iff (key : String) : AliasShaped key ↔ ∃ target, Spells key target := by
  constructor
  · intro ⟨table, field, rest, spelled, tableNe, fieldNe⟩
    refine ⟨⟨String.ofList table, String.ofList field⟩, ?_, ?_, rest, ?_⟩
    · exact fun empty => tableNe (String.ofList_eq_empty_iff.mp empty)
    · exact fun empty => fieldNe (String.ofList_eq_empty_iff.mp empty)
    · simpa using spelled
  · intro ⟨target, tableNe, fieldNe, rest, spelled⟩
    refine ⟨_, _, rest, spelled, ?_, ?_⟩
    · exact fun empty => tableNe (String.toList_eq_nil_iff.mp empty)
    · exact fun empty => fieldNe (String.toList_eq_nil_iff.mp empty)

/-- Splitting takes the first segment and goes on with what follows the separator. -/
theorem splitOn_separator (cs : List Char) :
    cs.splitOn separator =
      firstSegment cs :: ((afterSegment? cs).map (·.splitOn separator)).getD [] := by
  induction cs with
  | nil => rfl
  | cons c cs ih =>
      rw [List.splitOn_cons_eq_if_modifyHead]
      by_cases hyphen : c = separator
      · simp [hyphen, firstSegment, afterSegment?]
      · rw [if_neg (by simpa using hyphen), ih]
        simp [hyphen, firstSegment, afterSegment?]

theorem head?_segments (key : String) :
    (segments key).head? = some (firstSegment key.toList) := by
  rw [segments, splitOn_separator]
  rfl

theorem segments_of_afterSegment?_eq_none {key : String}
    (single : afterSegment? key.toList = none) :
    segments key = [firstSegment key.toList] := by
  rw [segments, splitOn_separator, single]
  rfl

theorem segments_of_afterSegment?_eq_some {key : String} {rest : List Char}
    (several : afterSegment? key.toList = some rest) :
    ∃ others, segments key = firstSegment key.toList :: firstSegment rest :: others := by
  rw [segments, splitOn_separator, several, Option.map_some, Option.getD_some,
    splitOn_separator rest]
  exact ⟨_, rfl⟩

theorem FieldAlias.read_eq_ok_iff {key : String} {target : FieldAlias} :
    read key = .ok target ↔ Spells key target := by
  have dropError : read key = .ok target ↔ ofChars key.toList = .ok target := by
    rw [read]
    cases ofChars key.toList with
    | error flaw => simp [Except.mapError]
    | ok found => simp [Except.mapError]
  rw [dropError, ofChars]
  cases after : afterSegment? key.toList with
  | none =>
      refine ⟨fun impossible => (by cases impossible), ?_⟩
      intro ⟨_, _, rest, spelled⟩
      rw [segments_of_afterSegment?_eq_none after] at spelled
      simp at spelled
  | some rest =>
      obtain ⟨others, spelled⟩ := segments_of_afterSegment?_eq_some after
      simp only [List.isEmpty_iff]
      constructor
      · intro read
        split at read
        · cases read
        · next tableNe =>
          split at read
          · cases read
          · next fieldNe =>
            cases read
            refine ⟨?_, ?_, others, ?_⟩
            · simpa using tableNe
            · simpa using fieldNe
            · simpa using spelled
      · intro ⟨tableNe, fieldNe, _, sameSegments⟩
        rw [spelled] at sameSegments
        obtain ⟨table, field, _⟩ : firstSegment key.toList = target.table.toList ∧
            firstSegment rest = target.field.toList ∧ _ := by
          simpa using sameSegments
        simp [table, field, tableNe, fieldNe]

theorem Connective.ofKey_eq_ok_iff {key : String} {connective : Connective} :
    ofKey key = .ok connective ↔ Connects key connective := by
  rw [ofKey, Connects, head?_segments, Option.some.injEq, ← String.ofList_inj, String.ofList_toList]
  have distinct : any.name ≠ all.name := by decide
  cases connective with
  | any =>
      constructor
      · intro read
        split at read
        · next isAny => exact isAny
        · split at read <;> cases read
      · intro isAny
        rw [if_pos isAny]
  | all =>
      constructor
      · intro read
        split at read
        · cases read
        · split at read
          · next isAll => exact isAll
          · cases read
      · intro isAll
        rw [isAll, if_neg distinct.symm, if_pos rfl]

theorem Spells.unique {key : String} {target target' : FieldAlias} (spelled : Spells key target)
    (spelled' : Spells key target') : target = target' := by
  have read := FieldAlias.read_eq_ok_iff.mpr spelled
  rw [FieldAlias.read_eq_ok_iff.mpr spelled'] at read
  exact (Except.ok.inj read).symm

theorem Connects.unique {key : String} {connective connective' : Connective}
    (connects : Connects key connective) (connects' : Connects key connective') :
    connective = connective' := by
  have read := Connective.ofKey_eq_ok_iff.mpr connects
  rw [Connective.ofKey_eq_ok_iff.mpr connects'] at read
  exact (Except.ok.inj read).symm

end Winnow
