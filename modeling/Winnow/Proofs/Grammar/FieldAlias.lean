import Winnow.Proofs.Grammar.Fault

/-!
# The text of a field alias

A key is read as a field alias if it begins with the table, a separator and the field, and either
ends there or goes on with another separator. So the text of an alias is read as the alias, and
other keys that are read as it only have more segments.
-/

namespace Winnow

/-- A name that can be a segment of a key. -/
structure IsSegment (name : String) : Prop where
  ne_empty : name ≠ ""
  unseparated : separator ∉ name.toList

instance (name : String) : Decidable (IsSegment name) :=
  decidable_of_iff (name ≠ "" ∧ separator ∉ name.toList)
    ⟨fun ⟨ne, unseparated⟩ => ⟨ne, unseparated⟩, fun ⟨ne, unseparated⟩ => ⟨ne, unseparated⟩⟩

/-- The first segment ends before the first separator, or else is everything. -/
theorem splitOn_eq_cons_iff {cs first : List Char} {others : List (List Char)} :
    cs.splitOn separator = first :: others ↔
      separator ∉ first ∧ (cs = first ∧ others = [] ∨
        ∃ rest, cs = first ++ separator :: rest ∧ rest.splitOn separator = others) := by
  constructor
  · intro split
    by_cases member : separator ∈ cs
    · obtain ⟨before, rest, rfl, unseparated⟩ := List.eq_append_cons_of_mem member
      rw [List.splitOn_append_cons_self_of_not_mem unseparated] at split
      obtain ⟨rfl, rfl⟩ := List.cons.inj split
      exact ⟨unseparated, .inr ⟨rest, rfl, rfl⟩⟩
    · rw [List.splitOn_eq_singleton member] at split
      obtain ⟨rfl, rfl⟩ := List.cons.inj split
      exact ⟨member, .inl ⟨rfl, rfl⟩⟩
  · rintro ⟨unseparated, ⟨rfl, rfl⟩ | ⟨rest, rfl, rfl⟩⟩
    · exact List.splitOn_eq_singleton unseparated
    · exact List.splitOn_append_cons_self_of_not_mem unseparated rest

/-- The first two segments of a text, with what follows them. -/
theorem exists_splitOn_eq_cons_cons_iff {cs table field : List Char} :
    (∃ others, cs.splitOn separator = table :: field :: others) ↔
      separator ∉ table ∧ separator ∉ field ∧ ∃ ending, cs = table ++ separator :: field ++ ending ∧
        (ending = [] ∨ ∃ more, ending = separator :: more) := by
  simp only [splitOn_eq_cons_iff]
  constructor
  · rintro ⟨others, first, ⟨_, impossible⟩ | ⟨rest, rfl, second, following⟩⟩
    · cases impossible
    · rcases following with ⟨rfl, _⟩ | ⟨more, rfl, _⟩
      · exact ⟨first, second, [], by simp, .inl rfl⟩
      · exact ⟨first, second, separator :: more, by simp, .inr ⟨more, rfl⟩⟩
  · rintro ⟨first, second, ending, rfl, rfl | ⟨more, rfl⟩⟩
    · exact ⟨[], first, .inr ⟨field, by simp, second, .inl ⟨rfl, rfl⟩⟩⟩
    · exact ⟨_, first, .inr ⟨field ++ separator :: more, by simp, second, .inr ⟨more, rfl, rfl⟩⟩⟩

theorem spells_iff {key : String} {target : FieldAlias} :
    Spells key target ↔ IsSegment target.table ∧ IsSegment target.field ∧
      ∃ ending, key = target.table ++ "-" ++ target.field ++ ending ∧
        (ending = "" ∨ ∃ more, ending = "-" ++ more) := by
  have hyphen : "-".toList = [separator] := rfl
  constructor
  · intro ⟨tableNe, fieldNe, split⟩
    obtain ⟨table, field, ending, same, ends⟩ := exists_splitOn_eq_cons_cons_iff.mp split
    refine ⟨⟨tableNe, table⟩, ⟨fieldNe, field⟩, String.ofList ending, ?_, ?_⟩
    · rw [← String.toList_inj, same]
      simp [hyphen]
    · rcases ends with rfl | ⟨more, rfl⟩
      · exact .inl rfl
      · exact .inr ⟨String.ofList more, by rw [← String.toList_inj]; simp [hyphen]⟩
  · rintro ⟨⟨tableNe, table⟩, ⟨fieldNe, field⟩, ending, rfl, ends⟩
    refine ⟨tableNe, fieldNe, exists_splitOn_eq_cons_cons_iff.mpr
      ⟨table, field, ending.toList, by simp [hyphen], ?_⟩⟩
    rcases ends with rfl | ⟨more, rfl⟩
    · exact .inl rfl
    · exact .inr ⟨more.toList, by simp [hyphen]⟩

namespace FieldAlias

theorem read_text_eq_ok_iff {target : FieldAlias} :
    read target.text = .ok target ↔ IsSegment target.table ∧ IsSegment target.field := by
  rw [read_eq_ok_iff, spells_iff]
  constructor
  · intro ⟨table, field, _⟩
    exact ⟨table, field⟩
  · intro ⟨table, field⟩
    exact ⟨table, field, "", String.append_empty.symm, .inl rfl⟩

/-- A key is read as an alias exactly if it begins with the alias and has nothing or another
separator after it, and any other key is malformed. What has been read is read back from its text,
and the text of an alias is read as the alias exactly if the table and the field are segments. -/
theorem read_inverts_text (key : String) :
    (∀ target, read key = .ok target ↔
      IsSegment target.table ∧ IsSegment target.field ∧
        ∃ ending, key = target.table ++ "-" ++ target.field ++ ending ∧
          (ending = "" ∨ ∃ more, ending = "-" ++ more)) ∧
    ((∃ target, read key = .ok target) ∨
      ∃ flaw, KeyFlaw key flaw ∧ read key = .error (.malformedAlias key flaw)) ∧
    (∀ target, read key = .ok target → read target.text = .ok target) ∧
    (∀ target : FieldAlias, read target.text = .ok target ↔
      IsSegment target.table ∧ IsSegment target.field) ∧
    (∀ field, resolve key = .ok field ↔ ∃ target, read key = .ok target ∧ target.field = field) ∧
    ∀ fault, resolve key = .error fault ↔ read key = .error fault := by
  have grammar (target : FieldAlias) : read key = .ok target ↔ _ := read_eq_ok_iff.trans spells_iff
  refine ⟨grammar, ?_, ?_, fun target => read_text_eq_ok_iff, fun field => Outcome.map_eq_ok_iff,
    fun fault => Outcome.map_eq_error_iff⟩
  · cases outcome : read key with
    | ok target => exact .inl ⟨target, rfl⟩
    | error fault =>
        obtain ⟨flaw, flawed, rfl⟩ := read_eq_error_iff.mp outcome
        exact .inr ⟨flaw, flawed, rfl⟩
  · intro target found
    obtain ⟨table, field, _⟩ := (grammar target).mp found
    exact read_text_eq_ok_iff.mpr ⟨table, field⟩

/-- A third segment is not read, and the text of what has been read does without it. -/
theorem read_inverts_text_third_segment :
    read "order-total-2" = .ok ⟨"order", "total"⟩ ∧
      read (text ⟨"order", "total"⟩) = .ok ⟨"order", "total"⟩ := by
  obtain ⟨grammar, _, back, _⟩ := read_inverts_text "order-total-2"
  have found : read "order-total-2" = .ok ⟨"order", "total"⟩ :=
    (grammar _).mpr ⟨by decide, by decide, "-2", by decide, .inr ⟨"2", by decide⟩⟩
  exact ⟨found, back _ found⟩

end FieldAlias

end Winnow
