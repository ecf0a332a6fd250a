import Mathlib.Data.List.Nodup
import Winnow.Proofs.Entries.Extension
import Winnow.Proofs.Json.Text
import Winnow.Settings.Json

/-!
# Settings are kept by JSON

Settings that are written and read back are the same, with their tables in order. Fields may come in
any order, and those that have their defaults may be left out. A key that is no field, a field that
is there twice and a policy of another name are refused.
-/

namespace Winnow.Settings

def fieldJson (settings : Settings) : Field → Json
  | .providers => tableJson settings.providers
  | .merge => .string settings.merge.name
  | .unknownOperator => .string settings.unknownOperator.name
  | .tableAliases => tableJson settings.tableAliases

/-- The members that some fields are written as. -/
def members (settings : Settings) (fields : List Field) : Mapping :=
  fields.map fun field => (field.name, settings.fieldJson field)

theorem toJson_eq (settings : Settings) :
    settings.toJson = .object (settings.members Field.all) := rfl

def HasDefault (settings : Settings) : Field → Prop
  | .providers => settings.providers = ({} : Settings).providers
  | .merge => settings.merge = ({} : Settings).merge
  | .unknownOperator => settings.unknownOperator = ({} : Settings).unknownOperator
  | .tableAliases => settings.tableAliases = ({} : Settings).tableAliases

instance (settings : Settings) (field : Field) : Decidable (settings.HasDefault field) := by
  cases field <;> unfold HasDefault <;> infer_instance

theorem Field.name_injective : Function.Injective Field.name := by
  intro field other
  cases field <;> cases other <;> decide

theorem Field.mem_all (field : Field) : field ∈ Field.all := by
  cases field <;> decide

/-! ## Tables and policies -/

theorem mapM_stringMember? (table : Entries String) :
    (table.mapValues Json.string).mapM stringMember? = some table := by
  induction table with
  | nil => rfl
  | cons entry rest ih =>
      have mapped : Entries.mapValues Json.string (entry :: rest) =
          (entry.1, .string entry.2) :: Entries.mapValues Json.string rest := rfl
      rw [mapped, List.mapM_cons, ih]
      rfl

theorem jsonTable?_tableJson {table : Entries String} (distinct : table.Distinct) :
    jsonTable? (tableJson table) = some table := by
  have kept : Entries.ofList table = table :=
    Entries.extend_eq_append distinct (List.disjoint_nil_left _)
  change Entries.ofList <$> (table.mapValues Json.string).mapM stringMember? = some table
  rw [mapM_stringMember?, Option.map_eq_map, Option.map_some, kept]

theorem mergeOfName?_eq_some_iff {word : String} {policy : MergePolicy} :
    MergePolicy.ofName? word = some policy ↔ policy.name = word := by
  constructor
  · intro found
    simpa using List.find?_some found
  · rintro rfl
    cases policy <;> rfl

theorem unknownOperatorOfName?_eq_some_iff {word : String} {policy : UnknownOperatorPolicy} :
    UnknownOperatorPolicy.ofName? word = some policy ↔ policy.name = word := by
  constructor
  · intro found
    simpa using List.find?_some found
  · rintro rfl
    cases policy <;> rfl

/-! ## Fields -/

theorem keys_members (settings : Settings) (fields : List Field) :
    Entries.keys (settings.members fields) = fields.map Field.name := by
  simp [Entries.keys, members]

theorem get?_members (settings : Settings) (fields : List Field) (field : Field) :
    Entries.get? (settings.members fields) field.name =
      if field ∈ fields then some (settings.fieldJson field) else none := by
  induction fields with
  | nil => rfl
  | cons first rest ih =>
      change (if first.name = field.name then _ else Entries.get? (settings.members rest) _) = _
      rw [ih]
      by_cases same : first = field
      · simp [same]
      · have other : first.name ≠ field.name := Field.name_injective.ne same
        simp [other, Ne.symm same]

theorem assemble?_eq_some_iff {ν : Type} {table? : ν → Option (Entries String)}
    {word? : ν → Option String} {value? : Field → Option ν} {settings : Settings} :
    assemble? table? word? value? = some settings ↔
      orDefault [] table? (value? .providers) = some settings.providers ∧
      orDefault .merge (word? · >>= MergePolicy.ofName?) (value? .merge) = some settings.merge ∧
      orDefault .placeholder (word? · >>= UnknownOperatorPolicy.ofName?) (value? .unknownOperator) =
        some settings.unknownOperator ∧
      orDefault [] table? (value? .tableAliases) = some settings.tableAliases := by
  obtain ⟨providers, policy, unknownOperator, tableAliases⟩ := settings
  simp [assemble?, Option.bind_eq_some_iff]

theorem ofFields?_eq_some_iff {ν : Type} {table? : ν → Option (Entries String)}
    {word? : ν → Option String} {fields : Entries ν} {settings : Settings} :
    ofFields? table? word? fields = some settings ↔
      (fields.Distinct ∧ ∀ key ∈ fields.keys, key ∈ Field.all.map Field.name) ∧
      assemble? table? word? (fun field => fields.get? field.name) = some settings := by
  rw [ofFields?, Option.ite_none_right_eq_some]

/-- A field that is left out if it has its default, and written otherwise, is read. -/
theorem orDefault_ite {ν : Type u} {α : Type v} {default expected : α} {decode : ν → Option α}
    {value : ν} {shown : Prop} [Decidable shown] (decoded : decode value = some expected)
    (omitted : ¬shown → expected = default) :
    orDefault default decode (if shown then some value else none) = some expected := by
  split
  · exact decoded
  · next hidden => rw [omitted hidden, orDefault]

theorem ofJson?_members {settings : Settings} (providers : settings.providers.Distinct)
    (aliases : settings.tableAliases.Distinct) {shown : List Field} (distinct : shown.Nodup)
    (omitted : ∀ field, field ∉ shown → settings.HasDefault field) :
    ofJson? (.object (settings.members shown)) = some settings := by
  rw [ofJson?, ofFields?_eq_some_iff, assemble?_eq_some_iff]
  simp only [get?_members]
  refine ⟨⟨?_, ?_⟩, ?_, ?_, ?_, ?_⟩
  · rw [Entries.Distinct, keys_members]
    exact List.Nodup.map Field.name_injective distinct
  · rw [keys_members]
    exact fun key member => List.map_subset _ (fun field _ => field.mem_all) member
  · exact orDefault_ite (jsonTable?_tableJson providers) (omitted .providers)
  · exact orDefault_ite (mergeOfName?_eq_some_iff.mpr rfl) (omitted .merge)
  · exact orDefault_ite (unknownOperatorOfName?_eq_some_iff.mpr rfl) (omitted .unknownOperator)
  · exact orDefault_ite (jsonTable?_tableJson aliases) (omitted .tableAliases)

/-! ## What is refused -/

theorem ofJson?_further_member {before after : Mapping} {key : String} {value : Json}
    (further : key ∉ Field.all.map Field.name ∨ key ∈ Entries.keys (before ++ after)) :
    ofJson? (.object (before ++ (key, value) :: after)) = none := by
  rw [Option.eq_none_iff_forall_ne_some]
  intro settings read
  obtain ⟨⟨distinct, known⟩, -⟩ := ofFields?_eq_some_iff.mp read
  have rearranged : (Entries.keys (before ++ (key, value) :: after)).Perm
      (key :: Entries.keys (before ++ after)) := List.Perm.map Prod.fst List.perm_middle
  have fresh : key ∉ Entries.keys (before ++ after) :=
    (List.nodup_cons.mp (rearranged.nodup_iff.mp distinct)).1
  have field : key ∈ Field.all.map Field.name :=
    known key (rearranged.mem_iff.mpr List.mem_cons_self)
  exact further.elim (absurd field) (absurd · fresh)

theorem ofJson?_other_merge {word : String} (other : word ∉ ["merge", "last_wins"])
    (members : Mapping) :
    ofJson? (.object (members.put Field.merge.name (.string word))) = none := by
  rw [Option.eq_none_iff_forall_ne_some]
  intro settings read
  obtain ⟨-, policy, -⟩ := assemble?_eq_some_iff.mp (ofFields?_eq_some_iff.mp read).2
  rw [Entries.get?_put, if_pos rfl] at policy
  have name : settings.merge.name = word := mergeOfName?_eq_some_iff.mp policy
  cases chosen : settings.merge <;> simp [← name, chosen, MergePolicy.name] at other

theorem ofJson?_other_unknownOperator {word : String} (other : word ∉ ["placeholder", "reject"])
    (members : Mapping) :
    ofJson? (.object (members.put Field.unknownOperator.name (.string word))) = none := by
  rw [Option.eq_none_iff_forall_ne_some]
  intro settings read
  obtain ⟨-, -, policy, -⟩ := assemble?_eq_some_iff.mp (ofFields?_eq_some_iff.mp read).2
  rw [Entries.get?_put, if_pos rfl] at policy
  have name : settings.unknownOperator.name = word := unknownOperatorOfName?_eq_some_iff.mp policy
  cases chosen : settings.unknownOperator <;>
    simp [← name, chosen, UnknownOperatorPolicy.name] at other

/-! ## Text -/

theorem ofJsonText?_text {json : Json} (plain : json.Plain Json.Reader.maxDepth) :
    ofJsonText? json.text = ofJson? json := by
  rw [ofJsonText?, Json.decode?_text plain]
  rfl

theorem plain_tableJson (table : Entries String) (depth : Nat) :
    (tableJson table).Plain (depth + 1) := by
  rw [tableJson, Json.Plain]
  intro member inside
  obtain ⟨entry, -, rfl⟩ := List.mem_map.mp inside
  simp only [Json.Plain]

theorem plain_members (settings : Settings) (fields : List Field) :
    (Json.object (settings.members fields)).Plain Json.Reader.maxDepth := by
  rw [Json.Reader.maxDepth, Json.Plain]
  intro member inside
  obtain ⟨field, -, rfl⟩ := List.mem_map.mp inside
  cases field with
  | providers => exact plain_tableJson settings.providers _
  | tableAliases => exact plain_tableJson settings.tableAliases _
  | merge | unknownOperator => simp only [fieldJson, Json.Plain]

/-- Settings, whose tables have no key twice, are read back from what is written of them, as a value
and as text, with the fields in any order and without some that have their defaults. A member for a
key that is no field or is there already is refused, and so is a policy by any other name. -/
theorem kept_by_json (settings : Settings) (providers : settings.providers.Distinct)
    (aliases : settings.tableAliases.Distinct) :
    ofJson? settings.toJson = some settings ∧
    ofJsonText? settings.toJson.text = some settings ∧
    (∀ shown : List Field, shown.Nodup →
      (∀ field, field ∉ shown → settings.HasDefault field) →
        ofJson? (.object (settings.members shown)) = some settings ∧
          ofJsonText? (Json.object (settings.members shown)).text = some settings) ∧
    (∀ (before after : Mapping) (key : String) (value : Json),
      (key ∉ Field.all.map Field.name ∨ key ∈ Entries.keys (before ++ after)) →
        ofJson? (.object (before ++ (key, value) :: after)) = none) ∧
    (∀ (members : Mapping) (word : String), word ∉ ["merge", "last_wins"] →
      ofJson? (.object (members.put "merge" (.string word))) = none) ∧
    ∀ (members : Mapping) (word : String), word ∉ ["placeholder", "reject"] →
      ofJson? (.object (members.put "unknown_operator" (.string word))) = none := by
  have shows (shown : List Field) (distinct : shown.Nodup)
      (omitted : ∀ field, field ∉ shown → settings.HasDefault field) :
      ofJson? (.object (settings.members shown)) = some settings ∧
        ofJsonText? (Json.object (settings.members shown)).text = some settings := by
    have read := ofJson?_members providers aliases distinct omitted
    exact ⟨read, (ofJsonText?_text (settings.plain_members shown)).trans read⟩
  obtain ⟨value, text⟩ :=
    shows Field.all (by decide) fun field hidden => absurd field.mem_all hidden
  rw [toJson_eq]
  exact ⟨value, text, shows, fun _ _ _ _ => ofJson?_further_member,
    fun members _ other => ofJson?_other_merge other members,
    fun members _ other => ofJson?_other_unknownOperator other members⟩

/-- Two providers out of the order of their ids, and two fields in place of four. -/
theorem kept_by_json_two_fields :
    let settings : Settings :=
      { providers := [("b", "static"), ("a", "query")], merge := .lastWins }
    let shown : List Field := [.merge, .providers]
    let text := "\x7b\"merge\":\"last_wins\",\"providers\":" ++
      "\x7b\"b\":\"static\",\"a\":\"query\"\x7d\x7d"
    (Json.object (settings.members shown)).text = text ∧ ofJsonText? text = some settings ∧
      ofJson? (.object (settings.members [.merge] ++ [("version", .null)])) = none := by
  intro settings shown text
  have printed : (Json.object (settings.members shown)).text = text := by decide
  obtain ⟨-, -, shows, further, -, -⟩ := kept_by_json settings (by decide) (by decide)
  have omitted (field : Field) : field ∉ shown → settings.HasDefault field := by
    cases field <;> decide
  refine ⟨printed, ?_, further _ [] "version" .null (.inl (by decide))⟩
  rw [← printed]
  exact (shows shown (by decide) omitted).2

end Winnow.Settings
