import Winnow.Proofs.Grammar.Operator
import Winnow.Proofs.Outcome.FirstFault

/-!
# Faults of demands

Why an entry of a demand cannot be read. Each relation gives the faults of one level, with their
places, beside the relation of the grammar that says what the level accepts; the fault of a list is
that of the first item that is not accepted.
-/

namespace Winnow

/-! Keys. -/

/-- What keeps a key from being a field alias. An empty table is found before an empty field. -/
inductive KeyFlaw (key : String) : AliasFlaw → Prop
  | noSeparator {only} (spelled : segments key = [only]) : KeyFlaw key .noSeparator
  | emptyTable {field rest} (spelled : segments key = [] :: field :: rest) : KeyFlaw key .emptyTable
  | emptyField {table rest} (spelled : segments key = table :: [] :: rest) (named : table ≠ []) :
      KeyFlaw key .emptyField

theorem FieldAlias.ofChars_eq_error_iff {key : String} {flaw : AliasFlaw} :
    ofChars key.toList = .error flaw ↔ KeyFlaw key flaw := by
  rw [ofChars]
  cases after : afterSegment? key.toList with
  | none =>
      have single := segments_of_afterSegment?_eq_none after
      constructor
      · intro same
        cases same
        exact .noSeparator single
      · intro flawed
        cases flawed with
        | noSeparator => rfl
        | emptyTable spelled => simp [single] at spelled
        | emptyField spelled => simp [single] at spelled
  | some rest =>
      obtain ⟨others, several⟩ := segments_of_afterSegment?_eq_some after
      simp only [List.isEmpty_iff]
      constructor
      · intro same
        split at same
        · next empty =>
          cases same
          exact .emptyTable (empty ▸ several)
        · next named =>
          split at same
          · next empty =>
            cases same
            exact .emptyField (empty ▸ several) named
          · cases same
      · intro flawed
        cases flawed with
        | noSeparator spelled => simp [several] at spelled
        | emptyTable spelled =>
            obtain ⟨empty, _⟩ := List.cons.inj (several.symm.trans spelled)
            rw [if_pos empty]
        | emptyField spelled named =>
            obtain ⟨table, rest⟩ := List.cons.inj (several.symm.trans spelled)
            obtain ⟨empty, _⟩ := List.cons.inj rest
            rw [if_neg (table ▸ named), if_pos empty]

theorem FieldAlias.read_eq_error_iff {key : String} {fault : Fault} :
    read key = .error fault ↔ ∃ flaw, KeyFlaw key flaw ∧ fault = .malformedAlias key flaw := by
  simp only [read, ← ofChars_eq_error_iff]
  cases ofChars key.toList with
  | error flaw => simp [Except.mapError, eq_comm]
  | ok target => simp [Except.mapError]

theorem Connective.ofKey_eq_error_iff {key : String} {fault : Fault} :
    ofKey key = .error fault ↔
      (∀ connective, ¬ Connects key connective) ∧ fault = .missingGroup key := by
  simp only [← ofKey_eq_ok_iff]
  rw [ofKey]
  split
  · simp
  · split <;> simp [eq_comm]

/-! Operands and restrictions. -/

/-- What keeps a value from being an operand: it is an object, or an array with a nested value. -/
inductive OperandMisfit : Json → Misfit → Prop
  | object {members} : OperandMisfit (.object members) .notOperand
  | nested {items item} (member : item ∈ items) (nested : ¬ item.IsScalar) :
      OperandMisfit (.array items) .nestedOperand

theorem Operand.read_array_eq_error_iff {place : Place} {items : List Json} {fault : Fault} :
    read place (.array items) = .error fault ↔
      (∃ item ∈ items, ¬ item.IsScalar) ∧ fault = .malformedDemand place .nestedOperand := by
  have fails {fault : Fault} (failed : read place (.array items) = .error fault) :
      (∃ item ∈ items, ¬ item.IsScalar) ∧ fault = .malformedDemand place .nestedOperand := by
    have failed := Outcome.mapM_eq_error_iff.mp (Outcome.map_eq_error_iff.mp failed)
    obtain ⟨before, item, after, split, _, failed⟩ := failed
    cases found : Scalar.ofJson? item with
    | some value => rw [found] at failed; cases failed
    | none =>
        rw [found] at failed
        cases failed
        have nested : ¬ item.IsScalar := by simp [Json.isScalar_iff, found]
        exact ⟨⟨item, by simp [split], nested⟩, rfl⟩
  refine ⟨fails, ?_⟩
  rintro ⟨⟨item, member, nested⟩, same⟩
  cases outcome : read place (.array items) with
  | error other => rw [(fails outcome).2, same]
  | ok operand =>
      have accepted := Json.isOperand_iff.mpr ⟨operand, read_eq_ok_iff.mp outcome⟩
      rcases accepted with scalar | ⟨_, ⟨⟩, scalars⟩
      · exact scalar.elim
      · exact absurd (scalars item member) nested

theorem Operand.read_eq_error_iff {place : Place} {json : Json} {fault : Fault} :
    read place json = .error fault ↔
      ∃ misfit, OperandMisfit json misfit ∧ fault = .malformedDemand place misfit := by
  cases json with
  | array items =>
      rw [read_array_eq_error_iff]
      constructor
      · intro ⟨⟨item, member, nested⟩, same⟩
        exact ⟨_, .nested member nested, same⟩
      · intro ⟨misfit, unfit, same⟩
        cases unfit with
        | nested member nested => exact ⟨⟨_, member, nested⟩, same⟩
  | object members =>
      constructor
      · intro failed
        cases failed
        exact ⟨_, .object, rfl⟩
      · intro ⟨misfit, unfit, same⟩
        cases unfit with
        | object => rw [same]; rfl
  | number n =>
      refine ⟨fun impossible => ?_, fun ⟨misfit, unfit, _⟩ => (by cases unfit)⟩
      cases n <;> cases impossible
  | null | bool _ | string _ =>
      exact ⟨fun impossible => (by cases impossible), fun ⟨misfit, unfit, _⟩ => (by cases unfit)⟩

/-- Why an object is no restriction. The operator is asked for before the operand. -/
inductive RestrictionFault (place : Place) (members : Mapping) : Fault → Prop
  | operator (absent : RestrictionKey.operator.name ∉ members.keys) :
      RestrictionFault place members (.missingKey place .operator)
  | value (operator : RestrictionKey.operator.name ∈ members.keys)
      (absent : RestrictionKey.value.name ∉ members.keys) :
      RestrictionFault place members (.missingKey place .value)
  | operand {json misfit} (operator : RestrictionKey.operator.name ∈ members.keys)
      (value : members.get? RestrictionKey.value.name = some json)
      (unfit : OperandMisfit json misfit) :
      RestrictionFault place members (.malformedDemand place misfit)

theorem Restriction.require_eq_error_iff {place : Place} {members : Mapping} {key : RestrictionKey}
    {fault : Fault} :
    require place members key = .error fault ↔
      key.name ∉ members.keys ∧ fault = .missingKey place key := by
  rw [require, ← Entries.get?_eq_none_iff]
  cases members.get? key.name <;> simp [eq_comm]

theorem Restriction.read_eq_error_iff {place : Place} {members : Mapping} {fault : Fault} :
    read place members = .error fault ↔ RestrictionFault place members fault := by
  simp only [read, Outcome.bind_eq_error_iff, require_eq_error_iff, Operand.read_eq_error_iff,
    require_eq_ok_iff]
  constructor
  · rintro (⟨absent, rfl⟩ | ⟨tag, operator, ⟨absent, rfl⟩ | ⟨json, value, read⟩⟩)
    · exact .operator absent
    · exact .value (Entries.mem_keys_iff.mpr ⟨tag, operator⟩) absent
    · rcases read with ⟨misfit, unfit, rfl⟩ | ⟨_, _, impossible⟩
      · exact .operand (Entries.mem_keys_iff.mpr ⟨tag, operator⟩) value unfit
      · cases impossible
  · intro faulted
    cases faulted with
    | operator absent => exact .inl ⟨absent, rfl⟩
    | value operator absent =>
        obtain ⟨tag, operator⟩ := Entries.mem_keys_iff.mp operator
        exact .inr ⟨tag, operator, .inl ⟨absent, rfl⟩⟩
    | operand operator value unfit =>
        obtain ⟨tag, operator⟩ := Entries.mem_keys_iff.mp operator
        exact .inr ⟨tag, operator, .inr ⟨_, value, .inl ⟨_, unfit, rfl⟩⟩⟩

theorem expectMapping_eq_error_iff {place : Place} {json : Json} {fault : Fault} :
    expectMapping place json = .error fault ↔
      json.mapping? = none ∧ fault = .malformedDemand place (.notMapping json.kind) := by
  cases json <;> simp [expectMapping, Json.mapping?, eq_comm]

/-- Why what stands at a place is no restriction. -/
inductive ListedFault (place : Place) : Json → Fault → Prop
  | notMapping {json} (other : json.mapping? = none) :
      ListedFault place json (.malformedDemand place (.notMapping json.kind))
  | mapping {members : Mapping} {fault : Fault} (faulted : RestrictionFault place members fault) :
      ListedFault place (.object members) fault

theorem Restriction.read_expectMapping_eq_error_iff {place : Place} {json : Json} {fault : Fault} :
    (expectMapping place json >>= read place) = .error fault ↔ ListedFault place json fault := by
  simp only [Outcome.bind_eq_error_iff, expectMapping_eq_error_iff, expectMapping_eq_ok_iff,
    read_eq_error_iff]
  constructor
  · rintro (⟨other, rfl⟩ | ⟨members, rfl, faulted⟩)
    · exact .notMapping other
    · exact .mapping faulted
  · intro faulted
    cases faulted with
    | notMapping other => exact .inl ⟨other, rfl⟩
    | mapping faulted => exact .inr ⟨_, rfl, faulted⟩

/-! Groups. -/

/-- Why the restrictions of a member cannot be read. Those of an array have their positions in their
places. -/
inductive RestrictionsFault (group key : String) : Json → Fault → Prop
  | single {members : Mapping} {fault : Fault}
      (faulted : RestrictionFault (.member group key) members fault) :
      RestrictionsFault group key (.object members) fault
  | listed {items : List Json} {fault : Fault}
      (first : FirstFault (fun item => ∃ restriction, RestrictionReads item.1 restriction)
        (fun item => ListedFault (.listed group key item.2) item.1) items.zipIdx fault) :
      RestrictionsFault group key (.array items) fault
  | scalar {json : Json} (scalar : json.IsScalar) :
      RestrictionsFault group key json (.malformedDemand (.member group key) .notRestriction)

theorem Restriction.readMany_eq_error_iff {group key : String} {json : Json} {fault : Fault} :
    readMany group key json = .error fault ↔ RestrictionsFault group key json fault := by
  cases json with
  | object members =>
      have single : readMany group key (.object members) = .error fault ↔
          RestrictionFault (.member group key) members fault := by
        simp [readMany, Outcome.bind_eq_error_iff, read_eq_error_iff, pure, Except.pure]
      rw [single]
      constructor
      · exact .single
      · intro faulted
        cases faulted with
        | single faulted => exact faulted
        | scalar scalar => exact scalar.elim
  | array items =>
      have listed : readMany group key (.array items) = .error fault ↔
          FirstFault (fun item => ∃ restriction, RestrictionReads item.1 restriction)
            (fun item => ListedFault (.listed group key item.2) item.1) items.zipIdx fault := by
        rw [readMany, Outcome.mapM_eq_error_iff]
        simp only [read_expectMapping_eq_ok_iff, read_expectMapping_eq_error_iff]
      rw [listed]
      constructor
      · exact .listed
      · intro faulted
        cases faulted with
        | listed first => exact first
        | scalar scalar => exact scalar.elim
  | _ =>
      constructor
      · intro failed
        cases failed
        exact .scalar trivial
      · intro faulted
        cases faulted
        rfl

/-- Why a member of a group cannot be read. Its key is read before its restrictions. -/
inductive MemberFault (group : String) (entry : String × Json) : Fault → Prop
  | key {flaw : AliasFlaw} (flawed : KeyFlaw entry.1 flaw) :
      MemberFault group entry (.malformedAlias entry.1 flaw)
  | restrictions {target : FieldAlias} {fault : Fault} (spelled : Spells entry.1 target)
      (faulted : RestrictionsFault group entry.1 entry.2 fault) : MemberFault group entry fault

theorem Node.readMember_eq_error_iff {group : String} {entry : String × Json} {fault : Fault} :
    readMember group entry = .error fault ↔ MemberFault group entry fault := by
  simp only [readMember, Outcome.bind_eq_error_iff, FieldAlias.read_eq_error_iff,
    FieldAlias.read_eq_ok_iff, Restriction.readMany_eq_error_iff]
  constructor
  · rintro (⟨flaw, flawed, rfl⟩ | ⟨target, spelled, faulted | ⟨_, _, impossible⟩⟩)
    · exact .key flawed
    · exact .restrictions spelled faulted
    · cases impossible
  · intro faulted
    cases faulted with
    | key flawed => exact .inl ⟨_, flawed, rfl⟩
    | restrictions spelled faulted => exact .inr ⟨_, spelled, .inl faulted⟩

/-! Entries. -/

/-- Why an entry cannot be read. The key of a leaf is read before its restriction, and the
connective of a group before its members. -/
inductive EntryFault : String × Json → Fault → Prop
  | notMapping {key : String} {json : Json} (other : json.mapping? = none) :
      EntryFault (key, json) (.malformedDemand (.entry key) (.notMapping json.kind))
  | leafKey {key : String} {members : Mapping} {flaw : AliasFlaw}
      (operator : RestrictionKey.operator.name ∈ members.keys) (flawed : KeyFlaw key flaw) :
      EntryFault (key, .object members) (.malformedAlias key flaw)
  | leafRestriction {key : String} {members : Mapping} {target : FieldAlias} {fault : Fault}
      (operator : RestrictionKey.operator.name ∈ members.keys) (spelled : Spells key target)
      (faulted : RestrictionFault (.entry key) members fault) :
      EntryFault (key, .object members) fault
  | connective {key : String} {members : Mapping}
      (operator : RestrictionKey.operator.name ∉ members.keys)
      (other : ∀ connective, ¬ Connects key connective) :
      EntryFault (key, .object members) (.missingGroup key)
  | member {key : String} {connective : Connective} {members : Mapping} {fault : Fault}
      (operator : RestrictionKey.operator.name ∉ members.keys) (connects : Connects key connective)
      (first : FirstFault (fun entry => ∃ member, MemberReads entry member) (MemberFault key)
        members fault) :
      EntryFault (key, .object members) fault

theorem Node.readGroup_eq_error_iff {key : String} {members : Mapping} {fault : Fault} :
    readGroup key members = .error fault ↔
      ((∀ connective, ¬ Connects key connective) ∧ fault = .missingGroup key) ∨
        ∃ connective, Connects key connective ∧
          FirstFault (fun entry => ∃ member, MemberReads entry member) (MemberFault key) members
            fault := by
  simp only [readGroup, Outcome.bind_eq_error_iff, Connective.ofKey_eq_error_iff,
    Connective.ofKey_eq_ok_iff, Outcome.mapM_eq_error_iff, readMember_eq_ok_iff,
    readMember_eq_error_iff]
  simp [pure, Except.pure]

/-- Reading an entry fails as the grammar says, and with the same fault. -/
theorem Node.read_eq_error_iff {key : String} {json : Json} {fault : Fault} :
    read key json = .error fault ↔ EntryFault (key, json) fault := by
  simp only [read, Outcome.bind_eq_error_iff, expectMapping_eq_error_iff, expectMapping_eq_ok_iff,
    Entries.isSome_get?_iff]
  constructor
  · rintro (⟨other, rfl⟩ | ⟨members, rfl, failed⟩)
    · exact .notMapping other
    · split at failed
      · next operator =>
        simp only [Outcome.bind_eq_error_iff, FieldAlias.read_eq_error_iff,
          FieldAlias.read_eq_ok_iff, Restriction.read_eq_error_iff] at failed
        rcases failed with ⟨flaw, flawed, rfl⟩ | ⟨target, spelled, faulted | ⟨_, _, impossible⟩⟩
        · exact .leafKey operator flawed
        · exact .leafRestriction operator spelled faulted
        · cases impossible
      · next operator =>
        rcases readGroup_eq_error_iff.mp failed with ⟨other, rfl⟩ | ⟨connective, connects, first⟩
        · exact .connective operator other
        · exact .member operator connects first
  · intro faulted
    cases faulted with
    | notMapping other => exact .inl ⟨other, rfl⟩
    | leafKey operator flawed =>
        refine .inr ⟨_, rfl, ?_⟩
        rw [if_pos operator]
        have unread := FieldAlias.read_eq_error_iff.mpr ⟨_, flawed, rfl⟩
        exact Outcome.bind_eq_error_iff.mpr (.inl unread)
    | leafRestriction operator spelled faulted =>
        refine .inr ⟨_, rfl, ?_⟩
        rw [if_pos operator, FieldAlias.read_eq_ok_iff.mpr spelled, Outcome.ok_bind,
          Restriction.read_eq_error_iff.mpr faulted]
        rfl
    | connective operator other =>
        refine .inr ⟨_, rfl, ?_⟩
        rw [if_neg operator]
        exact readGroup_eq_error_iff.mpr (.inl ⟨other, rfl⟩)
    | member operator connects first =>
        refine .inr ⟨_, rfl, ?_⟩
        rw [if_neg operator]
        exact readGroup_eq_error_iff.mpr (.inr ⟨_, connects, first⟩)

theorem Demand.readEntry_eq_error_iff {entry : String × Json} {fault : Fault} :
    readEntry entry = .error fault ↔ EntryFault entry fault := by
  simp [readEntry, Outcome.bind_eq_error_iff, Node.read_eq_error_iff, pure, Except.pure]

/-- The first entry that cannot be read gives the fault of a demand. -/
theorem Demand.read_eq_error_iff {demand : Mapping} {fault : Fault} :
    read demand = .error fault ↔
      FirstFault (fun entry => ∃ node, NodeReads entry node) EntryFault demand fault := by
  simp only [read, Outcome.bind_eq_error_iff, Outcome.mapM_eq_error_iff, exists_readEntry_iff,
    readEntry_eq_error_iff]
  simp [pure, Except.pure]

end Winnow
