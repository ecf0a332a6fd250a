import Winnow.Predicate.Evaluation
import Winnow.Proofs.Outcome.FirstFault
import Winnow.Proofs.Predicate.Structure

/-!
# What evaluation depends on

How far a predicate is evaluated depends on the record, but whatever is looked up is one of the
fields of the predicate. So two evaluations are related as the look-ups of these fields are, by any
relation that goes through one step after another: equality, success with one answer, or failure for
the want of a field.
-/

namespace Winnow.Predicate

variable {ρ σ : Type} [Record ρ] [Record σ] {record : ρ} {other : σ} {p : Predicate}

/-- A relation between outcomes that holds of one answer and goes through a further step. -/
structure Sequential (R : Except Fault Bool → Except Fault Bool → Prop) : Prop where
  ok : ∀ answer, R (.ok answer) (.ok answer)
  bind : ∀ {x y : Except Fault Bool} {f g : Bool → Except Fault Bool}, R x y →
    (∀ answer, R (f answer) (g answer)) → R (x >>= f) (y >>= g)

/-- A test of one field has related outcomes, whatever is tested. -/
def LookupsRelated (R : Except Fault Bool → Except Fault Bool → Prop) (record : ρ) (other : σ)
    (field : String) : Prop :=
  ∀ test : Scalar → Bool, R (test <$> lookup record field) (test <$> lookup other field)

section Related

variable {R : Except Fault Bool → Except Fault Bool → Prop} {parts : List Predicate}

theorem evalAll_related (sequential : Sequential R)
    (each : ∀ part ∈ parts, R (part.eval record) (part.eval other)) :
    R (evalAll record parts) (evalAll other parts) := by
  induction parts with
  | nil =>
      rw [evalAll, evalAll]
      exact sequential.ok true
  | cons part rest ih =>
      obtain ⟨first, others⟩ := List.forall_mem_cons.mp each
      rw [evalAll, evalAll]
      refine sequential.bind first fun answer => ?_
      cases answer with
      | true => exact ih others
      | false => exact sequential.ok false

theorem evalAny_related (sequential : Sequential R)
    (each : ∀ part ∈ parts, R (part.eval record) (part.eval other)) :
    R (evalAny record parts) (evalAny other parts) := by
  induction parts with
  | nil =>
      rw [evalAny, evalAny]
      exact sequential.ok false
  | cons part rest ih =>
      obtain ⟨first, others⟩ := List.forall_mem_cons.mp each
      rw [evalAny, evalAny]
      refine sequential.bind first fun answer => ?_
      cases answer with
      | true => exact sequential.ok true
      | false => exact ih others

theorem eval_related (sequential : Sequential R) (p : Predicate)
    (lookups : ∀ field ∈ p.fields, LookupsRelated R record other field) :
    R (p.eval record) (p.eval other) := by
  induction p using Predicate.induction with
  | compare field op operand =>
      exact lookups field (List.mem_singleton_self field) (holds · op operand)
  | bare field => exact lookups field (List.mem_singleton_self field) Scalar.isTruthy
  | group connective parts ih =>
      have each : ∀ part ∈ parts, R (part.eval record) (part.eval other) := by
        intro part member
        refine ih part member fun field inPart => lookups field ?_
        rw [fields_combine]
        exact List.mem_flatMap.mpr ⟨part, member, inPart⟩
      cases connective with
      | any => exact evalAny_related sequential each
      | all => exact evalAll_related sequential each

end Related

/-! The relations. -/

theorem sequential_eq : Sequential Eq where
  ok _ := rfl
  bind same next := by rw [same, funext next]

/-- What the first outcome answers the second answers too. -/
def AnswersKept (x y : Except Fault Bool) : Prop :=
  ∀ answer, x = .ok answer → y = .ok answer

theorem sequential_answersKept : Sequential AnswersKept where
  ok _ _ same := same
  bind kept next answer succeeded := by
    obtain ⟨first, evaluated, rest⟩ := Outcome.bind_eq_ok_iff.mp succeeded
    exact Outcome.bind_eq_ok_iff.mpr ⟨first, kept first evaluated, next first answer rest⟩

/-- Any fault is for the want of one of some fields. -/
def FaultsFrom (Lacks : String → Prop) (x : Except Fault Bool) : Prop :=
  ∀ fault, x = .error fault → ∃ field, Lacks field ∧ fault = .invalidField field

theorem sequential_faultsFrom (Lacks : String → Prop) :
    Sequential fun x _ => FaultsFrom Lacks x where
  ok _ _ failed := nomatch failed
  bind faults next fault failed := by
    rcases Outcome.bind_eq_error_iff.mp failed with early | ⟨first, _, late⟩
    · exact faults fault early
    · exact next first fault late

/-! The look-ups. -/

theorem lookup_eq_of_value?_eq {field : String}
    (same : Record.value? record field = Record.value? other field) :
    lookup record field = lookup other field := by
  rw [lookup, lookup, same]

theorem answersKept_lookup {field : String}
    (kept : ∀ value, Record.value? record field = some value →
      Record.value? other field = some value) :
    LookupsRelated AnswersKept record other field := by
  intro test answer succeeded
  cases found : Record.value? record field with
  | none =>
      rw [lookup, found] at succeeded
      cases succeeded
  | some value =>
      rw [← lookup_eq_of_value?_eq (found.trans (kept value found).symm)]
      exact succeeded

theorem faultsFrom_lookup {fields : List String} {field : String} (listed : field ∈ fields)
    (test : Scalar → Bool) :
    FaultsFrom (fun field => field ∈ fields ∧ Record.value? record field = none)
      (test <$> lookup record field) := by
  intro fault failed
  cases found : Record.value? record field with
  | none =>
      rw [lookup, found] at failed
      cases failed
      exact ⟨field, ⟨listed, found⟩, rfl⟩
  | some value =>
      rw [lookup, found] at failed
      cases failed

theorem exists_field_of_eval_eq_error {fault : Fault} (failed : p.eval record = .error fault) :
    ∃ field, (field ∈ p.fields ∧ Record.value? record field = none) ∧
      fault = .invalidField field := by
  let Lacks (field : String) : Prop := field ∈ p.fields ∧ Record.value? record field = none
  have looked (field : String) (listed : field ∈ p.fields) :
      LookupsRelated (fun x _ => FaultsFrom Lacks x) record record field :=
    faultsFrom_lookup listed
  exact eval_related (sequential_faultsFrom Lacks) p looked fault failed

/-- Two records with the same values for the fields of a predicate are judged alike. A record that
extends another is given every answer that the other is given. Evaluation fails only at a field of
the predicate that the record lacks. -/
theorem eval_depends_on_fields (p : Predicate) (record : ρ) (other : σ) :
    ((∀ field ∈ p.fields, Record.value? record field = Record.value? other field) →
      p.eval record = p.eval other) ∧
    ((∀ field value, Record.value? record field = some value →
        Record.value? other field = some value) →
      ∀ answer, p.eval record = .ok answer → p.eval other = .ok answer) ∧
    (∀ fault, p.eval record = .error fault →
      ∃ field ∈ p.fields, Record.value? record field = none ∧ fault = .invalidField field) ∧
    ((∀ field ∈ p.fields, (Record.value? record field).isSome) →
      ∃ answer, p.eval record = .ok answer) := by
  refine ⟨fun agree => ?_, fun grows => ?_, fun fault failed => ?_, fun present => ?_⟩
  · refine eval_related sequential_eq p fun field listed test => ?_
    rw [lookup_eq_of_value?_eq (agree field listed)]
  · exact eval_related sequential_answersKept p fun field _ => answersKept_lookup (grows field)
  · obtain ⟨field, ⟨listed, absent⟩, same⟩ := exists_field_of_eval_eq_error failed
    exact ⟨field, listed, absent, same⟩
  · cases evaluated : p.eval record with
    | ok answer => exact ⟨answer, rfl⟩
    | error fault =>
        obtain ⟨field, ⟨listed, absent⟩, _⟩ := exists_field_of_eval_eq_error evaluated
        have found := present field listed
        rw [absent] at found
        cases found

/-- A table and a mapping, in which a list reads as null, a mapping with one field more, and one
without the field that is asked for first. -/
theorem eval_depends_on_fields_null :
    let p : Predicate := .disj [.compare "tags" .eq .null, .bare "absent"]
    let table := (∅ : Std.HashMap String Scalar).insert "tags" .null
    let mapping : Mapping := [("tags", .array [.string "a"])]
    let extended : Mapping := [("absent", .bool false), ("tags", .array [])]
    let missing : Mapping := [("absent", .bool true)]
    p.eval table = .ok true ∧ p.eval mapping = .ok true ∧ p.eval extended = .ok true ∧
      (∃ answer, p.eval extended = .ok answer) ∧
      ∃ field ∈ p.fields, Record.value? missing field = none ∧
        Fault.invalidField "tags" = .invalidField field := by
  intro p table mapping extended missing
  have agree : ∀ field ∈ p.fields, Record.value? table field = Record.value? mapping field := by
    intro field listed
    have either : field = "tags" ∨ field = "absent" := by
      simpa [p, fields, partFields] using listed
    rcases either with rfl | rfl
    · exact Std.HashMap.getElem?_insert_self
    · have missing : table["absent"]? = none := by simp [table]
      exact missing
  have grows : ∀ field value, Record.value? mapping field = some value →
      Record.value? extended field = some value := by
    intro field value found
    by_cases tags : field = "tags"
    · rw [tags] at found ⊢
      exact found
    · have absent : Record.value? mapping field = none := by
        simp [Record.value?, mapping, Entries.get?, Ne.symm tags]
      cases absent.symm.trans found
  have present : ∀ field ∈ p.fields, (Record.value? extended field).isSome := by decide +kernel
  have evaluated : p.eval mapping = .ok true := by decide +kernel
  have failed : p.eval missing = .error (.invalidField "tags") := by decide +kernel
  obtain ⟨same, _⟩ := eval_depends_on_fields p table mapping
  obtain ⟨_, keeps, _⟩ := eval_depends_on_fields p mapping extended
  obtain ⟨_, _, _, succeeds⟩ := eval_depends_on_fields p extended extended
  obtain ⟨_, _, fails, _⟩ := eval_depends_on_fields p missing missing
  exact ⟨(same agree).trans evaluated, evaluated, keeps grows true evaluated, succeeds present,
    fails _ failed⟩

end Winnow.Predicate
