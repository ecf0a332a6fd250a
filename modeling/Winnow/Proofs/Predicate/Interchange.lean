import Winnow.Proofs.Predicate.Decision
import Winnow.Proofs.Predicate.Filtering
import Winnow.Proofs.Predicate.Structure

/-!
# Interchangeable predicates

Evaluation stops as soon as the answer is known, so that the order of parts decides which missing
field is a fault. Where no field is missing the order does not matter: predicates that differ in it
alone have one answer, and filter alike.
-/

namespace Winnow.Predicate

section Record

variable {ρ : Type} [Record ρ] {record : ρ} {p q : Predicate} {P : Prop}

/-- A record that has all of the fields is judged without a fault. -/
theorem Decides.holdsOf (record : ρ) (p : Predicate) : Decides record p (p.HoldsOf record) := by
  have of_decides {p : Predicate} {P : Prop} (decides : Decides record p P) :
      Decides record p (p.HoldsOf record) := by
    intro present
    obtain ⟨answer, evaluated, _⟩ := decides present
    exact ⟨answer, evaluated, by simp [HoldsOf, evaluated]⟩
  induction p using Predicate.induction with
  | compare field op operand => exact of_decides (.compare field op operand)
  | bare field => exact of_decides (.bare field)
  | group connective parts ih =>
      have each : List.Forall₂ (fun s part => Decides record part (s.HoldsOf record))
          parts parts := List.forall₂_same.mpr ih
      cases connective with
      | any => exact of_decides (.disj each)
      | all => exact of_decides (.conj each)

theorem Decides.eval_eq (decides : Decides record p P) (decides' : Decides record q P)
    (present : ∀ field ∈ p.fields, (Record.value? record field).isSome)
    (present' : ∀ field ∈ q.fields, (Record.value? record field).isSome) :
    p.eval record = q.eval record := by
  obtain ⟨answer, evaluated, correct⟩ := decides present
  obtain ⟨answer', evaluated', correct'⟩ := decides' present'
  rw [evaluated, evaluated', Bool.eq_iff_iff.mpr (correct.trans correct'.symm)]

end Record

/-- The same fields up to their order, and the same answer on every record that has them all. -/
structure Interchangeable (p q : Predicate) : Prop where
  fields : p.fields.Perm q.fields
  eval : ∀ {ρ : Type} [Record ρ] (record : ρ),
    (∀ field ∈ p.fields, (Record.value? record field).isSome) → p.eval record = q.eval record

theorem fields_joined (parts : List Predicate) : (joined parts).fields = parts.flatMap fields := by
  match parts with
  | [part] => rw [joined, List.flatMap_singleton]
  | [] | first :: second :: rest => exact fields_combine .all _

namespace Interchangeable

variable {p q r : Predicate} {parts parts' : List Predicate}

theorem refl (p : Predicate) : Interchangeable p p :=
  ⟨.refl _, fun _ _ => rfl⟩

theorem present {ρ : Type} [Record ρ] {record : ρ} (same : Interchangeable p q)
    (all : ∀ field ∈ p.fields, (Record.value? record field).isSome) :
    ∀ field ∈ q.fields, (Record.value? record field).isSome :=
  fun field member => all field (same.fields.mem_iff.mpr member)

theorem symm (same : Interchangeable p q) : Interchangeable q p where
  fields := same.fields.symm
  eval record present :=
    (same.eval record fun field member => present field (same.fields.mem_iff.mp member)).symm

theorem trans (first : Interchangeable p q) (second : Interchangeable q r) :
    Interchangeable p r where
  fields := first.fields.trans second.fields
  eval record present :=
    (first.eval record present).trans (second.eval record (first.present present))

theorem decides {ρ : Type} [Record ρ] (same : Interchangeable p q) (record : ρ) :
    Decides record q (p.HoldsOf record) := by
  intro present
  have present' := same.symm.present present
  rw [← same.eval record present']
  exact Decides.holdsOf record p present'

theorem of_decides (fields : p.fields.Perm q.fields)
    (both : ∀ {ρ : Type} [Record ρ] (record : ρ), ∃ P, Decides record p P ∧ Decides record q P) :
    Interchangeable p q := by
  refine ⟨fields, fun record present => ?_⟩
  obtain ⟨P, decides, decides'⟩ := both record
  exact decides.eval_eq decides' present
    fun field member => present field (fields.mem_iff.mpr member)

/-! Groups. -/

theorem forall₂_holdsOf {ρ : Type} [Record ρ] (record : ρ) (parts : List Predicate) :
    List.Forall₂ (fun s part => Decides record part (s.HoldsOf record)) parts parts :=
  List.forall₂_same.mpr fun part _ => Decides.holdsOf record part

theorem combine_perm (connective : Connective) (permuted : parts.Perm parts') :
    Interchangeable (connective.combine parts) (connective.combine parts') := by
  refine of_decides ?_ fun record => ?_
  · rw [fields_combine, fields_combine]
    exact permuted.flatMap_right _
  · cases connective with
    | any =>
        refine ⟨_, .disj (forall₂_holdsOf record parts), ?_⟩
        refine (Decides.disj (forall₂_holdsOf record parts')).congr ?_
        simp only [permuted.mem_iff]
    | all =>
        refine ⟨_, .conj (forall₂_holdsOf record parts), ?_⟩
        refine (Decides.conj (forall₂_holdsOf record parts')).congr ?_
        simp only [permuted.mem_iff]

theorem joined_perm (permuted : parts.Perm parts') :
    Interchangeable (joined parts) (joined parts') := by
  refine of_decides ?_ fun record => ⟨_, .joined (forall₂_holdsOf record parts), ?_⟩
  · rw [fields_joined, fields_joined]
    exact permuted.flatMap_right _
  · refine (Decides.joined (forall₂_holdsOf record parts')).congr ?_
    simp only [permuted.mem_iff]

/-- Where a field is missing the order matters. -/
example :
    let f : Predicate := .compare "f" .eq (.int 1)
    let g : Predicate := .compare "g" .eq (.int 1)
    let record : Mapping := [("f", .number (.int 0))]
    (joined [f, g]).eval record = .ok false ∧
      (joined [g, f]).eval record = .error (.invalidField "g") := by
  decide +kernel

theorem fields_of_forall₂ (each : List.Forall₂ Interchangeable parts parts') :
    (parts.flatMap Predicate.fields).Perm (parts'.flatMap Predicate.fields) := by
  induction each with
  | nil => exact .refl _
  | cons head _ ih =>
      rw [List.flatMap_cons, List.flatMap_cons]
      exact head.fields.append ih

theorem joined_congr (each : List.Forall₂ Interchangeable parts parts') :
    Interchangeable (joined parts) (joined parts') := by
  refine of_decides ?_ fun record => ⟨_, .joined (forall₂_holdsOf record parts), ?_⟩
  · rw [fields_joined, fields_joined]
    exact fields_of_forall₂ each
  · exact .joined (each.imp fun _ _ same => same.decides record)

/-! Records that have all of the fields. -/

section Present

variable {ρ : Type} [Record ρ]

theorem exists_eval {record : ρ} (same : Interchangeable p q)
    (present : ∀ field ∈ p.fields, (Record.value? record field).isSome) :
    ∃ answer, p.eval record = .ok answer ∧ q.eval record = .ok answer := by
  obtain ⟨answer, evaluated, _⟩ := Decides.holdsOf record p present
  exact ⟨answer, evaluated, same.eval record present ▸ evaluated⟩

theorem exists_filter {records : List ρ} (same : Interchangeable p q)
    (present : ∀ record ∈ records, ∀ field ∈ p.fields, (Record.value? record field).isSome) :
    ∃ found, p.filter records = .ok found ∧ q.filter records = .ok found := by
  have evaluated (record : ρ) (member : record ∈ records) :=
    same.exists_eval (present record member)
  refine ⟨_, filter_eq_ok_iff.mpr ⟨fun record member => ?_, rfl⟩,
    filter_eq_ok_iff.mpr ⟨fun record member => ?_, ?_⟩⟩
  · obtain ⟨answer, first, _⟩ := evaluated record member
    exact ⟨answer, first⟩
  · obtain ⟨answer, _, second⟩ := evaluated record member
    exact ⟨answer, second⟩
  · refine List.filter_congr fun record member => decide_eq_decide.mpr ?_
    rw [HoldsOf, HoldsOf, same.eval record (present record member)]

end Present

end Interchangeable

end Winnow.Predicate
