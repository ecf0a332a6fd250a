import Winnow.Predicate.Evaluation
import Winnow.Proofs.Compilation.Tree

/-!
# The structure of predicates

A predicate compares a field, asks for one, or joins parts by a connective, and a property that
passes from the parts to the group holds of every predicate. A group of one part means what the part
means, so that `Predicate.unwrap` puts the part in place of the group.
-/

namespace Winnow.Predicate

@[elab_as_elim] theorem induction {motive : Predicate → Prop}
    (compare : ∀ field op operand, motive (.compare field op operand))
    (bare : ∀ field, motive (.bare field))
    (group : ∀ (connective : Connective) (parts : List Predicate),
      (∀ part ∈ parts, motive part) → motive (connective.combine parts))
    (p : Predicate) : motive p := by
  refine @Predicate.rec motive (fun parts => ∀ part ∈ parts, motive part) compare bare
    (group .all) (group .any) ?_ ?_ p
  · exact List.forall_mem_nil _
  · exact fun _ _ first others => List.forall_mem_cons.mpr ⟨first, others⟩

theorem fields_combine (connective : Connective) (parts : List Predicate) :
    (connective.combine parts).fields = parts.flatMap fields := by
  rw [← partFields_eq]
  cases connective <;> rfl

mutual

/-- Puts the part of each group of one in place of the group. -/
def unwrap : Predicate → Predicate
  | .conj [part] => unwrap part
  | .disj [part] => unwrap part
  | .conj parts => .conj (unwrapParts parts)
  | .disj parts => .disj (unwrapParts parts)
  | p => p

def unwrapParts : List Predicate → List Predicate
  | [] => []
  | part :: rest => unwrap part :: unwrapParts rest

end

theorem unwrapParts_eq (parts : List Predicate) : unwrapParts parts = parts.map unwrap := by
  induction parts with
  | nil => rfl
  | cons part rest ih => rw [unwrapParts, List.map_cons, ih]

theorem unwrap_empty (connective : Connective) :
    (connective.combine []).unwrap = connective.combine [] := by
  cases connective <;> rfl

theorem unwrap_single (connective : Connective) (part : Predicate) :
    (connective.combine [part]).unwrap = part.unwrap := by
  cases connective <;> rfl

theorem unwrap_several (connective : Connective) (first second : Predicate)
    (rest : List Predicate) :
    (connective.combine (first :: second :: rest)).unwrap =
      connective.combine (first.unwrap :: second.unwrap :: rest.map unwrap) := by
  rw [← unwrapParts_eq]
  cases connective <;> rfl

section Evaluation

variable {ρ : Type} [Record ρ] (record : ρ)

theorem eval_single (connective : Connective) (part : Predicate) :
    (connective.combine [part]).eval record = part.eval record := by
  cases connective with
  | any =>
      rw [Connective.combine, eval, evalAny, evalAny]
      cases part.eval record with
      | error fault => rfl
      | ok answer => cases answer <;> rfl
  | all =>
      rw [Connective.combine, eval, evalAll, evalAll]
      cases part.eval record with
      | error fault => rfl
      | ok answer => cases answer <;> rfl

variable {record}

theorem evalAll_map {f : Predicate → Predicate} {parts : List Predicate}
    (each : ∀ part ∈ parts, (f part).eval record = part.eval record) :
    evalAll record (parts.map f) = evalAll record parts := by
  induction parts with
  | nil => rfl
  | cons part rest ih =>
      obtain ⟨first, others⟩ := List.forall_mem_cons.mp each
      rw [List.map_cons, evalAll, evalAll, first, ih others]

theorem evalAny_map {f : Predicate → Predicate} {parts : List Predicate}
    (each : ∀ part ∈ parts, (f part).eval record = part.eval record) :
    evalAny record (parts.map f) = evalAny record parts := by
  induction parts with
  | nil => rfl
  | cons part rest ih =>
      obtain ⟨first, others⟩ := List.forall_mem_cons.mp each
      rw [List.map_cons, evalAny, evalAny, first, ih others]

theorem eval_combine_map (connective : Connective) {f : Predicate → Predicate}
    {parts : List Predicate} (each : ∀ part ∈ parts, (f part).eval record = part.eval record) :
    (connective.combine (parts.map f)).eval record = (connective.combine parts).eval record := by
  cases connective with
  | any => exact evalAny_map each
  | all => exact evalAll_map each

theorem eval_unwrap (p : Predicate) : p.unwrap.eval record = p.eval record := by
  induction p using Predicate.induction with
  | compare field op operand => rfl
  | bare field => rfl
  | group connective parts ih =>
      match parts, ih with
      | [], _ => rw [unwrap_empty]
      | [part], ih => rw [unwrap_single, eval_single, ih part List.mem_cons_self]
      | first :: second :: rest, ih =>
          rw [unwrap_several]
          exact eval_combine_map connective ih

end Evaluation

end Winnow.Predicate
