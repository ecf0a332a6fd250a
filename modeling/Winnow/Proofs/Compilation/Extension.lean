import Winnow.Proofs.Entries.Extension
import Winnow.Proofs.Coercion.Reading
import Winnow.Proofs.Grammar.Reading
import Winnow.Proofs.Compilation.Tree
import Winnow.Proofs.Predicate.Filtering
import Winnow.Proofs.Predicate.Structure

/-!
# Extending a demand

The entries of a demand are read and compiled one by one, so what a demand emits is what its parts
emit, one behind the other. A demand that is extended by another without a common key filters as
the first one and then the second do.
-/

namespace Winnow

/-- What an entry of a raw demand emits, once it is coerced and read. -/
def EntryEmits (policy : UnknownOperatorPolicy) (aliases : TableAliases) (entry : String × Json)
    (part : Predicate) : Prop :=
  ∃ read, Demand.readEntry (entry.1, coerceNode entry.2) = .ok read ∧
    NodeEmits policy aliases read.2 part

namespace Compiler

variable {compiler : Compiler} {aliases : TableAliases}

theorem tree?_eq_ok_iff_entries {raw : Mapping} {tree : Predicate} :
    compiler.tree? aliases raw = .ok tree ↔
      ∃ parts, List.Forall₂ (EntryEmits compiler.unknownOperator aliases) raw parts ∧
        joined parts = tree := by
  have entries (parts : List Predicate) :
      List.Forall₂ (EntryEmits compiler.unknownOperator aliases) raw parts ↔
        ∃ entries, (coerceDemand raw).mapM Demand.readEntry = .ok entries ∧
          List.Forall₂ (fun entry part => NodeEmits compiler.unknownOperator aliases entry.2 part)
            entries parts := by
    rw [coerceDemand_eq, Entries.mapValues, List.mapM_map]
    simp only [Outcome.mapM_eq_ok_iff, exists_forall₂_comp_iff]
    rfl
  simp only [tree?_eq_ok_iff, Demand.read_eq_ok_iff_mapM, entries]
  constructor
  · rintro ⟨demand, read, parts, emits, same⟩
    exact ⟨parts, ⟨demand.entries, read, emits⟩, same⟩
  · rintro ⟨parts, ⟨entries, read, emits⟩, same⟩
    exact ⟨⟨entries⟩, read, parts, emits, same⟩

theorem tree?_append_eq_ok_iff {first second : Mapping} {tree : Predicate} :
    compiler.tree? aliases (first ++ second) = .ok tree ↔
      ∃ parts parts',
        List.Forall₂ (EntryEmits compiler.unknownOperator aliases) first parts ∧
          List.Forall₂ (EntryEmits compiler.unknownOperator aliases) second parts' ∧
            joined (parts ++ parts') = tree := by
  simp only [tree?_eq_ok_iff_entries, forall₂_append_left_iff]
  constructor
  · intro ⟨_, ⟨parts, parts', emits, emits', split⟩, same⟩
    exact ⟨parts, parts', emits, emits', split ▸ same⟩
  · intro ⟨parts, parts', emits, emits', same⟩
    exact ⟨parts ++ parts', ⟨parts, parts', emits, emits', rfl⟩, same⟩

theorem exists_tree?_append_iff {first second : Mapping} :
    (∃ tree, compiler.tree? aliases (first ++ second) = .ok tree) ↔
      (∃ tree, compiler.tree? aliases first = .ok tree) ∧
        ∃ tree, compiler.tree? aliases second = .ok tree := by
  constructor
  · intro ⟨tree, compiled⟩
    obtain ⟨parts, parts', emits, emits', _⟩ := tree?_append_eq_ok_iff.mp compiled
    exact ⟨⟨_, tree?_eq_ok_iff_entries.mpr ⟨parts, emits, rfl⟩⟩,
      ⟨_, tree?_eq_ok_iff_entries.mpr ⟨parts', emits', rfl⟩⟩⟩
  · intro ⟨⟨_, compiled⟩, ⟨_, compiled'⟩⟩
    obtain ⟨parts, emits, _⟩ := tree?_eq_ok_iff_entries.mp compiled
    obtain ⟨parts', emits', _⟩ := tree?_eq_ok_iff_entries.mp compiled'
    exact ⟨_, tree?_append_eq_ok_iff.mpr ⟨parts, parts', emits, emits', rfl⟩⟩

end Compiler

/-! Evaluation. -/

namespace Predicate

variable {ρ : Type} [Record ρ] (record : ρ)

theorem evalAll_append (parts parts' : List Predicate) :
    evalAll record (parts ++ parts') =
      match evalAll record parts with
      | .ok true => evalAll record parts'
      | answer => answer := by
  induction parts with
  | nil => rw [List.nil_append, evalAll]; rfl
  | cons part rest ih =>
      rw [List.cons_append, evalAll, evalAll, ih]
      cases part.eval record with
      | error fault => rfl
      | ok answer => cases answer <;> rfl

/-- A single part is evaluated as a conjunction of it would be. -/
theorem eval_joined (parts : List Predicate) :
    (joined parts).eval record = evalAll record parts := by
  match parts with
  | [] => rfl
  | first :: second :: rest => rfl
  | [part] => exact (eval_single record .all part).symm

theorem eval_joined_append (parts parts' : List Predicate) :
    (joined (parts ++ parts')).eval record =
      (joined parts).evalThen (joined parts') record := by
  rw [evalThen, eval_joined, eval_joined, eval_joined]
  exact evalAll_append record parts parts'

end Predicate

/-- A demand that is extended by one with other keys compiles if and only if both do. A record is
judged by the first, and by the second if it passes; records are filtered by one after the
other. -/
theorem Compiler.tree?_extend (compiler : Compiler) (aliases : TableAliases)
    {first second : Mapping} (distinct : second.Distinct)
    (disjoint : List.Disjoint first.keys second.keys) :
    ((∃ tree, compiler.tree? aliases (first.extend second) = .ok tree) ↔
      (∃ tree, compiler.tree? aliases first = .ok tree) ∧
        ∃ tree, compiler.tree? aliases second = .ok tree) ∧
    ∀ tree firstTree secondTree,
      compiler.tree? aliases (first.extend second) = .ok tree →
      compiler.tree? aliases first = .ok firstTree →
      compiler.tree? aliases second = .ok secondTree →
      ∀ {ρ : Type} [Record ρ],
        (∀ record : ρ, tree.eval record =
          match firstTree.eval record with
          | .ok true => secondTree.eval record
          | answer => answer) ∧
        ∀ records found : List ρ,
          (tree.filter records = .ok found ↔
            ∃ kept, firstTree.filter records = .ok kept ∧ secondTree.filter kept = .ok found) ∧
          (tree.filter records = .ok found → found.Sublist records) := by
  rw [Entries.extend_eq_append distinct disjoint]
  refine ⟨exists_tree?_append_iff, ?_⟩
  intro tree firstTree secondTree compiled compiledFirst compiledSecond ρ _
  obtain ⟨parts, emits, same⟩ := tree?_eq_ok_iff_entries.mp compiledFirst
  obtain ⟨parts', emits', same'⟩ := tree?_eq_ok_iff_entries.mp compiledSecond
  have both : compiler.tree? aliases (first ++ second) = .ok (joined (parts ++ parts')) :=
    tree?_append_eq_ok_iff.mpr ⟨parts, parts', emits, emits', rfl⟩
  have whole : tree = joined (parts ++ parts') := Except.ok.inj (compiled.symm.trans both)
  have sequenced (record : ρ) : tree.eval record = firstTree.evalThen secondTree record := by
    rw [whole, ← same, ← same', Predicate.eval_joined_append]
  refine ⟨sequenced, fun records found => ⟨?_, Predicate.filter_sublist⟩⟩
  exact Predicate.filter_eq_ok_iff_of_evalThen sequenced

/-- A record without the field of the second demand is no fault where the first demand drops it. -/
theorem Compiler.tree?_extend_missing_field :
    let first : Mapping := [("t-f", .object [("operator", .string "GT"), ("value", .string "1")])]
    let second : Mapping := [("t-g", .object [("operator", .string "EQ"), ("value", .null)])]
    let kept : Mapping := [("f", .number (.int 5)), ("g", .null)]
    let dropped : Mapping := [("f", .number (.int 0))]
    List.Disjoint first.keys second.keys ∧
      ∃ tree, tree? ⟨.reject⟩ [] (first.extend second) = .ok tree ∧
        tree.filter [dropped, kept] = .ok [kept] := by
  intro first second kept dropped
  have disjoint : List.Disjoint first.keys second.keys := by simp [first, second]
  have compiledFirst : tree? ⟨.reject⟩ [] first = .ok (.compare "f" .gt (.int 1)) := by
    decide +kernel
  have compiledSecond : tree? ⟨.reject⟩ [] second = .ok (.compare "g" .eq .null) := by
    decide +kernel
  obtain ⟨succeeds, agrees⟩ := tree?_extend ⟨.reject⟩ [] (by decide) disjoint
  obtain ⟨tree, compiled⟩ := succeeds.mpr ⟨⟨_, compiledFirst⟩, ⟨_, compiledSecond⟩⟩
  have filters := (agrees tree _ _ compiled compiledFirst compiledSecond (ρ := Mapping)).2
  refine ⟨disjoint, tree, compiled, (filters [dropped, kept] [kept]).1.mpr ⟨[kept], ?_, ?_⟩⟩
  · decide +kernel
  · decide +kernel

end Winnow
