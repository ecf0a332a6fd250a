import Winnow.Proofs.Effects
import Winnow.Proofs.Source.Collection

/-!
# Nested collectors

A collector may be a provider of another one. If both combine demands in the same way, the providers
of the inner collector may as well stand in its place: they are asked in the same order, and what
they give is combined to the same demand.
-/

namespace Winnow

/-! Combining. -/

theorem MergePolicy.extend_foldl_combine_merge (collected : Mapping) {given : Mapping}
    (distinct : given.Distinct) (demands : List Mapping) :
    collected.extend (demands.foldl (combine .merge) given) =
      demands.foldl (combine .merge) (collected.extend given) := by
  induction demands generalizing given with
  | nil => rfl
  | cons demand demands ih =>
      rw [List.foldl_cons, List.foldl_cons, combine, combine, ih (distinct.extend demand),
        Entries.extend_extend collected distinct]

/-- Demands are combined to one demand in the place of all of them. If the last one is to win, there
has to be one. -/
theorem MergePolicy.combine_combineAll {policy : MergePolicy} {demands : List Mapping}
    (given : policy = .lastWins → demands ≠ []) (collected : Mapping) :
    policy.combine collected (policy.combineAll demands) =
      demands.foldl policy.combine collected := by
  cases policy with
  | merge =>
      have distinct : Entries.Distinct ([] : Mapping) := List.nodup_nil
      exact extend_foldl_combine_merge collected distinct demands
  | lastWins =>
      obtain ⟨demand, rest, rfl⟩ := List.exists_cons_of_ne_nil (given rfl)
      rw [combineAll, foldl_combine_lastWins, foldl_combine_lastWins, combine,
        List.getLastD_cons, List.getLastD_cons]

theorem MergePolicy.combineAll_nested {policy : MergePolicy} {inner : List Mapping}
    (given : policy = .lastWins → inner ≠ []) (before after : List Mapping) :
    policy.combineAll (before ++ policy.combineAll inner :: after) =
      policy.combineAll (before ++ inner ++ after) := by
  rw [combineAll, List.foldl_append, List.foldl_cons, combine_combineAll given, combineAll,
    List.foldl_append, List.foldl_append]

/-! Asking. -/

section Providers

variable {m : Type → Type} [Monad m]

namespace Collector

/-- A provider that asks other providers when it is asked. -/
def asProvider (id : String) (collector : Collector m) : Provider m :=
  ⟨id, collector.collect⟩

variable [LawfulMonad m]

/-- A collector in the place of some providers has their effects and gives what they give. -/
theorem collect_nested (policy : MergePolicy) (before inner after : List (Provider m))
    (id : String) (given : policy = .lastWins → inner ≠ []) :
    collect ⟨before ++ asProvider id ⟨inner, policy⟩ :: after, policy⟩ =
      collect ⟨before ++ inner ++ after, policy⟩ := by
  have demand : (asProvider id ⟨inner, policy⟩).demand =
      policy.combineAll <$> inner.mapM Provider.demand := collect_eq ⟨inner, policy⟩
  rw [collect_eq, collect_eq]
  dsimp only
  simp only [List.mapM_append, List.mapM_cons, demand, map_bind, bind_assoc, pure_bind, map_pure,
    bind_map_left]
  apply bind_congr
  intro first
  -- That there is a provider makes that there is a demand, whatever the effects are.
  cases inner with
  | nil =>
      have given : policy = .lastWins → ([] : List Mapping) ≠ [] := fun wins _ => given wins rfl
      simp only [List.mapM_nil, pure_bind, policy.combineAll_nested given]
  | cons provider rest =>
      have given (demand : Mapping) (demands : List Mapping) :
          policy = .lastWins → demand :: demands ≠ [] := fun _ => List.cons_ne_nil demand demands
      simp only [List.mapM_cons, bind_assoc, pure_bind, policy.combineAll_nested (given _ _)]

/-- Of an empty collector the last provider would win nothing: what came before is lost. -/
example :
    let first : Provider Id := .static "first" [("t-f", .null)]
    let none : Collector Id := ⟨[], .lastWins⟩
    outcome (collect ⟨[first, none.asProvider "none"], .lastWins⟩) = .ok [] ∧
      outcome (collect ⟨[first], .lastWins⟩) = .ok [("t-f", .null)] := by
  decide

/-- Keys that come in several demands, inside and outside of the inner collector; and a fault inside
of it. -/
theorem collect_nested_saved :
    let source (note : Nat) (answer : Except Fault Mapping) : Provider (StateM (List Nat)) :=
      Answering.provider ⟨"source", note, answer⟩
    let defaults := source 0 (.ok [("t-f", .null), ("t-g", .null)])
    let saved := source 1 (.ok [("t-h", .null), ("t-g", .bool false)])
    let session := source 2 (.ok [("t-h", .bool true), ("t-f", .bool true)])
    let query := source 3 (.ok [("t-g", .bool true)])
    let down : Fault := .provider "source" "down"
    let failing := source 4 (.error down)
    let inner : Collector (StateM (List Nat)) := ⟨[saved, session], .merge⟩
    let stopped : Collector (StateM (List Nat)) := ⟨[failing, session], .lastWins⟩
    (collect ⟨[defaults, inner.asProvider "inner", query], .merge⟩).run.run [] =
        (.ok [("t-f", .bool true), ("t-g", .bool true), ("t-h", .bool true)], [0, 1, 2, 3]) ∧
      [failing, session] ≠ [] ∧
      (collect ⟨[defaults, stopped.asProvider "inner", query], .lastWins⟩).run.run [] =
        (.error down, [0, 4]) := by
  intro source defaults saved session query down failing inner stopped
  have nested := collect_nested .merge [defaults] [saved, session] [query] "inner"
    (fun wins => by cases wins)
  have given : [failing, session] ≠ [] := List.cons_ne_nil failing [session]
  have nested' := collect_nested .lastWins [defaults] [failing, session] [query] "inner"
    (fun _ => given)
  refine ⟨?_, given, ?_⟩
  · rw [List.singleton_append] at nested
    rw [nested]
    rfl
  · rw [List.singleton_append] at nested'
    rw [nested']
    rfl

end Collector

end Providers

end Winnow
