import Winnow.Proofs.Effects
import Winnow.Proofs.Source.Collection
import Winnow.Source.Filter

/-!
# Overridden demands

What a provider gives under a key that a later one gives again is never looked at, be it a valid
entry or not: it changes neither the demand that a filter collects nor what the filter builds.
-/

namespace Winnow

/-- Two lists of demands that differ at most in what is overridden. -/
def MergePolicy.SameButOverridden (policy : MergePolicy) (demands demands' : List Mapping) : Prop :=
  match policy with
  | .merge => demands.map Entries.keys = demands'.map Entries.keys ∧
      ∀ key, lastGiven demands key = lastGiven demands' key
  | .lastWins => demands.getLast? = demands'.getLast?

theorem MergesTo.unique {demands demands' : List Mapping} {collected collected' : Mapping}
    (merges : MergesTo demands collected) (merges' : MergesTo demands' collected')
    (same : MergePolicy.merge.SameButOverridden demands demands') : collected = collected' := by
  obtain ⟨sameKeys, sameValues⟩ := same
  refine Entries.eq_of_get?_eq merges.distinct ?_ fun key => ?_
  · rw [merges.keys_eq, merges'.keys_eq, List.flatMap_def, List.flatMap_def, sameKeys]
  · rw [merges.get?_eq, merges'.get?_eq, sameValues]

theorem MergePolicy.combineAll_eq {policy : MergePolicy} {demands demands' : List Mapping}
    (distinct : ∀ demand ∈ demands, demand.Distinct)
    (distinct' : ∀ demand ∈ demands', demand.Distinct)
    (same : policy.SameButOverridden demands demands') :
    policy.combineAll demands = policy.combineAll demands' := by
  have combines := policy.combines_combineAll distinct
  have combines' := policy.combines_combineAll distinct'
  cases policy with
  | merge => exact MergesTo.unique combines combines' same
  | lastWins =>
      have same : demands.getLast? = demands'.getLast? := same
      have collected : combineAll .lastWins demands = demands.getLastD [] := combines
      have collected' : combineAll .lastWins demands' = demands'.getLastD [] := combines'
      rw [collected, collected', List.getLastD_eq_getLast?, List.getLastD_eq_getLast?, same]

section Providers

variable {m : Type → Type} [Monad m]

/-- A provider that always gives the same demand, with the same effect whenever it is asked. -/
def Provider.Gives (asking : m PUnit) (demand : Mapping) (provider : Provider m) : Prop :=
  provider.demand = ExceptT.lift asking >>= fun _ => pure demand

variable [LawfulMonad m]

theorem Provider.gives_static (id : String) (demand : Mapping) :
    Gives (pure PUnit.unit : m PUnit) demand (static id demand) := by
  apply ExceptT.ext
  simp [static]

theorem mapM_demand_of_gives {askings : List (m PUnit)} {demands : List Mapping}
    {providers : List (Provider m)} (given : Aligned Provider.Gives askings demands providers) :
    providers.mapM Provider.demand =
      ExceptT.lift (askings.mapM id) >>= fun _ => pure demands := by
  induction given with
  | nil =>
      apply ExceptT.ext
      simp
  | cons head _ ih =>
      rw [List.mapM_cons, head, ih]
      apply ExceptT.ext
      simp [Except.map]

theorem Collector.collect_of_gives {collector : Collector m} {askings : List (m PUnit)}
    {demands : List Mapping}
    (given : Aligned Provider.Gives askings demands collector.providers) :
    collector.collect =
      ExceptT.lift (askings.mapM id) >>= fun _ => pure (collector.policy.combineAll demands) := by
  rw [collect_eq, mapM_demand_of_gives given, map_bind]
  simp only [map_pure]

/-- Two filters with the same settings collect the same demand and build the same predicates if
their providers give demands that differ only in what is overridden, whatever the overridden values
are. -/
theorem Filter.build_eq_of_overridden {filter filter' : Filter m}
    (sameCompiler : filter.compiler = filter'.compiler)
    (sameAliases : filter.aliases = filter'.aliases)
    (samePolicy : filter.collector.policy = filter'.collector.policy)
    {askings : List (m PUnit)} {demands demands' : List Mapping}
    (given : Aligned Provider.Gives askings demands filter.collector.providers)
    (given' : Aligned Provider.Gives askings demands' filter'.collector.providers)
    (distinct : ∀ demand ∈ demands, demand.Distinct)
    (distinct' : ∀ demand ∈ demands', demand.Distinct)
    (same : filter.collector.policy.SameButOverridden demands demands') :
    filter.demand = filter'.demand ∧
      ∀ {P : Type} (b : Builder m P), filter.build b = filter'.build b := by
  have collected : filter.demand = filter'.demand := by
    rw [demand, demand, Collector.collect_of_gives given, Collector.collect_of_gives given',
      MergePolicy.combineAll_eq distinct distinct' same, samePolicy]
  refine ⟨collected, fun b => ?_⟩
  rw [build, build, collected]
  simp only [buildFrom, sameCompiler, sameAliases]

/-- An entry that is no restriction and that is overridden does no harm. -/
theorem Filter.build_eq_of_overridden_malformed :
    let equal : Json := .object [("operator", .string "EQ"), ("value", .string "red")]
    let defaults : Mapping := [("t-f", equal), ("t-g", equal)]
    let malformed : Mapping := [("t-f", .bool true), ("t-g", equal)]
    let query : Provider Id := .static "query" [("t-f", equal)]
    let filter : Filter Id := { collector := ⟨[.static "defaults" defaults, query], .merge⟩ }
    let filter' : Filter Id := { collector := ⟨[.static "defaults" malformed, query], .merge⟩ }
    let text : Builder Id String := .trace
    (∃ fault, outcome (filter'.buildFrom text malformed) = .error fault) ∧
      filter'.build text = filter.build text := by
  intro equal defaults malformed query filter filter' text
  have given (demand : Mapping) : Aligned Provider.Gives
      [(pure PUnit.unit : Id PUnit), pure PUnit.unit] [demand, [("t-f", equal)]]
      [.static "defaults" demand, query] :=
    .cons (Provider.gives_static _ _) (.cons (Provider.gives_static _ _) .nil)
  have same : MergePolicy.merge.SameButOverridden [malformed, [("t-f", equal)]]
      [defaults, [("t-f", equal)]] := by
    refine ⟨rfl, fun key => ?_⟩
    by_cases here : "t-f" = key
    · rw [← here]
      rfl
    · simp [lastGiven, Entries.get?, defaults, malformed, here]
  have built : filter'.demand = filter.demand ∧
      ∀ {P : Type} (b : Builder Id P), filter'.build b = filter.build b :=
    build_eq_of_overridden rfl rfl rfl (given malformed) (given defaults) (by decide) (by decide)
      same
  exact ⟨⟨_, rfl⟩, built.2 text⟩

end Providers

end Winnow
