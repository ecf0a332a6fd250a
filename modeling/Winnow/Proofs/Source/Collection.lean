import Mathlib.Data.List.Basic
import Winnow.Proofs.Entries.Extension
import Winnow.Source.Collector

/-!
# Collecting demands

What a collector returns and whom it asks for it. Providers are asked in order, up to the first one
that fails. Of demands that are merged, each key keeps the place where it first came and has the
value that was given last.
-/

namespace Winnow

/-! Asking. -/

def MergePolicy.combineAll (policy : MergePolicy) (demands : List Mapping) : Mapping :=
  demands.foldl policy.combine []

/-- A collector asks all of its providers first, and a fault of one is a fault of the collector. -/
theorem Collector.collect_eq {m : Type → Type} [Monad m] [LawfulMonad m]
    (collector : Collector m) :
    collector.collect =
      collector.policy.combineAll <$> collector.providers.mapM Provider.demand := by
  obtain ⟨providers, policy⟩ := collector
  rw [collect]
  -- What has been collected so far is the accumulator of both folds.
  suffices general : ∀ collected : Mapping,
      providers.foldlM (fun collected provider =>
        return policy.combine collected (← provider.demand)) collected =
        (List.foldl policy.combine collected) <$> providers.mapM Provider.demand from general []
  intro collected
  induction providers generalizing collected with
  | nil => simp
  | cons provider providers ih =>
      rw [List.foldlM_cons, List.mapM_cons, bind_assoc, map_bind]
      apply bind_congr
      intro demand
      rw [pure_bind, ih]
      simp

/-- A provider that is known by its answer. It leaves a note each time it is asked. -/
structure Answering (ι : Type) where
  id : String
  note : ι
  answer : Except Fault Mapping

namespace Answering

variable {ι : Type}

def provider (source : Answering ι) : Provider (StateM (List ι)) where
  id := source.id
  demand := do
    modify (· ++ [source.note])
    MonadExcept.ofExcept source.answer

theorem run_demand (source : Answering ι) (log : List ι) :
    source.provider.demand.run.run log = (source.answer, log ++ [source.note]) := by
  rw [provider]
  cases source.answer <;> rfl

/-- Asks all providers in order, unless one of them fails. -/
def askAll (sources : List (Answering ι)) : ExceptT Fault (StateM (List ι)) (List Mapping) :=
  (sources.map provider).mapM Provider.demand

theorem run_askAll_cons_of_ok {source : Answering ι} {demand : Mapping}
    (given : source.answer = .ok demand) {sources : List (Answering ι)} {log later : List ι}
    {outcome : Except Fault (List Mapping)}
    (rest : (askAll sources).run.run (log ++ [source.note]) = (outcome, later)) :
    (askAll (source :: sources)).run.run log = ((demand :: ·) <$> outcome, later) := by
  rw [askAll] at rest
  rw [askAll, List.map_cons, List.mapM_cons, ExceptT.run_bind, StateT.run_bind, run_demand, given]
  change ((((sources.map provider).mapM Provider.demand) >>= fun demands =>
    pure (demand :: demands)).run.run (log ++ [source.note])) = _
  rw [ExceptT.run_bind, StateT.run_bind, rest]
  cases outcome <;> rfl

theorem run_askAll_cons_of_error {source : Answering ι} {fault : Fault}
    (failed : source.answer = .error fault) (sources : List (Answering ι)) (log : List ι) :
    (askAll (source :: sources)).run.run log = (.error fault, log ++ [source.note]) := by
  rw [askAll, List.map_cons, List.mapM_cons, ExceptT.run_bind, StateT.run_bind, run_demand, failed]
  rfl

theorem run_askAll_of_error {before : List (Answering ι)} {source : Answering ι} {fault : Fault}
    (answered : ∀ earlier ∈ before, ∃ demand, earlier.answer = .ok demand)
    (failed : source.answer = .error fault) (after : List (Answering ι)) (log : List ι) :
    (askAll (before ++ source :: after)).run.run log =
      (.error fault, log ++ (before ++ [source]).map note) := by
  induction before generalizing log with
  | nil => exact run_askAll_cons_of_error failed after log
  | cons earlier before ih =>
      obtain ⟨⟨demand, given⟩, answered⟩ := List.forall_mem_cons.mp answered
      rw [List.cons_append, run_askAll_cons_of_ok given (ih answered _)]
      simp

theorem run_askAll_of_ok {sources : List (Answering ι)} {demands : List Mapping}
    (answered : sources.map answer = demands.map .ok) (log : List ι) :
    (askAll sources).run.run log = (.ok demands, log ++ sources.map note) := by
  induction sources generalizing demands log with
  | nil =>
      obtain rfl : demands = [] := List.map_eq_nil_iff.mp answered.symm
      rw [askAll, List.map_nil, List.mapM_nil, List.map_nil, List.append_nil]
      rfl
  | cons source sources ih =>
      cases demands with
      | nil => cases answered
      | cons demand demands =>
          obtain ⟨given, answered⟩ := List.cons.inj answered
          rw [run_askAll_cons_of_ok given (ih answered _)]
          simp

end Answering

/-! Merging. -/

/-- The value of a key in the last of the demands that have the key. -/
def lastGiven (demands : List Mapping) (key : String) : Option Json :=
  demands.reverse.findSome? (Entries.get? · key)

/-- What several demands are merged to: each of their keys once, where it first came, with the value
that was given last. -/
structure MergesTo (demands : List Mapping) (collected : Mapping) : Prop where
  distinct : collected.Distinct
  keys_eq : collected.keys = (demands.flatMap Entries.keys).eraseDups
  get?_eq : ∀ key, collected.get? key = lastGiven demands key

namespace MergesTo

theorem nil : MergesTo [] [] where
  distinct := List.nodup_nil
  keys_eq := rfl
  get?_eq _ := rfl

theorem extend {demands : List Mapping} {collected demand : Mapping}
    (merges : MergesTo demands collected) (distinct : demand.Distinct) :
    MergesTo (demands ++ [demand]) (collected.extend demand) where
  distinct := merges.distinct.extend demand
  keys_eq := by
    rw [Entries.keys_extend_of_eraseDups merges.keys_eq, List.flatMap_append,
      List.flatMap_singleton]
  get?_eq key := by
    rw [Entries.get?_extend _ distinct, merges.get?_eq, lastGiven, lastGiven, List.reverse_append,
      List.reverse_singleton, List.singleton_append, List.findSome?_cons]
    cases Entries.get? demand key <;> rfl

theorem foldl_extend {demands later : List Mapping} {collected : Mapping}
    (merges : MergesTo demands collected) (distinct : ∀ demand ∈ later, demand.Distinct) :
    MergesTo (demands ++ later) (later.foldl Entries.extend collected) := by
  induction later generalizing demands collected with
  | nil =>
      rw [List.append_nil]
      exact merges
  | cons demand later ih =>
      obtain ⟨first, others⟩ := List.forall_mem_cons.mp distinct
      have merged := ih (merges.extend first) others
      rw [List.append_assoc, List.singleton_append] at merged
      exact merged

end MergesTo

def MergePolicy.Combines (policy : MergePolicy) (demands : List Mapping) (collected : Mapping) :
    Prop :=
  match policy with
  | .merge => MergesTo demands collected
  | .lastWins => collected = demands.getLastD []

theorem MergePolicy.foldl_combine_lastWins (collected : Mapping) (demands : List Mapping) :
    demands.foldl (combine .lastWins) collected = demands.getLastD collected := by
  induction demands generalizing collected with
  | nil => rfl
  | cons demand demands ih => rw [List.foldl_cons, List.getLastD_cons, ih, combine]

theorem MergePolicy.combines_combineAll (policy : MergePolicy) {demands : List Mapping}
    (distinct : ∀ demand ∈ demands, demand.Distinct) :
    policy.Combines demands (policy.combineAll demands) := by
  cases policy with
  | merge => exact MergesTo.nil.foldl_extend distinct
  | lastWins => exact foldl_combine_lastWins [] demands

/-! Collecting. -/

namespace Answering

variable {ι : Type}

/-- What a collector of such providers returns, and the log of those it has asked by then. -/
def collection (policy : MergePolicy) (sources : List (Answering ι)) (log : List ι) :
    Except Fault Mapping × List ι :=
  (Collector.collect ⟨sources.map provider, policy⟩).run.run log

theorem collection_eq (policy : MergePolicy) {sources : List (Answering ι)} {log asked : List ι}
    {given : Except Fault (List Mapping)} (ran : (askAll sources).run.run log = (given, asked)) :
    collection policy sources log = (policy.combineAll <$> given, asked) := by
  have collect : Collector.collect ⟨sources.map provider, policy⟩ =
      policy.combineAll <$> askAll sources := Collector.collect_eq _
  rw [collection, collect, ExceptT.run_map, StateT.run_map, ran]
  rfl

/-- A collector asks its providers in order, each once, until one fails, and returns its fault. If
none fails, the demands are combined as the policy says; of no providers, there is nothing. -/
theorem collection_in_order (policy : MergePolicy) (sources : List (Answering ι))
    (distinct : ∀ source ∈ sources, ∀ demand, source.answer = .ok demand → demand.Distinct)
    (log : List ι) :
    (∀ before source after fault, sources = before ++ source :: after →
      (∀ earlier ∈ before, ∃ demand, earlier.answer = .ok demand) →
      source.answer = .error fault →
      collection policy sources log = (.error fault, log ++ (before ++ [source]).map note)) ∧
    (∀ demands, sources.map answer = demands.map .ok →
      ∃ collected, collection policy sources log = (.ok collected, log ++ sources.map note) ∧
        policy.Combines demands collected) ∧
    (sources = [] → collection policy sources log = (.ok [], log)) := by
  refine ⟨?_, ?_, ?_⟩
  · intro before source after fault split answered failed
    rw [split]
    exact collection_eq policy (run_askAll_of_error answered failed after log)
  · intro demands answered
    refine ⟨_, collection_eq policy (run_askAll_of_ok answered log), ?_⟩
    apply policy.combines_combineAll
    intro demand member
    have given : Except.ok demand ∈ sources.map answer := by
      rw [answered]
      exact List.mem_map_of_mem member
    obtain ⟨source, asked, answer⟩ := List.mem_map.mp given
    exact distinct source asked demand answer
  · intro none
    rw [none]
    rfl

/-- Two demands with a key in common, merged; and a fault before the last provider, which is not
asked. -/
theorem collection_in_order_four :
    let first : Mapping := [("t-f", .null), ("t-g", .bool false)]
    let second : Mapping := [("t-g", .bool true), ("t-h", .null)]
    let down : Fault := .provider "session" "down"
    let sources : List (Answering Nat) := [⟨"defaults", 0, .ok first⟩, ⟨"saved", 1, .ok second⟩]
    let failing : List (Answering Nat) := [⟨"session", 2, .error down⟩, ⟨"query", 3, .ok first⟩]
    MergesTo [first, second] [("t-f", .null), ("t-g", .bool true), ("t-h", .null)] ∧
      collection .lastWins (sources ++ failing) [] = (.error down, [0, 1, 2]) := by
  intro first second down sources failing
  have distinct : ∀ source ∈ sources ++ failing, ∀ demand, source.answer = .ok demand →
      demand.Distinct := by
    intro source member demand answer
    simp only [sources, failing, List.cons_append, List.nil_append, List.mem_cons,
      List.not_mem_nil, or_false] at member
    rcases member with rfl | rfl | rfl | rfl <;> cases answer <;> decide
  constructor
  · have merged := (collection_in_order .merge sources
      (fun source member => distinct source (List.mem_append_left _ member)) []).2.1
    obtain ⟨collected, ran, merges⟩ := merged [first, second] rfl
    have same : collection .merge sources [] =
        (.ok [("t-f", .null), ("t-g", .bool true), ("t-h", .null)], [0, 1]) := rfl
    cases same.symm.trans ran
    exact merges
  · have stopped := (collection_in_order .lastWins (sources ++ failing) distinct []).1
    exact stopped sources _ [⟨"query", 3, .ok first⟩] down rfl (by simp [sources]) rfl

end Answering

end Winnow
