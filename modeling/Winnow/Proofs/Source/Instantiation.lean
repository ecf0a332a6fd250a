import Winnow.Proofs.Effects.Succession
import Winnow.Proofs.Source.Collection
import Winnow.Source.Filter

/-!
# Filters made from settings

Providers are made for the entries of settings in order, each by the factory that was registered
last for its kind. An entry of an unknown kind, or a factory that fails, ends this at once, and no
collector and no filter is made. A filter that is made compiles what its providers give as the
settings say.
-/

namespace Winnow

/-- The registry that several registrations make, one after another. -/
def Registry.ofRegistrations {m : Type → Type} (registrations : List (String × Factory m)) :
    Registry m :=
  registrations.foldl (fun registry (kind, factory) => registry.register kind factory) empty

theorem Registry.factories_ofRegistrations {m : Type → Type}
    (registrations : List (String × Factory m)) :
    (ofRegistrations registrations).factories = Entries.ofList registrations := by
  suffices general : ∀ registry : Registry m,
      (registrations.foldl (fun registry (kind, factory) => registry.register kind factory)
        registry).factories = registry.factories.extend registrations from general empty
  induction registrations with
  | nil => exact fun registry => rfl
  | cons registration registrations ih => exact fun registry => ih _

namespace Entries

variable {α : Type u} {writes : List (String × α)} {k : String}

theorem forall_ne_iff_not_mem_keys :
    (∀ write ∈ writes, (k != write.1) = true) ↔ k ∉ keys writes := by
  simp only [keys, List.mem_map, not_exists, not_and, bne_iff_ne, ne_eq]
  exact forall₂_congr fun write _ => not_congr eq_comm

theorem lookup_reverse_eq_none_iff : writes.reverse.lookup k = none ↔ k ∉ keys writes := by
  rw [List.lookup_eq_none_iff, ← forall_ne_iff_not_mem_keys]
  simp only [List.mem_reverse]

/-- The last of several writes of a key is the one that no other one follows. -/
theorem lookup_reverse_eq_some_iff {v : α} :
    writes.reverse.lookup k = some v ↔
      ∃ earlier others, writes = earlier ++ (k, v) :: others ∧ k ∉ keys others := by
  simp only [List.lookup_eq_some_iff, ← forall_ne_iff_not_mem_keys]
  constructor
  · intro ⟨others, earlier, split, fresh⟩
    refine ⟨earlier.reverse, others.reverse, ?_, by simpa using fresh⟩
    simpa using List.reverse_eq_iff.mp split
  · intro ⟨earlier, others, split, fresh⟩
    exact ⟨others.reverse, earlier.reverse, by simp [split], by simpa using fresh⟩

end Entries

variable {σ : Type}

/-- What is done to make the provider of an entry of settings. -/
inductive Makes (registrations : List (String × Factory (StateM σ))) :
    Steps Fault (String × String) (Provider (StateM σ)) σ
  /-- The factory that was registered last for the kind is given the id. -/
  | registered {id kind factory earlier others state outcome later}
      (split : registrations = earlier ++ (kind, factory) :: others)
      (last : kind ∉ Entries.keys others)
      (called : outcomeFrom state (factory id) = (outcome, later)) :
      Makes registrations (id, kind) state outcome later
  | unregistered {id kind state} (absent : kind ∉ Entries.keys registrations) :
      Makes registrations (id, kind) state (.error (.unknownProviderKind id kind)) state

theorem Registry.get?_ofRegistrations {m : Type → Type}
    (registrations : List (String × Factory m)) (kind : String) :
    (ofRegistrations registrations).factories.get? kind = registrations.reverse.lookup kind := by
  rw [factories_ofRegistrations, Entries.ofList, Entries.get?_extend_writes, Entries.get?_nil,
    Option.or_none]

theorem Registry.stepsOf_create (registrations : List (String × Factory (StateM σ))) :
    stepsOf (fun (id, kind) => (ofRegistrations registrations).create id kind) =
      Makes registrations := by
  funext ⟨id, kind⟩ state outcome later
  apply propext
  change outcomeFrom state ((ofRegistrations registrations).create id kind) = _ ↔ _
  rw [create, get?_ofRegistrations]
  cases found : registrations.reverse.lookup kind with
  | none =>
      have absent := Entries.lookup_reverse_eq_none_iff.mp found
      constructor
      · intro failed
        cases failed
        exact .unregistered absent
      · intro makes
        cases makes with
        | registered split last called =>
            have some := Entries.lookup_reverse_eq_some_iff.mpr ⟨_, _, split, last⟩
            cases found.symm.trans some
        | unregistered => rfl
  | some factory =>
      constructor
      · intro called
        obtain ⟨earlier, others, split, last⟩ := Entries.lookup_reverse_eq_some_iff.mp found
        exact .registered split last called
      · intro makes
        cases makes with
        | registered split last called =>
            have some := Entries.lookup_reverse_eq_some_iff.mpr ⟨_, _, split, last⟩
            cases found.symm.trans some
            exact called
        | unregistered absent =>
            have none := Entries.lookup_reverse_eq_none_iff.mpr absent
            cases found.symm.trans none

/-- The filter of some providers with the choices that settings make. -/
def Filter.ofProviders (settings : Settings) (providers : List (Provider (StateM σ))) :
    Filter (StateM σ) where
  collector := ⟨providers, settings.merge⟩
  compiler := ⟨settings.unknownOperator⟩
  aliases := settings.tableAliases

section Made

variable {registrations : List (String × Factory (StateM σ))} {settings : Settings}
variable {state later : σ} {fault : Fault} {providers : List (Provider (StateM σ))}

theorem Registry.instantiate_eq_ok_iff :
    outcomeFrom state ((ofRegistrations registrations).instantiate settings) =
        (.ok providers, later) ↔
      RunsThrough (Makes registrations) settings.providers state providers later := by
  rw [instantiate, outcomeFrom_mapM_eq_ok_iff, stepsOf_create]

theorem Registry.instantiate_eq_error_iff :
    outcomeFrom state ((ofRegistrations registrations).instantiate settings) =
        (.error fault, later) ↔
      StopsAt (Makes registrations) settings.providers state fault later := by
  rw [instantiate, outcomeFrom_mapM_eq_error_iff, stepsOf_create]

theorem Collector.ofSettings_eq_ok_iff {collector : Collector (StateM σ)} :
    outcomeFrom state (ofSettings settings (.ofRegistrations registrations)) =
        (.ok collector, later) ↔
      ∃ providers, RunsThrough (Makes registrations) settings.providers state providers later ∧
        ⟨providers, settings.merge⟩ = collector := by
  rw [ofSettings, outcomeFrom_bind_eq_ok_iff]
  simp [Registry.instantiate_eq_ok_iff]

theorem Collector.ofSettings_eq_error_iff :
    outcomeFrom state (ofSettings settings (.ofRegistrations registrations)) =
        (.error fault, later) ↔
      StopsAt (Makes registrations) settings.providers state fault later := by
  rw [ofSettings, outcomeFrom_bind_eq_error_iff]
  simp [Registry.instantiate_eq_error_iff]

theorem Filter.ofSettings_eq_error_iff :
    outcomeFrom state (ofSettings settings (.ofRegistrations registrations)) =
        (.error fault, later) ↔
      StopsAt (Makes registrations) settings.providers state fault later := by
  rw [ofSettings, outcomeFrom_bind_eq_error_iff]
  simp [Collector.ofSettings_eq_error_iff]

theorem Filter.ofSettings_eq_ok_iff {filter : Filter (StateM σ)} :
    outcomeFrom state (ofSettings settings (.ofRegistrations registrations)) =
        (.ok filter, later) ↔
      ∃ providers, RunsThrough (Makes registrations) settings.providers state providers later ∧
        ofProviders settings providers = filter := by
  rw [ofSettings, outcomeFrom_bind_eq_ok_iff]
  simp only [Collector.ofSettings_eq_ok_iff, outcomeFrom_pure, Prod.mk.injEq, Except.ok.injEq]
  constructor
  · rintro ⟨_, between, ⟨providers, makes, rfl⟩, same, rfl⟩
    exact ⟨providers, makes, same⟩
  · intro ⟨providers, makes, same⟩
    exact ⟨_, later, ⟨providers, makes, rfl⟩, same, rfl⟩

end Made

/-- Building asks the providers first, and does nothing else if one of them fails. The demands that
they give are combined and compiled as the settings say. -/
structure Filter.Builds (settings : Settings) (providers : List (Provider (StateM σ)))
    (filter : Filter (StateM σ)) : Prop where
  of_ok : ∀ {P : Type} (b : Builder (StateM σ) P) {state between : σ} {demands : List Mapping},
    RunsThrough (stepsOf Provider.demand) providers state demands between →
      outcomeFrom state (filter.build b) =
        outcomeFrom between (Compiler.compile ⟨settings.unknownOperator⟩ settings.tableAliases b
          (settings.merge.combineAll demands))
  of_error : ∀ {P : Type} (b : Builder (StateM σ) P) {state later : σ} {fault : Fault},
    StopsAt (stepsOf Provider.demand) providers state fault later →
      outcomeFrom state (filter.build b) = (.error fault, later)

theorem Filter.builds_ofProviders (settings : Settings) (providers : List (Provider (StateM σ))) :
    (ofProviders settings providers).Builds settings providers where
  of_ok := by
    intro P b state between demands asked
    have collected : outcomeFrom state (ofProviders settings providers).demand =
        (.ok (settings.merge.combineAll demands), between) := by
      rw [demand, Collector.collect_eq, ← bind_pure_comp, outcomeFrom_bind_eq_ok_iff]
      exact ⟨demands, between, outcomeFrom_mapM_eq_ok_iff.mpr asked, rfl⟩
    rw [build, outcomeFrom_bind, collected]
    rfl
  of_error := by
    intro P b state later fault stopped
    rw [build, outcomeFrom_bind_eq_error_iff, demand, Collector.collect_eq, ← bind_pure_comp,
      outcomeFrom_bind_eq_error_iff]
    exact .inl (.inl (outcomeFrom_mapM_eq_error_iff.mpr stopped))

/-- Providers are made for all entries of the settings, in order, or for none: the first entry whose
provider cannot be made ends it with its fault, for the registry, the collector and the filter. A
filter that is made builds from these providers, as the settings say. -/
theorem Filter.ofSettings_all_or_nothing (registrations : List (String × Factory (StateM σ)))
    (settings : Settings) (state : σ) :
    let registry := Registry.ofRegistrations registrations
    let Made := RunsThrough (Makes registrations) settings.providers state
    let Stopped := StopsAt (Makes registrations) settings.providers state
    (∀ providers later,
      outcomeFrom state (registry.instantiate settings) = (.ok providers, later) ↔
        Made providers later) ∧
    (∀ fault later,
      outcomeFrom state (registry.instantiate settings) = (.error fault, later) ↔
        Stopped fault later) ∧
    (∀ collector later,
      outcomeFrom state (Collector.ofSettings settings registry) = (.ok collector, later) ↔
        ∃ providers, Made providers later ∧ ⟨providers, settings.merge⟩ = collector) ∧
    (∀ fault later,
      outcomeFrom state (Collector.ofSettings settings registry) = (.error fault, later) ↔
        Stopped fault later) ∧
    (∀ fault later,
      outcomeFrom state (ofSettings settings registry) = (.error fault, later) ↔
        Stopped fault later) ∧
    ∀ filter later, outcomeFrom state (ofSettings settings registry) = (.ok filter, later) →
      ∃ providers, Made providers later ∧ filter.Builds settings providers := by
  intro registry Made Stopped
  refine ⟨fun _ _ => Registry.instantiate_eq_ok_iff, fun _ _ => Registry.instantiate_eq_error_iff,
    fun _ _ => Collector.ofSettings_eq_ok_iff, fun _ _ => Collector.ofSettings_eq_error_iff,
    fun _ _ => ofSettings_eq_error_iff, ?_⟩
  intro filter later made
  obtain ⟨providers, makes, rfl⟩ := ofSettings_eq_ok_iff.mp made
  exact ⟨providers, makes, builds_ofProviders settings providers⟩

/-- A kind that is registered twice, and an entry of an unknown kind between two that can be
made. -/
theorem Filter.ofSettings_all_or_nothing_unknown_kind :
    let making (note : String) : Factory (StateM (List String)) := fun id => do
      modify (· ++ [note ++ id])
      return .static id [("t-f", .null)]
    let registrations := [("static", making "old "), ("static", making "new ")]
    let registry := Registry.ofRegistrations registrations
    let entries : Entries String := [("a", "static"), ("b", "query"), ("c", "static")]
    let settings : Settings := { merge := .lastWins, providers := [("a", "static")] }
    let filter := ofProviders settings [.static "a" [("t-f", .null)]]
    outcomeFrom [] (ofSettings { settings with providers := entries } registry) =
        (.error (.unknownProviderKind "b" "query"), ["new a"]) ∧
      outcomeFrom [] (ofSettings settings registry) = (.ok filter, ["new a"]) ∧
      ∃ providers,
        RunsThrough (Makes registrations) settings.providers [] providers ["new a"] ∧
        filter.Builds settings providers := by
  intro making registrations registry entries settings filter
  have stopped : StopsAt (Makes registrations) entries [] (.unknownProviderKind "b" "query")
      ["new a"] := by
    refine ⟨[("a", "static")], ("b", "query"), [("c", "static")],
      [.static "a" [("t-f", .null)]], ["new a"], rfl, ?_, ?_⟩
    · have split : registrations = [("static", making "old ")] ++ [("static", making "new ")] := rfl
      exact .cons (.registered split List.not_mem_nil rfl) (.nil _)
    · exact .unregistered (by decide)
  have made : outcomeFrom [] (ofSettings settings registry) = (.ok filter, ["new a"]) := rfl
  obtain ⟨_, _, _, _, fails, _⟩ :=
    ofSettings_all_or_nothing registrations { settings with providers := entries } []
  obtain ⟨_, _, _, _, _, builds⟩ := ofSettings_all_or_nothing registrations settings []
  exact ⟨(fails _ _).mpr stopped, made, builds filter _ made⟩

end Winnow
