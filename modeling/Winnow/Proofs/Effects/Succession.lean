import Winnow.Proofs.Effects

/-!
# Steps taken one after another

With a state, the items of a list are worked through in order, each from the state that the one
before it has left. The first one that fails ends the work, in the state that it leaves itself, and
there is nothing of the others in that state.
-/

namespace Winnow

variable {ε α β σ : Type}

/-- What steps do: the outcome for an item, from a state, and the state that is left. -/
abbrev Steps (ε α β σ : Type) := α → σ → Except ε β → σ → Prop

/-- Every step succeeds. -/
inductive RunsThrough (steps : Steps ε α β σ) : List α → σ → List β → σ → Prop
  | nil (state) : RunsThrough steps [] state [] state
  | cons {item items result results state between later}
      (step : steps item state (.ok result) between)
      (rest : RunsThrough steps items between results later) :
      RunsThrough steps (item :: items) state (result :: results) later

/-- Some steps succeed, and the next one fails. -/
def StopsAt (steps : Steps ε α β σ) (items : List α) (state : σ) (fault : ε) (later : σ) : Prop :=
  ∃ before item after results between, items = before ++ item :: after ∧
    RunsThrough steps before state results between ∧ steps item between (.error fault) later

variable {steps : Steps ε α β σ}

theorem runsThrough_nil_iff {results : List β} {state later : σ} :
    RunsThrough steps [] state results later ↔ results = [] ∧ later = state := by
  constructor
  · intro runs
    cases runs
    exact ⟨rfl, rfl⟩
  · rintro ⟨rfl, rfl⟩
    exact .nil _

theorem runsThrough_cons_iff {item : α} {items : List α} {results : List β} {state later : σ} :
    RunsThrough steps (item :: items) state results later ↔
      ∃ result between rest, steps item state (.ok result) between ∧
        RunsThrough steps items between rest later ∧ result :: rest = results := by
  constructor
  · intro runs
    cases runs with
    | cons step rest => exact ⟨_, _, _, step, rest, rfl⟩
  · rintro ⟨result, between, rest, step, runs, rfl⟩
    exact .cons step runs

theorem not_stopsAt_nil {state later : σ} {fault : ε} : ¬ StopsAt steps [] state fault later := by
  intro ⟨before, item, after, _, _, split, _⟩
  cases before <;> cases split

theorem stopsAt_cons_iff {item : α} {items : List α} {state later : σ} {fault : ε} :
    StopsAt steps (item :: items) state fault later ↔
      steps item state (.error fault) later ∨
        ∃ result between, steps item state (.ok result) between ∧
          StopsAt steps items between fault later := by
  constructor
  · intro ⟨before, failing, after, _, _, split, through, step⟩
    cases through with
    | nil =>
        cases split
        exact .inl step
    | cons first rest =>
        cases split
        exact .inr ⟨_, _, first, _, failing, after, _, _, rfl, rest, step⟩
  · rintro (step | ⟨_, _, first, before, failing, after, _, _, rfl, rest, step⟩)
    · exact ⟨[], item, items, [], state, rfl, .nil state, step⟩
    · exact ⟨item :: before, failing, after, _, _, rfl, .cons first rest, step⟩

/-! Running a list of computations. -/

/-- The outcome of a computation from a state, and the state that it leaves. -/
def outcomeFrom (state : σ) (x : ExceptT ε (StateM σ) α) : Except ε α × σ :=
  Id.run (x.run.run state)

@[simp] theorem outcomeFrom_pure (state : σ) (a : α) :
    outcomeFrom state (pure a : ExceptT ε (StateM σ) α) = (.ok a, state) := rfl

theorem outcomeFrom_bind (state : σ) (x : ExceptT ε (StateM σ) α)
    (f : α → ExceptT ε (StateM σ) β) :
    outcomeFrom state (x >>= f) =
      match outcomeFrom state x with
      | (.ok a, between) => outcomeFrom between (f a)
      | (.error e, later) => (.error e, later) := by
  rw [outcomeFrom, ExceptT.run_bind, StateT.run_bind, outcomeFrom]
  rcases x.run.run state with ⟨e | a, later⟩ <;> rfl

theorem outcomeFrom_bind_eq_ok_iff {x : ExceptT ε (StateM σ) α} {f : α → ExceptT ε (StateM σ) β}
    {state later : σ} {b : β} :
    outcomeFrom state (x >>= f) = (.ok b, later) ↔
      ∃ a between, outcomeFrom state x = (.ok a, between) ∧
        outcomeFrom between (f a) = (.ok b, later) := by
  rw [outcomeFrom_bind]
  rcases outcomeFrom state x with ⟨e | a, between⟩ <;> simp

theorem outcomeFrom_bind_eq_error_iff {x : ExceptT ε (StateM σ) α}
    {f : α → ExceptT ε (StateM σ) β} {state later : σ} {e : ε} :
    outcomeFrom state (x >>= f) = (.error e, later) ↔
      outcomeFrom state x = (.error e, later) ∨
        ∃ a between, outcomeFrom state x = (.ok a, between) ∧
          outcomeFrom between (f a) = (.error e, later) := by
  rw [outcomeFrom_bind]
  rcases outcomeFrom state x with ⟨fault | a, between⟩ <;> simp

section Lists

variable {f : α → ExceptT ε (StateM σ) β}

/-- A computation for each item, as steps. -/
def stepsOf (f : α → ExceptT ε (StateM σ) β) : Steps ε α β σ :=
  fun item state outcome later => outcomeFrom state (f item) = (outcome, later)

theorem outcomeFrom_mapM_eq_ok_iff {items : List α} {results : List β} {state later : σ} :
    outcomeFrom state (items.mapM f) = (.ok results, later) ↔
      RunsThrough (stepsOf f) items state results later := by
  induction items generalizing results state later with
  | nil =>
      rw [List.mapM_nil, outcomeFrom_pure, runsThrough_nil_iff]
      simp [eq_comm]
  | cons item items ih =>
      rw [List.mapM_cons, outcomeFrom_bind_eq_ok_iff, runsThrough_cons_iff]
      simp only [outcomeFrom_bind_eq_ok_iff, outcomeFrom_pure, Prod.mk.injEq, Except.ok.injEq, ih]
      constructor
      · intro ⟨result, between, step, rest, _, runs, same, left⟩
        exact ⟨result, between, rest, step, left ▸ runs, same⟩
      · intro ⟨result, between, rest, step, runs, same⟩
        exact ⟨result, between, step, rest, later, runs, same, rfl⟩

theorem outcomeFrom_mapM_eq_error_iff {items : List α} {state later : σ} {fault : ε} :
    outcomeFrom state (items.mapM f) = (.error fault, later) ↔
      StopsAt (stepsOf f) items state fault later := by
  induction items generalizing state with
  | nil =>
      rw [List.mapM_nil, outcomeFrom_pure]
      refine ⟨fun impossible => (by cases impossible), ?_⟩
      exact fun stops => (not_stopsAt_nil stops).elim
  | cons item items ih =>
      rw [List.mapM_cons, outcomeFrom_bind_eq_error_iff, stopsAt_cons_iff]
      -- What is made of the results of a list that succeeds cannot fail.
      have rest (result : β) (between : σ) :
          outcomeFrom between (items.mapM f >>= fun results => pure (result :: results)) =
              (.error fault, later) ↔
            StopsAt (stepsOf f) items between fault later := by
        rw [← ih, outcomeFrom_bind_eq_error_iff]
        simp
      simp only [rest, stepsOf]

end Lists

end Winnow
