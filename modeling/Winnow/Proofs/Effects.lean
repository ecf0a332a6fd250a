import Winnow.Proofs.Outcome

/-!
# Computations that may fail, with effects

A computation without effects has an `outcome`. One with effects `Realizes` a plan if it succeeds
where the plan does, builds what the plan says, and otherwise fails as the plan does, whatever
effects it had before.
-/

namespace Winnow

variable {ε α β γ : Type}

/-- The outcome of a computation without effects. -/
def outcome (x : ExceptT ε Id α) : Except ε α := Id.run x.run

@[simp] theorem outcome_pure (a : α) : outcome (pure a : ExceptT ε Id α) = .ok a := rfl

@[simp] theorem outcome_throw (e : ε) : outcome (throw e : ExceptT ε Id α) = .error e := rfl

@[simp] theorem outcome_liftM (x : Id α) : outcome (liftM x : ExceptT ε Id α) = .ok x.run := rfl

theorem outcome_bind (x : ExceptT ε Id α) (f : α → ExceptT ε Id β) :
    outcome (x >>= f) = outcome x >>= fun a => outcome (f a) := by
  change Id.run (ExceptT.run (x >>= f)) = _
  rw [ExceptT.run_bind, outcome]
  cases x.run <;> rfl

theorem outcome_mapM (f : α → ExceptT ε Id β) (as : List α) :
    outcome (as.mapM f) = as.mapM fun a => outcome (f a) := by
  induction as with
  | nil => rfl
  | cons a as ih =>
      simp only [List.mapM_cons, outcome_bind, ih, outcome_pure]
      rfl

theorem outcome_ofExcept (x : Except ε α) :
    outcome (MonadExcept.ofExcept x : ExceptT ε Id α) = x := by
  cases x <;> rfl

variable {m : Type → Type} [Monad m]

/-- A computation that has its effects and then succeeds. -/
def Succeeds (x : ExceptT ε m α) : Prop :=
  ∃ build : m α, x = ExceptT.lift build

/-- A computation that has some effects and then fails. -/
def FailsWith (e : ε) (x : ExceptT ε m α) : Prop :=
  ∃ before : m PUnit, x = ExceptT.lift before >>= fun _ => throw e

/-- A computation that has the effects of the plan and its result, or some effects and its fault. -/
inductive Realizes (x : ExceptT ε m α) : Except ε (m α) → Prop
  | ok {y} (same : x = ExceptT.lift y) : Realizes x (.ok y)
  | error {e} (failed : FailsWith e x) : Realizes x (.error e)

namespace Realizes

variable {x : ExceptT ε m α} {plan : Except ε (m α)}

theorem ok_iff {y : m α} : Realizes x (.ok y) ↔ x = ExceptT.lift y := by
  refine ⟨fun realizes => ?_, .ok⟩
  cases realizes with
  | ok same => exact same

theorem error_iff {e : ε} : Realizes x (.error e) ↔ FailsWith e x := by
  refine ⟨fun realizes => ?_, .error⟩
  cases realizes with
  | error failed => exact failed

theorem succeeds (realizes : Realizes x plan) (planned : ∃ y, plan = .ok y) : Succeeds x := by
  cases realizes with
  | ok same => exact ⟨_, same⟩
  | error failed => exact absurd planned (by simp)

theorem fails (realizes : Realizes x plan) (planned : ¬ ∃ y, plan = .ok y) :
    ∃ e, FailsWith e x := by
  cases realizes with
  | ok same => exact absurd ⟨_, rfl⟩ planned
  | error failed => exact ⟨_, failed⟩

end Realizes

variable [LawfulMonad m]

theorem failsWith_throw (e : ε) : FailsWith e (throw e : ExceptT ε m α) := by
  refine ⟨pure PUnit.unit, ?_⟩
  apply ExceptT.ext
  simp

theorem FailsWith.bind {e : ε} {x : ExceptT ε m α} (failed : FailsWith e x)
    (f : α → ExceptT ε m β) : FailsWith e (x >>= f) := by
  obtain ⟨before, rfl⟩ := failed
  refine ⟨before, ?_⟩
  apply ExceptT.ext
  simp

/-- What is done with the result of a computation that fails does not matter, nor does what was done
before it. -/
theorem FailsWith.after {e : ε} {x : ExceptT ε m β} (failed : FailsWith e x) (y : m α)
    (f : α → β → ExceptT ε m γ) : FailsWith e (ExceptT.lift y >>= fun a => x >>= f a) := by
  obtain ⟨before, rfl⟩ := failed
  refine ⟨y >>= fun _ => before, ?_⟩
  apply ExceptT.ext
  simp

namespace Realizes

variable {x : ExceptT ε m α} {plan : Except ε (m α)}

theorem throw (e : ε) : Realizes (MonadExcept.throw e : ExceptT ε m α) (.error e) :=
  .error (failsWith_throw e)

/-- One more thing that is built from the result, on both sides. -/
theorem map (realizes : Realizes x plan) (g : α → m β) :
    Realizes (x >>= fun a => ExceptT.lift (g a)) ((· >>= g) <$> plan) := by
  cases realizes with
  | ok same =>
      refine .ok ?_
      rw [same, ExceptT.lift_bind]
  | error failed => exact .error (failed.bind _)

theorem mapM {σ : Type} {plan : σ → Except ε (m α)} {x : σ → ExceptT ε m α}
    (step : ∀ s, Realizes (x s) (plan s)) (sources : List σ) :
    Realizes (sources.mapM x) (List.mapM id <$> sources.mapM plan) := by
  induction sources with
  | nil =>
      refine .ok ?_
      apply ExceptT.ext
      simp
  | cons s sources ih =>
      rw [List.mapM_cons, List.mapM_cons]
      have head := step s
      cases planned : plan s with
      | error e =>
          rw [planned, error_iff] at head
          exact .error (head.bind _)
      | ok y =>
          rw [planned, ok_iff] at head
          rw [head]
          cases rest : sources.mapM plan with
          | error e =>
              rw [rest] at ih
              exact .error ((error_iff.mp ih).after _ _)
          | ok ys =>
              rw [rest] at ih
              refine .ok ?_
              rw [ok_iff.mp ih]
              apply ExceptT.ext
              simp [Except.map]

end Realizes

end Winnow
