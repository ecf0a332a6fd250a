import Winnow.Proofs.Effects

/-!
# Interrupted computations

What a computation has done by the time it fails. A list is worked through up to the step that
fails, and nothing after it has an effect.
-/

namespace Winnow

variable {ε α β γ σ τ : Type} {m : Type → Type} [Monad m]

/-- Has the effects of another computation and then fails. -/
def interrupted (before : m α) (e : ε) : ExceptT ε m β :=
  ExceptT.lift before >>= fun _ => throw e

theorem run_lift (x : StateM σ α) (state : σ) :
    (ExceptT.lift x : ExceptT ε (StateM σ) α).run.run state =
      (.ok (x.run state).1, (x.run state).2) := rfl

/-- The state that an interrupted computation leaves is that of what came before. -/
theorem run_interrupted (before : StateM σ α) (e : ε) (state : σ) :
    (interrupted before e : ExceptT ε (StateM σ) β).run.run state =
      (.error e, (before.run state).2) := rfl

variable [LawfulMonad m]

theorem throw_eq_interrupted (a : α) (e : ε) :
    (throw e : ExceptT ε m β) = interrupted (pure a) e := by
  apply ExceptT.ext
  simp [interrupted]

theorem interrupted_bind (before : m α) (e : ε) (next : β → ExceptT ε m γ) :
    interrupted before e >>= next = interrupted before e := by
  apply ExceptT.ext
  simp [interrupted]

section Lists

variable {x : σ → ExceptT ε m α} {build : τ → m α} {plans : List τ}

theorem mapM_eq_lift {sources : List σ}
    (each : List.Forall₂ (fun s plan => x s = ExceptT.lift (build plan)) sources plans) :
    sources.mapM x = ExceptT.lift (plans.mapM build) := by
  induction each with
  | nil =>
      apply ExceptT.ext
      simp
  | cons head _ ih =>
      rw [List.mapM_cons, List.mapM_cons, head, ih]
      apply ExceptT.ext
      simp [Except.map]

/-- The steps before the one that fails are made, and what that one makes before it fails. -/
theorem mapM_eq_interrupted {before : List σ} {s : σ} {plans' : List τ} {e : ε}
    (each : List.Forall₂ (fun s plan => x s = ExceptT.lift (build plan)) before plans)
    (stops : x s = interrupted (plans'.mapM build) e) (after : List σ) :
    (before ++ s :: after).mapM x = interrupted ((plans ++ plans').mapM build) e := by
  rw [List.mapM_append, mapM_eq_lift each, List.mapM_cons, stops]
  apply ExceptT.ext
  simp [interrupted]

end Lists

end Winnow
