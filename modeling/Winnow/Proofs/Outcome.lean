import Mathlib.Data.List.Forall2

/-!
# Computations that may fail

When a sequence of steps succeeds, and what it means that two computations fail alike or succeed
alike. A list is worked through from left to right, and the first fault ends the work.
-/

namespace Winnow

/-- A list of choices is a choice for each place. -/
theorem exists_forall₂_and_iff {α : Type u} {β : Type v} {R : α → β → Prop} {Q : β → Prop}
    {as : List α} :
    (∃ bs, List.Forall₂ R as bs ∧ ∀ b ∈ bs, Q b) ↔ ∀ a ∈ as, ∃ b, R a b ∧ Q b := by
  induction as with
  | nil => simp
  | cons a as ih =>
      rw [List.forall_mem_cons, ← ih]
      constructor
      · intro ⟨_, related, all⟩
        cases related with
        | cons first rest =>
            obtain ⟨head, tail⟩ := List.forall_mem_cons.mp all
            exact ⟨⟨_, first, head⟩, _, rest, tail⟩
      · intro ⟨⟨b, first, head⟩, bs, rest, tail⟩
        exact ⟨b :: bs, .cons first rest, List.forall_mem_cons.mpr ⟨head, tail⟩⟩

theorem exists_forall₂_iff {α : Type u} {β : Type v} {R : α → β → Prop} {as : List α} :
    (∃ bs, List.Forall₂ R as bs) ↔ ∀ a ∈ as, ∃ b, R a b := by
  have choices : (∃ bs, List.Forall₂ R as bs ∧ ∀ b ∈ bs, True) ↔ _ := exists_forall₂_and_iff
  simpa using choices

theorem forall₂_and_right_iff {α : Type u} {β : Type v} {R : α → β → Prop} {Q : β → Prop}
    {as : List α} {bs : List β} :
    List.Forall₂ (fun a b => R a b ∧ Q b) as bs ↔ List.Forall₂ R as bs ∧ ∀ b ∈ bs, Q b := by
  constructor
  · intro both
    induction both with
    | nil => exact ⟨.nil, List.forall_mem_nil _⟩
    | cons head _ ih => exact ⟨.cons head.1 ih.1, List.forall_mem_cons.mpr ⟨head.2, ih.2⟩⟩
  · intro ⟨related, each⟩
    induction related with
    | nil => exact .nil
    | cons head _ ih =>
        obtain ⟨first, others⟩ := List.forall_mem_cons.mp each
        exact .cons ⟨head, first⟩ (ih others)

theorem forall₂_comp {α : Type u} {β : Type v} {γ : Type w} {R : α → β → Prop} {S : β → γ → Prop}
    {as : List α} {bs : List β} {cs : List γ} (first : List.Forall₂ R as bs)
    (second : List.Forall₂ S bs cs) : List.Forall₂ (fun a c => ∃ b, R a b ∧ S b c) as cs := by
  induction first generalizing cs with
  | nil =>
      cases second
      exact .nil
  | cons head _ ih =>
      cases second with
      | cons head' tail => exact .cons ⟨_, head, head'⟩ (ih tail)

theorem exists_forall₂_comp_iff {α : Type u} {β : Type v} {γ : Type w} {R : α → β → Prop}
    {S : β → γ → Prop} {as : List α} {cs : List γ} :
    (∃ bs, List.Forall₂ R as bs ∧ List.Forall₂ S bs cs) ↔
      List.Forall₂ (fun a c => ∃ b, R a b ∧ S b c) as cs := by
  constructor
  · intro ⟨_, first, second⟩
    exact forall₂_comp first second
  · intro related
    induction related with
    | nil => exact ⟨[], .nil, .nil⟩
    | cons head _ ih =>
        obtain ⟨b, first, second⟩ := head
        obtain ⟨bs, firsts, seconds⟩ := ih
        exact ⟨b :: bs, .cons first firsts, .cons second seconds⟩

theorem forall₂_append_left_iff {α : Type u} {β : Type v} {R : α → β → Prop} {as as' : List α}
    {bs : List β} :
    List.Forall₂ R (as ++ as') bs ↔
      ∃ first second, List.Forall₂ R as first ∧ List.Forall₂ R as' second ∧
        first ++ second = bs := by
  constructor
  · intro related
    induction as generalizing bs with
    | nil => exact ⟨[], bs, .nil, related, rfl⟩
    | cons a as ih =>
        cases related with
        | cons head tail =>
            obtain ⟨first, second, related, others, same⟩ := ih tail
            exact ⟨_ :: first, second, .cons head related, others, congrArg _ same⟩
  · intro ⟨first, second, related, others, same⟩
    rw [← same]
    exact List.rel_append related others

theorem forall₂_flatMap_left_iff {α : Type u} {β : Type v} {γ : Type w} {R : β → γ → Prop}
    {f : α → List β} {S : α → List γ → Prop} (each : ∀ a cs, List.Forall₂ R (f a) cs ↔ S a cs)
    {as : List α} {cs : List γ} :
    List.Forall₂ R (as.flatMap f) cs ↔ ∃ css, List.Forall₂ S as css ∧ css.flatten = cs := by
  induction as generalizing cs with
  | nil => simp
  | cons a as ih =>
      rw [List.flatMap_cons, forall₂_append_left_iff]
      constructor
      · intro ⟨first, second, related, others, same⟩
        obtain ⟨css, placed, rfl⟩ := ih.mp others
        exact ⟨first :: css, .cons ((each a first).mp related) placed, same⟩
      · intro ⟨_, related, same⟩
        cases related with
        | cons head tail =>
            exact ⟨_, _, (each a _).mpr head, ih.mpr ⟨_, tail, rfl⟩, same⟩

namespace Outcome

variable {ε : Type u} {α β : Type v}

@[simp] theorem ok_bind (a : α) (f : α → Except ε β) : (Except.ok a >>= f) = f a := rfl

@[simp] theorem error_bind (e : ε) (f : α → Except ε β) :
    ((Except.error e : Except ε α) >>= f) = .error e := rfl

theorem bind_eq_ok_iff {x : Except ε α} {f : α → Except ε β} {b : β} :
    (x >>= f) = .ok b ↔ ∃ a, x = .ok a ∧ f a = .ok b := by
  cases x with
  | error e => simp
  | ok a => simp

theorem map_eq_ok_iff {x : Except ε α} {f : α → β} {b : β} :
    f <$> x = .ok b ↔ ∃ a, x = .ok a ∧ f a = b := by
  cases x with
  | error e => simp
  | ok a => simp

theorem mapM_eq_ok_iff {f : α → Except ε β} {as : List α} {bs : List β} :
    as.mapM f = .ok bs ↔ List.Forall₂ (fun a b => f a = .ok b) as bs := by
  induction as generalizing bs with
  | nil =>
      rw [List.mapM_nil, List.forall₂_nil_left_iff]
      exact ⟨fun h => (Except.ok.inj h).symm, fun h => congrArg Except.ok h.symm⟩
  | cons a as ih =>
      rw [List.mapM_cons, bind_eq_ok_iff, List.forall₂_cons_left_iff]
      constructor
      · intro ⟨b, first, others⟩
        obtain ⟨rest, mapped, equality⟩ := bind_eq_ok_iff.mp others
        exact ⟨b, rest, first, ih.mp mapped, (Except.ok.inj equality).symm⟩
      · intro ⟨b, rest, first, mapped, same⟩
        rw [same]
        exact ⟨b, first, bind_eq_ok_iff.mpr ⟨rest, ih.mpr mapped, rfl⟩⟩

theorem exists_mapM_eq_ok_iff {f : α → Except ε β} {as : List α} :
    (∃ bs, as.mapM f = .ok bs) ↔ ∀ a ∈ as, ∃ b, f a = .ok b := by
  simp only [mapM_eq_ok_iff, exists_forall₂_iff]

/-- One step that fails makes the whole list fail. -/
theorem exists_mapM_eq_error {f : α → Except ε β} {as : List α} {a : α} (member : a ∈ as)
    (failed : ∃ e, f a = .error e) : ∃ e, as.mapM f = .error e := by
  cases outcome : as.mapM f with
  | error e => exact ⟨e, rfl⟩
  | ok bs =>
      obtain ⟨e, failed⟩ := failed
      obtain ⟨b, succeeded⟩ := exists_mapM_eq_ok_iff.mp ⟨bs, outcome⟩ a member
      rw [failed] at succeeded
      contradiction

end Outcome

/-- Three lists of one length, related place by place. -/
inductive Aligned {α : Type u} {β : Type v} {γ : Type w} (R : α → β → γ → Prop) :
    List α → List β → List γ → Prop
  | nil : Aligned R [] [] []
  | cons {a b c as bs cs} (head : R a b c) (tail : Aligned R as bs cs) :
      Aligned R (a :: as) (b :: bs) (c :: cs)

namespace Aligned

variable {α : Type u} {β : Type v} {γ : Type w} {R : α → β → γ → Prop}

theorem forall₂_right {S : β → γ → Prop} {as : List α} {bs : List β} {cs : List γ}
    (aligned : Aligned R as bs cs) (implies : ∀ a b c, R a b c → S b c) :
    List.Forall₂ S bs cs := by
  induction aligned with
  | nil => exact .nil
  | cons head _ ih => exact .cons (implies _ _ _ head) ih

/-- What is known of the first two lists, beside what relates all three. -/
theorem forall₂ {S : α → β → Prop} {as : List α} {bs : List β} {cs : List γ}
    (aligned : Aligned R as bs cs) (related : List.Forall₂ S as bs) :
    List.Forall₂ (fun a c => ∃ b, S a b ∧ R a b c) as cs := by
  induction aligned with
  | nil => exact .nil
  | cons head _ ih =>
      cases related with
      | cons head' tail => exact .cons ⟨_, head', head⟩ (ih tail)

/-- Two lists that are related to one list. -/
theorem of_forall₂ {S : α → β → Prop} {T : α → γ → Prop} {as : List α} {bs : List β} {cs : List γ}
    (first : List.Forall₂ S as bs) (second : List.Forall₂ T as cs)
    (both : ∀ a b c, S a b → T a c → R a b c) : Aligned R as bs cs := by
  induction first generalizing cs with
  | nil =>
      cases second
      exact .nil
  | cons head _ ih =>
      cases second with
      | cons head' tail => exact .cons (both _ _ _ head head') (ih tail)

/-- Properties that agree at each place hold together of the second list and of the third. -/
theorem forall_mem_iff {P : β → Prop} {Q : γ → Prop} {as : List α} {bs : List β} {cs : List γ}
    (aligned : Aligned R as bs cs) (agree : ∀ a b c, R a b c → (P b ↔ Q c)) :
    (∀ b ∈ bs, P b) ↔ ∀ c ∈ cs, Q c := by
  induction aligned with
  | nil => simp
  | cons head _ ih => simp only [List.forall_mem_cons, agree _ _ _ head, ih]

theorem map_left {α' : Type u'} (f : α' → α) {as : List α'} {bs : List β} {cs : List γ}
    (aligned : Aligned (fun a => R (f a)) as bs cs) : Aligned R (as.map f) bs cs := by
  induction aligned with
  | nil => exact .nil
  | cons head _ ih => exact .cons head ih

end Aligned

/-- Both computations fail with the same fault, or both succeed with related results. -/
inductive Agree {ε : Type u} {α : Type v} {β : Type w} (R : α → β → Prop) :
    Except ε α → Except ε β → Prop
  | ok {a b} (related : R a b) : Agree R (.ok a) (.ok b)
  | error (e) : Agree R (.error e) (.error e)

namespace Agree

variable {ε : Type u} {α α' : Type v} {β β' : Type w} {R : α → β → Prop} {S : α' → β' → Prop}

theorem imp {R' : α → β → Prop} {x : Except ε α} {y : Except ε β} (agree : Agree R x y)
    (implies : ∀ a b, R a b → R' a b) : Agree R' x y := by
  cases agree with
  | ok related => exact .ok (implies _ _ related)
  | error e => exact .error e

theorem bind {x : Except ε α} {y : Except ε β} {f : α → Except ε α'} {g : β → Except ε β'}
    (agree : Agree R x y) (next : ∀ a b, R a b → Agree S (f a) (g b)) :
    Agree S (x >>= f) (y >>= g) := by
  cases agree with
  | ok related => exact next _ _ related
  | error e => exact .error e

theorem map {x : Except ε α} {y : Except ε β} {f : α → α'} {g : β → β'}
    (agree : Agree R x y) (next : ∀ a b, R a b → S (f a) (g b)) :
    Agree S (f <$> x) (g <$> y) := by
  cases agree with
  | ok related => exact .ok (next _ _ related)
  | error e => exact .error e

theorem eq_error_iff {x : Except ε α} {y : Except ε β} {e : ε} (agree : Agree R x y) :
    x = .error e ↔ y = .error e := by
  cases agree with
  | ok related => simp
  | error fault => simp

theorem exists_of_ok {x : Except ε α} {b : β} (agree : Agree R x (.ok b)) :
    ∃ a, x = .ok a ∧ R a b := by
  cases agree with
  | ok related => exact ⟨_, rfl, related⟩

theorem exists_ok_iff {x : Except ε α} {y : Except ε β} {P : α → Prop} {Q : β → Prop}
    (agree : Agree R x y) (same : ∀ a b, R a b → (P a ↔ Q b)) :
    (∃ a, x = .ok a ∧ P a) ↔ ∃ b, y = .ok b ∧ Q b := by
  cases agree with
  | ok related => simpa using same _ _ related
  | error e => simp

/-- What holds step by step of one list that is worked through in two ways holds of the whole. -/
theorem mapM {σ : Type v} {R : σ → α → β → Prop} {f : σ → Except ε α} {g : σ → Except ε β}
    (sources : List σ) (steps : ∀ source ∈ sources, Agree (R source) (f source) (g source)) :
    Agree (Aligned R sources) (sources.mapM f) (sources.mapM g) := by
  induction sources with
  | nil => exact .ok .nil
  | cons source sources ih =>
      obtain ⟨first, others⟩ := List.forall_mem_cons.mp steps
      rw [List.mapM_cons, List.mapM_cons]
      refine first.bind fun a b head => ?_
      refine (ih others).bind fun as bs tail => ?_
      exact .ok (.cons head tail)

end Agree

end Winnow
