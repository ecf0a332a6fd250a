import Winnow.Proofs.Outcome

/-!
# The first fault

A list that is worked through from left to right fails with the fault of the first item that is not
accepted, whatever comes after it.
-/

namespace Winnow

/-- What comes before some item is accepted, and that item has the fault. -/
def FirstFault {α : Type u} {ε : Type v} (accepted : α → Prop) (faulty : α → ε → Prop)
    (items : List α) (fault : ε) : Prop :=
  ∃ before item after, items = before ++ item :: after ∧ (∀ earlier ∈ before, accepted earlier) ∧
    faulty item fault

namespace FirstFault

variable {α : Type u} {β : Type v} {ε : Type w} {accepted : α → Prop} {faulty : α → ε → Prop}
variable {fault : ε}

theorem not_nil : ¬ FirstFault accepted faulty [] fault := by
  intro ⟨before, item, after, split, _⟩
  cases before <;> cases split

theorem cons_iff {item : α} {rest : List α} :
    FirstFault accepted faulty (item :: rest) fault ↔
      faulty item fault ∨ accepted item ∧ FirstFault accepted faulty rest fault := by
  constructor
  · intro ⟨before, found, after, split, earlier, faulted⟩
    cases before with
    | nil =>
        cases split
        exact .inl faulted
    | cons first before =>
        cases split
        obtain ⟨fine, others⟩ := List.forall_mem_cons.mp earlier
        exact .inr ⟨fine, before, found, after, rfl, others, faulted⟩
  · rintro (faulted | ⟨fine, before, found, after, split, earlier, faulted⟩)
    · exact ⟨[], item, rest, rfl, List.forall_mem_nil _, faulted⟩
    · rw [split]
      exact ⟨item :: before, found, after, rfl, List.forall_mem_cons.mpr ⟨fine, earlier⟩, faulted⟩

theorem singleton_iff {item : α} : FirstFault accepted faulty [item] fault ↔ faulty item fault := by
  simp only [cons_iff, not_nil, and_false, or_false]

theorem append_iff {first second : List α} :
    FirstFault accepted faulty (first ++ second) fault ↔
      FirstFault accepted faulty first fault ∨
        (∀ item ∈ first, accepted item) ∧ FirstFault accepted faulty second fault := by
  induction first with
  | nil => simp [not_nil]
  | cons item rest ih =>
      rw [List.cons_append, cons_iff, cons_iff, ih, List.forall_mem_cons]
      tauto

theorem exists_or_forall {items : List α}
    (each : ∀ item ∈ items, accepted item ∨ ∃ fault, faulty item fault) :
    (∃ fault, FirstFault accepted faulty items fault) ∨ ∀ item ∈ items, accepted item := by
  induction items with
  | nil => exact .inr (List.forall_mem_nil _)
  | cons item rest ih =>
      obtain ⟨head, others⟩ := List.forall_mem_cons.mp each
      obtain fine | ⟨fault, faulted⟩ := head
      · obtain ⟨fault, first⟩ | all := ih others
        · exact .inl ⟨fault, cons_iff.mpr (.inr ⟨fine, first⟩)⟩
        · exact .inr (List.forall_mem_cons.mpr ⟨fine, all⟩)
      · exact .inl ⟨fault, cons_iff.mpr (.inl faulted)⟩

/-- Lists one behind the other are worked through as one list is whose items are the lists. -/
theorem flatMap_iff {parts : β → List α} {sources : List β} :
    FirstFault accepted faulty (sources.flatMap parts) fault ↔
      FirstFault (fun source => ∀ item ∈ parts source, accepted item)
        (fun source => FirstFault accepted faulty (parts source)) sources fault := by
  induction sources with
  | nil => simp only [List.flatMap_nil, not_nil]
  | cons source sources ih => rw [List.flatMap_cons, append_iff, cons_iff, ih]

end FirstFault

namespace Outcome

variable {ε : Type u} {α β : Type v}

theorem bind_eq_error_iff {x : Except ε α} {f : α → Except ε β} {e : ε} :
    (x >>= f) = .error e ↔ x = .error e ∨ ∃ a, x = .ok a ∧ f a = .error e := by
  cases x with
  | error e => simp
  | ok a => simp

theorem map_eq_error_iff {x : Except ε α} {f : α → β} {e : ε} :
    f <$> x = .error e ↔ x = .error e := by
  cases x with
  | error e => simp
  | ok a => simp

theorem mapM_eq_error_iff {f : α → Except ε β} {as : List α} {e : ε} :
    as.mapM f = .error e ↔
      FirstFault (fun a => ∃ b, f a = .ok b) (fun a e => f a = .error e) as e := by
  induction as with
  | nil =>
      refine ⟨fun impossible => (by cases impossible), ?_⟩
      exact fun first => (FirstFault.not_nil first).elim
  | cons a as ih =>
      rw [List.mapM_cons, bind_eq_error_iff, FirstFault.cons_iff, ← ih]
      -- What is made of the results of a list that succeeds cannot fail.
      have rest (b : β) : (as.mapM f >>= fun bs => pure (b :: bs)) = .error e ↔
          as.mapM f = .error e := by
        cases as.mapM f with
        | error fault => simp
        | ok bs => simp [pure, Except.pure]
      simp only [rest, exists_and_right]

end Outcome

end Winnow
