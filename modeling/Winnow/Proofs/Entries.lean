import Winnow.Entries

/-!
# Looking up and mapping entries

How a look-up sees a table whose values were mapped, and what a write of one key leaves as it was.
-/

namespace Winnow.Entries

variable {α : Type u} {β : Type v}

theorem get?_cons (key : String) (value : α) (rest : Entries α) (k : String) :
    get? ((key, value) :: rest) k = if key = k then some value else get? rest k := rfl

@[simp] theorem get?_mapValues (f : α → β) (entries : Entries α) (k : String) :
    get? (mapValues f entries) k = (get? entries k).map f := by
  induction entries with
  | nil => rfl
  | cons entry rest ih =>
      obtain ⟨key, value⟩ := entry
      change (if key = k then some (f value) else get? (mapValues f rest) k) = _
      rw [ih, get?_cons]
      split <;> rfl

theorem isSome_get?_iff (entries : Entries α) (k : String) :
    (get? entries k).isSome ↔ k ∈ keys entries := by
  rw [Option.isSome_iff_ne_none, ne_eq, get?_eq_none_iff, Decidable.not_not]

theorem mem_keys_iff {entries : Entries α} {k : String} :
    k ∈ keys entries ↔ ∃ v, get? entries k = some v := by
  rw [← isSome_get?_iff, Option.isSome_iff_exists]

theorem mem_of_get? {entries : Entries α} {k : String} {v : α} (found : get? entries k = some v) :
    (k, v) ∈ entries := by
  induction entries with
  | nil => cases found
  | cons entry rest ih =>
      obtain ⟨key, value⟩ := entry
      rw [get?_cons] at found
      split at found
      · next equality =>
        cases found
        subst equality
        exact List.mem_cons_self
      · exact List.mem_cons_of_mem _ (ih found)

theorem put_of_get? {entries : Entries α} {k : String} {v : α} (found : get? entries k = some v) :
    put entries k v = entries := by
  induction entries with
  | nil => cases found
  | cons entry rest ih =>
      obtain ⟨key, value⟩ := entry
      rw [get?_cons] at found
      by_cases equality : key = k
      · rw [if_pos equality] at found
        cases found
        simp [put, equality]
      · rw [if_neg equality] at found
        simp [put, equality, ih found]

/-- A table is known by its keys, in order, and by what it has under each. -/
theorem eq_of_get?_eq {entries others : Entries α} (distinct : Distinct entries)
    (sameKeys : keys entries = keys others) (sameValues : ∀ k, get? entries k = get? others k) :
    entries = others := by
  induction entries generalizing others with
  | nil => exact (List.map_eq_nil_iff.mp sameKeys.symm).symm
  | cons entry rest ih =>
      obtain ⟨key, value⟩ := entry
      obtain ⟨fresh, distinctRest⟩ := List.nodup_cons.mp distinct
      cases others with
      | nil => cases sameKeys
      | cons other others =>
          obtain ⟨key', value'⟩ := other
          obtain ⟨rfl, sameRest⟩ := List.cons.inj sameKeys
          have sameRest : keys rest = keys others := sameRest
          have head := sameValues key
          simp only [get?_cons, if_true, Option.some.injEq] at head
          have tail (k : String) : get? rest k = get? others k := by
            by_cases here : key = k
            · have absent : k ∉ keys rest := here ▸ fresh
              rw [(get?_eq_none_iff rest k).mpr absent,
                (get?_eq_none_iff others k).mpr (sameRest ▸ absent)]
            · simpa only [get?_cons, if_neg here] using sameValues k
          rw [head, ih distinctRest sameRest tail]

theorem keys_put_of_mem {entries : Entries α} {k : String} (v : α) (member : k ∈ keys entries) :
    keys (put entries k v) = keys entries := by
  rw [keys_put, if_pos member]

/-- Writing one value that has a property over another that has it keeps the property of all. -/
theorem forall_mem_put {entries : Entries α} {k : String} {v w : α} {P : α → Prop}
    (found : get? entries k = some v) (old : P v) (new : P w) :
    (∀ entry ∈ put entries k w, P entry.2) ↔ ∀ entry ∈ entries, P entry.2 := by
  induction entries with
  | nil => cases found
  | cons entry rest ih =>
      obtain ⟨key, value⟩ := entry
      rw [get?_cons] at found
      by_cases equality : key = k
      · rw [if_pos equality] at found
        cases found
        simp [put, equality, old, new]
      · rw [if_neg equality] at found
        simp only [put, if_neg equality, List.forall_mem_cons, ih found]

theorem mapValues_inj (f g : α → β) (entries : Entries α) :
    mapValues f entries = mapValues g entries ↔ ∀ entry ∈ entries, f entry.2 = g entry.2 := by
  simp only [mapValues, List.map_inj_left, Prod.mk.injEq, true_and]

@[simp] theorem mapValues_id (entries : Entries α) : mapValues id entries = entries := by
  simp [mapValues]

@[simp] theorem mapValues_mapValues (f : β → γ) (g : α → β) (entries : Entries α) :
    mapValues f (mapValues g entries) = mapValues (f ∘ g) entries := by
  simp [mapValues]

end Winnow.Entries
