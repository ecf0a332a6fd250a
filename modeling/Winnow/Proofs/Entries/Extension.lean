import Mathlib.Data.List.Basic
import Winnow.Proofs.Entries

/-!
# Extending entries

What writing one table over another does: keys stay where they first came, and each has the value
that was written last. Tables without a common key are put one behind the other, and of three tables
it does not matter which two are put together first.
-/

namespace Winnow.Entries

variable {α : Type u}

theorem extend_cons (entries : Entries α) (key : String) (value : α) (later : Entries α) :
    extend entries ((key, value) :: later) = extend (put entries key value) later := rfl

/-- The keys of a table that was written in the order `written`. -/
theorem keys_put_of_eraseDups {entries : Entries α} {written : List String}
    (keys_eq : keys entries = written.eraseDups) (k : String) (v : α) :
    keys (put entries k v) = (written ++ [k]).eraseDups := by
  rw [keys_put, List.eraseDups_append, List.cons_removeAll, List.nil_removeAll, keys_eq]
  by_cases member : k ∈ written
  · simp [member]
  · simp [member, List.eraseDups_cons]

theorem keys_extend_of_eraseDups {entries : Entries α} {written : List String}
    (keys_eq : keys entries = written.eraseDups) (later : Entries α) :
    keys (extend entries later) = (written ++ keys later).eraseDups := by
  induction later generalizing entries written with
  | nil => rw [keys_nil, List.append_nil, ← keys_eq, extend, List.foldl_nil]
  | cons entry rest ih =>
      obtain ⟨key, value⟩ := entry
      have written' := ih (keys_put_of_eraseDups keys_eq key value)
      rw [extend_cons, written', keys_cons, List.append_assoc, List.singleton_append]

theorem get?_extend (entries : Entries α) {later : Entries α} (distinct : Distinct later)
    (k : String) : get? (extend entries later) k = (get? later k).or (get? entries k) := by
  induction later generalizing entries with
  | nil => rfl
  | cons entry rest ih =>
      obtain ⟨key, value⟩ := entry
      obtain ⟨fresh, distinctRest⟩ := List.nodup_cons.mp distinct
      rw [extend_cons, ih _ distinctRest, get?_put, get?_cons]
      by_cases same : key = k
      · have absent : get? rest k = none := (get?_eq_none_iff rest k).mpr (same ▸ fresh)
        rw [if_pos same, if_pos same, absent, Option.none_or, Option.some_or]
      · rw [if_neg same, if_neg same]

theorem put_eq_append {entries : Entries α} {k : String} (fresh : k ∉ keys entries) (v : α) :
    put entries k v = entries ++ [(k, v)] := by
  induction entries with
  | nil => rfl
  | cons entry rest ih =>
      obtain ⟨key, value⟩ := entry
      rw [keys_cons, List.mem_cons, not_or] at fresh
      rw [put, if_neg (Ne.symm fresh.1), ih fresh.2, List.cons_append]

theorem extend_eq_append {entries later : Entries α} (distinct : Distinct later)
    (disjoint : List.Disjoint (keys entries) (keys later)) :
    extend entries later = entries ++ later := by
  induction later generalizing entries with
  | nil => exact (List.append_nil entries).symm
  | cons entry rest ih =>
      obtain ⟨key, value⟩ := entry
      obtain ⟨fresh, distinctRest⟩ := List.nodup_cons.mp distinct
      rw [keys_cons, List.disjoint_cons_right] at disjoint
      have append := put_eq_append disjoint.1 value
      have disjointRest : List.Disjoint (keys (put entries key value)) (keys rest) := by
        rw [keys_put, if_neg disjoint.1, List.disjoint_append_left, List.singleton_disjoint]
        exact ⟨disjoint.2, fresh⟩
      rw [extend_cons, ih distinctRest disjointRest, append, List.append_assoc,
        List.singleton_append]

theorem mem_keys_put {entries : Entries α} {k key : String} {v : α} :
    key ∈ keys (put entries k v) ↔ key = k ∨ key ∈ keys entries := by
  simp only [← isSome_get?_iff, get?_put]
  by_cases same : key = k
  · simp [same]
  · simp [same, Ne.symm same]

theorem put_put (entries : Entries α) (k : String) (v w : α) :
    put (put entries k v) k w = put entries k w := by
  induction entries with
  | nil => simp [put]
  | cons entry rest ih =>
      obtain ⟨key, value⟩ := entry
      by_cases same : key = k
      · simp [put, same]
      · simp [put, same, ih]

/-- A key that is there already may be written before another one or after it. -/
theorem put_comm {entries : Entries α} {k key : String} (member : k ∈ keys entries)
    (other : key ≠ k) (v value : α) :
    put (put entries key value) k v = put (put entries k v) key value := by
  induction entries with
  | nil => cases member
  | cons entry rest ih =>
      obtain ⟨first, old⟩ := entry
      by_cases atKey : first = key
      · simp [put, atKey, other]
      · by_cases here : first = k
        · simp [put, here, Ne.symm other]
        · have later : k ∈ keys rest := by
            rw [keys_cons, List.mem_cons] at member
            exact member.resolve_left (Ne.symm here)
          simp [put, atKey, here, ih later]

theorem put_extend {entries later : Entries α} {k : String} (member : k ∈ keys entries)
    (fresh : k ∉ keys later) (v : α) :
    put (extend entries later) k v = extend (put entries k v) later := by
  induction later generalizing entries with
  | nil => rfl
  | cons entry rest ih =>
      obtain ⟨key, value⟩ := entry
      rw [keys_cons, List.mem_cons, not_or] at fresh
      rw [extend_cons, extend_cons, ih (mem_keys_put.mpr (.inr member)) fresh.2,
        put_comm member (Ne.symm fresh.1)]

/-- What is written to the later table before is written to the extended one after. -/
theorem extend_put (entries : Entries α) {later : Entries α} (distinct : Distinct later)
    (k : String) (v : α) :
    extend entries (put later k v) = put (extend entries later) k v := by
  induction later generalizing entries with
  | nil => rfl
  | cons entry rest ih =>
      obtain ⟨key, value⟩ := entry
      obtain ⟨fresh, distinctRest⟩ := List.nodup_cons.mp distinct
      rw [put, extend_cons]
      by_cases same : key = k
      · -- The key has its place by then, and the rest of the table does not write it.
        subst same
        rw [if_pos rfl, extend_cons, put_extend (mem_keys_put.mpr (.inl rfl)) fresh, put_put]
      · rw [if_neg same, extend_cons, ih _ distinctRest]

/-- Extending is associative. -/
theorem extend_extend (entries : Entries α) {later : Entries α} (distinct : Distinct later)
    (last : Entries α) :
    extend entries (extend later last) = extend (extend entries later) last := by
  induction last generalizing later with
  | nil => rfl
  | cons entry rest ih =>
      obtain ⟨key, value⟩ := entry
      rw [extend_cons, extend_cons, ih (distinct.put key value), extend_put entries distinct]

/-- Of several writes of a key the last one counts. -/
theorem get?_extend_writes (entries : Entries α) (writes : List (String × α)) (k : String) :
    get? (extend entries writes) k = (writes.reverse.lookup k).or (get? entries k) := by
  induction writes generalizing entries with
  | nil => rfl
  | cons write rest ih =>
      obtain ⟨key, value⟩ := write
      rw [extend_cons, ih, get?_put, List.reverse_cons, List.lookup_append, Option.or_assoc]
      by_cases same : key = k
      · simp [same]
      · have absent : (k == key) = false := beq_false_of_ne (Ne.symm same)
        rw [if_neg same, List.lookup_cons, absent]
        rfl

end Winnow.Entries
