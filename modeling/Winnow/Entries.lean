/-!
# Ordered tables

Keys with values, in the order in which the keys first came. Writing to a key that is present
keeps its place; a new key goes to the end. `keys_put` and `get?_put` say what a write does to the
order and to the contents.
-/

namespace Winnow

abbrev Entries (α : Type u) := List (String × α)

namespace Entries

variable {α : Type u} {β : Type v}

def get? : Entries α → String → Option α
  | [], _ => none
  | (key, value) :: rest, k => if key = k then some value else get? rest k

def keys (entries : Entries α) : List String :=
  entries.map Prod.fst

/-- No key occurs twice. -/
def Distinct (entries : Entries α) : Prop :=
  (keys entries).Nodup

instance (entries : Entries α) : Decidable (Distinct entries) := by
  unfold Distinct; infer_instance

def put : Entries α → String → α → Entries α
  | [], k, v => [(k, v)]
  | (key, value) :: rest, k, v =>
    if key = k then (key, v) :: rest else (key, value) :: put rest k v

/-- Writes all of `later` in order. -/
def extend (entries later : Entries α) : Entries α :=
  later.foldl (fun acc (key, value) => put acc key value) entries

/-- The table that a sequence of writes makes. -/
def ofList (writes : List (String × α)) : Entries α :=
  extend [] writes

def mapValues (f : α → β) (entries : Entries α) : Entries β :=
  entries.map fun (key, value) => (key, f value)

@[simp] theorem get?_nil (k : String) : get? ([] : Entries α) k = none := rfl

@[simp] theorem keys_nil : keys ([] : Entries α) = [] := rfl

@[simp] theorem keys_cons (key : String) (value : α) (rest : Entries α) :
    keys ((key, value) :: rest) = key :: keys rest := rfl

@[simp] theorem keys_mapValues (f : α → β) (entries : Entries α) :
    keys (mapValues f entries) = keys entries := by
  simp [keys, mapValues, Function.comp_def]

theorem get?_eq_none_iff (entries : Entries α) (k : String) :
    get? entries k = none ↔ k ∉ keys entries := by
  induction entries with
  | nil => simp
  | cons entry rest ih =>
    obtain ⟨key, value⟩ := entry
    by_cases h : key = k
    · simp [get?, h]
    · simp [get?, h, ih, Ne.symm h]

theorem get?_put (entries : Entries α) (k : String) (v : α) (q : String) :
    get? (put entries k v) q = if k = q then some v else get? entries q := by
  induction entries with
  | nil => simp [put, get?]
  | cons entry rest ih =>
    obtain ⟨key, value⟩ := entry
    by_cases h : key = k
    · subst h
      by_cases hq : key = q <;> simp [put, get?, hq]
    · by_cases hq : key = q
      · subst hq
        simp [put, get?, h, Ne.symm h]
      · simp [put, get?, h, hq, ih]

theorem keys_put (entries : Entries α) (k : String) (v : α) :
    keys (put entries k v) = if k ∈ keys entries then keys entries else keys entries ++ [k] := by
  induction entries with
  | nil => simp [put]
  | cons entry rest ih =>
    obtain ⟨key, value⟩ := entry
    by_cases h : key = k
    · simp [put, h]
    · simp only [put, h, if_false, keys_cons, ih, List.mem_cons, Ne.symm h, false_or]
      split <;> simp

theorem Distinct.put {entries : Entries α} (h : Distinct entries) (k : String) (v : α) :
    Distinct (Entries.put entries k v) := by
  unfold Distinct at *
  rw [keys_put]
  split
  · exact h
  · next hk =>
    rw [List.nodup_append]
    refine ⟨h, by simp, ?_⟩
    intro a ha b hb hab
    simp only [List.mem_singleton] at hb
    exact hk (hb ▸ hab ▸ ha)

theorem Distinct.extend {entries : Entries α} (h : Distinct entries) (later : Entries α) :
    Distinct (Entries.extend entries later) := by
  induction later generalizing entries with
  | nil => exact h
  | cons write rest ih => exact ih (h.put write.1 write.2)

end Entries

end Winnow
