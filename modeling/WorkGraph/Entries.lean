/-!
# Maps in order of insertion

`Entries α` is a list of keys with values. Writing to a key that is present replaces its value and keeps its place; a
new key goes to the end. Reading sees the last write (`get?_set_self`), other keys are unaffected (`get?_set_ne`), and
keys stay distinct (`nodup_keys_set`).
-/

namespace WorkGraph

abbrev Entries (α : Type) := List (String × α)

namespace Entries

variable {α β : Type}

/-- The value of a key. -/
def get? : Entries α → String → Option α
  | [], _ => none
  | (k, v) :: rest, key => if k = key then some v else get? rest key

/-- Whether a key is present. -/
def has (m : Entries α) (key : String) : Bool :=
  (get? m key).isSome

/-- The keys in order. -/
def keys (m : Entries α) : List String :=
  m.map (·.1)

/-- The map with a key set to a value. -/
def set : Entries α → String → α → Entries α
  | [], key, value => [(key, value)]
  | (k, v) :: rest, key, value => if k = key then (k, value) :: rest else (k, v) :: set rest key value

/-- The map with a key set only if it was absent. -/
def setDefault (m : Entries α) (key : String) (value : α) : Entries α :=
  if m.has key then m else m ++ [(key, value)]

/-- The map without a key. -/
def erase (m : Entries α) (key : String) : Entries α :=
  m.filter fun entry => entry.1 != key

/-- The first map with the entries of the second written over it. -/
def merge (m n : Entries α) : Entries α :=
  n.foldl (fun m entry => m.set entry.1 entry.2) m

/-- The map that a list of writes builds. -/
def ofList (writes : List (String × α)) : Entries α :=
  merge [] writes

@[simp] theorem get?_nil (key : String) : get? ([] : Entries α) key = none := rfl

@[simp] theorem get?_set_self (m : Entries α) (key : String) (value : α) : (m.set key value).get? key = some value := by
  induction m with
  | nil => simp [set, get?]
  | cons e rest ih =>
    obtain ⟨k, v⟩ := e
    by_cases h : k = key <;> simp [set, get?, h, ih]

theorem get?_set_ne (m : Entries α) {key other : String} (value : α) (h : other ≠ key) :
    (m.set key value).get? other = m.get? other := by
  induction m with
  | nil => simp [set, get?, Ne.symm h]
  | cons e rest ih =>
    obtain ⟨k, v⟩ := e
    by_cases hk : k = key
    · subst hk; simp [set, get?, Ne.symm h]
    · rw [set, if_neg hk, get?, get?, ih]

@[simp] theorem set_set (m : Entries α) (key : String) (first second : α) :
    (m.set key first).set key second = m.set key second := by
  induction m with
  | nil => simp [set]
  | cons e rest ih =>
    obtain ⟨k, v⟩ := e
    by_cases h : k = key <;> simp [set, h, ih]

theorem get?_set (m : Entries α) (key other : String) (value : α) :
    (m.set key value).get? other = if other = key then some value else m.get? other := by
  by_cases h : other = key
  · subst h; simp
  · simp [h, get?_set_ne m value h]

theorem mem_keys_iff_get? {m : Entries α} {key : String} : key ∈ m.keys ↔ (m.get? key).isSome = true := by
  induction m with
  | nil => simp [keys]
  | cons e rest ih =>
    obtain ⟨k, v⟩ := e
    by_cases h : k = key
    · simp [keys, get?, h]
    · simp only [keys, List.map_cons, List.mem_cons, get?, if_neg h] at ih ⊢
      rw [← ih]
      exact ⟨fun hm => hm.resolve_left (Ne.symm h), Or.inr⟩

theorem keys_set (m : Entries α) (key : String) (value : α) :
    (m.set key value).keys = if m.has key then m.keys else m.keys ++ [key] := by
  induction m with
  | nil => simp [set, keys, has]
  | cons e rest ih =>
    obtain ⟨k, v⟩ := e
    by_cases h : k = key
    · simp [set, keys, has, get?, h]
    · simp only [keys, has] at ih
      simp only [set, keys, has, get?, if_neg h, List.map_cons, ih]
      split <;> simp [*]

theorem nodup_keys_set {m : Entries α} (h : m.keys.Nodup) (key : String) (value : α) :
    (m.set key value).keys.Nodup := by
  rw [keys_set]
  split
  · exact h
  · next hn =>
    rw [List.nodup_append]
    refine ⟨h, by simp, ?_⟩
    intro a ha b hb hab
    simp only [List.mem_singleton] at hb
    subst hab hb
    exact hn (by simpa [has] using mem_keys_iff_get?.1 ha)

theorem get?_append (m n : Entries α) (key : String) : get? (m ++ n) key = (m.get? key).or (n.get? key) := by
  induction m with
  | nil => simp
  | cons e rest ih =>
    obtain ⟨k, v⟩ := e
    by_cases h : k = key <;> simp [get?, h, ih]

theorem mem_of_get? {m : Entries α} {key : String} {value : α} (h : m.get? key = some value) : (key, value) ∈ m := by
  induction m with
  | nil => simp at h
  | cons e rest ih =>
    obtain ⟨k, v⟩ := e
    by_cases hk : k = key
    · simp only [get?, if_pos hk, Option.some.injEq] at h
      simp [hk, h]
    · simp only [get?, if_neg hk] at h
      exact List.mem_cons_of_mem _ (ih h)

end Entries

end WorkGraph
