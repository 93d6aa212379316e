/-!
# Tables in the order of first insertion

A `Table` maps names to values and remembers the order in which the names were
first added. Adding a name again replaces its value and leaves it where it stands.
Every document this library writes takes its key order from tables, so the two
facts used throughout are how `insert` changes the value of a name
(`get?_insert_self`, `get?_insert_of_ne`) and how it changes the list of names
(`keys_insert_of_mem`, `keys_insert_of_not_mem`).
-/

namespace ServiceContract

/-- Names with values, each name once, in the order of first insertion. -/
structure Table (α : Type) where
  /-- The names with their values. -/
  entries : List (String × α)
  /-- No name occurs twice. -/
  nodup : (entries.map Prod.fst).Nodup

namespace Table

variable {α β : Type}

/-! ## Lists of entries -/

/-- Replace the value of the first entry with the given name, or add an entry at the end. -/
def put (key : String) (value : α) : List (String × α) → List (String × α)
  | [] => [(key, value)]
  | (k, v) :: rest => if k = key then (key, value) :: rest else (k, v) :: put key value rest

/-- A known key stays where it is. -/
theorem map_fst_put_of_mem {key : String} {value : α} {l : List (String × α)}
    (h : key ∈ l.map Prod.fst) : (put key value l).map Prod.fst = l.map Prod.fst := by
  induction l with
  | nil => simp at h
  | cons e rest ih =>
    obtain ⟨k, v⟩ := e
    by_cases hk : k = key
    · simp [put, hk]
    · have : key ∈ rest.map Prod.fst := by
        simpa [List.mem_cons, Ne.symm hk] using h
      simp only [put, hk, if_false, List.map_cons, ih this]

/-- A new key goes to the end. -/
theorem map_fst_put_of_not_mem {key : String} {value : α} {l : List (String × α)}
    (h : key ∉ l.map Prod.fst) : (put key value l).map Prod.fst = l.map Prod.fst ++ [key] := by
  induction l with
  | nil => simp [put]
  | cons e rest ih =>
    obtain ⟨k, v⟩ := e
    simp only [List.map_cons, List.mem_cons, not_or] at h
    simp only [put, Ne.symm h.1, if_false, List.map_cons, ih h.2, List.cons_append]

/-- No key is put twice. -/
theorem nodup_map_fst_put {key : String} {value : α} {l : List (String × α)}
    (h : (l.map Prod.fst).Nodup) : ((put key value l).map Prod.fst).Nodup := by
  by_cases hm : key ∈ l.map Prod.fst
  · rw [map_fst_put_of_mem hm]; exact h
  · rw [map_fst_put_of_not_mem hm]
    refine List.nodup_append.2 ⟨h, by simp, ?_⟩
    intro a ha b hb
    have : b = key := by simpa using hb
    subst this
    exact fun hab => hm (hab ▸ ha)

theorem lookup_cons_of_ne {key other : String} (h : key ≠ other) (value : α)
    (l : List (String × α)) : List.lookup other ((key, value) :: l) = l.lookup other := by
  rw [List.lookup_cons, beq_false_of_ne h.symm]

/-- What was put is found. -/
theorem lookup_put_self (key : String) (value : α) (l : List (String × α)) :
    (put key value l).lookup key = some value := by
  induction l with
  | nil => simp [put]
  | cons e rest ih =>
    obtain ⟨k, v⟩ := e
    by_cases hk : k = key
    · simp [put, hk]
    · simp [put, hk, lookup_cons_of_ne, ih]

theorem lookup_put_of_ne {key other : String} (value : α) (l : List (String × α))
    (h : key ≠ other) : (put key value l).lookup other = l.lookup other := by
  induction l with
  | nil => simp [put, lookup_cons_of_ne h]
  | cons e rest ih =>
    obtain ⟨k, v⟩ := e
    by_cases hk : k = key
    · subst hk
      simp [put, lookup_cons_of_ne h]
    · simp only [put, hk, if_false, List.lookup_cons, ih]

theorem lookup_eq_none_iff_not_mem {key : String} {l : List (String × α)} :
    l.lookup key = none ↔ key ∉ l.map Prod.fst := by
  simp only [List.lookup_eq_none_iff, bne_iff_ne, List.mem_map, not_exists, not_and]
  exact forall₂_congr fun e _ => ne_comm

/-! ## Tables -/

/-- The table without names. -/
def empty : Table α := ⟨[], by simp⟩

instance : EmptyCollection (Table α) := ⟨empty⟩

instance : Inhabited (Table α) := ⟨empty⟩

/-- The names in the order of first insertion. -/
def keys (t : Table α) : List String := t.entries.map Prod.fst

/-- The value of a name. -/
def get? (t : Table α) (key : String) : Option α := t.entries.lookup key

/-- Whether a name is in the table. -/
def contains (t : Table α) (key : String) : Bool := (t.get? key).isSome

/-- The number of names. -/
def size (t : Table α) : Nat := t.entries.length

/-- Whether the table has no names. -/
def isEmpty (t : Table α) : Bool := t.entries.isEmpty

/-- Give a name a value : a new name goes to the end, a known one stays where it is. -/
def insert (t : Table α) (key : String) (value : α) : Table α :=
  ⟨put key value t.entries, nodup_map_fst_put t.nodup⟩

/-- Take a name out of the table. -/
def erase (t : Table α) (key : String) : Table α :=
  ⟨t.entries.filter fun e => e.1 ≠ key,
    List.Nodup.sublist (List.filter_sublist.map Prod.fst) t.nodup⟩

/-- Insert a list of entries, from left to right. -/
def insertAll (t : Table α) (entries : List (String × α)) : Table α :=
  entries.foldl (fun t e => t.insert e.1 e.2) t

/-- The table of a list of entries; of two entries with one name the later gives the value. -/
def ofList (entries : List (String × α)) : Table α := empty.insertAll entries

/-- Insert every entry of another table. -/
def extend (t u : Table α) : Table α := t.insertAll u.entries

@[ext] theorem ext {t u : Table α} (h : t.entries = u.entries) : t = u := by
  cases t; cases u; cases h; rfl

@[simp] theorem entries_empty : (empty : Table α).entries = [] := rfl

@[simp] theorem keys_empty : (empty : Table α).keys = [] := rfl

@[simp] theorem get?_empty (key : String) : (empty : Table α).get? key = none := rfl

theorem nodup_keys (t : Table α) : t.keys.Nodup := t.nodup

@[simp] theorem get?_insert_self (t : Table α) (key : String) (value : α) :
    (t.insert key value).get? key = some value :=
  lookup_put_self key value t.entries

theorem get?_insert_of_ne (t : Table α) {key other : String} (value : α) (h : key ≠ other) :
    (t.insert key value).get? other = t.get? other :=
  lookup_put_of_ne value t.entries h

/-- An insertion changes what is found under its key and nothing else. -/
theorem get?_insert (t : Table α) (key other : String) (value : α) :
    (t.insert key value).get? other = if key = other then some value else t.get? other := by
  by_cases h : key = other
  · subst h; simp
  · simp [h, get?_insert_of_ne]

theorem get?_eq_none_iff {t : Table α} {key : String} : t.get? key = none ↔ key ∉ t.keys :=
  lookup_eq_none_iff_not_mem

theorem contains_iff {t : Table α} {key : String} : t.contains key = true ↔ key ∈ t.keys := by
  rw [contains, Option.isSome_iff_ne_none, ne_eq, get?_eq_none_iff, Decidable.not_not]

theorem keys_insert_of_mem {t : Table α} {key : String} {value : α} (h : key ∈ t.keys) :
    (t.insert key value).keys = t.keys :=
  map_fst_put_of_mem h

theorem keys_insert_of_not_mem {t : Table α} {key : String} {value : α} (h : key ∉ t.keys) :
    (t.insert key value).keys = t.keys ++ [key] :=
  map_fst_put_of_not_mem h

end Table

end ServiceContract
