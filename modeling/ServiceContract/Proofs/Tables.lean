import ServiceContract.Table
import Mathlib.Data.List.Induction
import Mathlib.Data.List.Nodup
import Mathlib.Tactic.SplitIfs
/-!
# Tables as functions of what was put in

A table that entries were put into one by one is a function of the list of entries : a name
has the value that was given to it last (`Table.get?_ofList`), and the names stand in the
order of their first mentions (`Table.keys_ofList`), which is `List.eraseDups` of all
mentions. `List.lookup` on the reversed list is the value given last. Filling a table in
several parts is filling it with the parts in a row (`Table.ofList_append`).
-/

namespace ServiceContract

/-! ## First mentions -/

section Mentions

variable {α : Type} [BEq α] [LawfulBEq α]

theorem eraseDups_eq_self_of_nodup {l : List α} (h : l.Nodup) : l.eraseDups = l := by
  induction l with
  | nil => rfl
  | cons a l ih =>
    obtain ⟨ha, hl⟩ := List.nodup_cons.1 h
    have hkeep : (l.filter fun b => !b == a) = l := by
      rw [List.filter_eq_self]
      intro b hb
      have hne : b ≠ a := fun e => ha (e ▸ hb)
      simpa using hne
    rw [List.eraseDups_cons, hkeep, ih hl]

theorem nodup_eraseDups : ∀ l : List α, l.eraseDups.Nodup
  | [] => by simp
  | a :: l => by
    rw [List.eraseDups_cons, List.nodup_cons]
    exact ⟨by simp [List.mem_eraseDups], nodup_eraseDups (l.filter fun b => !b == a)⟩
  termination_by l => l.length
  decreasing_by exact Nat.lt_succ_of_le (List.length_filter_le _ _)

theorem removeAll_eraseDups (l m : List α) : m.removeAll l.eraseDups = m.removeAll l := by
  unfold List.removeAll
  refine List.filter_congr fun b _ => ?_
  rw [Bool.eq_iff_iff]
  simp [List.mem_eraseDups]

/-- Only first mentions count, so those of a beginning may be taken beforehand. -/
theorem eraseDups_append_left (l m : List α) :
    (l.eraseDups ++ m).eraseDups = (l ++ m).eraseDups := by
  rw [List.eraseDups_append, List.eraseDups_append,
    eraseDups_eq_self_of_nodup (nodup_eraseDups l), removeAll_eraseDups]

/-- A further mention adds a name exactly if it is new. -/
theorem eraseDups_append_singleton {l : List α} (h : l.Nodup) (a : α) [Decidable (a ∈ l)] :
    (l ++ [a]).eraseDups = if a ∈ l then l else l ++ [a] := by
  rw [List.eraseDups_append, eraseDups_eq_self_of_nodup h]
  by_cases ha : a ∈ l <;> simp [List.removeAll, List.eraseDups_cons, ha]

/-- The first mentions of things with names of their own are those of the names. -/
theorem eraseDups_map_of_injective {β : Type} [BEq β] [LawfulBEq β] {f : α → β}
    (hf : Function.Injective f) (l : List α) : (l.map f).eraseDups = l.eraseDups.map f := by
  classical
  induction l using List.reverseRecOn with
  | nil => rfl
  | append_singleton l a ih =>
    have hmem : f a ∈ l.eraseDups.map f ↔ a ∈ l.eraseDups := List.mem_map_of_injective hf
    rw [List.map_append, List.map_singleton, ← eraseDups_append_left, ih,
      ← eraseDups_append_left l, eraseDups_append_singleton (nodup_eraseDups l),
      eraseDups_append_singleton ((nodup_eraseDups l).map hf)]
    split_ifs with hnamed hmentioned hmentioned
    · rfl
    · exact absurd (hmem.1 hnamed) hmentioned
    · exact absurd (hmem.2 hmentioned) hnamed
    · rw [List.map_append, List.map_singleton]

end Mentions

/-- Lists of named values with the same names in the same order give the same under functions that
give the same for each name. -/
theorem map_congr_of_map_fst {α β γ : Type} {f : String × α → γ} {g : String × β → γ}
    {l : List (String × α)} {m : List (String × β)} (hnames : l.map Prod.fst = m.map Prod.fst)
    (h : ∀ name a b, (name, a) ∈ l → (name, b) ∈ m → f (name, a) = g (name, b)) :
    l.map f = m.map g := by
  induction l generalizing m with
  | nil =>
    obtain rfl : m = [] := List.map_eq_nil_iff.1 hnames.symm
    rfl
  | cons e l ih =>
    obtain ⟨name, a⟩ := e
    cases m with
    | nil => simp at hnames
    | cons e' m =>
      obtain ⟨other, b⟩ := e'
      obtain ⟨rfl, hrest⟩ : name = other ∧ l.map Prod.fst = m.map Prod.fst := by simpa using hnames
      rw [List.map_cons, List.map_cons, h name a b List.mem_cons_self List.mem_cons_self]
      refine congrArg _ (ih hrest fun k v w hv hw => ?_)
      exact h k v w (List.mem_cons_of_mem _ hv) (List.mem_cons_of_mem _ hw)

namespace Table

variable {α β : Type}

/-! ## Looking up in lists of entries -/

/-- What is looked up is in the list. -/
theorem mem_of_lookup {key : String} {value : α} {l : List (String × α)}
    (h : l.lookup key = some value) : (key, value) ∈ l := by
  obtain ⟨before, behind, rfl, -⟩ := List.lookup_eq_some_iff.1 h
  simp

/-- The value of a name is the first of all values that stand under it. -/
theorem lookup_eq_head? (key : String) (l : List (String × α)) :
    l.lookup key = ((l.filter (·.1 = key)).map Prod.snd).head? := by
  rw [List.lookup_eq_findSome?, ← List.head?_filterMap, ← List.filterMap_eq_map,
    List.filterMap_filter]
  congr 2
  funext e
  by_cases he : key = e.1
  · simp [he]
  · simp [he, Ne.symm he]

/-- Values that are put in the place of others are found by the same names. -/
theorem lookup_map {β : Type} (f : α → β) (key : String) (l : List (String × α)) :
    (l.map fun e => (e.1, f e.2)).lookup key = (l.lookup key).map f := by
  rw [List.lookup_eq_findSome?, List.lookup_eq_findSome?, List.findSome?_map, List.map_findSome?]
  congr 1
  funext e
  by_cases he : key = e.1 <;> simp [he]

/-- Where no name occurs twice, an entry is found by its name. -/
theorem lookup_of_mem {key : String} {value : α} {l : List (String × α)}
    (hn : (l.map Prod.fst).Nodup) (h : (key, value) ∈ l) : l.lookup key = some value := by
  induction l with
  | nil => simp at h
  | cons e l ih =>
    obtain ⟨k, v⟩ := e
    obtain ⟨hk, hl⟩ := List.nodup_cons.1 hn
    rcases List.mem_cons.1 h with heq | hmem
    · obtain ⟨rfl, rfl⟩ := Prod.mk.inj heq
      exact List.lookup_cons_self
    · have hne : k ≠ key := by
        rintro rfl
        exact hk (List.mem_map.2 ⟨_, hmem, rfl⟩)
      rw [lookup_cons_of_ne hne, ih hl hmem]

/-- Where no name occurs twice, a name has at most one entry. -/
theorem filter_eq_lookup {l : List (String × α)} (hn : (l.map Prod.fst).Nodup) (key : String) :
    l.filter (·.1 = key) = ((l.lookup key).map (key, ·)).toList := by
  induction l with
  | nil => rfl
  | cons e l ih =>
    obtain ⟨k, v⟩ := e
    obtain ⟨hk, hl⟩ := List.nodup_cons.1 hn
    by_cases hkey : k = key
    · subst hkey
      have hrest : l.filter (·.1 = k) = [] := by
        rw [List.filter_eq_nil_iff]
        intro e he heq
        exact hk (List.mem_map.2 ⟨e, he, by simpa using heq⟩)
      simp [hrest]
    · simp [lookup_cons_of_ne hkey, hkey, ih hl]

theorem mem_entries_iff {t : Table α} {key : String} {value : α} :
    (key, value) ∈ t.entries ↔ t.get? key = some value :=
  ⟨lookup_of_mem t.nodup, mem_of_lookup⟩

/-- A table is known by its names in order and their values. -/
theorem eq_of_get?_eq {t u : Table α} (hkeys : t.keys = u.keys)
    (hvalues : ∀ key, t.get? key = u.get? key) : t = u := by
  refine Table.ext ?_
  rw [← List.map_id t.entries, ← List.map_id u.entries]
  refine map_congr_of_map_fst hkeys fun key a b ha hb => ?_
  rw [mem_entries_iff] at ha hb
  rw [hvalues, hb] at ha
  rw [Option.some.inj ha]

/-- Where no name occurs twice, the first value of a name is also the last. -/
theorem lookup_reverse {l : List (String × α)} (hn : (l.map Prod.fst).Nodup) (key : String) :
    l.reverse.lookup key = l.lookup key := by
  cases h : l.lookup key with
  | none =>
    rw [lookup_eq_none_iff_not_mem] at h ⊢
    simpa using h
  | some value =>
    refine lookup_of_mem ?_ (List.mem_reverse.2 (mem_of_lookup h))
    rw [List.map_reverse]
    exact List.nodup_reverse.2 hn

/-! ## Filling tables -/

theorem insertAll_append (t : Table α) (l m : List (String × α)) :
    t.insertAll (l ++ m) = (t.insertAll l).insertAll m :=
  List.foldl_append

theorem ofList_append (l m : List (String × α)) : ofList (l ++ m) = (ofList l).insertAll m :=
  insertAll_append empty l m

/-- The value of a name is the one given to it last, else the one it had. -/
theorem get?_insertAll (t : Table α) (entries : List (String × α)) (key : String) :
    (t.insertAll entries).get? key = (entries.reverse.lookup key).or (t.get? key) := by
  induction entries generalizing t with
  | nil => rfl
  | cons e rest ih =>
    obtain ⟨k, v⟩ := e
    have hstep : t.insertAll ((k, v) :: rest) = (t.insert k v).insertAll rest := rfl
    rw [hstep, ih, get?_insert, List.reverse_cons, List.lookup_append,
      Option.or_assoc]
    by_cases hk : k = key
    · simp [hk]
    · simp [hk, lookup_cons_of_ne hk]

/-- Of several entries with a key the last one counts. -/
theorem get?_ofList (entries : List (String × α)) (key : String) :
    (ofList entries).get? key = entries.reverse.lookup key := by
  rw [ofList, get?_insertAll, get?_empty, Option.or_none]

/-- A new key goes to the end, and a known one stays where it is. -/
theorem keys_insert (t : Table α) (key : String) (value : α) :
    (t.insert key value).keys = (t.keys ++ [key]).eraseDups := by
  rw [eraseDups_append_singleton t.nodup_keys]
  split_ifs with h
  · exact keys_insert_of_mem h
  · exact keys_insert_of_not_mem h

theorem size_insert_of_mem {t : Table α} {key : String} {value : α} (h : key ∈ t.keys) :
    (t.insert key value).size = t.size := by
  simpa [keys, size] using congrArg List.length (@keys_insert_of_mem α t key value h)

theorem size_insert_of_not_mem {t : Table α} {key : String} {value : α} (h : key ∉ t.keys) :
    (t.insert key value).size = t.size + 1 := by
  simpa [keys, size] using congrArg List.length (@keys_insert_of_not_mem α t key value h)

/-- New names stand behind those that were there, in the order of their first mentions. -/
theorem keys_insertAll (t : Table α) (entries : List (String × α)) :
    (t.insertAll entries).keys = (t.keys ++ entries.map Prod.fst).eraseDups := by
  induction entries generalizing t with
  | nil => simpa [insertAll] using (eraseDups_eq_self_of_nodup t.nodup_keys).symm
  | cons e rest ih =>
    obtain ⟨k, v⟩ := e
    have hstep : t.insertAll ((k, v) :: rest) = (t.insert k v).insertAll rest := rfl
    rw [hstep, ih, keys_insert, eraseDups_append_left]
    simp

theorem keys_ofList (entries : List (String × α)) :
    (ofList entries).keys = (entries.map Prod.fst).eraseDups := by
  simpa [ofList] using keys_insertAll empty entries

/-- The same entries once more change nothing. -/
theorem insertAll_insertAll_self (t : Table α) (entries : List (String × α)) :
    (t.insertAll entries).insertAll entries = t.insertAll entries := by
  refine eq_of_get?_eq ?_ fun key => ?_
  · have hknown : (entries.map Prod.fst).removeAll (t.keys ++ entries.map Prod.fst).eraseDups =
        [] := by
      simp only [List.removeAll, List.filter_eq_nil_iff, Bool.not_eq_true', Bool.not_eq_false,
        List.elem_eq_mem, decide_eq_true_eq]
      exact fun name hname => List.mem_eraseDups.2 (List.mem_append_right _ hname)
    rw [keys_insertAll, keys_insertAll, List.eraseDups_append, hknown, List.eraseDups_nil,
      List.append_nil, eraseDups_eq_self_of_nodup (nodup_eraseDups _)]
  · rw [get?_insertAll, get?_insertAll, ← Option.or_assoc, Option.or_self]

/-- A new entry goes to the end. -/
theorem put_of_not_mem {key : String} (value : α) {l : List (String × α)}
    (h : key ∉ l.map Prod.fst) : put key value l = l ++ [(key, value)] := by
  induction l with
  | nil => rfl
  | cons e rest ih =>
    simp only [List.map_cons, List.mem_cons, not_or] at h
    simp only [put, if_neg (Ne.symm h.1), ih h.2, List.cons_append]

/-- Entries with distinct names are those of their table. -/
theorem entries_ofList {entries : List (String × α)} (h : (entries.map Prod.fst).Nodup) :
    (ofList entries).entries = entries := by
  induction entries using List.reverseRecOn with
  | nil => rfl
  | append_singleton rest e ih =>
    rw [List.map_append, List.nodup_append] at h
    have hnew : e.1 ∉ rest.map Prod.fst := fun hmem => h.2.2 e.1 hmem e.1 (by simp) rfl
    have hstep : (ofList (rest ++ [e])).entries = put e.1 e.2 (ofList rest).entries := by
      rw [ofList_append]
      rfl
    rw [hstep, ih h.1, put_of_not_mem e.2 hnew]

/-- Where two tables have a name, that of the second counts. -/
theorem get?_extend (t u : Table α) (key : String) :
    (t.extend u).get? key = (u.get? key).or (t.get? key) := by
  rw [extend, get?_insertAll, lookup_reverse u.nodup]
  rfl

/-- The keys of a table that extends another stand behind the keys of that one. -/
theorem keys_extend (t u : Table α) : (t.extend u).keys = (t.keys ++ u.keys).eraseDups :=
  keys_insertAll t u.entries

theorem get?_erase (t : Table α) (key other : String) :
    (t.erase key).get? other = if key = other then none else t.get? other := by
  have hmem : ∀ value, (other, value) ∈ (t.erase key).entries ↔
      (other, value) ∈ t.entries ∧ key ≠ other := by
    intro value
    rw [erase, List.mem_filter]
    simp only [decide_eq_true_eq, ne_comm]
  split_ifs with h
  · rw [Option.eq_none_iff_forall_ne_some]
    intro value hvalue
    exact ((hmem value).1 (mem_entries_iff.2 hvalue)).2 h
  · refine Option.ext fun value => ?_
    rw [← mem_entries_iff, ← mem_entries_iff, hmem]
    exact and_iff_left h

theorem filter_put (key : String) (value : α) (l : List (String × α)) :
    (put key value l).filter (·.1 ≠ key) = l.filter (·.1 ≠ key) := by
  induction l with
  | nil => simp [put]
  | cons e rest ih =>
    by_cases he : e.1 = key
    · simp [put, he]
    · simpa [put, he] using ih

/-- A name that is taken out may as well not have been given a value. -/
theorem erase_insert_self (t : Table α) (key : String) (value : α) :
    (t.insert key value).erase key = t.erase key :=
  Table.ext (filter_put key value t.entries)

theorem erase_of_get?_eq_none {t : Table α} {key : String} (h : t.get? key = none) :
    t.erase key = t := by
  refine Table.ext (List.filter_eq_self.2 fun e he => ?_)
  rw [get?_eq_none_iff] at h
  rw [decide_eq_true_eq]
  rintro rfl
  exact h (List.mem_map_of_mem he)

theorem put_of_lookup {key : String} {value : α} {l : List (String × α)}
    (h : l.lookup key = some value) : put key value l = l := by
  induction l with
  | nil => cases h
  | cons e rest ih =>
    by_cases he : e.1 = key
    · subst he
      obtain rfl : e.2 = value := Option.some.inj (List.lookup_cons_self.symm.trans h)
      simp [put]
    · rw [put, if_neg he, ih (by rwa [lookup_cons_of_ne he] at h)]

/-- Giving a name the value that it has changes nothing. -/
theorem insert_of_get?_eq_some {t : Table α} {key : String} {value : α}
    (h : t.get? key = some value) : t.insert key value = t :=
  Table.ext (put_of_lookup h)

end Table

end ServiceContract
