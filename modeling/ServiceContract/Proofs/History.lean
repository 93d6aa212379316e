import ServiceContract.Proofs.Descriptors
/-!
# Tables as functions of the history

A registry is filled step by step : descriptors one by one or several at once, and schema
documents between them. `Registry.after` is the registry after some steps, where a step that
fails leaves what was taken in before its failure.

`definitions` lists what a history of descriptors defines, in order, each definition with the
descriptors before its own. After the history every table is a function of that list
(`tabulates_after`) : a name has what its last definition says, and names stand in the order
of their first definitions. Error codes and operations are read off the element alone.
The members of a service are looked up in the operations after the descriptors before its own,
so nothing that happens to an operation later reaches a service. A label is that of the last
labelled definition. `Recounts` says so table by table.
-/

namespace ServiceContract

/-! ## Steps -/

/-- A step in the life of a registry. -/
inductive Step where
  /-- A descriptor is taken in. -/
  | ingest (s : Source)
  /-- Several descriptors are taken in, services last. -/
  | build (sources : List Source)
  /-- A schema document is taken in. -/
  | addSchemas (origin text : String)
deriving DecidableEq, Repr

namespace Registry

/-- The registry after a step, failed or not. -/
def step (r : Registry) : Step → Registry
  | .ingest s =>
    match r.ingest s with
    | .ok (next, _) => next
    | .error _ => r
  | .build sources => (r.build sources).registry
  | .addSchemas origin text =>
    match r.addSchemas origin text with
    | .ok (next, _) => next
    | .error _ => r

/-- The registry after several steps. -/
def after (r : Registry) (steps : List Step) : Registry := steps.foldl step r

/-- The registry after several descriptors, taken in one by one. -/
def afterSources (r : Registry) (history : List Source) : Registry :=
  r.after (history.map Step.ingest)

/-- Steps in two parts are taken one part behind the other. -/
theorem after_append (r : Registry) (steps more : List Step) :
    r.after (steps ++ more) = (r.after steps).after more :=
  List.foldl_append

theorem afterSources_append_singleton (r : Registry) (history : List Source) (s : Source) :
    r.afterSources (history ++ [s]) = (r.afterSources history).step (.ingest s) := by
  rw [afterSources, List.map_append, after_append]
  rfl

/-- A malformed descriptor changes nothing. -/
theorem step_ingest_of_malformed {r : Registry} {s : Source} (h : Xml.read? s.text = none) :
    r.step (.ingest s) = r := by
  simp only [step, ingest, h]

theorem step_ingest {r : Registry} {s : Source} {root : Xml.Node}
    (h : Xml.read? s.text = some root) :
    r.step (.ingest s) = (r.ingestRoot s.kind s.origin root).1 := by
  simp only [step, ingest, h]

end Registry

/-! ## Definitions -/

/-- A definition in a history of descriptors. -/
structure Definition where
  /-- The kind of its descriptor. -/
  kind : Kind
  /-- The label of its descriptor, if that has one. -/
  label : Option String
  /-- The name that is defined. -/
  name : String
  /-- The element that defines it. -/
  element : Xml.Node
  /-- The descriptors before its own. -/
  past : List Source

/-- The name that is defined, with a value. -/
def Definition.entry {α : Type} (value : Definition → α) (d : Definition) : String × α :=
  (d.name, value d)

/-- The definitions that a descriptor makes behind others; none if it is malformed. -/
def Source.definitions (past : List Source) (s : Source) : List Definition :=
  match Xml.read? s.text with
  | some root =>
    (root.childrenNamed s.kind.tag).filterMap fun element =>
      (element.label? s.kind.naming).map fun name =>
        ⟨s.kind, root.label? "assembly", name, element, past⟩
  | none => []

/-- The definitions of a history that goes on behind another. -/
def definitionsBehind (past : List Source) : List Source → List Definition
  | [] => []
  | s :: rest => s.definitions past ++ definitionsBehind (past ++ [s]) rest

/-- The definitions of a history, in order. -/
def definitions (history : List Source) : List Definition := definitionsBehind [] history

/-- What later sources define is defined behind the earlier ones. -/
theorem definitionsBehind_append (past history more : List Source) :
    definitionsBehind past (history ++ more) =
      definitionsBehind past history ++ definitionsBehind (past ++ history) more := by
  induction history generalizing past with
  | nil => simp [definitionsBehind]
  | cons s rest ih => simp [definitionsBehind, ih]

theorem definitions_append_singleton (history : List Source) (s : Source) :
    definitions (history ++ [s]) = definitions history ++ s.definitions history := by
  simp [definitions, definitionsBehind_append, definitionsBehind]

/-- The definitions of a kind, in order. -/
def ofKind (kind : Kind) (ds : List Definition) : List Definition := ds.filter (·.kind = kind)

/-- The labelled definitions of operations and services. -/
def labelled (ds : List Definition) : List Definition :=
  ds.filter fun d => d.kind ≠ .errors ∧ d.label.isSome

/-- The names and labels of the labelled definitions of operations and services. -/
def labels (ds : List Definition) : List (String × String) :=
  ds.filterMap fun d => if d.kind = .errors then none else d.label.map fun label => (d.name, label)

/-- The last definition of a name. -/
def last? (name : String) (ds : List Definition) : Option Definition :=
  (ds.filter (·.name = name)).getLast?

/-- Filling a table with a value for each definition leaves each name with that of the last. -/
theorem get?_ofList_entries {α : Type} (value : Definition → α) (name : String)
    (ds : List Definition) :
    (Table.ofList (ds.map (Definition.entry value))).get? name = (last? name ds).map value := by
  rw [Table.get?_ofList, Table.lookup_eq_head?, ← List.map_reverse, List.filter_map, List.map_map,
    List.head?_map, List.filter_reverse, List.head?_reverse]
  rfl

/-- A table of definitions has their names, each where it stood first. -/
theorem keys_ofList_entries {α : Type} (value : Definition → α) (ds : List Definition) :
    (Table.ofList (ds.map (Definition.entry value))).keys = (ds.map (·.name)).eraseDups := by
  rw [Table.keys_ofList, List.map_map]
  rfl

theorem labels_append (ds more : List Definition) :
    labels (ds ++ more) = labels ds ++ labels more :=
  List.filterMap_append

/-- The label of a name is the last one given to it. -/
theorem lookup_reverse_labels (name : String) (ds : List Definition) :
    (labels ds).reverse.lookup name = (last? name (labelled ds)).bind (·.label) := by
  unfold last? labelled
  induction ds using List.reverseRecOn with
  | nil => rfl
  | append_singleton ds d ih =>
    rw [labels_append, List.reverse_append, List.lookup_append, ih, List.filter_append,
      List.filter_append, List.getLast?_append]
    by_cases hk : d.kind = .errors
    · simp [labels, hk]
    · cases hl : d.label with
      | none => simp [labels, hl]
      | some label =>
        by_cases hn : d.name = name
        · simp [labels, hk, hl, hn]
        · simp [labels, hk, hl, hn, Ne.symm hn]

namespace Definition

/-- What an operation definition says. -/
def operation (d : Definition) : Operation :=
  ⟨(d.element.targets "input").getLast?, (d.element.targets "output").getLast?,
    d.element.targets "error"⟩

/-- The operations that are known when a definition is taken in. -/
def known (d : Definition) : Table Operation := (Registry.empty.afterSources d.past).operations

/-- The members of a service by its definition. -/
def members (d : Definition) : Table Operation := Service.members d.known d.element.mentions

end Definition

/-- Every table of a registry is filled with the definitions of a history, in order. -/
structure Tabulates (history : List Source) (r : Registry) : Prop where
  errorCodes : r.errorCodes = Table.ofList ((ofKind .errors (definitions history)).map
    (Definition.entry fun d => ErrorStatus.ofElement d.element))
  operations : r.operations = Table.ofList
    ((ofKind .operations (definitions history)).map (Definition.entry Definition.operation))
  services : r.services = Table.ofList
    ((ofKind .services (definitions history)).map (Definition.entry Definition.members))
  qualifiers : r.qualifiers = Table.ofList (labels (definitions history))

/-- Nothing has been defined and the tables are empty. -/
theorem tabulates_nil : Tabulates [] Registry.empty := ⟨rfl, rfl, rfl, rfl⟩

theorem definitions_of_malformed {past : List Source} {s : Source} (h : Xml.read? s.text = none) :
    s.definitions past = [] := by
  rw [Source.definitions, h]

/-- The entries of a descriptor are its definitions, each with the value that is read. -/
theorem definitions_of_read {α : Type} {s : Source} {root : Xml.Node}
    (h : Xml.read? s.text = some root) (past : List Source)
    (read : String → Xml.Node → α × List Finding) (value : Definition → α)
    (hread : ∀ name element,
      (read name element).1 = value ⟨s.kind, root.label? "assembly", name, element, past⟩) :
    Entry.definitions (Entry.ofRoot s.kind s.origin read root) =
      (s.definitions past).map (Definition.entry value) := by
  rw [Entry.definitions_ofRoot, Source.definitions, h, List.map_filterMap]
  refine List.filterMap_congr fun element _ => ?_
  cases element.label? s.kind.naming with
  | none => rfl
  | some name => simp [Definition.entry, hread]

/-- A definition is made of a named element of a well-formed descriptor. -/
theorem exists_of_mem_definitions {past : List Source} {s : Source} {d : Definition}
    (h : d ∈ s.definitions past) : ∃ root name element, Xml.read? s.text = some root ∧
      d = ⟨s.kind, root.label? "assembly", name, element, past⟩ := by
  cases hroot : Xml.read? s.text with
  | none => simp [Source.definitions, hroot] at h
  | some root =>
    rw [Source.definitions, hroot] at h
    obtain ⟨element, -, he⟩ := List.mem_filterMap.1 h
    obtain ⟨name, -, rfl⟩ := Option.map_eq_some_iff.1 he
    exact ⟨root, name, element, rfl, rfl⟩

theorem kind_of_mem_definitions {past : List Source} {s : Source} {d : Definition}
    (h : d ∈ s.definitions past) : d.kind = s.kind := by
  obtain ⟨_, _, _, -, rfl⟩ := exists_of_mem_definitions h
  rfl

theorem past_of_mem_definitions {past : List Source} {s : Source} {d : Definition}
    (h : d ∈ s.definitions past) : d.past = past := by
  obtain ⟨_, _, _, -, rfl⟩ := exists_of_mem_definitions h
  rfl

/-- The label of a definition is that of its descriptor. -/
theorem label_of_mem_definitions {past : List Source} {s : Source} {root : Xml.Node}
    (hroot : Xml.read? s.text = some root) {d : Definition} (h : d ∈ s.definitions past) :
    d.label = root.label? "assembly" := by
  obtain ⟨_, _, _, hread, rfl⟩ := exists_of_mem_definitions h
  rw [Option.some.inj (hroot.symm.trans hread)]

/-- The definitions of a kind grow by those of a descriptor exactly if it is of that kind. -/
theorem ofKind_definitions_append (kind : Kind) (history : List Source) (s : Source) :
    ofKind kind (definitions (history ++ [s])) = ofKind kind (definitions history) ++
      if s.kind = kind then s.definitions history else [] := by
  rw [definitions_append_singleton, ofKind, List.filter_append]
  congr 1
  split_ifs with h
  · rw [List.filter_eq_self]
    intro d hd
    simp [kind_of_mem_definitions hd, h]
  · rw [List.filter_eq_nil_iff]
    intro d hd
    simp [kind_of_mem_definitions hd, h]

/-- A descriptor of operations or services puts its label, if it has one, on what it defines. -/
theorem label_insertAll_labels {s : Source} {root : Xml.Node} (h : Xml.read? s.text = some root)
    (hk : s.kind ≠ .errors) (past : List Source) (t : Table String) :
    Qualifier.label t (root.label? "assembly") ((s.definitions past).map (·.name)) =
      t.insertAll (labels (s.definitions past)) := by
  unfold Qualifier.label labels
  cases hl : root.label? "assembly" with
  | none =>
    have hnone : (s.definitions past).filterMap (fun d => if d.kind = .errors then none
        else d.label.map fun label => (d.name, label)) = [] := by
      rw [List.filterMap_eq_nil_iff]
      intro d hd
      simp [label_of_mem_definitions h hd, hl]
    rw [hnone]
    rfl
  | some label =>
    simp only [List.map_map]
    congr 1
    rw [← List.filterMap_eq_map]
    refine List.filterMap_congr fun d hd => ?_
    simp [label_of_mem_definitions h hd, kind_of_mem_definitions hd, hk, hl]

theorem labels_definitions_of_errors {past : List Source} {s : Source} (h : s.kind = .errors) :
    labels (s.definitions past) = [] := by
  rw [labels, List.filterMap_eq_nil_iff]
  intro d hd
  simp [kind_of_mem_definitions hd, h]

section Step

variable {history : List Source} {s : Source} {kind : Kind}

theorem ofKind_definitions_of_ne (h : s.kind ≠ kind) :
    ofKind kind (definitions (history ++ [s])) = ofKind kind (definitions history) := by
  rw [ofKind_definitions_append, if_neg h, List.append_nil]

/-- The table of a kind stays filled with its definitions when those of a descriptor go in. -/
theorem insertAll_definitions {α : Type} {value : Definition → α} {t : Table α}
    {entries : List (Entry α)} (hk : s.kind = kind)
    (ht : t = Table.ofList ((ofKind kind (definitions history)).map (Definition.entry value)))
    (he : Entry.definitions entries = (s.definitions history).map (Definition.entry value)) :
    t.insertAll (Entry.definitions entries) = Table.ofList
      ((ofKind kind (definitions (history ++ [s]))).map (Definition.entry value)) := by
  rw [ofKind_definitions_append, if_pos hk, List.map_append, Table.ofList_append, ← ht, he]

theorem insertAll_labels {root : Xml.Node} {t : Table String} {α : Type} {value : Definition → α}
    {entries : List (Entry α)} (hroot : Xml.read? s.text = some root) (hk : s.kind ≠ .errors)
    (ht : t = Table.ofList (labels (definitions history)))
    (he : Entry.definitions entries = (s.definitions history).map (Definition.entry value)) :
    Qualifier.label t (root.label? "assembly") ((Entry.definitions entries).map Prod.fst) =
      Table.ofList (labels (definitions (history ++ [s]))) := by
  have hnames : (Entry.definitions entries).map Prod.fst =
      (s.definitions history).map (·.name) := by
    rw [he, List.map_map]
    rfl
  rw [hnames, label_insertAll_labels hroot hk, definitions_append_singleton, labels_append,
    Table.ofList_append, ← ht]

/-- Taking in one more descriptor keeps all tables filled with the definitions. -/
theorem tabulates_step (h : Tabulates history (Registry.empty.afterSources history)) :
    Tabulates (history ++ [s]) ((Registry.empty.afterSources history).step (.ingest s)) := by
  cases hroot : Xml.read? s.text with
  | none =>
    have hsame : definitions (history ++ [s]) = definitions history := by
      rw [definitions_append_singleton, definitions_of_malformed hroot, List.append_nil]
    rw [Registry.step_ingest_of_malformed hroot]
    exact ⟨hsame ▸ h.errorCodes, hsame ▸ h.operations, hsame ▸ h.services, hsame ▸ h.qualifiers⟩
  | some root =>
    rw [Registry.step_ingest hroot]
    obtain ⟨kind, origin, text⟩ := s
    cases kind with
    | errors =>
      have he : Entry.definitions (ErrorStatus.entries origin root) = _ :=
        definitions_of_read hroot history _ (fun d => ErrorStatus.ofElement d.element)
          fun _ _ => rfl
      refine ⟨insertAll_definitions rfl h.errorCodes he, ?_, ?_, ?_⟩
      · rw [ofKind_definitions_of_ne (by simp)]
        exact h.operations
      · rw [ofKind_definitions_of_ne (by simp)]
        exact h.services
      · rw [definitions_append_singleton, labels_append, labels_definitions_of_errors rfl,
          List.append_nil]
        exact h.qualifiers
    | operations =>
      have he : Entry.definitions (Operation.entries origin root) = _ :=
        definitions_of_read hroot history _ Definition.operation
          fun _ element => Operation.ofElement_fst origin element
      refine ⟨?_, insertAll_definitions rfl h.operations he, ?_,
        insertAll_labels hroot (by simp) h.qualifiers he⟩
      · rw [ofKind_definitions_of_ne (by simp)]
        exact h.errorCodes
      · rw [ofKind_definitions_of_ne (by simp)]
        exact h.services
    | services =>
      have he : Entry.definitions (Service.entries origin
          (Registry.empty.afterSources history).operations root) = _ :=
        definitions_of_read hroot history _ Definition.members
          fun name element => Service.ofElement_fst origin _ name element
      refine ⟨?_, ?_, insertAll_definitions rfl h.services he,
        insertAll_labels hroot (by simp) h.qualifiers he⟩
      · rw [ofKind_definitions_of_ne (by simp)]
        exact h.errorCodes
      · rw [ofKind_definitions_of_ne (by simp)]
        exact h.operations

end Step

/-- After any history of descriptors, all tables are filled with its definitions. -/
theorem tabulates_after (history : List Source) :
    Tabulates history (Registry.empty.afterSources history) := by
  induction history using List.reverseRecOn with
  | nil => exact tabulates_nil
  | append_singleton history s ih =>
    rw [Registry.afterSources_append_singleton]
    exact tabulates_step ih

/-! ## What the tables say -/

/-- The names that definitions give, in the order of their first definitions. -/
def names (ds : List Definition) : List String := (ds.map (·.name)).eraseDups

end ServiceContract
