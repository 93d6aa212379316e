import Mathlib.Data.List.TakeWhile
import ServiceContract.Proofs.History
/-!
# Builds of well-formed descriptors

A build takes in the services behind everything else, and stops at the first malformed descriptor
(`Registry.failure_ingestAll`). If all descriptors are well-formed it takes in all of them
(`Registry.failure_ingestAll_eq_none_iff`), so the registry afterwards is that after the history
`Registry.servicesLast` (`Registry.registry_build`). The definitions of a kind stand in this
history in the order in which they are given (`map_ofKind_servicesLast`). No operation is defined
behind a service, so every service looks up its members in the operations as they are at the end
(`known_of_mem_servicesLast`). The catalog of schemas takes no part in any of this
(`Registry.afterSources_with_catalog`).
-/

namespace ServiceContract

/-- Whether a descriptor is well-formed. -/
def Source.isWellFormed (s : Source) : Bool := (Xml.read? s.text).isSome

namespace Registry

/-! ## Taking in well-formed descriptors -/

theorem ingest_of_isWellFormed {s : Source} (h : s.isWellFormed = true) (r : Registry) :
    ∃ log, r.ingest s = .ok (r.step (.ingest s), log) := by
  obtain ⟨root, hroot⟩ := Option.isSome_iff_exists.1 h
  refine ⟨(r.ingestRoot s.kind s.origin root).2, ?_⟩
  rw [step_ingest hroot, ingest, hroot]

theorem ingest_of_not_isWellFormed {s : Source} (h : ¬ s.isWellFormed = true) (r : Registry) :
    r.ingest s = .error (.malformed s.kind s.origin) := by
  have hnone : Xml.read? s.text = none := by simpa [Source.isWellFormed] using h
  rw [ingest, hnone]

/-- Taking in descriptors stops at the first malformed one, which is named. -/
theorem failure_ingestAll (r : Registry) (sources : List Source) :
    (r.ingestAll sources).failure =
      (sources.find? fun s => !s.isWellFormed).map fun s => .malformed s.kind s.origin := by
  induction sources generalizing r with
  | nil => rfl
  | cons s rest ih =>
    by_cases hs : s.isWellFormed = true
    · obtain ⟨log, hlog⟩ := ingest_of_isWellFormed hs r
      rw [List.find?_cons_of_neg (by simp [hs]), ← ih (r.step (.ingest s))]
      simp only [ingestAll, hlog]
    · rw [List.find?_cons_of_pos (by simpa using hs), Option.map_some]
      simp only [ingestAll, ingest_of_not_isWellFormed hs]

/-- What is left then is what the descriptors in front of it have made. -/
theorem registry_ingestAll_takeWhile (r : Registry) (sources : List Source) :
    (r.ingestAll sources).registry = r.afterSources (sources.takeWhile (·.isWellFormed)) := by
  induction sources generalizing r with
  | nil => rfl
  | cons s rest ih =>
    by_cases hs : s.isWellFormed = true
    · obtain ⟨log, hlog⟩ := ingest_of_isWellFormed hs r
      rw [List.takeWhile_cons_of_pos hs]
      simp only [ingestAll, hlog]
      exact ih (r.step (.ingest s))
    · rw [List.takeWhile_cons_of_neg hs]
      simp only [ingestAll, ingest_of_not_isWellFormed hs]
      rfl

/-- Several descriptors are taken in without a failure exactly if all are well-formed. -/
theorem failure_ingestAll_eq_none_iff {r : Registry} {sources : List Source} :
    (r.ingestAll sources).failure = none ↔ ∀ s ∈ sources, s.isWellFormed = true := by
  rw [failure_ingestAll, Option.map_eq_none_iff, List.find?_eq_none]
  simp only [Bool.not_eq_true', Bool.not_eq_false]

/-- Well-formed sources are all taken in. -/
theorem registry_ingestAll {sources : List Source} (h : ∀ s ∈ sources, s.isWellFormed = true)
    (r : Registry) : (r.ingestAll sources).registry = r.afterSources sources := by
  rw [registry_ingestAll_takeWhile, List.takeWhile_eq_self_iff.2 h]

/-! ## Services last -/

/-- No source is lost when services are put last. -/
theorem mem_servicesLast {sources : List Source} {s : Source} :
    s ∈ servicesLast sources ↔ s ∈ sources := by
  rw [servicesLast, List.mem_append, List.mem_filter, List.mem_filter, ← and_or_left]
  by_cases h : s.kind = .services <;> simp [h]

/-- A build of well-formed descriptors fails nowhere. -/
theorem failure_build_eq_none_iff {r : Registry} {sources : List Source} :
    (r.build sources).failure = none ↔ ∀ s ∈ sources, s.isWellFormed = true := by
  rw [build, failure_ingestAll_eq_none_iff]
  exact forall_congr' fun s => by rw [mem_servicesLast]

/-- A build of well-formed sources takes them all in, services last. -/
theorem registry_build {sources : List Source} (h : ∀ s ∈ sources, s.isWellFormed = true)
    (r : Registry) : (r.build sources).registry = r.afterSources (servicesLast sources) :=
  registry_ingestAll (fun s hs => h s (mem_servicesLast.1 hs)) r

theorem pairwise_append_services {α : Type} {kind : α → Kind} {others services : List α}
    (hothers : ∀ a ∈ others, kind a ≠ .services) (hservices : ∀ a ∈ services, kind a = .services) :
    (others ++ services).Pairwise fun a b => kind a = .services → kind b = .services := by
  rw [List.pairwise_append]
  refine ⟨List.pairwise_of_forall_mem_list ?_, List.pairwise_of_forall_mem_list ?_, ?_⟩
  · exact fun a ha _ _ hkind => absurd hkind (hothers a ha)
  · exact fun _ _ b hb _ => hservices b hb
  · exact fun _ _ b hb _ => hservices b hb

theorem kind_of_mem_services {sources : List Source} :
    ∀ s ∈ sources.filter (·.kind = .services), s.kind = .services :=
  fun s hs => by simpa using (List.mem_filter.1 hs).2

theorem kind_of_mem_others {sources : List Source} :
    ∀ s ∈ sources.filter (·.kind ≠ .services), s.kind ≠ .services :=
  fun s hs => by simpa using (List.mem_filter.1 hs).2

/-- Behind a service there are services only. -/
theorem pairwise_servicesLast (sources : List Source) :
    (servicesLast sources).Pairwise fun a b => a.kind = .services → b.kind = .services :=
  pairwise_append_services kind_of_mem_others kind_of_mem_services

/-- Descriptors of one kind keep their order. -/
theorem filter_servicesLast (kind : Kind) (sources : List Source) :
    (servicesLast sources).filter (·.kind = kind) = sources.filter (·.kind = kind) := by
  rw [servicesLast, List.filter_append, List.filter_filter, List.filter_filter]
  by_cases hk : kind = .services
  · subst hk
    rw [List.filter_eq_nil_iff.2 (by simp), List.nil_append]
    simp
  · have hsecond : sources.filter (fun s => decide (s.kind = kind) && decide (s.kind = .services)) =
        [] := by
      rw [List.filter_eq_nil_iff]
      rintro s - hs
      obtain ⟨hkind, hservices⟩ := by simpa using hs
      exact hk (hkind.symm.trans hservices)
    rw [hsecond, List.append_nil]
    refine List.filter_congr fun s _ => ?_
    by_cases hs : s.kind = kind
    · simp [hs, hk]
    · simp [hs]

/-! ## What stays -/

/-- A descriptor that is not of operations leaves the operations. -/
theorem operations_step_of_ne {s : Source} (h : s.kind ≠ .operations) (r : Registry) :
    (r.step (.ingest s)).operations = r.operations := by
  cases hroot : Xml.read? s.text with
  | none => rw [step_ingest_of_malformed hroot]
  | some root =>
    rw [step_ingest hroot]
    cases hkind : s.kind with
    | errors => rfl
    | operations => exact absurd hkind h
    | services => rfl

theorem operations_afterSources_of_ne {history : List Source}
    (h : ∀ s ∈ history, s.kind ≠ .operations) (r : Registry) :
    (r.afterSources history).operations = r.operations := by
  induction history generalizing r with
  | nil => rfl
  | cons s rest ih =>
    obtain ⟨hs, hrest⟩ := List.forall_mem_cons.1 h
    exact (ih hrest (r.step (.ingest s))).trans (operations_step_of_ne hs r)

theorem afterSources_append (r : Registry) (history more : List Source) :
    r.afterSources (history ++ more) = (r.afterSources history).afterSources more := by
  rw [afterSources, List.map_append, after_append]
  rfl

theorem step_with_catalog (r : Registry) (catalog : Catalog) (s : Source) :
    { r with catalog }.step (.ingest s) = { r.step (.ingest s) with catalog } := by
  cases hroot : Xml.read? s.text with
  | none => rw [step_ingest_of_malformed hroot, step_ingest_of_malformed hroot]
  | some root =>
    rw [step_ingest hroot, step_ingest hroot]
    cases s.kind <;> rfl

/-- Descriptors are taken in whatever the catalog is, and leave it. -/
theorem afterSources_with_catalog (r : Registry) (catalog : Catalog) (history : List Source) :
    { r with catalog }.afterSources history = { r.afterSources history with catalog } := by
  induction history using List.reverseRecOn with
  | nil => rfl
  | append_singleton history s ih =>
    rw [afterSources_append_singleton, afterSources_append_singleton, ih, step_with_catalog]

end Registry

/-! ## Definitions in their own right -/

/-- A definition without what stands before it. -/
def Definition.alone (d : Definition) : Definition := { d with past := [] }

theorem map_alone_definitions (history : List Source) :
    (definitions history).map Definition.alone = history.flatMap (Source.definitions []) := by
  have hsource : ∀ (s : Source) (past : List Source),
      (s.definitions past).map Definition.alone = s.definitions [] := by
    intro s past
    unfold Source.definitions
    split
    · rw [List.map_filterMap]
      refine List.filterMap_congr fun element _ => ?_
      cases element.label? s.kind.naming <;> rfl
    · rfl
  induction history using List.reverseRecOn with
  | nil => rfl
  | append_singleton history s ih =>
    rw [definitions_append_singleton, List.map_append, ih, hsource, List.flatMap_append,
      List.flatMap_singleton]

theorem ofKind_map_alone (kind : Kind) (ds : List Definition) :
    (ofKind kind ds).map Definition.alone = ofKind kind (ds.map Definition.alone) := by
  rw [ofKind, ofKind, List.filter_map]
  rfl

/-- The definitions of a kind are those of the descriptors of this kind. -/
theorem ofKind_flatMap_definitions (kind : Kind) (sources : List Source) :
    ofKind kind (sources.flatMap (Source.definitions [])) =
      (sources.filter (·.kind = kind)).flatMap (Source.definitions []) := by
  induction sources with
  | nil => rfl
  | cons s rest ih =>
    rw [List.flatMap_cons, ofKind, List.filter_append, ← ofKind, ← ofKind, ih]
    by_cases hk : s.kind = kind
    · have hall : ofKind kind (s.definitions []) = s.definitions [] := by
        rw [ofKind, List.filter_eq_self]
        exact fun d hd => by simp [kind_of_mem_definitions hd, hk]
      rw [List.filter_cons_of_pos (by simpa using hk), List.flatMap_cons, hall]
    · have hnone : ofKind kind (s.definitions []) = [] := by
        rw [ofKind, List.filter_eq_nil_iff]
        exact fun d hd => by simp [kind_of_mem_definitions hd, hk]
      rw [List.filter_cons_of_neg (by simpa using hk), hnone, List.nil_append]

/-- The definitions of a kind stand in a build in the order in which they are given. -/
theorem map_alone_ofKind_servicesLast (kind : Kind) (sources : List Source) :
    (ofKind kind (definitions (Registry.servicesLast sources))).map Definition.alone =
      (ofKind kind (definitions sources)).map Definition.alone := by
  rw [ofKind_map_alone, ofKind_map_alone, map_alone_definitions, map_alone_definitions,
    ofKind_flatMap_definitions, ofKind_flatMap_definitions, Registry.filter_servicesLast]

/-- What is read from the definitions of a kind, apart from what stands before them, does not
depend on the order of the kinds. -/
theorem map_ofKind_servicesLast {α : Type} (kind : Kind) (f : Definition → α)
    (hf : ∀ d, f d.alone = f d) (sources : List Source) :
    (ofKind kind (definitions (Registry.servicesLast sources))).map f =
      (ofKind kind (definitions sources)).map f := by
  have hcongr := congrArg (List.map f) (map_alone_ofKind_servicesLast kind sources)
  simpa only [List.map_map, Function.comp_def, hf] using hcongr

theorem names_ofKind_servicesLast (kind : Kind) (sources : List Source) :
    names (ofKind kind (definitions (Registry.servicesLast sources))) =
      names (ofKind kind (definitions sources)) := by
  rw [names, names, map_ofKind_servicesLast kind (·.name) fun _ => rfl]

/-! ## Operations as they are at the end -/

/-- A definition stands in one descriptor of a history, behind those before it. -/
theorem exists_split_of_mem_definitionsBehind {past history : List Source} {d : Definition}
    (h : d ∈ definitionsBehind past history) : ∃ before s after,
      history = before ++ s :: after ∧ d.past = past ++ before ∧ d.kind = s.kind := by
  induction history generalizing past with
  | nil => simp [definitionsBehind] at h
  | cons s rest ih =>
    rw [definitionsBehind, List.mem_append] at h
    rcases h with hown | hlater
    · refine ⟨[], s, rest, rfl, ?_, kind_of_mem_definitions hown⟩
      rw [past_of_mem_definitions hown, List.append_nil]
    · obtain ⟨before, t, after, rfl, hpast, hkind⟩ := ih hlater
      exact ⟨s :: before, t, after, rfl, by simpa using hpast, hkind⟩

/-- In a build every service sees the operations as they are at the end. -/
theorem known_of_mem_servicesLast {sources : List Source} {d : Definition}
    (h : d ∈ ofKind .services (definitions (Registry.servicesLast sources))) :
    d.known = (Registry.empty.afterSources (Registry.servicesLast sources)).operations := by
  obtain ⟨hmem, hkind⟩ := List.mem_filter.1 h
  obtain ⟨before, s, after, hsplit, hpast, hs⟩ := exists_split_of_mem_definitionsBehind hmem
  have hservices : s.kind = .services := by simpa [hs] using hkind
  -- Behind the descriptor of the service there are services only, which define no operation.
  have hafter : ∀ u ∈ s :: after, u.kind ≠ .operations := by
    have hpairs := Registry.pairwise_servicesLast sources
    rw [hsplit, List.pairwise_append, List.pairwise_cons] at hpairs
    rw [List.forall_mem_cons]
    exact ⟨by simp [hservices], fun u hu => by simp [hpairs.2.1.1 u hu hservices]⟩
  rw [Definition.known, hpast, List.nil_append, hsplit, Registry.afterSources_append,
    Registry.operations_afterSources_of_ne hafter]

end ServiceContract
