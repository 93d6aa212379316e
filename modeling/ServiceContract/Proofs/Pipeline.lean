import ServiceContract.Proofs.Building
import ServiceContract.Proofs.Compiling
import ServiceContract.Proofs.Merging
/-!
# What a build from files comes to

A build succeeds exactly if there is a service descriptor, all inputs can be read as text, all
descriptors are well-formed and all schema documents are what they should be
(`build_eq_ok_iff`). Its registry is then that after the descriptors, services last, with the
catalog after the schema documents, and the contract is made from this registry alone. So the
same build in another style has the same registry (`build_with_style`).
-/

namespace ServiceContract

/-! ## Texts in a tree -/

namespace FileTree

/-- The tree with files in the working directory that have the bytes of texts, by name. -/
def ofTexts (files : List (String × String)) : FileTree :=
  ⟨Table.ofList (files.map fun (name, text) => (name, .file text.toUTF8))⟩

/-- A file in the working directory that has the bytes of a text is read as this text. -/
theorem readText_of_entry? {t : FileTree} {name text : String}
    (hroute : Route.ofPath name = ⟨false, [name], false⟩)
    (hfollow : t.follow ⟨false, [name], false⟩ = .ok ⟨.above 0, [name]⟩)
    (hentry : t.entry? ⟨.above 0, [name]⟩ = some (.file text.toUTF8)) :
    t.readText name = .ok text := by
  have htext : String.fromUTF8? text.toUTF8 = some text := by
    rw [String.fromUTF8?, String.toUTF8_eq_toByteArray, dif_pos text.isValidUTF8]
    rfl
  simp only [readText, read, hroute, hfollow, hentry, bind, Except.bind, pure, Except.pure, htext]

end FileTree

/-! ## Descriptors -/

theorem loadSource_eq_ok_iff {t : FileTree} {kind : Kind} {path : String} {s : Source} :
    (loadSource t kind path).result = .ok s ↔
      (s.kind, s.origin) = (kind, path) ∧ t.readText s.origin = .ok s.text := by
  obtain ⟨k, origin, content⟩ := s
  unfold loadSource
  cases htext : t.readText path with
  | error cause =>
    simp only [Run.fail, reduceCtorEq, Prod.mk.injEq, false_iff]
    rintro ⟨⟨-, rfl⟩, h⟩
    simp [htext] at h
  | ok text =>
    simp only [Except.ok.injEq, Source.mk.injEq, Prod.mk.injEq]
    constructor
    · rintro ⟨rfl, rfl, rfl⟩
      exact ⟨⟨rfl, rfl⟩, htext⟩
    · rintro ⟨⟨rfl, rfl⟩, h⟩
      exact ⟨rfl, rfl, Except.ok.inj (htext.symm.trans h)⟩

/-- Descriptors are read one for one. -/
theorem loadSources_eq_ok_iff {t : FileTree} {descriptors : List (Kind × String)}
    {sources : List Source} : (loadSources t descriptors).result = .ok sources ↔
      (sources.map fun s => (s.kind, s.origin)) = descriptors ∧
        ∀ s ∈ sources, t.readText s.origin = .ok s.text := by
  induction descriptors generalizing sources with
  | nil =>
    rw [List.map_eq_nil_iff]
    constructor
    · intro h
      obtain rfl := Except.ok.inj h
      simp
    · rintro ⟨rfl, -⟩
      rfl
  | cons d rest ih =>
    simp only [loadSources, Run.bind_def, Run.pure_def, Run.result_andThen_eq_ok,
      loadSource_eq_ok_iff, ih]
    constructor
    · rintro ⟨s, ⟨hs, htext⟩, later, ⟨hlater, htexts⟩, h⟩
      obtain rfl := Except.ok.inj h
      exact ⟨by rw [List.map_cons, hs, hlater], List.forall_mem_cons.2 ⟨htext, htexts⟩⟩
    · rintro ⟨hdescriptors, htexts⟩
      obtain ⟨s, later, rfl, hs, hlater⟩ := List.map_eq_cons_iff.1 hdescriptors
      obtain ⟨htext, htexts⟩ := List.forall_mem_cons.1 htexts
      exact ⟨s, ⟨hs, htext⟩, later, ⟨hlater, htexts⟩, rfl⟩

/-- Descriptors are taken in if all are well-formed. -/
theorem ingestSources_eq_ok_iff {r next : Registry} {sources : List Source} :
    (ingestSources r sources).result = .ok next ↔
      (∀ s ∈ sources, s.isWellFormed = true) ∧
        next = r.afterSources (Registry.servicesLast sources) := by
  unfold ingestSources
  cases hfailure : (r.build sources).failure with
  | some e =>
    simp only [hfailure, reduceCtorEq, false_iff]
    rintro ⟨hwell, -⟩
    rw [Registry.failure_build_eq_none_iff.2 hwell] at hfailure
    simp at hfailure
  | none =>
    have hwell := Registry.failure_build_eq_none_iff.1 hfailure
    simp only [hfailure, Except.ok.injEq, Registry.registry_build hwell]
    exact ⟨fun h => ⟨hwell, h.symm⟩, fun h => h.2.symm⟩

/-! ## Schema documents -/

/-- A schema document can be read as text and is what it should be. -/
structure IsSchemas (t : FileTree) (document : String × String) : Prop where
  text : t.readText document.1 = .ok document.2
  readable : (OpenApi.readComponents? document.2).isSome = true

theorem loadSchemas_eq_ok_iff {t : FileTree} {r next : Registry} {path : String} :
    (loadSchemas t r path).result = .ok next ↔ ∃ text, IsSchemas t (path, text) ∧
      next = { r with catalog := r.catalog.takeIn (path, text) } := by
  unfold loadSchemas
  cases htext : t.readText path with
  | error cause =>
    simp only [Run.fail, reduceCtorEq, false_iff]
    rintro ⟨text, h, -⟩
    simpa [htext] using h.text
  | ok text =>
    have hiff : (∃ text, IsSchemas t (path, text) ∧
        next = { r with catalog := r.catalog.takeIn (path, text) }) ↔
          (OpenApi.readComponents? text).isSome = true ∧
            next = { r with catalog := r.catalog.takeIn (path, text) } := by
      constructor
      · rintro ⟨other, h, rfl⟩
        obtain rfl := Except.ok.inj (htext.symm.trans h.text)
        exact ⟨h.readable, rfl⟩
      · rintro ⟨h, rfl⟩
        exact ⟨text, ⟨htext, h⟩, rfl⟩
    rw [hiff]
    simp only [Registry.addSchemas_eq, Catalog.takeIn, Catalog.read]
    cases OpenApi.readComponents? text with
    | none => simp [Run.fail]
    | some incoming =>
      simp only [Except.ok.injEq, Option.isSome_some, true_and]
      exact eq_comm

/-- Schema documents that are all read are taken in one after another. -/
theorem loadAllSchemas_eq_ok_iff {t : FileTree} {r next : Registry} {paths : List String} :
    (loadAllSchemas t r paths).result = .ok next ↔ ∃ documents : List (String × String),
      documents.map Prod.fst = paths ∧ (∀ d ∈ documents, IsSchemas t d) ∧
        next = { r with catalog := r.catalog.after documents } := by
  induction paths generalizing r with
  | nil =>
    constructor
    · intro h
      obtain rfl := Except.ok.inj h
      exact ⟨[], rfl, by simp, rfl⟩
    · rintro ⟨documents, hpaths, -, rfl⟩
      obtain rfl := List.map_eq_nil_iff.1 hpaths
      rfl
  | cons path rest ih =>
    simp only [loadAllSchemas, Run.bind_def, Run.result_andThen_eq_ok, ih]
    constructor
    · rintro ⟨first, hfirst, documents, hpaths, hdocuments, rfl⟩
      obtain ⟨text, htext, rfl⟩ := loadSchemas_eq_ok_iff.1 hfirst
      exact ⟨(path, text) :: documents, by rw [List.map_cons, hpaths],
        List.forall_mem_cons.2 ⟨htext, hdocuments⟩, rfl⟩
    · rintro ⟨documents, hpaths, hdocuments, rfl⟩
      obtain ⟨⟨origin, text⟩, later, rfl, rfl, rfl⟩ := List.map_eq_cons_iff.1 hpaths
      obtain ⟨hfirst, hdocuments⟩ := List.forall_mem_cons.1 hdocuments
      exact ⟨_, loadSchemas_eq_ok_iff.2 ⟨text, hfirst, rfl⟩, later, rfl, hdocuments, rfl⟩

/-! ## Builds -/

/-- Descriptors and schema documents that are the inputs which settings name in a tree, and which
can all be taken in. -/
structure Inputs (t : FileTree) (s : Settings) (sources : List Source)
    (documents : List (String × String)) : Prop where
  descriptors : (sources.map fun source => (source.kind, source.origin)) = s.descriptors
  texts : ∀ source ∈ sources, t.readText source.origin = .ok source.text
  wellFormed : ∀ source ∈ sources, source.isWellFormed = true
  schemas : documents.map Prod.fst = s.schemas
  isSchemas : ∀ d ∈ documents, IsSchemas t d

/-- What is known after a build from descriptors and schema documents. -/
def Registry.ofInputs (sources : List Source) (documents : List (String × String)) : Registry :=
  { empty.afterSources (servicesLast sources) with catalog := Catalog.empty.after documents }

/-- References can be checked after a build if it has schema documents. -/
theorem Inputs.isActive_ofInputs_iff {t : FileTree} {s : Settings} {sources : List Source}
    {documents : List (String × String)} (h : Inputs t s sources documents) :
    (Registry.ofInputs sources documents).catalog.isActive = true ↔ s.schemas ≠ [] := by
  have hcount : (Registry.ofInputs sources documents).catalog.documents = documents.length := by
    have hafter := Catalog.documents_after (fun d hd => (h.isSchemas d hd).readable) Catalog.empty
    exact hafter.trans (Nat.zero_add _)
  rw [Catalog.isActive, hcount, decide_eq_true_iff, List.length_pos_iff, ← h.schemas, ne_eq, ne_eq,
    List.map_eq_nil_iff]

/-- A build succeeds exactly if there is a service descriptor and all inputs can be taken in. -/
theorem build_eq_ok_iff {t : FileTree} {s : Settings} {c : Compiled} :
    (build t s).result = .ok c ↔ s.services ≠ [] ∧ ∃ sources documents,
      Inputs t s sources documents ∧
        c = Compiled.ofRegistry (Registry.ofInputs sources documents) s.style := by
  unfold build
  split_ifs with hservices
  · simp [Run.fail, hservices]
  · simp only [Run.bind_def, Run.pure_def, Run.result_andThen_eq_ok, Except.ok.injEq, ne_eq,
      hservices, not_false_iff, true_and, loadSources_eq_ok_iff, loadAllSchemas_eq_ok_iff,
      ingestSources_eq_ok_iff]
    constructor
    · rintro ⟨sources, ⟨hdescriptors, htexts⟩, -, ⟨documents, hschemas, hdocuments, rfl⟩, -,
        ⟨hwell, rfl⟩, rfl⟩
      refine ⟨sources, documents, ⟨hdescriptors, htexts, hwell, hschemas, hdocuments⟩, ?_⟩
      rw [Registry.afterSources_with_catalog]
      rfl
    · rintro ⟨sources, documents, h, rfl⟩
      refine ⟨sources, ⟨h.descriptors, h.texts⟩, _, ⟨documents, h.schemas, h.isSchemas, rfl⟩, _,
        ⟨h.wellFormed, rfl⟩, ?_⟩
      rw [Registry.afterSources_with_catalog]
      rfl

/-- The style makes the contract only. -/
theorem build_with_style {t : FileTree} {s : Settings} {c : Compiled} (style : Style)
    (h : (build t s).result = .ok c) :
    (build t { s with style }).result = .ok (Compiled.ofRegistry c.registry style) := by
  obtain ⟨hservices, sources, documents, hinputs, rfl⟩ := build_eq_ok_iff.1 h
  refine build_eq_ok_iff.2 ⟨hservices, sources, documents, ?_, rfl⟩
  exact { hinputs with }

end ServiceContract
