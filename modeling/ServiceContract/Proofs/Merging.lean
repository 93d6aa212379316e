import ServiceContract.Contract
import ServiceContract.Proofs.Tables
import Mathlib.Data.List.Induction
/-!
# What the documents of schemas come to together

A catalog takes in one document after another. `Gathers` is what is expected of an area of
the merged components, a section or the extensions : it has the names of all documents in
the order of their first declarations, each with the definition of the last document that
has one. Seven sections are merged, and they gather (`Catalog.gathers_after_of_isMerged`). Links,
callbacks and extensions are not : they stay those of the first document that has components
(`OpenApi.Components.part_foldl_merge`), so they gather exactly if the last definitions are
those of that document (`Catalog.gathers_after_iff_of_not_isMerged`). A contract publishes the
components as they are in the catalog (`Contract.published_emit`).
-/

namespace ServiceContract

open OpenApi

/-! ## Areas -/

/-- An area of the components of a document. -/
inductive Area where
  /-- The definitions in a section. -/
  | named (s : Section)
  /-- The extensions. -/
  | extensions
deriving DecidableEq, Repr

namespace Area

/-- Whether the area of a later document goes into that of an earlier one. -/
def isMerged : Area → Bool
  | named s => s.isMerged
  | extensions => false

/-- What the members of the components of a document say in an area, as they are written. -/
def written (a : Area) (members : List (String × Json)) : List (String × Json) :=
  match a with
  | named s => ((members.lookup s.name).getD .null).members
  | extensions => members.filter fun (name, _) => isExtension name

/-- What a document says in an area of its components. -/
def published (a : Area) (document : Json) : List (String × Json) :=
  a.written ((document.member? "components").getD .null).members

end Area

namespace OpenApi.Components

/-- The definitions in an area. -/
def part (c : Components) : Area → Table Json
  | .named s => c.definitions s
  | .extensions => c.extensions

/-- A merged section is extended by that of the later document, and any other stays as it was. -/
theorem part_merge (earlier later : Components) (a : Area) : (earlier.merge later).part a =
    if a.isMerged then (earlier.part a).extend (later.part a) else earlier.part a := by
  cases a with
  | named s => rfl
  | extensions => rfl

end OpenApi.Components

/-- The definition of a name in an area by the last of several documents that has one. -/
def lastDefinition (a : Area) (cs : List Components) (name : String) : Option Json :=
  cs.reverse.findSome? fun c => (c.part a).get? name

/-- A table has the names of several documents in an area, in the order of first declaration,
each with its last definition. -/
structure Gathers (a : Area) (cs : List Components) (t : Table Json) : Prop where
  names : t.keys = (cs.flatMap fun c => (c.part a).keys).eraseDups
  definition : ∀ name, t.get? name = lastDefinition a cs name

/-- The last document that defines a name gives its definition. -/
theorem lastDefinition_append_singleton (a : Area) (cs : List Components) (c : Components)
    (name : String) : lastDefinition a (cs ++ [c]) name =
      ((c.part a).get? name).or (lastDefinition a cs name) := by
  simp only [lastDefinition, List.reverse_append, List.reverse_singleton, List.singleton_append,
    List.findSome?_cons]
  cases (c.part a).get? name <;> rfl

/-- A table that gathers several documents gathers one more when that is put in. -/
theorem Gathers.extend {a : Area} {cs : List Components} {t : Table Json} (h : Gathers a cs t)
    (c : Components) : Gathers a (cs ++ [c]) (t.extend (c.part a)) where
  names := by
    rw [Table.keys_extend, h.names, eraseDups_append_left, List.flatMap_append,
      List.flatMap_singleton]
  definition name := by
    rw [Table.get?_extend, h.definition, lastDefinition_append_singleton]

theorem gathers_nil (a : Area) : Gathers a [] ∅ := ⟨rfl, fun _ => rfl⟩

theorem gathers_singleton (a : Area) (c : Components) : Gathers a [c] (c.part a) where
  names := by
    rw [List.flatMap_singleton]
    exact (eraseDups_eq_self_of_nodup (c.part a).nodup_keys).symm
  definition name := by
    rw [← List.nil_append [c], lastDefinition_append_singleton]
    exact (Option.or_none).symm

/-- A name is declared by some document exactly if it has a last definition. -/
theorem lastDefinition_eq_none_iff {a : Area} {cs : List Components} {name : String} :
    lastDefinition a cs name = none ↔ ∀ c ∈ cs, name ∉ (c.part a).keys := by
  simp [lastDefinition, Table.get?_eq_none_iff]

/-- The area of the first document gathers several exactly if it has their last definitions. -/
theorem gathers_first_iff (a : Area) (c : Components) (cs : List Components) :
    Gathers a (c :: cs) (c.part a) ↔
      ∀ name, lastDefinition a (c :: cs) name = (c.part a).get? name := by
  constructor
  · exact fun h name => (h.definition name).symm
  · intro h
    -- A name of a later document has a last definition, so the first document has it too.
    have hnone : (cs.flatMap fun c => (c.part a).keys).removeAll (c.part a).keys = [] := by
      rw [List.removeAll, List.filter_eq_nil_iff]
      intro name hname
      obtain ⟨later, hlater, hkey⟩ := List.mem_flatMap.1 hname
      have hdeclared : lastDefinition a (c :: cs) name ≠ none := fun hn =>
        lastDefinition_eq_none_iff.1 hn later (List.mem_cons_of_mem c hlater) hkey
      rw [h name, ne_eq, Table.get?_eq_none_iff, Decidable.not_not] at hdeclared
      simpa using hdeclared
    refine ⟨?_, fun name => (h name).symm⟩
    rw [List.flatMap_cons, List.eraseDups_append, hnone,
      eraseDups_eq_self_of_nodup (c.part a).nodup_keys]
    simp

namespace OpenApi.Components

/-- A merged section gathers the definitions of all documents. -/
theorem gathers_foldl_merge {a : Area} (h : a.isMerged = true) (first : Components)
    (rest : List Components) : Gathers a (first :: rest) ((rest.foldl merge first).part a) := by
  induction rest using List.reverseRecOn with
  | nil => exact gathers_singleton a first
  | append_singleton rest c ih =>
    rw [List.foldl_append, List.foldl_cons, List.foldl_nil, part_merge, if_pos h]
    exact ih.extend c

/-- A section that is not merged stays that of the first document. -/
theorem part_foldl_merge {a : Area} (h : ¬ a.isMerged = true) (first : Components)
    (rest : List Components) : (rest.foldl merge first).part a = first.part a := by
  induction rest using List.reverseRecOn with
  | nil => rfl
  | append_singleton rest c ih =>
    rw [List.foldl_append, List.foldl_cons, List.foldl_nil, part_merge, if_neg h, ih]

end OpenApi.Components

/-! ## Catalogs -/

/-- The components of a document, if it can be read and has any. -/
def declaration? (document : String × String) : Option Components :=
  (readComponents? document.2).join

/-- The components of several documents, as far as these can be read and have any. -/
def declarations (documents : List (String × String)) : List Components :=
  documents.filterMap declaration?

namespace Catalog

/-- The catalog with a further document, an origin with a text; a document that cannot be read
changes nothing. -/
def takeIn (c : Catalog) (document : String × String) : Catalog :=
  match c.read document.1 document.2 with
  | .ok (next, _) => next
  | .error _ => c

/-- The catalog after several documents. -/
def after (c : Catalog) (documents : List (String × String)) : Catalog :=
  documents.foldl takeIn c

/-- The definitions in an area of the merged components. -/
def part (c : Catalog) (a : Area) : Table Json :=
  match c.components with
  | some components => components.part a
  | none => ∅

/-- A schema is in the catalog if it is one of its definitions in this area. -/
theorem contains_iff {c : Catalog} {name : String} :
    c.contains name = true ↔ name ∈ (c.part (.named .schemas)).keys := by
  rw [← Table.contains_iff, contains, part]
  cases c.components with
  | none => exact iff_of_false Bool.false_ne_true Bool.false_ne_true
  | some components => rfl

/-- The catalog has counted all documents that can be read. -/
theorem documents_after {documents : List (String × String)}
    (h : ∀ d ∈ documents, (readComponents? d.2).isSome = true) (c : Catalog) :
    (c.after documents).documents = c.documents + documents.length := by
  induction documents using List.reverseRecOn with
  | nil => rfl
  | append_singleton documents d ih =>
    rw [List.forall_mem_append, List.forall_mem_singleton] at h
    obtain ⟨incoming, hincoming⟩ := Option.isSome_iff_exists.1 h.2
    have htakeIn : ∀ earlier : Catalog, (earlier.takeIn d).documents = earlier.documents + 1 := by
      intro earlier
      simp only [takeIn, read, hincoming, add]
    rw [after, List.foldl_append, List.foldl_cons, List.foldl_nil, htakeIn, ← after, ih h.1,
      List.length_append, List.length_singleton, Nat.add_assoc]

/-- A document is merged into those before it, or it is the first that declares something. -/
theorem components_takeIn (c : Catalog) (document : String × String) :
    (c.takeIn document).components = match c.components, declaration? document with
      | earlier, none => earlier
      | none, some later => some later
      | some earlier, some later => some (earlier.merge later) := by
  unfold takeIn read declaration?
  cases readComponents? document.2 with
  | none => cases c.components <;> rfl
  | some incoming => cases incoming <;> rfl

/-- The merged components are those of the first document that has any, with those of the
others merged in one by one. -/
theorem components_after (documents : List (String × String)) :
    (empty.after documents).components = match declarations documents with
      | [] => none
      | first :: rest => some (rest.foldl Components.merge first) := by
  unfold after declarations
  induction documents using List.reverseRecOn with
  | nil => rfl
  | append_singleton documents document ih =>
    rw [List.foldl_append, List.foldl_cons, List.foldl_nil, components_takeIn, ih,
      List.filterMap_append]
    cases hd : declaration? document with
    | none =>
      rw [List.filterMap_cons_none hd, List.filterMap_nil, List.append_nil]
    | some later =>
      rw [List.filterMap_cons_some hd, List.filterMap_nil]
      cases documents.filterMap declaration? with
      | nil => rfl
      | cons first rest => simp [List.foldl_append]

/-- Each part of the catalog comes from merging the declared components in their order. -/
theorem part_after (documents : List (String × String)) (a : Area) :
    (empty.after documents).part a = match declarations documents with
      | [] => ∅
      | first :: rest => (rest.foldl Components.merge first).part a := by
  rw [part, components_after]
  cases declarations documents <;> rfl

/-- An area that is merged gathers what all documents say in it. -/
theorem gathers_after_of_isMerged {a : Area} (h : a.isMerged = true)
    (documents : List (String × String)) :
    Gathers a (declarations documents) ((empty.after documents).part a) := by
  rw [part_after]
  cases declarations documents with
  | nil => exact gathers_nil a
  | cons first rest => exact Components.gathers_foldl_merge h first rest

/-- Any other area gathers the documents exactly if the first has the last definitions. -/
theorem gathers_after_iff_of_not_isMerged {a : Area} (h : ¬ a.isMerged = true)
    (documents : List (String × String)) :
    Gathers a (declarations documents) ((empty.after documents).part a) ↔
      ∀ name, lastDefinition a (declarations documents) name =
        (declarations documents).head?.bind fun first => (first.part a).get? name := by
  rw [part_after]
  cases declarations documents with
  | nil => exact ⟨fun _ _ => rfl, fun _ => gathers_nil a⟩
  | cons first rest =>
    simp only [Components.part_foldl_merge h]
    exact gathers_first_iff a first rest

end Catalog

/-! ## Contracts -/

namespace OpenApi

theorem Section.name_inj {s t : Section} : s.name = t.name ↔ s = t := by
  cases s <;> cases t <;> simp [Section.name]

/-- No section has the name of an extension. -/
theorem Section.isExtension_name (s : Section) : isExtension s.name = false := by
  cases s <;> decide

/-- Members that some sections have under their names. -/
def sectionMembers (value? : Section → Option Json) (sections : List Section) :
    List (String × Json) :=
  sections.filterMap fun s => (value? s).map fun v => (s.name, v)

theorem isExtension_of_mem_sectionMembers {value? : Section → Option Json}
    {sections : List Section} {member : String × Json}
    (h : member ∈ sectionMembers value? sections) : isExtension member.1 = false := by
  obtain ⟨s, -, hs⟩ := List.mem_filterMap.1 h
  obtain ⟨v, -, rfl⟩ := Option.map_eq_some_iff.1 hs
  exact s.isExtension_name

/-- A section is found under its name where it is written. -/
theorem lookup_sectionMembers (value? : Section → Option Json) (s : Section)
    (sections : List Section) : (sectionMembers value? sections).lookup s.name =
      if s ∈ sections then value? s else none := by
  unfold sectionMembers
  induction sections with
  | nil => rfl
  | cons t rest ih =>
    cases hv : value? t with
    | none =>
      rw [List.filterMap_cons_none (by rw [hv]; rfl), ih]
      by_cases hst : s = t
      · simp [hst, hv]
      · simp [hst]
    | some v =>
      rw [List.filterMap_cons_some (by rw [hv]; rfl)]
      by_cases hst : s = t
      · simp [hst, hv]
      · rw [Table.lookup_cons_of_ne (fun hname => hst (Section.name_inj.1 hname).symm), ih]
        simp [hst]

namespace Components

/-- All extensions have the names of such. -/
def ExtensionsNamed (c : Components) : Prop := ∀ name ∈ c.extensions.keys, isExtension name = true

theorem extensionsNamed_ofMembers (members : List (String × Json)) :
    (ofMembers members).ExtensionsNamed := by
  intro name hname
  rw [ofMembers, Table.keys_ofList, List.mem_eraseDups, List.mem_map] at hname
  obtain ⟨member, hmember, rfl⟩ := hname
  exact (List.mem_filter.1 hmember).2

theorem extensionsNamed_of_read {document : String × String} {c : Components}
    (h : declaration? document = some c) : c.ExtensionsNamed := by
  rw [declaration?, Option.join_eq_some_iff, readComponents?] at h
  obtain ⟨members, -, hmembers⟩ := Option.bind_eq_some_iff.1 h
  cases hv : members.lookup "components" with
  | none => simp [hv] at hmembers
  | some v =>
    rw [hv] at hmembers
    obtain rfl : ofMembers v.members = c := by simpa using hmembers
    exact extensionsNamed_ofMembers v.members

/-- What is written of a section, if anything. -/
def sectionJson? (c : Components) (s : Section) : Option Json :=
  if (c.definitions s).isEmpty then none else some (.ofTable (c.definitions s))

/-- Components are written section by section, and extensions stand behind them. -/
theorem members_toJson (c : Components) : c.toJson.members =
    sectionMembers c.sectionJson? Section.all ++ c.extensions.entries := by
  have hsection : ∀ s, (if (c.definitions s).isEmpty then none
      else some (s.name, Json.ofTable (c.definitions s))) =
        (c.sectionJson? s).map fun v => (s.name, v) := by
    intro s
    unfold sectionJson?
    by_cases hs : (c.definitions s).isEmpty <;> simp [hs]
  simp only [toJson, Json.members, sectionMembers, hsection]

/-- What is written of components says in every area what these do. -/
theorem written_toJson {c : Components} (h : c.ExtensionsNamed) (a : Area) :
    a.written c.toJson.members = (c.part a).entries := by
  rw [members_toJson]
  cases a with
  | named s =>
    have hall : s ∈ Section.all := by cases s <;> decide
    have hnone : c.extensions.entries.lookup s.name = none := by
      rw [Table.lookup_eq_none_iff_not_mem]
      intro hs
      exact absurd (h s.name hs) (by simp [s.isExtension_name])
    rw [Area.written, List.lookup_append, lookup_sectionMembers, if_pos hall, hnone,
      Option.or_none]
    unfold sectionJson?
    by_cases hs : (c.definitions s).isEmpty
    · have hnil : (c.definitions s).entries = [] := List.isEmpty_iff.1 hs
      simp [hs, hnil, part, Json.members]
    · simp [hs, part, Json.members, Json.ofTable]
  | extensions =>
    rw [Area.written, List.filter_append, List.filter_eq_nil_iff.2, List.filter_eq_self.2]
    · rfl
    · exact fun member hmember => h member.1 (List.mem_map_of_mem hmember)
    · exact fun member hmember => by simp [isExtension_of_mem_sectionMembers hmember]

theorem extensionsNamed_foldl_merge {first : Components} (h : first.ExtensionsNamed)
    (rest : List Components) : (rest.foldl merge first).ExtensionsNamed := by
  have hpart := part_foldl_merge (a := .extensions) (by simp [Area.isMerged]) first rest
  change (rest.foldl merge first).extensions = first.extensions at hpart
  rw [ExtensionsNamed, hpart]
  exact h

end Components

end OpenApi

namespace Contract

theorem published_envelope (a : Area) (info : Info) (paths : Json)
    (components : Option Components) : a.published (envelope info paths components) =
      a.written (match components with
        | some c => c.toJson.members
        | none => []) := by
  cases components with
  | none => simp [Area.published, envelope, Json.member?, List.lookup_cons, Json.members]
  | some c => simp [Area.published, envelope, Json.member?, List.lookup_cons]

/-- A contract as a whole document publishes what the catalog has in every area. -/
theorem published_emit (r : Registry) (style : Style) (documents : List (String × String))
    (a : Area) (hcatalog : r.catalog = Catalog.empty.after documents)
    (hlayout : style.layout = .openapi) :
    a.published (emit r style).document = (r.catalog.part a).entries := by
  simp only [emit, hlayout, published_envelope, hcatalog, Catalog.part_after,
    Catalog.components_after]
  cases hd : declarations documents with
  | nil => cases a <;> rfl
  | cons first rest =>
    have hfirst : first ∈ documents.filterMap declaration? := by
      rw [← declarations, hd]
      exact List.mem_cons_self
    obtain ⟨document, -, hread⟩ := List.mem_filterMap.1 hfirst
    exact Components.written_toJson
      (Components.extensionsNamed_foldl_merge (Components.extensionsNamed_of_read hread) rest) a

end Contract

/-- After any documents, an area of the merged components has all names that are declared, each
with its last definition, exactly if it is merged or the first document has the last definitions
already; and that is what a contract publishes in this area. -/
theorem gathers_after_iff (documents : List (String × String)) (a : Area) :
    let catalog := Catalog.empty.after documents
    (Gathers a (declarations documents) (catalog.part a) ↔ a.isMerged = true ∨
      ∀ name, lastDefinition a (declarations documents) name =
        (declarations documents).head?.bind fun first => (first.part a).get? name) ∧
    ∀ (r : Registry) (style : Style),
      a.published (Contract.emit { r with catalog } { style with layout := .openapi }).document =
        (catalog.part a).entries := by
  refine ⟨?_, fun r style => Contract.published_emit _ _ documents a rfl rfl⟩
  by_cases h : a.isMerged = true
  · exact iff_of_true (Catalog.gathers_after_of_isMerged h documents) (Or.inl h)
  · rw [or_iff_right h]
    exact Catalog.gathers_after_iff_of_not_isMerged h documents

/-- Two documents that each declare a link. -/
def linkDocuments : List (String × String) :=
  [("a.yaml", "openapi: 3.0.3\ninfo:\n  title: t\n  version: v\npaths: \x7b\x7d\ncomponents:\n"
      ++ "  links:\n    L:\n      operationId: x\n"),
    ("b.yaml", "openapi: 3.0.3\ninfo:\n  title: t\n  version: v\npaths: \x7b\x7d\ncomponents:\n"
      ++ "  links:\n    M:\n      operationId: y\n")]

/-- The link of the second document is lost. -/
theorem not_gathers_links : ¬ Gathers (.named .links) (declarations linkDocuments)
    ((Catalog.empty.after linkDocuments).part (.named .links)) := by
  intro h
  have hlost : ((Catalog.empty.after linkDocuments).part (.named .links)).get? "M" = none ∧
      (lastDefinition (.named .links) (declarations linkDocuments) "M").isSome = true := by
    rw [← Option.isNone_iff_eq_none]
    decide +kernel
  rw [← h.definition "M", hlost.1] at hlost
  exact absurd hlost.2 (by simp)

end ServiceContract
