import ServiceContract.Proofs.Collisions
import ServiceContract.Proofs.Contributions
import ServiceContract.Proofs.References
/-!
# Nothing has an empty name

An attribute without a value counts as missing, wherever a descriptor is read. So the entries that a
descriptor adds have names, codes and labels that say something (`Source.named_contribution`), and
what a registry knows is named after any steps, failed ones among them (`Registry.Named`). No step
takes anything away either : tables keep their names in place, and findings are put behind those so
far (`Registry.extendsTo_step`). For a contract this means that no path, no status code of a
response and no reference to a schema ends before its name (`named_after`). The components of schema
documents are published as they are written, and a reference in them can be one to nothing
(`refersToNothing_bareReference`).
-/

namespace ServiceContract

/-! ## Tables -/

namespace Table

variable {α : Type} {p q : String → α → Prop}

/-- All entries of a table have a property. -/
def All (p : String → α → Prop) (t : Table α) : Prop :=
  ∀ key value, t.get? key = some value → p key value

theorem all_empty : (empty : Table α).All p := by
  intro key value h
  simp at h

/-- What holds of a table and of further entries holds of both together. -/
theorem All.insertAll {t : Table α} (ht : t.All p) {entries : List (String × α)}
    (h : ∀ e ∈ entries, p e.1 e.2) : (t.insertAll entries).All p := by
  intro key value hvalue
  rw [get?_insertAll, Option.or_eq_some_iff] at hvalue
  rcases hvalue with hnew | ⟨-, hold⟩
  · exact h _ (List.mem_reverse.1 (mem_of_lookup hnew))
  · exact ht key value hold

theorem All.mono {t : Table α} (ht : t.All p) (h : ∀ key value, p key value → q key value) :
    t.All q :=
  fun key value hvalue => h key value (ht key value hvalue)

theorem mem_keys_of_get? {t : Table α} {key : String} {value : α} (h : t.get? key = some value) :
    key ∈ t.keys := by
  rw [← contains_iff, contains, h]
  rfl

/-- Names that are put in stand behind those that were there. -/
theorem keys_isPrefix_insertAll (t : Table α) (entries : List (String × α)) :
    t.keys <+: (t.insertAll entries).keys := by
  rw [keys_insertAll, List.eraseDups_append, eraseDups_eq_self_of_nodup t.nodup_keys]
  exact List.prefix_append _ _

end Table

/-! ## What a descriptor names -/

/-- An attribute without a value counts as missing. -/
theorem Xml.Node.label?_ne_empty (n : Xml.Node) (name : String) : n.label? name ≠ some "" := by
  unfold label?
  intro h
  simpa using (Option.filter_eq_some_iff.1 h).2

theorem Xml.Node.empty_not_mem_targets (n : Xml.Node) (tag : String) : "" ∉ n.targets tag := by
  intro h
  obtain ⟨child, -, hchild⟩ := List.mem_filterMap.1 h
  exact child.label?_ne_empty "target" hchild

/-- An operation names its schemas and its errors. -/
structure Operation.Named (op : Operation) : Prop where
  input : op.input ≠ some ""
  output : op.output ≠ some ""
  errors : "" ∉ op.errors

/-- An operation element names no schema and no error by an empty text. -/
theorem Operation.named_ofElement (file : String) (n : Xml.Node) : (ofElement file n).1.Named := by
  rw [ofElement_fst]
  exact ⟨fun h => n.empty_not_mem_targets "input" (List.mem_of_getLast? h),
    fun h => n.empty_not_mem_targets "output" (List.mem_of_getLast? h),
    n.empty_not_mem_targets "error"⟩

theorem ErrorStatus.ofElement_ne_empty (n : Xml.Node) : ofElement n ≠ "" := by
  unfold ofElement
  cases hlast : (n.childrenNamed "httpresponsecode").getLast? with
  | none => simp [default]
  | some code =>
    cases hvalue : code.label? "value" with
    | none => simp [default, hvalue]
    | some value =>
      rintro h
      refine code.label?_ne_empty "value" ?_
      simpa [hvalue] using h

/-- Only an element with a name defines anything. -/
theorem Entry.named_of_mem_definitions {α : Type} {kind : Kind} {file : String}
    {read : String → Xml.Node → α × List Finding} {root : Xml.Node} {e : String × α}
    (h : e ∈ Entry.definitions (Entry.ofRoot kind file read root)) :
    e.1 ≠ "" ∧ ∃ element, e.2 = (read e.1 element).1 := by
  rw [Entry.definitions_ofRoot] at h
  obtain ⟨element, -, helement⟩ := List.mem_filterMap.1 h
  obtain ⟨name, hname, rfl⟩ := Option.map_eq_some_iff.1 helement
  exact ⟨fun hempty => element.label?_ne_empty kind.naming (hempty ▸ hname), element, rfl⟩

/-- What a descriptor adds is named, and the members of its services are known operations. -/
structure Contribution.Named (known : Table Operation) (c : Contribution) : Prop where
  errorCodes : ∀ e ∈ c.errorCodes, e.1 ≠ "" ∧ e.2 ≠ ""
  operations : ∀ e ∈ c.operations, e.1 ≠ "" ∧ e.2.Named
  services : ∀ e ∈ c.services, e.1 ≠ "" ∧ e.2.All fun name op => known.get? name = some op
  labels : ∀ e ∈ c.labels, e.1 ≠ "" ∧ e.2 ≠ ""

/-- Labels and the names they belong to say something. -/
theorem Qualifier.named_of_mem_entries {α : Type} {root : Xml.Node} {naming : String}
    {definitions : List (String × α)} (hnamed : ∀ d ∈ definitions, d.1 ≠ "")
    {e : String × String}
    (h : e ∈ entries (root.label? naming) (definitions.map Prod.fst)) :
    e.1 ≠ "" ∧ e.2 ≠ "" := by
  unfold entries at h
  cases hlabel : root.label? naming with
  | none => simp [hlabel] at h
  | some label =>
    rw [hlabel] at h
    obtain ⟨name, hname, rfl⟩ := List.mem_map.1 h
    obtain ⟨d, hd, rfl⟩ := List.mem_map.1 hname
    exact ⟨hnamed d hd, fun hempty => root.label?_ne_empty naming (hempty ▸ hlabel)⟩

/-- What a descriptor adds is named. -/
theorem Source.named_contribution (known : Table Operation) (s : Source) :
    (s.contribution known).Named known := by
  have hnone : ∀ {α : Type} (p : α → Prop), ∀ a ∈ ([] : List α), p a := fun _ => by simp
  unfold contribution
  cases Xml.read? s.text with
  | none => exact ⟨hnone _, hnone _, hnone _, hnone _⟩
  | some root =>
    cases s.kind with
    | errors =>
      refine ⟨fun e he => ?_, hnone _, hnone _, hnone _⟩
      obtain ⟨hname, element, hvalue⟩ := Entry.named_of_mem_definitions he
      exact ⟨hname, hvalue ▸ ErrorStatus.ofElement_ne_empty element⟩
    | operations =>
      refine ⟨hnone _, fun e he => ?_, hnone _, fun e he =>
        Qualifier.named_of_mem_entries (fun d hd => (Entry.named_of_mem_definitions hd).1) he⟩
      obtain ⟨hname, element, hvalue⟩ := Entry.named_of_mem_definitions he
      exact ⟨hname, hvalue ▸ Operation.named_ofElement s.origin element⟩
    | services =>
      refine ⟨hnone _, hnone _, fun e he => ?_, fun e he =>
        Qualifier.named_of_mem_entries (fun d hd => (Entry.named_of_mem_definitions hd).1) he⟩
      obtain ⟨hname, element, hvalue⟩ := Entry.named_of_mem_definitions he
      refine ⟨hname, fun name op hop => ?_⟩
      rw [hvalue, Service.ofElement_fst] at hop
      exact Service.get?_of_get?_members hop

/-! ## What a registry names -/

namespace Registry

/-- Everything that a registry knows has a name, and the members of services are known
operations. -/
structure Named (r : Registry) : Prop where
  errorCodes : r.errorCodes.All fun target code => target ≠ "" ∧ code ≠ ""
  operations : r.operations.All fun name op => name ≠ "" ∧ op.Named
  services : r.services.All fun service members => service ≠ "" ∧
    members.All fun name op => name ≠ "" ∧ op.Named ∧ name ∈ r.operations.keys
  qualifiers : r.qualifiers.All fun name label => name ≠ "" ∧ label ≠ ""

theorem named_empty : empty.Named :=
  ⟨Table.all_empty, Table.all_empty, Table.all_empty, Table.all_empty⟩

/-- A registry stays named when it receives what is named. -/
theorem Named.receive {r : Registry} (h : r.Named) {c : Contribution}
    (hc : c.Named r.operations) : (r.receive c).Named where
  errorCodes := h.errorCodes.insertAll hc.errorCodes
  operations := h.operations.insertAll hc.operations
  services := by
    have hkeys := (r.operations.keys_isPrefix_insertAll c.operations).subset
    refine Table.All.insertAll ?_ ?_
    · exact h.services.mono fun service members hservice => ⟨hservice.1,
        hservice.2.mono fun name op hmember => ⟨hmember.1, hmember.2.1, hkeys hmember.2.2⟩⟩
    · intro e he
      refine ⟨(hc.services e he).1, (hc.services e he).2.mono fun name op hknown => ?_⟩
      obtain ⟨hname, hop⟩ := h.operations name op hknown
      exact ⟨hname, hop, hkeys (Table.mem_keys_of_get? hknown)⟩
  qualifiers := h.qualifiers.insertAll hc.labels

/-! ## What a step keeps -/

/-- A registry goes on from another : its findings and the names in each of its tables begin with
those of the other. -/
structure ExtendsTo (r next : Registry) : Prop where
  findings : r.findings <+: next.findings
  errorCodes : r.errorCodes.keys <+: next.errorCodes.keys
  operations : r.operations.keys <+: next.operations.keys
  services : r.services.keys <+: next.services.keys
  qualifiers : r.qualifiers.keys <+: next.qualifiers.keys
  components : ∀ a, (r.catalog.part a).keys <+: (next.catalog.part a).keys
  documents : r.catalog.documents ≤ next.catalog.documents

theorem ExtendsTo.refl (r : Registry) : r.ExtendsTo r where
  findings := List.prefix_rfl
  errorCodes := List.prefix_rfl
  operations := List.prefix_rfl
  services := List.prefix_rfl
  qualifiers := List.prefix_rfl
  components _ := List.prefix_rfl
  documents := Nat.le_refl _

theorem ExtendsTo.trans {r s t : Registry} (hrs : r.ExtendsTo s) (hst : s.ExtendsTo t) :
    r.ExtendsTo t where
  findings := hrs.findings.trans hst.findings
  errorCodes := hrs.errorCodes.trans hst.errorCodes
  operations := hrs.operations.trans hst.operations
  services := hrs.services.trans hst.services
  qualifiers := hrs.qualifiers.trans hst.qualifiers
  components a := (hrs.components a).trans (hst.components a)
  documents := hrs.documents.trans hst.documents

/-- What a descriptor adds goes behind what is there. -/
theorem extendsTo_receive (r : Registry) (c : Contribution) : r.ExtendsTo (r.receive c) :=
  { ExtendsTo.refl r with
    findings := List.prefix_append _ _
    errorCodes := r.errorCodes.keys_isPrefix_insertAll c.errorCodes
    operations := r.operations.keys_isPrefix_insertAll c.operations
    services := r.services.keys_isPrefix_insertAll c.services
    qualifiers := r.qualifiers.keys_isPrefix_insertAll c.labels }

theorem keys_isPrefix_part_add (c : Catalog) (incoming : Option OpenApi.Components) (a : Area) :
    (c.part a).keys <+: ((c.add incoming).part a).keys := by
  unfold Catalog.part Catalog.add
  cases c.components with
  | none => exact List.nil_prefix
  | some earlier =>
    cases incoming with
    | none => exact List.prefix_rfl
    | some later =>
      dsimp only
      rw [OpenApi.Components.part_merge]
      split_ifs
      · exact (earlier.part a).keys_isPrefix_insertAll _
      · exact List.prefix_rfl

/-- A schema document adds names to the catalog and takes none away. -/
theorem extendsTo_add (r : Registry) (incoming : Option OpenApi.Components) :
    r.ExtendsTo { r with catalog := r.catalog.add incoming } :=
  { ExtendsTo.refl r with
    components := keys_isPrefix_part_add r.catalog incoming
    documents := Nat.le_succ _ }

section Step

variable {R : Registry → Registry → Prop} (refl : ∀ r, R r r)
  (trans : ∀ {r s t}, R r s → R s t → R r t)
  (receive : ∀ (r : Registry) (s : Source), R r (r.receive (s.contribution r.operations)))

include refl trans receive

theorem rel_afterSources (r : Registry) (history : List Source) : R r (r.afterSources history) := by
  induction history using List.reverseRecOn with
  | nil => exact refl r
  | append_singleton history s ih =>
    rw [afterSources_append_singleton, step_ingest_eq_receive]
    exact trans ih (receive _ s)

/-- What holds between a registry and one that has received a descriptor or a schema document holds
for every step, failed or not. -/
theorem rel_step (add : ∀ (r : Registry) (incoming : Option OpenApi.Components),
      R r { r with catalog := r.catalog.add incoming })
    (r : Registry) (step : Step) : R r (r.step step) := by
  cases step with
  | ingest s =>
    rw [step_ingest_eq_receive]
    exact receive r s
  | build sources =>
    rw [Registry.step, build, registry_ingestAll_takeWhile]
    exact rel_afterSources refl trans receive r _
  | addSchemas origin text =>
    rw [Registry.step, addSchemas_eq]
    cases OpenApi.readComponents? text with
    | none => exact refl r
    | some incoming => exact add r incoming

end Step

/-- No step takes anything away. -/
theorem extendsTo_step (r : Registry) (step : Step) : r.ExtendsTo (r.step step) :=
  rel_step ExtendsTo.refl ExtendsTo.trans (fun r _ => extendsTo_receive r _) extendsTo_add r step

theorem Named.step {r : Registry} (h : r.Named) (step : Step) : (r.step step).Named := by
  refine rel_step (R := fun r next => r.Named → next.Named) (fun _ h => h)
    (fun hrs hst h => hst (hrs h)) (fun r s h => ?_) (fun r _ h => ?_) r step h
  · exact h.receive (s.named_contribution r.operations)
  · exact ⟨h.errorCodes, h.operations, h.services, h.qualifiers⟩

/-- After any steps all that is known is named. -/
theorem named_after_empty (steps : List Step) : (empty.after steps).Named := by
  induction steps using List.reverseRecOn with
  | nil => exact named_empty
  | append_singleton steps step ih =>
    rw [after_append]
    exact ih.step step

end Registry

/-! ## What a contract names -/

namespace Json

/-- An object without the members of the given name. -/
def without (name : String) (v : Json) : Json := .object (v.members.filter (·.1 ≠ name))

/-- The references in an object are its own members of that name and the references in its
members. -/
theorem mem_references_object_iff {members : List (String × Json)} {v : Json} :
    v ∈ (object members).references ↔
      ∃ m ∈ members, m.1 = referenceName ∧ v = m.2 ∨ v ∈ m.2.references := by
  induction members with
  | nil => simp [references, referencesOfMembers]
  | cons m members ih =>
    rw [references] at ih
    rw [references, referencesOfMembers, List.mem_append, List.mem_append, ih,
      List.exists_mem_cons_iff]
    refine or_congr_left (or_congr_left ?_)
    split_ifs with hname <;> simp [hname]

end Json

namespace Contract

variable {r : Registry}

theorem string_ne_body {codes : Table String} {rule : DuplicateStatus} {operation : String}
    {op : Operation} {code text : String} {response : Response}
    (h : (responses codes rule operation op).1.get? code = some response) :
    .string text ≠ response.body := by
  rcases eq_success_or_failure h with rfl | ⟨error, rfl⟩
  · unfold success
    cases op.output <;> simp
  · simp [failure]

/-- All texts that a path item refers to are references in one of the two roles. -/
theorem exists_role_of_mem_references_pathItem {rule : DuplicateStatus} {p : Placement}
    {text : String} (h : .string text ∈ (pathItem r rule p).references) :
    ∃ role, .string text ∈ referencesOf (pathItem r rule p) role := by
  have hparts : .string text ∈ (requestBody p).references ∨
      .string text ∈
        (responsesJson (responses r.errorCodes rule p.operation p.definition).1).references := by
    simpa [pathItem, headers, header, Json.references, Json.referencesOfItems,
      Json.referencesOfMembers, Json.referenceName] using h
  rcases hparts with hbody | hresponses
  · exact ⟨.input, by rwa [referencesOf, posted_requestBody_pathItem]⟩
  · rw [responsesJson, Json.mem_references_object_iff] at hresponses
    obtain ⟨written, hwritten, hreference⟩ := hresponses
    refine ⟨.output, ?_⟩
    rw [referencesOf, posted_responses_pathItem, List.mem_flatMap]
    refine ⟨written, hwritten, hreference.resolve_left fun hbody => ?_⟩
    -- A response is under a status code, which may be any text, but it is an object.
    obtain ⟨⟨code, response⟩, hresponse, rfl⟩ := List.mem_map.1 hwritten
    exact string_ne_body (Table.mem_entries_iff.1 hresponse) hbody.2

theorem path_ne_referenceName (operation : String) : path operation ≠ Json.referenceName := by
  intro h
  have htexts := congrArg String.toList h
  simp [path, Json.referenceName] at htexts

/-- A reference among the path items is one in the item of some placement. -/
theorem mem_references_pathsJson {rule : DuplicateStatus} {v : Json}
    (h : v ∈ (pathsJson (placed r rule).1).references) :
    ∃ p ∈ placements r, v ∈ (pathItem r rule p).references := by
  rw [pathsJson, Json.mem_references_object_iff] at h
  obtain ⟨written, hwritten, hreference⟩ := h
  obtain ⟨e, he, rfl⟩ := List.mem_map.1 hwritten
  obtain ⟨p, hp, rfl⟩ := mem_entries_placed_iff.1 he
  exact ⟨p, mem_of_last? hp,
    hreference.resolve_left fun hpath => path_ne_referenceName p.operation hpath.1⟩

/-- Outside of the components only path items refer to anything. -/
theorem exists_pathItem_of_mem_references_emit {style : Style} {v : Json}
    (h : v ∈ ((emit r style).document.without "components").references) :
    ∃ p ∈ placements r, v ∈ (pathItem r style.duplicateStatus p).references := by
  refine mem_references_pathsJson ?_
  rw [Json.without, Json.mem_references_object_iff] at h
  obtain ⟨member, hmember, hreference⟩ := h
  obtain ⟨hmember, hname⟩ := List.mem_filter.1 hmember
  cases hlayout : style.layout with
  | paths =>
    simp only [emit, hlayout] at hmember
    exact Json.mem_references_object_iff.2 ⟨member, hmember, hreference⟩
  | openapi =>
    simp only [emit, hlayout, envelope, Json.members, List.mem_append] at hmember
    rcases hmember with hframe | hcomponents
    · have hinfo : v ∉ (Json.object [("title", .string style.info.title),
          ("version", .string style.info.version)]).references := by
        simp [Json.references, Json.referencesOfMembers, Json.referenceName]
      simp only [List.mem_cons, List.not_mem_nil, or_false] at hframe
      rcases hframe with rfl | rfl | rfl
      · simp [Json.references, Json.referenceName] at hreference
      · exact absurd (hreference.resolve_left fun h => by simp [Json.referenceName] at h) hinfo
      · exact hreference.resolve_left fun h => by simp [Json.referenceName] at h
    · obtain ⟨components, -, rfl⟩ := List.mem_map.1 hcomponents
      simp at hname

/-- The status code of any error says something where those of the known ones do. -/
theorem resolve_ne_empty (hr : r.Named) (error : String) :
    ErrorStatus.resolve r.errorCodes error ≠ "" := by
  unfold ErrorStatus.resolve
  cases hcode : r.errorCodes.get? error with
  | none => simp [ErrorStatus.default]
  | some code => exact (hr.errorCodes error code hcode).2

theorem empty_not_mem_responseCodes (hr : r.Named) (rule : DuplicateStatus) (p : Placement) :
    "" ∉ responseCodes (pathItem r rule p) := by
  rw [responseCodes_pathItem, keys_responses, List.mem_eraseDups, map_fst_wanted]
  intro hempty
  rcases List.mem_cons.1 hempty with hsuccess | herror
  · simp [successStatus] at hsuccess
  · obtain ⟨error, -, hcode⟩ := List.mem_map.1 herror
    exact resolve_ne_empty hr error hcode

theorem schemaOf_ne_empty {op : Operation} (h : op.Named) (role : Role) :
    schemaOf op role ≠ some "" := by
  cases role with
  | input => exact h.input
  | output => exact h.output

/-- The references of a path item do not end before the name of the schema. -/
theorem schemaPath_not_mem_references_pathItem {rule : DuplicateStatus} {p : Placement}
    (hp : p.definition.Named) : .string schemaPath ∉ (pathItem r rule p).references := by
  intro h
  obtain ⟨role, hrole⟩ := exists_role_of_mem_references_pathItem h
  obtain ⟨schema, hschema, hreference⟩ := exists_schemaOf_of_mem_referencesOf hrole
  have hempty : schema = "" := String.append_eq_left_iff.1 (Json.string.inj hreference).symm
  exact schemaOf_ne_empty hp role (hempty ▸ hschema)

/-- No path and no status code in a document ends before its name, and no reference to a schema
outside of the components. -/
structure NamedIn (layout : Layout) (document : Json) : Prop where
  paths : ∀ key item, (key, item) ∈ pathItems layout document → key ≠ "/"
  codes : ∀ key item, (key, item) ∈ pathItems layout document → "" ∉ responseCodes item
  references : .string "#/components/schemas/" ∉ (document.without "components").references

/-- The contract of a registry that names everything does so too. -/
theorem namedIn_emit (hr : r.Named) (style : Style) :
    NamedIn style.layout (emit r style).document := by
  have hplaced : ∀ p ∈ placements r, p.operation ≠ "" ∧ p.definition.Named := fun p hp => by
    obtain ⟨members, hservice, hmember⟩ := get?_of_mem_placements hp
    obtain ⟨hname, hnamed, -⟩ := (hr.services _ _ hservice).2 _ _ hmember
    exact ⟨hname, hnamed⟩
  refine ⟨fun key item hitem => ?_, fun key item hitem => ?_, fun hreference => ?_⟩
  · obtain ⟨p, hp, rfl, -⟩ := mem_pathItems_emit_iff.1 hitem
    exact fun hpath => (hplaced p (mem_of_last? hp)).1 (path_inj.1 hpath)
  · obtain ⟨p, -, -, rfl⟩ := mem_pathItems_emit_iff.1 hitem
    exact empty_not_mem_responseCodes hr style.duplicateStatus p
  · obtain ⟨p, hp, hitem⟩ := exists_pathItem_of_mem_references_emit hreference
    exact schemaPath_not_mem_references_pathItem (hplaced p hp).2 hitem

end Contract

open Contract in
/-- Whatever steps are taken from the beginning, everything that is known then is named, no further
step takes any of it away, and all of it is named in a contract. -/
theorem named_after (steps : List Step) :
    let r := Registry.empty.after steps
    r.Named ∧ (∀ step, r.ExtendsTo (r.step step)) ∧
      ∀ style, NamedIn style.layout (emit r style).document := by
  intro r
  have hr : r.Named := Registry.named_after_empty steps
  exact ⟨hr, r.extendsTo_step, namedIn_emit hr⟩

open Contract in
/-- A schema document may refer to no schema in particular, and a whole document publishes it
as it is. -/
theorem refersToNothing_bareReference :
    let text := "openapi: 3.0.3\ninfo:\n  title: t\n  version: v\npaths: \x7b\x7d\ncomponents:\n"
      ++ "  schemas:\n    A:\n      $ref: '#/components/schemas/'\n"
    let style : Style := { Style.default with layout := .openapi }
    .string "#/components/schemas/" ∈
      (emit (Registry.empty.after [.addSchemas "d" text]) style).document.references := by
  intro text style
  have htexts : "#/components/schemas/" ∈
      (emit (Registry.empty.after [.addSchemas "d" text]) style).document.references.filterMap
        Json.text? := by decide +kernel
  obtain ⟨v, hv, htext⟩ := List.mem_filterMap.1 htexts
  cases v with
  | string value => exact Option.some.inj htext ▸ hv
  | _ => simp [Json.text?] at htext

end ServiceContract
