import ServiceContract.Proofs.Counting
/-!
# References to schemas

A path item refers to the schemas of its operation and to nothing else
(`exists_schemaOf_of_mem_referencesOf`) : to the input in the request body, and to the output in
the success response as long as no error has taken its place. With schema documents the catalog is
active, so each of these schemas is in the catalog or missing from it by a finding. A whole document
publishes the catalog beside the path items. Its references therefore lead to definitions in the
same document or are reported (`closes_build`).
-/

namespace ServiceContract

namespace Contract

/-! ## References in a path item -/

/-- What a path item refers to in a role : in its request body, or in any of its responses. -/
def referencesOf (item : Json) : Role → List Json
  | .input => (posted "requestBody" item).references
  | .output => (posted "responses" item).members.flatMap fun response => response.2.references

/-- The reference to a schema. -/
def reference (schema : String) : Json := .string (schemaPath ++ schema)

/-- A further error leaves a response as it is or puts its own there. -/
theorem eq_failure_of_get?_addResponse {rule : DuplicateStatus}
    {operation code error other : String} {table : Table Response} {response : Response}
    (h : (addResponse rule operation table code error).1.get? other = some response) :
    table.get? other = some response ∨ response = failure other error := by
  have hinsert : (table.insert code (failure code error)).get? other = some response →
      table.get? other = some response ∨ response = failure other error := by
    rw [Table.get?_insert]
    split_ifs with hcode
    · rw [hcode]
      exact fun hfailure => Or.inr (Option.some.inj hfailure).symm
    · exact Or.inl
  unfold addResponse at h
  cases htaken : table.get? code with
  | none =>
    rw [htaken] at h
    exact hinsert h
  | some existing =>
    rw [htaken] at h
    cases rule with
    | keepFirst => exact Or.inl h
    | keepLast => exact hinsert h

/-- Any response is the success or that of an error. -/
theorem eq_success_or_failure {codes : Table String} {rule : DuplicateStatus} {operation : String}
    {op : Operation} {code : String} {response : Response}
    (h : (responses codes rule operation op).1.get? code = some response) :
    response = success op ∨ ∃ error, response = failure code error := by
  unfold responses at h
  generalize op.errors = errors at h
  induction errors using List.reverseRecOn with
  | nil =>
    rw [List.foldl_nil, Table.get?_insert] at h
    split_ifs at h
    · exact Or.inl (Option.some.inj h).symm
    · simp at h
  | append_singleton errors error ih =>
    rw [List.foldl_append, List.foldl_cons, List.foldl_nil] at h
    rcases eq_failure_of_get?_addResponse h with hbefore | hadded
    · exact ih hbefore
    · exact Or.inr ⟨error, hadded⟩

theorem references_content_schemaReference (schema : String) :
    (content (schemaReference schema)).references = [reference schema] := by
  simp [content, schemaReference, reference, Json.references, Json.referencesOfMembers,
    Json.referenceName]

theorem references_content_openObject : (content openObject).references = [] := by
  simp [content, openObject, Json.references, Json.referencesOfMembers, Json.referenceName]

theorem references_requestBody (p : Placement) :
    (requestBody p).references = (p.definition.input.map reference).toList := by
  unfold requestBody
  cases p.definition.input with
  | none =>
    simp [Json.references, Json.referencesOfMembers, Json.referenceName,
      references_content_openObject]
  | some input =>
    simp [Json.references, Json.referencesOfMembers, Json.referenceName,
      references_content_schemaReference]

theorem references_success (op : Operation) :
    (success op).body.references = (op.output.map reference).toList := by
  unfold success
  cases op.output with
  | none =>
    simp [Json.references, Json.referencesOfMembers, Json.referenceName,
      references_content_openObject]
  | some output =>
    simp [Json.references, Json.referencesOfMembers, Json.referenceName,
      references_content_schemaReference]

theorem references_failure (code error : String) : (failure code error).body.references = [] := by
  simp [failure, Json.references, Json.referencesOfMembers, Json.referenceName,
    references_content_openObject]

/-- A path item refers to the schemas of its operation only. -/
theorem exists_schemaOf_of_mem_referencesOf {r : Registry} {rule : DuplicateStatus}
    {p : Placement} {role : Role} {v : Json} (h : v ∈ referencesOf (pathItem r rule p) role) :
    ∃ schema, schemaOf p.definition role = some schema ∧ v = reference schema := by
  cases role with
  | input =>
    rw [referencesOf, posted_requestBody_pathItem, references_requestBody, Option.mem_toList,
      Option.map_eq_some_iff] at h
    obtain ⟨schema, hschema, rfl⟩ := h
    exact ⟨schema, hschema, rfl⟩
  | output =>
    rw [referencesOf, posted_responses_pathItem, responsesJson, Json.members, List.mem_flatMap] at h
    obtain ⟨written, hwritten, hv⟩ := h
    obtain ⟨⟨code, response⟩, hresponse, rfl⟩ := List.mem_map.1 hwritten
    rcases eq_success_or_failure (Table.mem_entries_iff.1 hresponse) with rfl | ⟨error, rfl⟩
    · rw [references_success, Option.mem_toList, Option.map_eq_some_iff] at hv
      obtain ⟨schema, hschema, rfl⟩ := hv
      exact ⟨schema, hschema, rfl⟩
    · rw [references_failure] at hv
      simp at hv

/-! ## References in a contract -/

/-- A reference is closed if it leads to a schema that the document publishes, or to one that is
reported as unknown for the operation in this role. -/
def Closed (document : Json) (findings : List Finding) (operation : String) (role : Role)
    (v : Json) : Prop :=
  ∃ schema, v = reference schema ∧
    (schema ∈ ((Area.named .schemas).published document).map Prod.fst ∨
      .unknownSchema operation schema role ∈ findings)

/-- All references are closed where services have their operations as they are known and the
catalog is active. -/
theorem closed_of_settled {r : Registry} (hr : Settled r) {style : Style}
    (hlayout : style.layout = .openapi) {documents : List (String × String)}
    (hcatalog : r.catalog = Catalog.empty.after documents) (hactive : r.catalog.isActive = true)
    {p : Placement} (hp : last? p.operation (placements r) = some p) {role : Role} {v : Json}
    (hv : v ∈ referencesOf (pathItem r style.duplicateStatus p) role) :
    Closed (emit r style).document (emit r style).findings p.operation role v := by
  obtain ⟨schema, hschema, rfl⟩ := exists_schemaOf_of_mem_referencesOf hv
  refine ⟨schema, rfl, ?_⟩
  by_cases hcontains : r.catalog.contains schema = true
  · left
    rw [published_emit r style documents _ hcatalog hlayout]
    exact Catalog.contains_iff.1 hcontains
  · right
    rw [Bool.not_eq_true] at hcontains
    have hdefault : IsDefault r p (.unknownSchema p.operation schema role) :=
      .schema role schema hschema hactive hcontains
    -- The finding is that of the first placement, which is of the same operation.
    obtain ⟨first, hfirst⟩ := exists_first?_of_last? hp
    have hsame : first.operation = p.operation := operation_of_first? hfirst
    have hdefinition : first.definition = p.definition :=
      definition_eq_of_settled hr (mem_of_first? hfirst) (mem_of_last? hp) hsame
    rw [mem_findings_iff_isDefault_first hfirst hdefault, ← hsame]
    exact .schema role schema (by rw [hdefinition, hschema]) hactive hcontains

end Contract

open Contract in
/-- A build of a whole document with schemas has the path items that the same build has without
the frame, and every reference in them leads to a schema that the document publishes or is
reported as unknown. -/
theorem closes_build {t : FileTree} {s : Settings} {c : Compiled}
    (h : (build t s).result = .ok c) (hlayout : s.style.layout = .openapi)
    (hschemas : s.schemas ≠ []) :
    (∃ plain, (build t { s with style := { s.style with layout := .paths } }).result = .ok plain ∧
      c.document.member? "paths" = some plain.document) ∧
    ∀ key item, (key, item) ∈ pathItems s.style.layout c.document →
      ∃ operation, key = path operation ∧
        ∀ role, ∀ v ∈ referencesOf item role, Closed c.document c.findings operation role v := by
  refine ⟨⟨_, build_with_style _ h, ?_⟩, fun key item hitem => ?_⟩
  · obtain ⟨-, sources, documents, -, rfl⟩ := build_eq_ok_iff.1 h
    simp [Compiled.ofRegistry, emit, hlayout, envelope, Json.member?, List.lookup_cons]
  · obtain ⟨-, sources, documents, hinputs, rfl⟩ := build_eq_ok_iff.1 h
    obtain ⟨p, hp, rfl, rfl⟩ := mem_pathItems_emit_iff.1 hitem
    have hactive := hinputs.isActive_ofInputs_iff.2 hschemas
    refine ⟨p.operation, rfl, fun role v hv => ?_⟩
    obtain ⟨schema, rfl, hclosed⟩ :=
      closed_of_settled (settled_ofInputs sources documents) hlayout rfl hactive hp hv
    exact ⟨schema, rfl, hclosed.imp_right (List.mem_append_right _)⟩

/-- An operation with two schemas, and a service that has it. -/
def describedOperation : List Source :=
  [⟨.operations, "o", "<o><operation name='X'><input target='I'/><output target='O'/>"
      ++ "</operation></o>"⟩,
    ⟨.services, "s", "<s><service name='A'><m target='X'/></service></s>"⟩]

/-- A document that defines one of the schemas. -/
def inputDocument : String × String :=
  ("d", "openapi: 3.0.3\ninfo:\n  title: t\n  version: v\npaths: \x7b\x7d\ncomponents:\n"
    ++ "  schemas:\n    I:\n      type: object\n")

open Contract in
/-- Both references are closed, that to the input by a definition and that to the output by a
finding. -/
theorem closes_build_describedOperation :
    let t := FileTree.ofTexts
      (inputDocument :: describedOperation.map fun s => (s.origin, s.text))
    let s : Settings := { Settings.default with
      operations := ["o"], services := ["s"], schemas := ["d"]
      style := { Style.default with layout := .openapi } }
    ∃ c item, (build t s).result = .ok c ∧ s.style.layout = .openapi ∧ s.schemas ≠ [] ∧
      ("/X", item) ∈ pathItems s.style.layout c.document ∧
      referencesOf item .input = [reference "I"] ∧ referencesOf item .output = [reference "O"] ∧
      ∀ role, ∀ v ∈ referencesOf item role, Closed c.document c.findings "X" role v := by
  intro t s
  have hinputs : Inputs t s describedOperation [inputDocument] :=
    { descriptors := rfl
      texts := by
        rw [describedOperation, List.forall_mem_cons, List.forall_mem_singleton]
        exact ⟨FileTree.readText_of_entry? (by decide) rfl rfl,
          FileTree.readText_of_entry? (by decide) rfl rfl⟩
      wellFormed := by decide +kernel
      schemas := rfl
      isSchemas := by
        rw [List.forall_mem_singleton]
        exact ⟨FileTree.readText_of_entry? (by decide) rfl rfl, by decide +kernel⟩ }
  have hbuilt := build_eq_ok_iff.2 ⟨List.cons_ne_nil _ _, describedOperation, _, hinputs, rfl⟩
  let r := Registry.ofInputs describedOperation [inputDocument]
  let p : Placement := ⟨"A", "X", ⟨some "I", some "O", []⟩⟩
  have hp : Contract.last? "X" (placements r) = some p := by decide +kernel
  have hitem : ("/X", pathItem r .keepFirst p) ∈
      pathItems s.style.layout (Compiled.ofRegistry r s.style).document :=
    mem_pathItems_emit_iff.2 ⟨p, hp, rfl, rfl⟩
  obtain ⟨operation, hkey, hclosed⟩ :=
    (closes_build hbuilt rfl (List.cons_ne_nil _ _)).2 _ _ hitem
  obtain rfl : "X" = operation := path_inj.1 hkey
  exact ⟨_, _, hbuilt, rfl, List.cons_ne_nil _ _, hitem, rfl, rfl, hclosed⟩

end ServiceContract
