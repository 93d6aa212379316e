import ServiceContract.Proofs.Emission
import ServiceContract.Proofs.History
/-!
# Which defaults are reported

A path item says less than its operation asks for where the request body is an open object, where a
schema is not defined, and where an error has no status code (`IsDefault`). The findings of an
emission report such a default exactly if it is one of the first placement of the operation
(`mem_findings_iff_isDefault_first`). The path item in the contract is that of the last placement,
so its defaults are all reported exactly if the first placement has them too (`reports_after_iff`).
A service keeps an operation as it was when the service was taken in : where the operation is
redefined between two services that have it, a default can be lost (`not_reports_redefined`).
-/

namespace ServiceContract.Contract

/-- What an operation says about the schema in a role. -/
def schemaOf (op : Operation) : Role → Option String
  | .input => op.input
  | .output => op.output

/-- What the path item of a placement leaves out or fills in, as a finding. -/
inductive IsDefault (r : Registry) (p : Placement) : Finding → Prop where
  /-- There is no input schema, so the request body is an open object. -/
  | input (h : p.definition.input = none) : IsDefault r p (.missingInput p.operation)
  /-- Schemas can be checked, and that of a role is not defined. -/
  | schema (role : Role) (schema : String) (h : schemaOf p.definition role = some schema)
      (hactive : r.catalog.isActive = true) (hunknown : r.catalog.contains schema = false) :
      IsDefault r p (.unknownSchema p.operation schema role)
  /-- An error target has no status code. -/
  | error (error : String) (h : error ∈ p.definition.errors)
      (hcode : r.errorCodes.get? error = none) :
      IsDefault r p (.defaultedErrorCode p.operation error)

/-! ## The findings of a path item -/

/-- A schema that an active catalog does not contain is reported. -/
theorem mem_checkSchema_iff {catalog : Catalog} {operation : String} {role : Role}
    {schema? : Option String} {f : Finding} :
    f ∈ checkSchema catalog operation role schema? ↔
      ∃ schema, schema? = some schema ∧ catalog.isActive = true ∧
        catalog.contains schema = false ∧ f = .unknownSchema operation schema role := by
  cases schema? with
  | none => simp [checkSchema]
  | some schema =>
    by_cases h : (catalog.isActive && !catalog.contains schema) = true
    · have hparts := h
      rw [Bool.and_eq_true, Bool.not_eq_true'] at hparts
      simp [checkSchema, hparts.1, hparts.2]
    · have hparts : ¬ (catalog.isActive = true ∧ catalog.contains schema = false) := by
        simpa using h
      rw [checkSchema, if_neg h]
      simp only [List.not_mem_nil, false_iff]
      rintro ⟨other, hother, hactive, hunknown, -⟩
      obtain rfl := Option.some.inj hother
      exact hparts ⟨hactive, hunknown⟩

theorem mem_checkInput_iff {operation : String} {input : Option String} {f : Finding} :
    f ∈ checkInput operation input ↔ input = none ∧ f = .missingInput operation := by
  cases input <;> simp [checkInput]

/-- Whether a finding says that two responses have one status code. -/
def isCollision : Finding → Bool
  | .statusCodeCollision .. => true
  | _ => false

theorem isCollision_of_mem_addResponse {rule : DuplicateStatus} {operation code error : String}
    {table : Table Response} {f : Finding}
    (h : f ∈ (addResponse rule operation table code error).2) : isCollision f = true := by
  unfold addResponse at h
  cases hcode : table.get? code with
  | none => simp [hcode] at h
  | some existing =>
    rw [hcode] at h
    cases rule with
    | keepFirst => rw [List.mem_singleton.1 h]; rfl
    | keepLast => rw [List.mem_singleton.1 h]; rfl

/-- Apart from collisions, responses report the errors without a status code. -/
theorem mem_responses_iff {codes : Table String} {rule : DuplicateStatus} {operation : String}
    {op : Operation} {f : Finding} (hf : isCollision f = false) :
    f ∈ (responses codes rule operation op).2 ↔
      ∃ error ∈ op.errors, codes.get? error = none ∧ f = .defaultedErrorCode operation error := by
  unfold responses
  induction op.errors using List.reverseRecOn with
  | nil => simp
  | append_singleton errors error ih =>
    rw [List.foldl_append, List.foldl_cons, List.foldl_nil, addError]
    generalize errors.foldl (addError codes rule operation) _ = state at ih
    have hnot : f ∉ (addResponse rule operation state.1
        (ErrorStatus.resolve codes error) error).2 :=
      fun hmem => by simp [isCollision_of_mem_addResponse hmem] at hf
    have hfilled : f ∈ (if codes.contains error then []
        else [Finding.defaultedErrorCode operation error]) ↔
          codes.get? error = none ∧ f = .defaultedErrorCode operation error := by
      cases hcode : codes.get? error <;> simp [Table.contains, hcode]
    simp only [List.mem_append, ih, hfilled, hnot, or_false, List.mem_singleton, or_and_right,
      exists_or, exists_eq_left]

/-- Apart from collisions, the findings of a path item are its defaults. -/
theorem mem_itemFindings_iff {r : Registry} {rule : DuplicateStatus} {p : Placement} {f : Finding}
    (hf : isCollision f = false) : f ∈ itemFindings r rule p ↔ IsDefault r p f := by
  simp only [itemFindings, List.mem_append, mem_checkSchema_iff, mem_checkInput_iff,
    mem_responses_iff hf]
  constructor
  · rintro (((⟨schema, hschema, hactive, hunknown, rfl⟩ | ⟨schema, hschema, hactive, hunknown,
      rfl⟩) | ⟨hinput, rfl⟩) | ⟨error, herror, hcode, rfl⟩)
    · exact .schema .input schema hschema hactive hunknown
    · exact .schema .output schema hschema hactive hunknown
    · exact .input hinput
    · exact .error error herror hcode
  · rintro (hinput | ⟨role, schema, hschema, hactive, hunknown⟩ | ⟨error, herror, hcode⟩)
    · exact Or.inl (Or.inr ⟨hinput, rfl⟩)
    · cases role with
      | input => exact Or.inl (Or.inl (Or.inl ⟨schema, hschema, hactive, hunknown, rfl⟩))
      | output => exact Or.inl (Or.inl (Or.inr ⟨schema, hschema, hactive, hunknown, rfl⟩))
    · exact Or.inr ⟨error, herror, hcode, rfl⟩

/-! ## Reports of defaults -/

/-- The operation that a default names. -/
def subject? : Finding → Option String
  | .missingInput operation => some operation
  | .unknownSchema operation .. => some operation
  | .defaultedErrorCode operation _ => some operation
  | _ => none

theorem IsDefault.subject? {r : Registry} {p : Placement} {f : Finding} (h : IsDefault r p f) :
    subject? f = some p.operation := by
  cases h <;> rfl

theorem IsDefault.isReplacement {r : Registry} {p : Placement} {f : Finding}
    (h : IsDefault r p f) : isReplacement f = false := by
  cases h <;> rfl

/-- A default is no collision of status codes. -/
theorem IsDefault.isCollision {r : Registry} {p : Placement} {f : Finding}
    (h : IsDefault r p f) : isCollision f = false := by
  cases h <;> rfl

/-- A default of a placement is reported exactly if the first placement has it too. -/
theorem mem_findings_iff_isDefault_first {r : Registry} {style : Style} {p first : Placement}
    {f : Finding} (hfirst : first? p.operation (placements r) = some first)
    (hf : IsDefault r p f) : f ∈ (emit r style).findings ↔ IsDefault r first f := by
  rw [mem_findings_emit_iff hf.isReplacement]
  simp only [mem_itemFindings_iff hf.isCollision]
  constructor
  -- The finding names its operation, so it can only come from the first placement of that.
  · rintro ⟨q, hq, hdefault⟩
    have hoperation : p.operation = q.operation := by
      rw [← Option.some_inj, ← hf.subject?, ← hdefault.subject?]
    rw [← hoperation, hfirst] at hq
    obtain rfl := Option.some.inj hq
    exact hdefault
  · intro hdefault
    exact ⟨first, by rw [operation_of_first? hfirst, hfirst], hdefault⟩

/-- All defaults of a placement are among findings. -/
def Reports (r : Registry) (findings : List Finding) (p : Placement) : Prop :=
  ∀ f, IsDefault r p f → f ∈ findings

/-- The first placement of an operation, and the last, whose path item is in the contract. -/
structure Placed (r : Registry) (first last : Placement) : Prop where
  first : first? last.operation (placements r) = some first
  last : last? last.operation (placements r) = some last

/-- After any steps, the path items of a contract are those of the last placements, and all
defaults of such a path item are reported exactly if the first placement of the operation has
them too. -/
theorem reports_after_iff (steps : List Step) (style : Style) :
    let r := Registry.empty.after steps
    let emission := emit r style
    (∀ key item, (key, item) ∈ pathItems style.layout emission.document ↔
      ∃ first last, Placed r first last ∧ key = path last.operation ∧
        item = pathItem r style.duplicateStatus last) ∧
    ∀ first last, Placed r first last → (Reports r emission.findings last ↔
      ∀ f, IsDefault r last f → IsDefault r first f) := by
  intro r emission
  constructor
  · intro key item
    rw [mem_pathItems_emit_iff]
    constructor
    · rintro ⟨last, hlast, hkey, hitem⟩
      obtain ⟨first, hfirst⟩ := exists_first?_of_last? hlast
      exact ⟨first, last, ⟨hfirst, hlast⟩, hkey, hitem⟩
    · rintro ⟨first, last, hplaced, hkey, hitem⟩
      exact ⟨last, hplaced.last, hkey, hitem⟩
  · intro first last hplaced
    exact forall₂_congr fun f hf => mem_findings_iff_isDefault_first hplaced.first hf

/-- An operation with an input, a service with it, the operation without an input, and another
service with it. -/
def redefinition : List Step :=
  [.ingest ⟨.operations, "a.xml", "<o><operation name='X'><input target='I'/></operation></o>"⟩,
    .ingest ⟨.services, "b.xml", "<s><service name='A'><m target='X'/></service></s>"⟩,
    .ingest ⟨.operations, "c.xml", "<o><operation name='X'/></o>"⟩,
    .ingest ⟨.services, "d.xml", "<s><service name='B'><m target='X'/></service></s>"⟩]

/-- The path item in the contract has an open object as request body, which is not reported. -/
theorem not_reports_redefined :
    let r := Registry.empty.after redefinition
    let emission := emit r Style.default
    let last : Placement := ⟨"B", "X", Operation.blank⟩
    ("/X", pathItem r .keepFirst last) ∈ pathItems .paths emission.document ∧
      IsDefault r last (.missingInput "X") ∧ .missingInput "X" ∉ emission.findings := by
  intro r emission last
  have hlast : last? "X" (placements r) = some last := by decide +kernel
  have hitem : ("/X", pathItem r .keepFirst last) ∈
      pathItems Style.default.layout (emit r Style.default).document :=
    mem_pathItems_emit_iff.2 ⟨last, hlast, rfl, rfl⟩
  exact ⟨hitem, .input rfl, by decide +kernel⟩

end ServiceContract.Contract
