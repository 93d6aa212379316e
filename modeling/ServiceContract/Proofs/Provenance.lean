import ServiceContract.Proofs.Collisions
/-!
# What a path item tells of its origin

The texts of a path item run names together : the routing text has a qualifier, a service and an
operation with points between them, the description of the body a service and an operation with a
dash. Names may hold points and dashes themselves, so neither text can be taken apart on its own.
But the operation also stands alone, as the identifier, which leaves the service in the
description, and these two leave the qualifier in the routing text. The schema of the body is a
reference or an open object, and the codes of the responses stand in order. So a path item
determines what it was made from (`provenance_eq_of_pathItem_eq`), and the output too as long as
the success has its status code (`provenance_emit`).
-/

namespace ServiceContract

theorem Qualifier.eq_of_routing_eq {qualifier other service operation : String}
    (h : routing qualifier service operation = routing other service operation) :
    qualifier = other := by
  simpa [routing] using h

namespace Contract

/-! ## Parts of a path item -/

theorem schemaReference_inj {a b : String} : schemaReference a = schemaReference b ↔ a = b := by
  simp [schemaReference]

theorem schemaReference_ne_openObject (name : String) : schemaReference name ≠ openObject := by
  simp [schemaReference, openObject]

theorem content_inj {a b : Json} : content a = content b ↔ a = b := by
  simp [content]

theorem headers_inj {a b : String} : headers a = headers b ↔ a = b := by
  simp [headers, header]

/-- Once the operation is known the body tells the service, and its schema. -/
theorem eq_of_requestBody_eq {p q : Placement} (hoperation : p.operation = q.operation)
    (h : requestBody p = requestBody q) :
    p.service = q.service ∧ p.definition.input = q.definition.input := by
  obtain ⟨service, operation, ⟨input, output, errors⟩⟩ := p
  obtain ⟨service', operation', ⟨input', output', errors'⟩⟩ := q
  obtain rfl : operation = operation' := hoperation
  cases input with
  | none =>
    cases input' with
    | none => simpa [requestBody] using h
    | some name => simp [requestBody, content_inj, (schemaReference_ne_openObject name).symm] at h
  | some name =>
    cases input' with
    | none => simp [requestBody, content_inj, schemaReference_ne_openObject name] at h
    | some name' => simpa [requestBody, content_inj, schemaReference_inj] using h

/-- The success response tells the output, or that there is none. -/
theorem output_eq_of_success_eq {op other : Operation}
    (h : (success op).body = (success other).body) : op.output = other.output := by
  cases houtput : op.output <;> cases hother : other.output <;>
    simp_all [success]

theorem lookup_members_responsesJson (table : Table Response) (code : String) :
    (responsesJson table).members.lookup code = (table.get? code).map (·.body) := by
  exact Table.lookup_map (·.body) code table.entries

/-! ## Whole path items -/

/-- What a path item is made from, apart from the output. -/
structure Provenance where
  /-- The operation. -/
  operation : String
  /-- The service that owns the path. -/
  service : String
  /-- The qualifier of the operation in this service. -/
  qualifier : String
  /-- The schema of the request body. -/
  input : Option String
  /-- The status codes of the responses, in order. -/
  statuses : List String
deriving DecidableEq, Repr

/-- What the path item of a placement is made from. -/
def provenance (r : Registry) (rule : DuplicateStatus) (p : Placement) : Provenance where
  operation := p.operation
  service := p.service
  qualifier := Qualifier.resolve r.qualifiers p.service p.operation
  input := p.definition.input
  statuses := (responses r.errorCodes rule p.operation p.definition).1.keys

/-- Whether the success of an operation has its status code in the path item. -/
def KeepsSuccess (r : Registry) (rule : DuplicateStatus) (p : Placement) : Prop :=
  (responses r.errorCodes rule p.operation p.definition).1.get? "200" =
    some (success p.definition)

section PathItem

variable {r s : Registry} {rule other : DuplicateStatus} {p q : Placement}

/-- A path item determines what it is made from. -/
theorem provenance_eq_of_pathItem_eq (h : pathItem r rule p = pathItem s other q) :
    provenance r rule p = provenance s other q := by
  have hparts := h
  simp only [pathItem, Json.object.injEq, List.cons.injEq, Prod.mk.injEq, true_and, and_true,
    Json.string.injEq, headers_inj] at hparts
  obtain ⟨hoperation, hrouting, hbody, -⟩ := hparts
  obtain ⟨hservice, hinput⟩ := eq_of_requestBody_eq hoperation hbody
  have hstatuses := congrArg responseCodes h
  rw [responseCodes_pathItem, responseCodes_pathItem] at hstatuses
  rw [← hoperation, ← hservice] at hrouting
  have hqualifier := Qualifier.eq_of_routing_eq hrouting
  simp only [provenance, Provenance.mk.injEq]
  exact ⟨hoperation, hservice, by rw [hqualifier, hoperation, hservice], hinput, hstatuses⟩

/-- A path item determines the output if the success has its status code. -/
theorem output_eq_of_pathItem_eq (h : pathItem r rule p = pathItem s other q)
    (hp : KeepsSuccess r rule p) (hq : KeepsSuccess s other q) :
    p.definition.output = q.definition.output := by
  have hresponses := congrArg (posted "responses") h
  rw [posted_responses_pathItem, posted_responses_pathItem] at hresponses
  have hbody := congrArg (·.members.lookup "200") hresponses
  simp only [lookup_members_responsesJson] at hbody
  rw [hp, hq] at hbody
  exact output_eq_of_success_eq (Option.some.inj hbody)

end PathItem

/-! ## Contracts -/

/-- A path item under its path, and the placement that it is made from. -/
structure MadeFrom (r : Registry) (style : Style) (key : String) (item : Json) (p : Placement) :
    Prop where
  /-- The service of the placement is the last that has the operation. -/
  last : last? p.operation (placements r) = some p
  key : key = "/" ++ p.operation
  item : item = pathItem r style.duplicateStatus p

/-- Where two contracts have the same path item it is made from the same names and codes in both. -/
theorem provenance_emit {r s : Registry} {style other : Style} {key key' : String} {item : Json}
    (h : (key, item) ∈ pathItems style.layout (emit r style).document)
    (h' : (key', item) ∈ pathItems other.layout (emit s other).document) :
    ∃ p q, MadeFrom r style key item p ∧ MadeFrom s other key' item q ∧
      provenance r style.duplicateStatus p = provenance s other.duplicateStatus q ∧
      (KeepsSuccess r style.duplicateStatus p → KeepsSuccess s other.duplicateStatus q →
        p.definition.output = q.definition.output) := by
  obtain ⟨p, hp, hkey, hitem⟩ := mem_pathItems_emit_iff.1 h
  obtain ⟨q, hq, hkey', hitem'⟩ := mem_pathItems_emit_iff.1 h'
  have hsame := hitem.symm.trans hitem'
  exact ⟨p, q, ⟨hp, hkey, hitem⟩, ⟨hq, hkey', hitem'⟩, provenance_eq_of_pathItem_eq hsame,
    output_eq_of_pathItem_eq hsame⟩

/-- A labelled service with an operation that can fail in one way. -/
def labelledService : Registry :=
  { Registry.empty with
    errorCodes := Table.ofList [("E", "404")]
    services := Table.ofList [("S - T", Table.ofList [("X.Y", ⟨some "I", some "O", ["E"]⟩)])]
    qualifiers := Table.ofList [("S - T", "a.b")] }

/-- A labelled operation that can fail in two ways, in two services. -/
def labelledOperation : Registry :=
  let members := Table.ofList [("X.Y", ⟨some "I", some "O", ["F", "G"]⟩)]
  { Registry.empty with
    errorCodes := Table.ofList [("F", "404"), ("G", "404")]
    services := Table.ofList [("S", members), ("S - T", members)]
    qualifiers := Table.ofList [("X.Y", "a.b")] }

/-- Their contracts in different styles have the same path item, of the same origin. -/
theorem provenance_emit_labelled :
    let one := Style.default
    let other : Style := ⟨.keepLast, .openapi, Info.default⟩
    ∃ item, ("/X.Y", item) ∈ pathItems one.layout (emit labelledService one).document ∧
      ("/X.Y", item) ∈ pathItems other.layout (emit labelledOperation other).document ∧
      ∃ p q, MadeFrom labelledService one "/X.Y" item p ∧
        MadeFrom labelledOperation other "/X.Y" item q ∧
        provenance labelledService .keepFirst p = provenance labelledOperation .keepLast q ∧
        (KeepsSuccess labelledService .keepFirst p → KeepsSuccess labelledOperation .keepLast q →
          p.definition.output = q.definition.output) := by
  intro one other
  let p : Placement := ⟨"S - T", "X.Y", ⟨some "I", some "O", ["E"]⟩⟩
  let q : Placement := ⟨"S - T", "X.Y", ⟨some "I", some "O", ["F", "G"]⟩⟩
  have hp : ("/X.Y", pathItem labelledService .keepFirst p) ∈
      pathItems one.layout (emit labelledService one).document :=
    mem_pathItems_emit_iff.2 ⟨p, by decide +kernel, rfl, rfl⟩
  have hq : ("/X.Y", pathItem labelledOperation .keepLast q) ∈
      pathItems other.layout (emit labelledOperation other).document :=
    mem_pathItems_emit_iff.2 ⟨q, by decide +kernel, rfl, rfl⟩
  have hsame : pathItem labelledService .keepFirst p = pathItem labelledOperation .keepLast q := by
    rfl
  rw [← hsame] at hq
  exact ⟨_, hp, hq, provenance_emit hp hq⟩

end Contract

end ServiceContract
