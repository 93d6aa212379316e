import ServiceContract.Proofs.DuplicateStatus
import ServiceContract.Proofs.Provenance
/-!
# How far the status codes of errors reach

The table of status codes is read where the responses of an operation are made, and nowhere else.
So with another table a contract has the same paths, and what stands under them is the same apart
from the responses (`cover_pathItem_of_codes`). The responses of an operation depend on the table
only through the codes of its own errors, and an error without a code is as good as one with the
default (`responses_fst_congr`). What is reported about codes stands among other findings and goes
with them where a path is taken over, so that the others are the same one by one
(`differsInResponses_emit`).
-/

namespace ServiceContract.Contract

/-! ## Responses -/

section Responses

variable {codes other : Table String} {rule : DuplicateStatus} {operation : String} {op : Operation}

/-- What asks for responses depends on the table only through the codes of the errors. -/
theorem wanted_congr (h : ∀ error ∈ op.errors,
    ErrorStatus.resolve codes error = ErrorStatus.resolve other error) :
    wanted codes op = wanted other op := by
  rw [wanted, wanted]
  refine congrArg _ (List.map_congr_left fun error herror => ?_)
  rw [h error herror]

/-- The responses depend on the status codes of the errors that the operation names. -/
theorem responses_fst_congr (h : ∀ error ∈ op.errors,
    ErrorStatus.resolve codes error = ErrorStatus.resolve other error) :
    (responses codes rule operation op).1 = (responses other rule operation op).1 := by
  refine Table.eq_of_get?_eq ?_ fun code => ?_
  · rw [keys_responses, keys_responses, wanted_congr h]
  · rw [get?_responses, get?_responses, wanted_congr h]

end Responses

/-! ## Path items -/

/-- The place of the responses in a path item. -/
def responsesPlace : List String := ["post", "responses"]

section PathItem

variable (r : Registry) (codes : Table String) (rule : DuplicateStatus) (p : Placement)

/-- With other status codes a path item is the same where its responses are covered. -/
theorem cover_pathItem_of_codes :
    (pathItem { r with errorCodes := codes } rule p).cover (· = responsesPlace) =
      (pathItem r rule p).cover (· = responsesPlace) := by
  simp only [pathItem, Json.cover, Json.coverMembers, responsesPlace, decide_true, if_true]

/-- With other status codes a path item is the same if the errors of its operation have theirs. -/
theorem pathItem_of_codes {r : Registry} {codes : Table String} {p : Placement}
    (h : ∀ error ∈ p.definition.errors,
      ErrorStatus.resolve r.errorCodes error = ErrorStatus.resolve codes error) :
    pathItem { r with errorCodes := codes } rule p = pathItem r rule p := by
  have hresponses := @responses_fst_congr _ _ rule p.operation _ h
  simp only [pathItem, hresponses]

theorem filter_itemFindings_of_codes :
    (itemFindings { r with errorCodes := codes } rule p).filter (!aboutCodes ·) =
      (itemFindings r rule p).filter (!aboutCodes ·) := by
  have hnone : ∀ table : Table String,
      (responses table rule p.operation p.definition).2.filter (!aboutCodes ·) = [] := by
    intro table
    rw [List.filter_eq_nil_iff]
    intro f hf
    simp [aboutCodes_of_mem_responses _ _ _ _ hf]
  simp only [itemFindings, List.filter_append, hnone]

end PathItem

/-! ## Contracts -/

/-- Whether a place in a document is that of the responses of a path item. -/
def isResponses (layout : Layout) (place : List String) : Bool :=
  (pathsPlace layout).isPrefixOf place &&
    place.drop ((pathsPlace layout).length + 1) = responsesPlace

theorem isResponses_item (layout : Layout) (key : String) (place : List String) :
    isResponses layout (pathsPlace layout ++ key :: place) = decide (place = responsesPlace) := by
  cases layout <;> simp [isResponses, pathsPlace]

/-- Two contracts in one style that differ in nothing but responses. -/
structure DiffersInResponses (r s : Registry) (style : Style) : Prop where
  /-- The paths are the same, in the same order. -/
  paths : (pathItems style.layout (emit s style).document).map Prod.fst =
    (pathItems style.layout (emit r style).document).map Prod.fst
  count : (emit s style).paths = (emit r style).paths
  /-- The documents are the same apart from the responses of path items. -/
  document : (emit s style).document.cover (isResponses style.layout) =
    (emit r style).document.cover (isResponses style.layout)
  /-- What stands under a path is made from the same operation of the same service. It is the same
  apart from the responses, and as a whole if all errors of the operation have the same codes. -/
  items : ∀ key one other, (key, one) ∈ pathItems style.layout (emit r style).document →
    (key, other) ∈ pathItems style.layout (emit s style).document →
    ∃ p, MadeFrom r style key one p ∧ MadeFrom s style key other p ∧
      other.cover (· = responsesPlace) = one.cover (· = responsesPlace) ∧
      ((∀ error ∈ p.definition.errors, ErrorStatus.resolve r.errorCodes error =
        ErrorStatus.resolve s.errorCodes error) → other = one)
  /-- The findings are the same apart from those about status codes. -/
  findings : (emit s style).findings.filter (!aboutCodes ·) =
    (emit r style).findings.filter (!aboutCodes ·)

section Emit

variable (r : Registry) (codes : Table String) (style : Style)

/-- The paths do not depend on status codes. -/
theorem map_fst_pathItems_of_codes :
    (pathItems style.layout (emit { r with errorCodes := codes } style).document).map Prod.fst =
      (pathItems style.layout (emit r style).document).map Prod.fst :=
  (map_fst_pathItems_emit { r with errorCodes := codes } style).trans
    (map_fst_pathItems_emit r style).symm

theorem cover_document_of_codes :
    (emit { r with errorCodes := codes } style).document.cover (isResponses style.layout) =
      (emit r style).document.cover (isResponses style.layout) := by
  refine @cover_document_congr r { r with errorCodes := codes } style style.duplicateStatus _ rfl
    (Json.cover_object_congr (map_fst_pathItems_of_codes r codes style)
      fun key two one htwo hone => Or.inr ?_)
  obtain ⟨p, -, -, rfl, rfl⟩ :=
    @exists_placement_of_mem_pathItems r { r with errorCodes := codes } style style rfl key
      one two hone htwo
  simp only [isResponses_item]
  exact cover_pathItem_of_codes r codes style.duplicateStatus p

theorem filter_findings_of_codes :
    (emit { r with errorCodes := codes } style).findings.filter (!aboutCodes ·) =
      (emit r style).findings.filter (!aboutCodes ·) := by
  have hseen := @filterMap_findings_emit _ { r with errorCodes := codes } r style style
    (Option.guard (!aboutCodes ·)) (Option.guard (!aboutCodes ·)) rfl (fun _ _ _ => rfl) fun p => by
      simpa only [List.filterMap_eq_filter] using
        filter_itemFindings_of_codes r codes style.duplicateStatus p
  simpa only [List.filterMap_eq_filter] using hseen

/-- The table of status codes decides nothing but the responses that use it. -/
theorem differsInResponses_emit :
    DiffersInResponses r { r with errorCodes := codes } style := by
  constructor
  case paths => exact map_fst_pathItems_of_codes r codes style
  case count =>
    have hlength := congrArg List.length (map_fst_pathItems_of_codes r codes style)
    simpa only [paths_emit, List.length_map] using hlength
  case document => exact cover_document_of_codes r codes style
  case items =>
    intro key one other hone hother
    obtain ⟨p, hp, hkey, hitem, hitem'⟩ :=
      @exists_placement_of_mem_pathItems r { r with errorCodes := codes } style style rfl key
        one other hone hother
    refine ⟨p, ⟨hp, hkey, hitem⟩, ⟨hp, hkey, hitem'⟩, ?_, fun hcodes => ?_⟩
    · rw [hitem, hitem', cover_pathItem_of_codes]
    · rw [hitem, hitem', pathItem_of_codes _ hcodes]
  case findings => exact filter_findings_of_codes r codes style

end Emit

/-- An error without a code has the same response as one with the default, but it is reported. -/
example :
    let members := Table.ofList [("X", ⟨some "I", some "O", ["E", "F"]⟩)]
    let r := { Registry.empty with
      errorCodes := Table.ofList [("F", "404")], services := Table.ofList [("S", members)] }
    let s := { r with errorCodes := Table.ofList [("E", "500"), ("F", "404")] }
    ((emit s Style.default).document == (emit r Style.default).document) = true ∧
      (emit r Style.default).findings = [.defaultedErrorCode "X" "E"] ∧
      (emit s Style.default).findings = [] := by
  decide +kernel

end ServiceContract.Contract
