import ServiceContract.Proofs.Merging
import ServiceContract.Proofs.Responses
/-!
# A further schema document

The paths of a contract do not depend on schema documents. These only settle which schemas can be
checked, and which of them are known. A document adds the schemas that it declares to those of the
catalog, and no others, be it the first with components or merged with earlier ones
(`Catalog.contains_takeIn`). So where schemas could be checked before, of the findings just those
about the declared schemas go (`Contract.itemFindings_takeIn`). Where they could not, nothing was
found about schemas, and what a path item leaves out apart from these is the same under every
catalog (`Contract.filter_itemFindings_of_not_isActive`).
-/

namespace ServiceContract

open OpenApi

/-! ## Catalogs -/

/-- The schemas that a text declares, if it is a document and has components. -/
def declaredSchemas (text : String) : List String :=
  match readDocument? text with
  | some members => ((Area.named .schemas).published (.object members)).map Prod.fst
  | none => []

theorem mem_declaredSchemas_iff (origin : String) {text name : String} :
    name ∈ declaredSchemas text ↔
      ∃ c, declaration? (origin, text) = some c ∧ name ∈ (c.part (.named .schemas)).keys := by
  simp only [declaredSchemas, declaration?, readComponents?]
  cases readDocument? text with
  | none => simp
  | some members =>
    cases hv : members.lookup "components" with
    | none => simp [Area.published, Area.written, Json.member?, hv, Json.members]
    | some v =>
      simp [Area.published, Area.written, Json.member?, hv, Components.part, Components.ofMembers,
        Table.keys_ofList, List.mem_eraseDups]

/-- A document that cannot be read or has no components declares no schema. -/
theorem declaredSchemas_eq_nil {origin text : String} (h : declaration? (origin, text) = none) :
    declaredSchemas text = [] := by
  rw [List.eq_nil_iff_forall_not_mem]
  intro name hname
  obtain ⟨c, hc, -⟩ := (mem_declaredSchemas_iff origin).1 hname
  rw [h] at hc
  simp at hc

namespace Catalog

/-- Schemas can be checked as soon as a document has been accepted, whatever is in it. -/
theorem isActive_takeIn (c : Catalog) (origin text : String) :
    (c.takeIn (origin, text)).isActive = (c.isActive || (readComponents? text).isSome) := by
  unfold takeIn read
  cases readComponents? text with
  | none => simp
  | some incoming => simp [add, isActive]

/-- A document makes known the schemas that it declares. -/
theorem contains_takeIn (c : Catalog) (origin text name : String) :
    (c.takeIn (origin, text)).contains name =
      (c.contains name || (declaredSchemas text).contains name) := by
  rw [Bool.eq_iff_iff, Bool.or_eq_true, List.contains_iff_mem, contains_iff, contains_iff,
    mem_declaredSchemas_iff origin, part, part, components_takeIn]
  cases hd : declaration? (origin, text) with
  | none => simp
  | some later =>
    cases c.components with
    | none =>
      have hempty : (∅ : Table Json).keys = [] := rfl
      simp [hempty]
    | some earlier =>
      have hmerged : (Area.named .schemas).isMerged = true := rfl
      simp [Components.part_merge, hmerged, Table.keys_extend, List.mem_eraseDups]

end Catalog

/-- Taking in a schema document changes the catalog only. -/
theorem Registry.step_addSchemas (r : Registry) (origin text : String) :
    r.step (.addSchemas origin text) = { r with catalog := r.catalog.takeIn (origin, text) } := by
  rw [step, addSchemas_eq, Catalog.takeIn, Catalog.read]
  cases readComponents? text <;> rfl

namespace Contract

/-! ## Findings about schemas -/

/-- Whether a finding says of one of several schemas that it is unknown. -/
def reportsUnknown (schemas : String → Bool) : Finding → Bool
  | .unknownSchema _ schema _ => schemas schema
  | _ => false

/-- Without a schema document no schema is missed. -/
theorem checkSchema_of_not_isActive {catalog : Catalog} (h : catalog.isActive = false)
    (operation : String) (role : Role) (schema? : Option String) :
    checkSchema catalog operation role schema? = [] := by
  cases schema? with
  | none => rfl
  | some schema => simp [checkSchema, h]

theorem filter_checkSchema (catalog : Catalog) (operation : String) (role : Role)
    (schema? : Option String) :
    (checkSchema catalog operation role schema?).filter (!reportsUnknown (fun _ => true) ·) =
      [] := by
  rw [List.filter_eq_nil_iff]
  intro f hf
  obtain ⟨schema, -, -, -, rfl⟩ := mem_checkSchema_iff.1 hf
  simp [reportsUnknown]

/-- Where schemas can be checked, those that a further document declares are no longer reported. -/
theorem checkSchema_takeIn {catalog : Catalog} (h : catalog.isActive = true)
    (origin text operation : String) (role : Role) (schema? : Option String) :
    checkSchema (catalog.takeIn (origin, text)) operation role schema? =
      (checkSchema catalog operation role schema?).filter
        (!reportsUnknown (declaredSchemas text).contains ·) := by
  cases schema? with
  | none => rfl
  | some schema =>
    simp only [checkSchema, Catalog.isActive_takeIn, Catalog.contains_takeIn, h, Bool.true_or,
      Bool.true_and]
    cases catalog.contains schema with
    | true => simp
    | false =>
      by_cases hdeclared : schema ∈ declaredSchemas text <;> simp [reportsUnknown, hdeclared]

/-- Of the findings of a path item only those about its schemas can be about unknown ones. -/
theorem filter_itemFindings (schemas : String → Bool) (r : Registry) (rule : DuplicateStatus)
    (p : Placement) : (itemFindings r rule p).filter (!reportsUnknown schemas ·) =
      (checkSchema r.catalog p.operation .input p.definition.input).filter
          (!reportsUnknown schemas ·)
        ++ (checkSchema r.catalog p.operation .output p.definition.output).filter
          (!reportsUnknown schemas ·)
        ++ checkInput p.operation p.definition.input
        ++ (responses r.errorCodes rule p.operation p.definition).2 := by
  have hinput : (checkInput p.operation p.definition.input).filter (!reportsUnknown schemas ·) =
      checkInput p.operation p.definition.input := by
    rw [List.filter_eq_self]
    intro f hf
    rw [(mem_checkInput_iff.1 hf).2]
    rfl
  have hresponses : (responses r.errorCodes rule p.operation p.definition).2.filter
      (!reportsUnknown schemas ·) = (responses r.errorCodes rule p.operation p.definition).2 := by
    rw [List.filter_eq_self]
    intro f hf
    have hcodes := aboutCodes_of_mem_responses _ _ _ _ hf
    cases f with
    | unknownSchema => simp [aboutCodes] at hcodes
    | _ => rfl
  simp only [itemFindings, List.filter_append, hinput, hresponses]

theorem itemFindings_takeIn {r : Registry} (h : r.catalog.isActive = true) (origin text : String)
    (rule : DuplicateStatus) (p : Placement) :
    itemFindings { r with catalog := r.catalog.takeIn (origin, text) } rule p =
      (itemFindings r rule p).filter (!reportsUnknown (declaredSchemas text).contains ·) := by
  rw [filter_itemFindings, ← checkSchema_takeIn h origin, ← checkSchema_takeIn h origin]
  rfl

theorem filter_itemFindings_of_not_isActive {r : Registry} (h : r.catalog.isActive = false)
    (catalog : Catalog) (rule : DuplicateStatus) (p : Placement) :
    (itemFindings { r with catalog } rule p).filter (!reportsUnknown (fun _ => true) ·) =
      itemFindings r rule p := by
  rw [filter_itemFindings, filter_checkSchema, filter_checkSchema, itemFindings,
    checkSchema_of_not_isActive h, checkSchema_of_not_isActive h]

/-! ## Contracts -/

/-- Two contracts in one style, without and with a further schema document, that differ in nothing
but findings about unknown schemas. -/
structure DiffersInUnknowns (r s : Registry) (origin text : String) (style : Style) : Prop where
  document : (emit s style).document = (emit r style).document
  paths : (emit s style).paths = (emit r style).paths
  /-- Where schemas could be checked before, those that are declared are no longer reported, and
  nothing else changes. -/
  active : r.catalog.isActive = true → (emit s style).findings =
    (emit r style).findings.filter (!reportsUnknown (declaredSchemas text).contains ·)
  /-- No schema is declared by a document that cannot be read or has no components. -/
  undeclared : declaration? (origin, text) = none → declaredSchemas text = []
  /-- Where schemas could not be checked before, nothing but unknown schemas is new. -/
  inactive : r.catalog.isActive = false →
    (emit s style).findings.filter (!reportsUnknown (fun _ => true) ·) = (emit r style).findings

theorem placed_fst_with_catalog (r : Registry) (catalog : Catalog) (rule : DuplicateStatus) :
    (placed { r with catalog } rule).1 = (placed r rule).1 := by
  rw [placed_fst, placed_fst]
  rfl

section Emit

variable (r : Registry) (style : Style)

/-- Where schemas are checked already, a further document only takes findings away. -/
theorem findings_emit_takeIn (h : r.catalog.isActive = true) (origin text : String) :
    (emit { r with catalog := r.catalog.takeIn (origin, text) } style).findings =
      (emit r style).findings.filter (!reportsUnknown (declaredSchemas text).contains ·) := by
  have hseen := @filterMap_findings_emit _ { r with catalog := r.catalog.takeIn (origin, text) } r
    style style some (Option.guard (!reportsUnknown (declaredSchemas text).contains ·)) rfl
    (fun _ _ _ => rfl) fun p => by
      rw [List.filterMap_some, List.filterMap_eq_filter]
      exact itemFindings_takeIn h origin text _ p
  rwa [List.filterMap_some, List.filterMap_eq_filter] at hseen

theorem filter_findings_emit_of_not_isActive (h : r.catalog.isActive = false) (catalog : Catalog) :
    (emit { r with catalog } style).findings.filter (!reportsUnknown (fun _ => true) ·) =
      (emit r style).findings := by
  have hseen := @filterMap_findings_emit _ { r with catalog } r style style
    (Option.guard (!reportsUnknown (fun _ => true) ·)) some rfl (fun _ _ _ => rfl) fun p => by
      rw [List.filterMap_some, List.filterMap_eq_filter]
      exact filter_itemFindings_of_not_isActive h catalog _ p
  rwa [List.filterMap_some, List.filterMap_eq_filter] at hseen

/-- A further schema document, accepted or not, changes nothing in the paths of a contract, and of
its findings only those about unknown schemas. -/
theorem differsInUnknowns_emit (origin text : String) :
    DiffersInUnknowns r (r.step (.addSchemas origin text)) origin text
      { style with layout := .paths } := by
  rw [Registry.step_addSchemas]
  have hplaced := placed_fst_with_catalog r (r.catalog.takeIn (origin, text)) style.duplicateStatus
  constructor
  case document => exact congrArg pathsJson hplaced
  case paths => exact congrArg Table.size hplaced
  case active => exact fun h => findings_emit_takeIn r _ h origin text
  case undeclared => exact declaredSchemas_eq_nil
  case inactive => exact fun h => filter_findings_emit_of_not_isActive r _ h _

end Emit

/-- Of two unknown schemas one is declared by a further document. -/
example :
    let text := "openapi: 3.0.3\ninfo:\n  title: t\n  version: v\npaths: \x7b\x7d\ncomponents:\n"
      ++ "  schemas:\n    I:\n      type: object\n"
    let r := { Registry.empty with
      services := Table.ofList [("S", Table.ofList [("X", ⟨some "I", some "O", []⟩)])]
      catalog := ⟨none, 1⟩ }
    (emit r Style.default).findings =
        [.unknownSchema "X" "I" .input, .unknownSchema "X" "O" .output] ∧
      (emit (r.step (.addSchemas "d" text)) Style.default).findings =
        [.unknownSchema "X" "O" .output] := by
  decide +kernel

end Contract

end ServiceContract
