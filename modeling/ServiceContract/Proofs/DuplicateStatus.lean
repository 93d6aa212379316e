import ServiceContract.Proofs.Collisions
import ServiceContract.Proofs.Ownership
/-!
# What the rule for taken status codes decides

The two rules for a status code that is asked for twice come to the same contract except in one
respect. All errors with one status code have the same response, so it only matters which of them
is kept where an error competes with the success for `200` (`body_of_get?_responses`). These places
of a document are known beforehand (`contested`), and with them covered the documents are the same.
The findings are the same one by one, apart from which source is kept and which is dropped
(`Finding.impartial`, `differsInChoice_emit`).
-/

namespace ServiceContract

/-! ## Covering places of a value -/

namespace Json

mutual

/-- A value with nothing in the places that are covered. The place of a member at any depth is given
by the names on the way to it. -/
def cover (covered : List String → Bool) : Json → Json
  | .object members => .object (coverMembers covered members)
  | v => v

/-- Named values with nothing in the places that are covered. -/
def coverMembers (covered : List String → Bool) : List (String × Json) → List (String × Json)
  | [] => []
  | (name, v) :: rest =>
    (name, if covered [name] then .null else cover (fun place => covered (name :: place)) v)
      :: coverMembers covered rest

end

theorem coverMembers_eq_map (covered : List String → Bool) (members : List (String × Json)) :
    coverMembers covered members = members.map fun m =>
      (m.1, if covered [m.1] then .null else cover (fun place => covered (m.1 :: place)) m.2) := by
  induction members with
  | nil => rfl
  | cons m rest ih => rw [coverMembers, ih, List.map_cons]

/-- Objects with the same names in the same order are the same under a cover if their members are,
or are covered themselves. -/
theorem cover_object_congr {covered : List String → Bool} {l m : List (String × Json)}
    (hnames : l.map Prod.fst = m.map Prod.fst)
    (h : ∀ name v w, (name, v) ∈ l → (name, w) ∈ m → covered [name] = true ∨
      cover (fun place => covered (name :: place)) v =
        cover (fun place => covered (name :: place)) w) :
    cover covered (.object l) = cover covered (.object m) := by
  rw [cover, cover, coverMembers_eq_map, coverMembers_eq_map]
  refine congrArg _ (map_congr_of_map_fst hnames fun name v w hv hw => ?_)
  rcases h name v w hv hw with hcovered | hsame
  · simp only [hcovered, if_true]
  · simp only [hsame]

end Json

/-- A finding without what the rule decides : which of two sources is kept, and which is dropped. -/
def Finding.impartial : Finding → Finding
  | .statusCodeCollision operation code _ _ => .statusCodeCollision operation code "" ""
  | f => f

namespace Contract

/-! ## Responses -/

section Responses

variable (codes : Table String) (rule other : DuplicateStatus) (operation : String) (op : Operation)

/-- Under both rules the responses are the same where those of the success is covered, and without
competition anyway. -/
theorem cover_responsesJson (covered : List String → Bool)
    (h : competes codes op = true → covered [successStatus] = true) :
    (responsesJson (responses codes rule operation op).1).cover covered =
      (responsesJson (responses codes other operation op).1).cover covered := by
  refine Json.cover_object_congr ?_ fun code v w hv hw => ?_
  · have hkeys := (keys_responses codes rule operation op).trans
      (keys_responses codes other operation op).symm
    rw [List.map_map, List.map_map]
    exact hkeys
  · obtain ⟨⟨c, one⟩, hone, heq⟩ := List.mem_map.1 hv
    obtain ⟨rfl, rfl⟩ := Prod.mk.inj heq
    obtain ⟨⟨c', two⟩, htwo, heq'⟩ := List.mem_map.1 hw
    obtain ⟨rfl, rfl⟩ := Prod.mk.inj heq'
    have hbody := body_of_get?_responses (Table.mem_entries_iff.1 hone)
    have hbody' := body_of_get?_responses (Table.mem_entries_iff.1 htwo)
    by_cases hchosen : c' = successStatus ∧ competes codes op = true
    · exact Or.inl (hchosen.1 ▸ h hchosen.2)
    · have hsame : one.body = two.body := by
        rw [hbody, hbody']
        by_cases hcode : c' = successStatus
        · have hcompetes : ¬ competes codes op = true := fun hc => hchosen ⟨hcode, hc⟩
          simp [hcompetes]
        · simp [hcode]
      exact Or.inr (by rw [hsame])

/-- Of a collision only the choice depends on the rule. -/
theorem map_impartial_addResponse (table : Table Response) (code error : String) :
    (addResponse rule operation table code error).2.map Finding.impartial =
      if code ∈ table.keys then [.statusCodeCollision operation code "" ""] else [] := by
  rw [addResponse_snd]
  cases hcode : table.get? code with
  | none => simp [Table.get?_eq_none_iff.1 hcode]
  | some existing =>
    have htaken : code ∈ table.keys := by
      rw [← Table.contains_iff, Table.contains, hcode]
      rfl
    cases rule <;> simp [htaken, clash, Finding.impartial]

theorem map_impartial_responses :
    (responses codes rule operation op).2.map Finding.impartial =
      (responses codes other operation op).2.map Finding.impartial := by
  obtain ⟨input, output, errors⟩ := op
  induction errors using List.reverseRecOn with
  | nil => rfl
  | append_singleton errors error ih =>
    have hkeys := (keys_responses codes rule operation ⟨input, output, errors⟩).trans
      (keys_responses codes other operation ⟨input, output, errors⟩).symm
    simp only [responses_append_singleton, addError, List.map_append, ih,
      map_impartial_addResponse, hkeys]

end Responses

/-! ## Path items -/

/-- The paths in a document. -/
def pathsPlace : Layout → List String
  | .paths => []
  | .openapi => ["paths"]

/-- Whether a place in a document is that of the success response in the path item of an operation
of which an error asks for the status code of the success. -/
def contested (r : Registry) (layout : Layout) (place : List String) : Bool :=
  (placements r).any fun p =>
    last? p.operation (placements r) = some p && competes r.errorCodes p.definition &&
      place = pathsPlace layout ++ ["/" ++ p.operation, "post", "responses", "200"]

theorem contested_of_competes {r : Registry} {layout : Layout} {p : Placement}
    (hlast : last? p.operation (placements r) = some p)
    (h : competes r.errorCodes p.definition = true) :
    contested r layout (pathsPlace layout ++ ["/" ++ p.operation, "post", "responses", "200"]) =
      true := by
  rw [contested, List.any_eq_true]
  exact ⟨p, mem_of_last? hlast, by simp [hlast, h]⟩

/-- Under both rules a path item is the same where the success response is covered, and without
competition anyway. -/
theorem cover_pathItem {r : Registry} {rule other : DuplicateStatus} {p : Placement}
    {covered : List String → Bool} (h : competes r.errorCodes p.definition = true →
      covered ["post", "responses", successStatus] = true) :
    (pathItem r rule p).cover covered = (pathItem r other p).cover covered := by
  have hresponses := cover_responsesJson r.errorCodes rule other p.operation p.definition
    (fun place => covered ("post" :: "responses" :: place)) h
  simp only [pathItem, Json.cover, Json.coverMembers, hresponses]

theorem map_impartial_itemFindings (r : Registry) (rule other : DuplicateStatus) (p : Placement) :
    (itemFindings r rule p).map Finding.impartial =
      (itemFindings r other p).map Finding.impartial := by
  simp only [itemFindings, List.map_append,
    map_impartial_responses r.errorCodes rule other p.operation p.definition]

/-! ## Contracts -/

/-- A document is made of its path items. -/
theorem document_emit (r : Registry) (style : Style) :
    (emit r style).document =
      let items := Json.object (pathItems style.layout (emit r style).document)
      match style.layout with
      | .paths => items
      | .openapi => envelope style.info items r.catalog.components := by
  rw [pathItems_emit]
  rfl

theorem cover_envelope_congr (info : Info) (components : Option OpenApi.Components)
    {covered : List String → Bool} {one two : Json}
    (h : one.cover (fun place => covered ("paths" :: place)) =
      two.cover fun place => covered ("paths" :: place)) :
    (envelope info one components).cover covered =
      (envelope info two components).cover covered := by
  simp only [envelope, List.cons_append, Json.cover, Json.coverMembers, h]

/-- Two contracts in one layout and with one catalog are the same under a cover if their paths
are. -/
theorem cover_document_congr {r s : Registry} {style : Style} {rule : DuplicateStatus}
    {covered : List String → Bool} (hcatalog : s.catalog = r.catalog)
    (h : (Json.object (pathItems style.layout
          (emit s { style with duplicateStatus := rule }).document)).cover
          (fun place => covered (pathsPlace style.layout ++ place)) =
        (Json.object (pathItems style.layout (emit r style).document)).cover
          fun place => covered (pathsPlace style.layout ++ place)) :
    (emit s { style with duplicateStatus := rule }).document.cover covered =
      (emit r style).document.cover covered := by
  rw [document_emit r style, document_emit s { style with duplicateStatus := rule }, hcatalog]
  obtain ⟨status, layout, info⟩ := style
  cases layout with
  | paths => exact h
  | openapi => exact cover_envelope_congr info r.catalog.components h

section Emit

variable (r : Registry) (style : Style) (rule : DuplicateStatus)

theorem map_fst_pathItems_of_rule :
    (pathItems style.layout (emit r { style with duplicateStatus := rule }).document).map Prod.fst =
      (pathItems style.layout (emit r style).document).map Prod.fst :=
  (map_fst_pathItems_emit r { style with duplicateStatus := rule }).trans
    (map_fst_pathItems_emit r style).symm

/-- Under both rules a path has the item of the same placement. -/
theorem exists_placement_of_rule {key : String} {one two : Json}
    (hone : (key, one) ∈ pathItems style.layout (emit r style).document)
    (htwo : (key, two) ∈
      pathItems style.layout (emit r { style with duplicateStatus := rule }).document) :
    ∃ p, last? p.operation (placements r) = some p ∧ key = "/" ++ p.operation ∧
      one = pathItem r style.duplicateStatus p ∧ two = pathItem r rule p :=
  @exists_placement_of_mem_pathItems r r style { style with duplicateStatus := rule } rfl key
    one two hone htwo

theorem map_responseCodes_of_rule :
    (pathItems style.layout (emit r { style with duplicateStatus := rule }).document).map
        (fun e => (e.1, responseCodes e.2)) =
      (pathItems style.layout (emit r style).document).map fun e => (e.1, responseCodes e.2) := by
  refine map_congr_of_map_fst (map_fst_pathItems_of_rule r style rule)
    fun key two one htwo hone => ?_
  obtain ⟨p, -, -, rfl, rfl⟩ := exists_placement_of_rule r style rule hone htwo
  rw [responseCodes_pathItem, responseCodes_pathItem, keys_responses, keys_responses]

/-- Under both rules the paths are the same where contested responses are covered. -/
theorem cover_pathItems (covered : List String → Bool)
    (h : ∀ p, last? p.operation (placements r) = some p →
      competes r.errorCodes p.definition = true →
      covered ["/" ++ p.operation, "post", "responses", "200"] = true) :
    (Json.object (pathItems style.layout
        (emit r { style with duplicateStatus := rule }).document)).cover covered =
      (Json.object (pathItems style.layout (emit r style).document)).cover covered := by
  refine Json.cover_object_congr (map_fst_pathItems_of_rule r style rule)
    fun key two one htwo hone => Or.inr ?_
  obtain ⟨p, hp, rfl, rfl, rfl⟩ := exists_placement_of_rule r style rule hone htwo
  exact cover_pathItem fun hcompetes => h p hp hcompetes

theorem cover_document_of_rule :
    (emit r { style with duplicateStatus := rule }).document.cover (contested r style.layout) =
      (emit r style).document.cover (contested r style.layout) := by
  refine cover_document_congr rfl (cover_pathItems r style rule _ fun p hp hcompetes => ?_)
  exact contested_of_competes hp hcompetes

theorem map_impartial_foldl_place (other : DuplicateStatus) (ps : List Placement) :
    (ps.foldl (place r rule) (Table.empty, [])).2.map Finding.impartial =
      (ps.foldl (place r other) (Table.empty, [])).2.map Finding.impartial := by
  have hitem : ∀ p, (itemFindings r rule p).filterMap (fun f => some f.impartial) =
      (itemFindings r other p).filterMap fun f => some f.impartial := by
    intro p
    simpa only [List.filterMap_eq_map'] using map_impartial_itemFindings r rule other p
  simpa only [List.filterMap_eq_map'] using
    filterMap_findings_foldl_place (fun _ _ _ => rfl) hitem ps

end Emit

/-- Two contracts that differ in nothing but a choice between sources of responses. -/
structure DiffersInChoice (r : Registry) (layout : Layout) (one other : Emission) : Prop where
  /-- The paths are the same, in the same order. -/
  paths : (pathItems layout one.document).map Prod.fst =
    (pathItems layout other.document).map Prod.fst
  count : one.paths = other.paths
  /-- Each path has the same status codes, in the same order. -/
  statuses : (pathItems layout one.document).map (fun e => (e.1, responseCodes e.2)) =
    (pathItems layout other.document).map fun e => (e.1, responseCodes e.2)
  /-- The documents are the same apart from success responses that an error competes with. -/
  document : one.document.cover (contested r layout) = other.document.cover (contested r layout)
  /-- The findings are the same one by one, apart from what is kept and what is dropped. -/
  findings : one.findings.map Finding.impartial = other.findings.map Finding.impartial

/-- The rule for taken status codes decides nothing but which source of a response is kept. -/
theorem differsInChoice_emit (r : Registry) (style : Style) (rule : DuplicateStatus) :
    DiffersInChoice r style.layout (emit r { style with duplicateStatus := rule })
      (emit r style) := by
  constructor
  case paths => exact map_fst_pathItems_of_rule r style rule
  case count =>
    have hlength := congrArg List.length (map_fst_pathItems_of_rule r style rule)
    rw [List.length_map, List.length_map] at hlength
    exact (paths_emit r { style with duplicateStatus := rule }).trans
      (hlength.trans (paths_emit r style).symm)
  case statuses => exact map_responseCodes_of_rule r style rule
  case document => exact cover_document_of_rule r style rule
  case findings => exact map_impartial_foldl_place r rule style.duplicateStatus (placements r)

/-- Where an error competes with the success the documents do differ. -/
example :
    let r := { Registry.empty with
      errorCodes := Table.ofList [("E", "200")]
      services := Table.ofList [("S", Table.ofList [("X", ⟨none, some "O", ["E"]⟩)])] }
    let one := emit r Style.default
    let other := emit r { Style.default with duplicateStatus := .keepLast }
    contested r .paths ["/X", "post", "responses", "200"] = true ∧
      (one.document == other.document) = false := by
  decide +kernel

end Contract

end ServiceContract
