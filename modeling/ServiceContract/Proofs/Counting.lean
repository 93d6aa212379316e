import ServiceContract.Proofs.Items
import ServiceContract.Proofs.Membership
import ServiceContract.Proofs.Pipeline
import ServiceContract.Proofs.Responses
/-!
# How often an emission reports what

The findings of a path item are counted part by part : one for a missing input, one for each
schema that is not defined, one for each mention of an error without a status code, and one for
each error whose status code is taken. An emission has those of the first placement of an
operation (`countP_findings_emit`) and one more finding for each further placement
(`countP_takesOver_findings_emit`), and an operation is placed once for each service that has it
(`countP_placements`). After a build all placements of an operation are of the operation as it is
known at the end (`settled_ofInputs`), so nothing is lost and nothing is repeated where services
share operations (`tallies_build`).
-/

namespace ServiceContract

namespace Contract

/-- Whether a finding says that a path is taken over. -/
def takesOver (path : String) : Finding → Bool
  | .duplicatePath p .. => p = path
  | _ => false

/-! ## The findings of a path item -/

section PathItem

variable (r : Registry) (rule : DuplicateStatus) (p : Placement)

theorem count_checkSchema_of_ne {f : Finding} (hf : ∀ schema role, f ≠ .unknownSchema p.operation
    schema role) (role : Role) (schema? : Option String) :
    (checkSchema r.catalog p.operation role schema?).count f = 0 := by
  rw [List.count_eq_zero, mem_checkSchema_iff]
  rintro ⟨schema, -, -, -, rfl⟩
  exact hf schema role rfl

theorem count_checkInput_of_ne {f : Finding} (hf : f ≠ .missingInput p.operation)
    (input : Option String) : (checkInput p.operation input).count f = 0 := by
  rw [List.count_eq_zero, mem_checkInput_iff]
  exact fun h => hf h.2

theorem count_responses_of_ne {f : Finding} (hcollision : isCollision f = false)
    (hf : ∀ error, f ≠ .defaultedErrorCode p.operation error) :
    (responses r.errorCodes rule p.operation p.definition).2.count f = 0 := by
  rw [List.count_eq_zero, mem_responses_iff hcollision]
  rintro ⟨error, -, -, rfl⟩
  exact hf error rfl

theorem count_missingInput_itemFindings :
    (itemFindings r rule p).count (.missingInput p.operation) =
      if p.definition.input = none then 1 else 0 := by
  simp only [itemFindings, List.count_append]
  rw [count_checkSchema_of_ne r p (by simp), count_checkSchema_of_ne r p (by simp),
    count_responses_of_ne r rule p rfl (by simp)]
  cases p.definition.input <;> simp [checkInput]

theorem count_unknownSchema_checkSchema (schema : String) (role other : Role)
    (schema? : Option String) :
    (checkSchema r.catalog p.operation other schema?).count
        (.unknownSchema p.operation schema role) =
      if other = role ∧ schema? = some schema ∧ r.catalog.isActive = true ∧
        r.catalog.contains schema = false then 1 else 0 := by
  cases schema? with
  | none => simp [checkSchema]
  | some name =>
    by_cases hname : name = schema
    · subst hname
      by_cases hrole : other = role
      · subst hrole
        cases hactive : r.catalog.isActive <;> cases hcontains : r.catalog.contains name <;>
          simp [checkSchema, hactive, hcontains]
      · simp only [hrole, false_and, if_false, List.count_eq_zero, mem_checkSchema_iff]
        rintro ⟨found, -, -, -, hfound⟩
        exact hrole (Finding.unknownSchema.inj hfound).2.2.symm
    · simp only [Option.some.injEq, hname, false_and, and_false, if_false, List.count_eq_zero,
        mem_checkSchema_iff]
      rintro ⟨found, hfound, -, -, heq⟩
      exact hname (hfound.trans (Finding.unknownSchema.inj heq).2.1.symm)

theorem count_unknownSchema_itemFindings (schema : String) (role : Role) :
    (itemFindings r rule p).count (.unknownSchema p.operation schema role) =
      if schemaOf p.definition role = some schema ∧ r.catalog.isActive = true ∧
        r.catalog.contains schema = false then 1 else 0 := by
  simp only [itemFindings, List.count_append]
  rw [count_unknownSchema_checkSchema, count_unknownSchema_checkSchema,
    count_checkInput_of_ne p (by simp), count_responses_of_ne r rule p rfl (by simp)]
  cases role with
  | input =>
    simp only [true_and, reduceCtorEq, false_and, if_false, Nat.add_zero]
    rfl
  | output =>
    simp only [true_and, reduceCtorEq, false_and, if_false, Nat.add_zero, Nat.zero_add]
    rfl

theorem count_defaultedErrorCode_itemFindings (error : String) :
    (itemFindings r rule p).count (.defaultedErrorCode p.operation error) =
      if r.errorCodes.get? error = none then p.definition.errors.count error else 0 := by
  simp only [itemFindings, List.count_append]
  rw [count_checkSchema_of_ne r p (by simp), count_checkSchema_of_ne r p (by simp),
    count_checkInput_of_ne p (by simp), count_defaultedErrorCode_responses, Nat.zero_add]

/-- Each error beyond the status codes of the path item is a collision. -/
theorem countP_collides_itemFindings :
    (itemFindings r rule p).countP (collides p.operation) +
        (responseCodes (pathItem r rule p)).length = p.definition.errors.length + 1 := by
  have hschemas : ∀ role schema?,
      (checkSchema r.catalog p.operation role schema?).countP (collides p.operation) = 0 := by
    intro role schema?
    rw [List.countP_eq_zero]
    intro f hf
    obtain ⟨schema, -, -, -, rfl⟩ := mem_checkSchema_iff.1 hf
    simp [collides]
  have hinput : (checkInput p.operation p.definition.input).countP (collides p.operation) = 0 := by
    rw [List.countP_eq_zero]
    intro f hf
    rw [(mem_checkInput_iff.1 hf).2]
    simp [collides]
  have hkeys : (responses r.errorCodes rule p.operation p.definition).1.keys.length =
      (responses r.errorCodes rule p.operation p.definition).1.size := List.length_map _
  have hsize := size_add_countP_collides r.errorCodes rule p.operation p.definition
  simp only [itemFindings, List.countP_append, hschemas, hinput, responseCodes_pathItem, hkeys]
  omega

/-- The findings of a path item name its operation. -/
theorem operation?_of_mem_itemFindings {f : Finding} (h : f ∈ itemFindings r rule p) :
    operation? f = some p.operation := by
  simp only [itemFindings, List.mem_append] at h
  rcases h with ((hinput | houtput) | hmissing) | hresponses
  · obtain ⟨schema, -, -, -, rfl⟩ := mem_checkSchema_iff.1 hinput
    rfl
  · obtain ⟨schema, -, -, -, rfl⟩ := mem_checkSchema_iff.1 houtput
    rfl
  · rw [(mem_checkInput_iff.1 hmissing).2]
    rfl
  · exact operation?_of_mem_responses _ _ _ _ hresponses

end PathItem

/-! ## The findings of an emission -/

section Emission

variable (r : Registry) (rule : DuplicateStatus)

/-- Findings that name an operation are counted in the path item of its first placement. -/
theorem countP_findings_foldl_place {operation : String} {found : Finding → Bool}
    (hfound : ∀ f, found f = true → operation? f = some operation) (ps : List Placement) :
    (ps.foldl (place r rule) (Table.empty, [])).2.countP found =
      match first? operation ps with
      | some p => (itemFindings r rule p).countP found
      | none => 0 := by
  induction ps using List.reverseRecOn with
  | nil => rfl
  | append_singleton ps p ih =>
    rw [findings_foldl_place_append_singleton, List.countP_append, ih, first?_append_singleton]
    have htaken := @last?_eq_none_iff p.operation ps
    cases hlast : last? p.operation ps with
    | none =>
      rw [hlast] at htaken
      by_cases hp : p.operation = operation
      · rw [← hp, htaken.1 rfl]
        simp
      · have hnone : (itemFindings r rule p).countP found = 0 := by
          rw [List.countP_eq_zero]
          intro f hf hfoundf
          have hnamed := operation?_of_mem_itemFindings r rule p hf
          rw [hfound f hfoundf] at hnamed
          exact hp (Option.some.inj hnamed).symm
        simp [hp, hnone]
    | some before =>
      have hreplaced :
          found (.duplicatePath (path p.operation) before.service p.service) = false := by
        rw [Bool.eq_false_iff]
        intro hf
        simpa [operation?, subject?] using hfound _ hf
      by_cases hp : p.operation = operation
      · obtain ⟨first, hfirst⟩ := exists_first?_of_last? hlast
        rw [hp] at hfirst
        simp [hreplaced, hfirst]
      · simp [hreplaced, hp]

/-- A path is taken over by each placement of its operation from the one before. -/
theorem filter_takesOver_foldl_place (operation : String) (ps : List Placement) :
    (ps.foldl (place r rule) (Table.empty, [])).2.filter (takesOver (path operation)) =
      let services := (ps.filter (·.operation = operation)).map (·.service)
      services.zipWith (.duplicatePath (path operation)) services.tail := by
  induction ps using List.reverseRecOn with
  | nil => rfl
  | append_singleton ps p ih =>
    have hitem : (itemFindings r rule p).filter (takesOver (path operation)) = [] := by
      rw [List.filter_eq_nil_iff]
      intro f hf htakes
      have hnamed := operation?_of_mem_itemFindings r rule p hf
      cases f <;> simp [takesOver, operation?, subject?] at htakes hnamed
    dsimp only at ih ⊢
    rw [findings_foldl_place_append_singleton, List.filter_append, ih, List.filter_append]
    by_cases hp : p.operation = operation
    · subst hp
      rw [List.filter_cons_of_pos (by simp), List.filter_nil, List.map_append, List.map_singleton,
        zipWith_tail_append_singleton, List.getLast?_map, ← last?_eq_getLast?]
      congr 1
      cases last? p.operation ps with
      | none => exact hitem
      | some before => simp [takesOver]
    · rw [List.filter_cons_of_neg (by simpa using hp), List.filter_nil, List.append_nil,
        List.append_right_eq_self]
      cases last? p.operation ps with
      | none => exact hitem
      | some before => simp [takesOver, path_inj, hp]

/-- A path is taken over by each placement of its operation but the first. -/
theorem countP_takesOver_foldl_place (operation : String) (ps : List Placement) :
    (ps.foldl (place r rule) (Table.empty, [])).2.countP (takesOver (path operation)) =
      ps.countP (fun p => p.operation = operation) - 1 := by
  rw [List.countP_eq_length_filter, filter_takesOver_foldl_place, List.length_zipWith,
    List.length_tail, List.length_map, List.countP_eq_length_filter]
  omega

end Emission

theorem countP_findings_emit {r : Registry} {style : Style} {operation : String}
    {found : Finding → Bool} (hfound : ∀ f, found f = true → operation? f = some operation)
    {p : Placement} (hp : first? operation (placements r) = some p) :
    (emit r style).findings.countP found =
      (itemFindings r style.duplicateStatus p).countP found := by
  have hcount := countP_findings_foldl_place r style.duplicateStatus hfound (placements r)
  rw [hp] at hcount
  exact hcount

theorem count_findings_emit {r : Registry} {style : Style} {f : Finding} {p : Placement}
    (hf : operation? f = some p.operation) (hp : first? p.operation (placements r) = some p) :
    (emit r style).findings.count f = (itemFindings r style.duplicateStatus p).count f :=
  countP_findings_emit (fun g hg => by rw [eq_of_beq hg, hf]) hp

/-- Every finding of an emission names an operation that is placed, or its path. -/
theorem concerns_of_mem_findings_emit {r : Registry} {style : Style} {f : Finding}
    (h : f ∈ (emit r style).findings) : ∃ p ∈ placements r,
      operation? f = some p.operation ∨
        ∃ before service, f = .duplicatePath (path p.operation) before service := by
  change f ∈ ((placements r).foldl (place r style.duplicateStatus) (Table.empty, [])).2 at h
  generalize placements r = ps at h ⊢
  induction ps using List.reverseRecOn with
  | nil => simp at h
  | append_singleton ps p ih =>
    rw [findings_foldl_place_append_singleton, List.mem_append] at h
    rcases h with hbefore | hnew
    · obtain ⟨q, hq, hconcerns⟩ := ih hbefore
      exact ⟨q, List.mem_append_left _ hq, hconcerns⟩
    · refine ⟨p, by simp, ?_⟩
      cases hlast : last? p.operation ps with
      | none =>
        rw [hlast] at hnew
        exact Or.inl (operation?_of_mem_itemFindings r style.duplicateStatus p hnew)
      | some before =>
        rw [hlast, List.mem_singleton] at hnew
        exact Or.inr ⟨_, _, hnew⟩

/-! ## Placements and services -/

/-- Some service has an operation. -/
def Serves (r : Registry) (operation : String) : Prop :=
  ∃ e ∈ r.services.entries, e.2.contains operation = true

/-- The services that have an operation, in order, each with what it keeps of the operation. -/
def holders (r : Registry) (operation : String) : List (String × Operation) :=
  r.services.entries.filterMap fun e => (e.2.get? operation).map (e.1, ·)

/-- An operation is placed once for each service that has it. -/
theorem filter_placements (r : Registry) (operation : String) :
    (placements r).filter (·.operation = operation) =
      (holders r operation).map fun h => ⟨h.1, operation, h.2⟩ := by
  unfold placements holders
  rw [List.filter_flatMap, List.map_filterMap, List.filterMap_eq_flatMap_toList]
  refine List.flatMap_congr fun e _ => ?_
  have hmember : (e.2.entries.filter fun m => m.1 = operation) =
      ((e.2.get? operation).map (operation, ·)).toList :=
    Table.filter_eq_lookup e.2.nodup operation
  dsimp only
  rw [List.filter_map]
  change (e.2.entries.filter fun m => m.1 = operation).map
    (fun m => (⟨e.1, m.1, m.2⟩ : Placement)) = _
  rw [hmember]
  cases e.2.get? operation <;> rfl

theorem countP_placements (r : Registry) (operation : String) :
    (placements r).countP (fun p => p.operation = operation) =
      (r.services.entries.filter fun e => e.2.contains operation).length := by
  rw [List.countP_eq_length_filter, filter_placements, List.length_map, holders,
    List.length_filterMap_eq_countP, List.countP_eq_length_filter]
  congr 1
  refine List.filter_congr fun e _ => ?_
  simp [Table.contains]

theorem serves_iff_exists_first? {r : Registry} {operation : String} :
    Serves r operation ↔ ∃ p, first? operation (placements r) = some p := by
  have hpos : Serves r operation ↔
      0 < (r.services.entries.filter fun e => e.2.contains operation).length := by
    rw [List.length_pos_iff_exists_mem]
    simp only [Serves, List.mem_filter]
  rw [hpos, ← countP_placements, List.countP_pos_iff, ← Option.isSome_iff_exists, first?,
    List.find?_isSome]

theorem countP_takesOver_findings_emit {r : Registry} {style : Style} {operation : String}
    (h : Serves r operation) :
    (emit r style).findings.countP (takesOver (path operation)) + 1 =
      (r.services.entries.filter fun e => e.2.contains operation).length := by
  obtain ⟨e, he, hcontains⟩ := h
  have hpos : 0 < (r.services.entries.filter fun e => e.2.contains operation).length :=
    List.length_pos_of_mem (List.mem_filter.2 ⟨he, hcontains⟩)
  have hcount := countP_takesOver_foldl_place r style.duplicateStatus operation (placements r)
  rw [countP_placements] at hcount
  change (emit r style).findings.countP (takesOver (path operation)) = _ at hcount
  omega

/-- A placement is an operation in a service. -/
theorem get?_of_mem_placements {r : Registry} {p : Placement} (h : p ∈ placements r) :
    ∃ members, r.services.get? p.service = some members ∧
      members.get? p.operation = some p.definition := by
  obtain ⟨⟨service, members⟩, hservice, hp⟩ := List.mem_flatMap.1 h
  obtain ⟨⟨operation, definition⟩, hmember, rfl⟩ := List.mem_map.1 hp
  exact ⟨members, Table.mem_entries_iff.1 hservice, Table.mem_entries_iff.1 hmember⟩

/-- A registry is settled if every service has its operations as they are known. -/
def Settled (r : Registry) : Prop :=
  ∀ p ∈ placements r, r.operations.get? p.operation = some p.definition

/-- A build settles all operations, since the services come last. -/
theorem settled_ofInputs (sources : List Source) (documents : List (String × String)) :
    Settled (Registry.ofInputs sources documents) := by
  intro p hp
  obtain ⟨members, hservice, hmember⟩ := get?_of_mem_placements hp
  rw [Registry.ofInputs, services_servicesLast, get?_ofList_entries] at hservice
  obtain ⟨d, -, rfl⟩ := Option.map_eq_some_iff.1 hservice
  exact Service.get?_of_get?_members hmember

/-- All placements of an operation are of the same definition. -/
theorem definition_eq_of_settled {r : Registry} (hr : Settled r) {p q : Placement}
    (hp : p ∈ placements r) (hq : q ∈ placements r) (h : p.operation = q.operation) :
    p.definition = q.definition := by
  have hknown := hr p hp
  rw [h, hr q hq] at hknown
  exact (Option.some.inj hknown).symm

/-! ## All findings -/

/-- Findings that are counted right for an operation that some service has : each default and
each schema that is not defined once, each mention of an error without a status code once, one
collision for each error beyond the status codes of the path item, and one replacement for each
service beyond the first. -/
structure Tallies (r : Registry) (layout : Layout) (document : Json) (findings : List Finding)
    (operation : String) (op : Operation) : Prop where
  missingInput : findings.count (.missingInput operation) = if op.input = none then 1 else 0
  unknownSchema : ∀ schema role, findings.count (.unknownSchema operation schema role) =
    if schemaOf op role = some schema ∧ r.catalog.isActive = true ∧
      r.catalog.contains schema = false then 1 else 0
  defaulted : ∀ error, findings.count (.defaultedErrorCode operation error) =
    if r.errorCodes.get? error = none then op.errors.count error else 0
  collisions : ∃ item, (pathItems layout document).lookup (path operation) = some item ∧
    findings.countP (collides operation) + (responseCodes item).length = op.errors.length + 1
  replacements : findings.countP (takesOver (path operation)) + 1 =
    (r.services.entries.filter fun e => e.2.contains operation).length

/-- Under a path stands the item of the last placement of its operation. -/
theorem lookup_pathItems_emit {r : Registry} {style : Style} {p : Placement}
    (h : last? p.operation (placements r) = some p) :
    (pathItems style.layout (emit r style).document).lookup (path p.operation) =
      some (pathItem r style.duplicateStatus p) := by
  refine Table.lookup_of_mem ?_ (mem_pathItems_emit_iff.2 ⟨p, h, rfl, rfl⟩)
  rw [pathItems_emit, List.map_map]
  exact (placed r style.duplicateStatus).1.nodup

/-- Where services have their operations as they are known, the findings are counted right. -/
theorem tallies_of_settled {r : Registry} (hr : Settled r) (style : Style) {operation : String}
    (h : Serves r operation) : ∃ op, r.operations.get? operation = some op ∧
      Tallies r style.layout (emit r style).document (emit r style).findings operation op := by
  obtain ⟨first, hfirst⟩ := serves_iff_exists_first?.1 h
  obtain rfl := operation_of_first? hfirst
  obtain ⟨last, hlast⟩ : ∃ p, last? first.operation (placements r) = some p := by
    rw [← Option.ne_none_iff_exists', ne_eq, last?_eq_none_iff, hfirst]
    simp
  have hsame : last.operation = first.operation := operation_of_last? hlast
  have hdefinition : last.definition = first.definition :=
    definition_eq_of_settled hr (mem_of_last? hlast) (mem_of_first? hfirst) hsame
  refine ⟨first.definition, hr first (mem_of_first? hfirst), ?_, ?_, ?_, ?_,
    countP_takesOver_findings_emit h⟩
  · rw [count_findings_emit rfl hfirst, count_missingInput_itemFindings]
  · intro schema role
    rw [count_findings_emit rfl hfirst, count_unknownSchema_itemFindings]
  · intro error
    rw [count_findings_emit rfl hfirst, count_defaultedErrorCode_itemFindings]
  · have hcollides : ∀ f, collides first.operation f = true →
        operation? f = some first.operation := by
      intro f hf
      cases f <;> simp_all [collides, operation?]
    refine ⟨pathItem r style.duplicateStatus last, ?_, ?_⟩
    · rw [← hsame]
      exact lookup_pathItems_emit (by rw [hsame, hlast])
    · rw [countP_findings_emit hcollides hfirst, ← countP_collides_itemFindings,
        responseCodes_pathItem, responseCodes_pathItem, hsame, hdefinition]

end Contract

open Contract in
/-- A build that succeeds has the findings of its registry and behind them those of the emission.
These are counted right for each operation that some service has, as the operation is known, and
there are no others. -/
theorem tallies_build {t : FileTree} {s : Settings} {c : Compiled}
    (h : (build t s).result = .ok c) :
    let emission := emit c.registry s.style
    c.document = emission.document ∧ c.findings = c.registry.findings ++ emission.findings ∧
    (∀ operation, Serves c.registry operation → ∃ op,
      c.registry.operations.get? operation = some op ∧
      Tallies c.registry s.style.layout c.document emission.findings operation op) ∧
    ∀ f ∈ emission.findings, ∃ operation, Serves c.registry operation ∧
      (operation? f = some operation ∨
        ∃ before service, f = .duplicatePath (path operation) before service) := by
  obtain ⟨-, sources, documents, -, rfl⟩ := build_eq_ok_iff.1 h
  refine ⟨rfl, rfl, fun operation hserves => ?_, fun f hf => ?_⟩
  · exact tallies_of_settled (settled_ofInputs sources documents) s.style hserves
  · obtain ⟨p, hp, hconcerns⟩ := concerns_of_mem_findings_emit hf
    refine ⟨p.operation, serves_iff_exists_first?.2 ?_, hconcerns⟩
    rw [← Option.isSome_iff_exists, first?, List.find?_isSome]
    exact ⟨p, hp, by simp⟩

/-- An operation without a schema and with an error, and two services that have it. -/
def sharedOperation : List Source :=
  [⟨.operations, "o", "<o><operation name='X'><error target='E'/></operation></o>"⟩,
    ⟨.services, "a", "<s><service name='A'><m target='X'/></service></s>"⟩,
    ⟨.services, "b", "<s><service name='B'><m target='X'/></service></s>"⟩]

open Contract in
/-- Both services have the operation, whose findings are there once. -/
theorem tallies_build_sharedOperation :
    let t := FileTree.ofTexts (sharedOperation.map fun s => (s.origin, s.text))
    let s : Settings := { Settings.default with operations := ["o"], services := ["a", "b"] }
    ∃ c, (build t s).result = .ok c ∧ Serves c.registry "X" ∧
      ∃ op, c.registry.operations.get? "X" = some op ∧ op.errors = ["E"] ∧
        Tallies c.registry s.style.layout c.document (emit c.registry s.style).findings "X" op := by
  intro t s
  have hinputs : Inputs t s sharedOperation [] :=
    { descriptors := rfl
      texts := by
        simp only [sharedOperation, List.forall_mem_cons, List.not_mem_nil, false_implies,
          implies_true, and_true]
        exact ⟨FileTree.readText_of_entry? (by decide) rfl rfl,
          FileTree.readText_of_entry? (by decide) rfl rfl,
          FileTree.readText_of_entry? (by decide) rfl rfl⟩
      wellFormed := by decide +kernel
      schemas := rfl
      isSchemas := by simp }
  have hbuilt := build_eq_ok_iff.2 ⟨List.cons_ne_nil _ _, sharedOperation, [], hinputs, rfl⟩
  have hserves : Serves (Registry.ofInputs sharedOperation []) "X" := by
    unfold Serves
    decide +kernel
  obtain ⟨op, hop, htallies⟩ := (tallies_build hbuilt).2.2.1 "X" hserves
  have hknown : (Registry.ofInputs sharedOperation []).operations.get? "X" =
      some ⟨none, none, ["E"]⟩ := by decide +kernel
  obtain rfl := Option.some.inj (hknown.symm.trans hop)
  exact ⟨_, hbuilt, hserves, _, hknown, rfl, htallies⟩

end ServiceContract
