import ServiceContract.Proofs.Building
/-!
# The members of services

A service has the operations that its element mentions, as far as they are known, and each
mention of an operation that is not known is reported. What is known is a matter of the
moment : the count of the findings that name an operation runs over the definitions of a
service, each with the operations that were known to it
(`Registry.count_unknownOperation_afterSources`). In a build all of them are known to every
service, so its members and the findings are read off the definitions alone, wherever these
stand (`resolves_build`).
-/

namespace ServiceContract

/-! ## Findings of a service -/

/-- Whether a finding says that an attribute is missing. -/
def isOmission : Finding → Bool
  | .missingAttribute .. => true
  | _ => false

theorem count_unknownOperation_of_isOmission {findings : List Finding}
    (h : ∀ f ∈ findings, isOmission f = true) (service operation : String) :
    findings.count (.unknownOperation service operation) = 0 := by
  rw [List.count_eq_zero]
  intro hmem
  simpa [isOmission] using h _ hmem

/-- An element without a name has no findings but that; one with a name has those inside it. -/
theorem Entry.isOmission_of_mem_allFindings {α : Type} {kind : Kind} {file : String}
    {read : String → Xml.Node → α × List Finding}
    (hread : ∀ name element, ∀ f ∈ (read name element).2, isOmission f = true)
    {root : Xml.Node} {f : Finding}
    (hf : f ∈ Entry.allFindings (Entry.ofRoot kind file read root)) : isOmission f = true := by
  obtain ⟨entry, hentry, hfound⟩ := List.mem_flatMap.1 hf
  obtain ⟨element, -, rfl⟩ := List.mem_map.1 hentry
  unfold Entry.ofElement at hfound
  cases hname : element.label? kind.naming with
  | none =>
    rw [hname] at hfound
    rw [List.mem_singleton.1 hfound]
    rfl
  | some name =>
    rw [hname] at hfound
    exact hread name element f hfound

theorem ErrorStatus.isOmission_of_mem_entries {file : String} {root : Xml.Node} {f : Finding}
    (h : f ∈ Entry.allFindings (ErrorStatus.entries file root)) : isOmission f = true := by
  refine Entry.isOmission_of_mem_allFindings (fun _ _ f hf => ?_) h
  simp at hf

theorem Operation.isOmission_of_mem_ofElement {file : String} {element : Xml.Node} {f : Finding}
    (h : f ∈ (Operation.ofElement file element).2) : isOmission f = true := by
  unfold Operation.ofElement at h
  generalize element.elements = children at h
  induction children using List.reverseRecOn with
  | nil => simp at h
  | append_singleton children child ih =>
    rw [List.foldl_append, List.foldl_cons, List.foldl_nil] at h
    generalize children.foldl (addChild file) (blank, []) = state at h ih
    unfold addChild at h
    dsimp only at h
    split at h
    · split at h
      · rcases List.mem_append.1 h with hbefore | hnew
        · exact ih hbefore
        · rw [List.mem_singleton.1 hnew]
          rfl
      · split at h
        · exact ih h
        · split at h <;> exact ih h
    · exact ih h

theorem Operation.isOmission_of_mem_entries {file : String} {root : Xml.Node} {f : Finding}
    (h : f ∈ Entry.allFindings (Operation.entries file root)) : isOmission f = true :=
  Entry.isOmission_of_mem_allFindings (fun _ _ _ => isOmission_of_mem_ofElement) h

namespace Service

/-- Every mention of an operation that is not known is reported, and no other. -/
theorem count_unknownOperation_foldl_addChild (file : String) (known : Table Operation)
    (name service operation : String) (children : List (String × Xml.Node)) :
    (children.foldl (addChild file known name) (Table.empty, [])).2.count
        (.unknownOperation service operation) =
      if name = service ∧ known.contains operation = false then
        (children.filterMap (·.2.label? "target")).count operation else 0 := by
  induction children using List.reverseRecOn with
  | nil => simp
  | append_singleton children child ih =>
    rw [List.foldl_append, List.foldl_cons, List.foldl_nil, List.filterMap_append]
    generalize children.foldl (addChild file known name) (Table.empty, []) = state at ih
    unfold addChild
    cases hl : child.2.label? "target" with
    | none => simpa [hl, List.count_singleton] using ih
    | some target =>
      cases hk : known.get? target with
      | some op =>
        -- A known operation is not reported, and its mention does not count.
        have hother : known.contains operation = false → target ≠ operation := by
          rintro hunknown rfl
          simp [Table.contains, hk] at hunknown
        simp only [hk, ih, List.filterMap_cons, hl, List.filterMap_nil, List.count_append]
        split_ifs with h
        · rw [List.count_singleton, beq_eq_false_iff_ne.2 (hother h.2)]
          rfl
        · rfl
      | none =>
        simp only [hk, ih, List.filterMap_cons, hl, List.filterMap_nil, List.count_append,
          List.count_singleton, beq_iff_eq, Finding.unknownOperation.injEq]
        by_cases hname : name = service
        · by_cases htarget : target = operation
          · subst htarget
            simp [hname, Table.contains, hk]
          · simp [hname, htarget]
        · simp [hname]

theorem count_unknownOperation_ofElement (file : String) (known : Table Operation)
    (name service operation : String) (n : Xml.Node) :
    (ofElement file known name n).2.count (.unknownOperation service operation) =
      if name = service ∧ known.contains operation = false then n.mentions.count operation
      else 0 := by
  rw [ofElement, count_unknownOperation_foldl_addChild, n.mentions_eq]

end Service

/-! ## Findings of a history -/

/-- The operations that the definition of a service mentions without knowing them. -/
def Definition.dropped (service : String) (d : Definition) : List String :=
  if d.name = service then d.element.mentions.filter fun o => !d.known.contains o else []

theorem Definition.count_dropped (service operation : String) (d : Definition) :
    (d.dropped service).count operation =
      if d.name = service ∧ d.known.contains operation = false then
        d.element.mentions.count operation else 0 := by
  unfold dropped
  by_cases hname : d.name = service
  · rw [if_pos hname]
    cases hknown : d.known.contains operation with
    | true =>
      rw [List.count_eq_zero.2 (by simp [hknown])]
      simp
    | false =>
      rw [List.count_filter (by simp [hknown])]
      simp [hname]
  · simp [hname]

namespace Registry

theorem count_unknownOperation_entries {history : List Source} {s : Source} {root : Xml.Node}
    (hroot : Xml.read? s.text = some root) (hkind : s.kind = .services)
    (service operation : String) :
    (Entry.allFindings (Service.entries s.origin (empty.afterSources history).operations
        root)).count (.unknownOperation service operation) =
      ((s.definitions history).flatMap (Definition.dropped service)).count operation := by
  rw [Source.definitions, hroot, hkind, Entry.allFindings, Service.entries, Entry.ofRoot]
  dsimp only
  induction root.childrenNamed Kind.services.tag with
  | nil => rfl
  | cons element rest ih =>
    rw [List.map_cons, List.flatMap_cons, List.count_append, ih]
    cases hname : element.label? Kind.services.naming with
    | none => simp [Entry.ofElement, hname]
    | some name =>
      rw [List.filterMap_cons_some (by rw [hname]; rfl), List.flatMap_cons, List.count_append,
        Definition.count_dropped]
      congr 1
      simp only [Entry.ofElement, hname]
      exact Service.count_unknownOperation_ofElement _ _ _ _ _ _

/-- A further descriptor reports what the definitions of services in it drop. -/
theorem count_unknownOperation_step (history : List Source) (s : Source)
    (service operation : String) :
    ((empty.afterSources history).step (.ingest s)).findings.count
        (.unknownOperation service operation) =
      (empty.afterSources history).findings.count (.unknownOperation service operation) +
        ((if s.kind = .services then s.definitions history else []).flatMap
          (Definition.dropped service)).count operation := by
  cases hroot : Xml.read? s.text with
  | none =>
    rw [step_ingest_of_malformed hroot, definitions_of_malformed hroot]
    simp
  | some root =>
    rw [step_ingest hroot]
    cases hkind : s.kind with
    | errors =>
      have hnone := count_unknownOperation_of_isOmission
        (fun f => @ErrorStatus.isOmission_of_mem_entries s.origin root f) service operation
      simp [ingestRoot, addErrors, hnone]
    | operations =>
      have hnone := count_unknownOperation_of_isOmission
        (fun f => @Operation.isOmission_of_mem_entries s.origin root f) service operation
      simp [ingestRoot, addOperations, hnone]
    | services =>
      rw [if_pos rfl, ← count_unknownOperation_entries hroot hkind]
      exact List.count_append

/-- After any history an operation is reported as often as the definitions of a service mention
it without knowing it. -/
theorem count_unknownOperation_afterSources (history : List Source)
    (service operation : String) :
    (empty.afterSources history).findings.count (.unknownOperation service operation) =
      ((ofKind .services (definitions history)).flatMap
        (Definition.dropped service)).count operation := by
  induction history using List.reverseRecOn with
  | nil => rfl
  | append_singleton history s ih =>
    rw [afterSources_append_singleton, count_unknownOperation_step, ih,
      ofKind_definitions_append, List.flatMap_append, List.count_append]

end Registry

/-! ## Members after a build -/

section Build

variable (sources : List Source)

/-- A build knows the operations that some descriptor defines. -/
theorem contains_operations_servicesLast (operation : String) :
    (Registry.empty.afterSources (Registry.servicesLast sources)).operations.contains operation =
      decide (operation ∈ names (ofKind .operations (definitions sources))) := by
  have hkeys : (Registry.empty.afterSources (Registry.servicesLast sources)).operations.keys =
      names (ofKind .operations (definitions sources)) := by
    rw [(tabulates_after _).operations, keys_ofList_entries, ← names, names_ofKind_servicesLast]
  rw [Bool.eq_iff_iff, Table.contains_iff, hkeys, decide_eq_true_iff]

/-- A build puts every service together from the operations as they are at the end. -/
theorem services_servicesLast :
    let r := Registry.empty.afterSources (Registry.servicesLast sources)
    r.services = Table.ofList ((ofKind .services (definitions sources)).map
      (Definition.entry fun d => Service.members r.operations d.element.mentions)) := by
  intro r
  have hknown : (ofKind .services (definitions (Registry.servicesLast sources))).map
        (Definition.entry Definition.members) =
      (ofKind .services (definitions (Registry.servicesLast sources))).map
        (Definition.entry fun d => Service.members r.operations d.element.mentions) := by
    refine List.map_congr_left fun d hd => ?_
    rw [Definition.entry, Definition.members, known_of_mem_servicesLast hd]
    rfl
  rw [(tabulates_after _).services, hknown, map_ofKind_servicesLast]
  exact fun _ => rfl

/-- What a build drops are the mentions of operations that no descriptor defines. -/
theorem dropped_servicesLast (service : String) :
    (ofKind .services (definitions (Registry.servicesLast sources))).flatMap
        (Definition.dropped service) =
      ((((ofKind .services (definitions sources)).filter (·.name = service)).flatMap
        (·.element.mentions)).filter fun o =>
          o ∉ names (ofKind .operations (definitions sources))) := by
  have hknown : (ofKind .services (definitions (Registry.servicesLast sources))).map
        (Definition.dropped service) =
      (ofKind .services (definitions (Registry.servicesLast sources))).map fun d =>
        if d.name = service then d.element.mentions.filter fun o =>
          o ∉ names (ofKind .operations (definitions sources)) else [] := by
    refine List.map_congr_left fun d hd => ?_
    simp only [Definition.dropped, known_of_mem_servicesLast hd, contains_operations_servicesLast,
      decide_not]
  rw [List.flatMap_def, hknown, map_ofKind_servicesLast _ _ fun _ => rfl, ← List.flatMap_def,
    List.filter_flatMap]
  induction ofKind .services (definitions sources) with
  | nil => rfl
  | cons d rest ih =>
    rw [List.flatMap_cons, ih]
    by_cases hd : d.name = service <;> simp [hd]

end Build

/-- What a registry has of services agrees with the definitions in several descriptors, in
whatever order these stand. -/
structure Resolves (sources : List Source) (r : Registry) : Prop where
  serviceNames : r.services.keys = names (ofKind .services (definitions sources))
  /-- A service has the operations that its last definition mentions and some descriptor
  defines, in the order of first mention, each as it is known at the end. -/
  members : ∀ service d, last? service (ofKind .services (definitions sources)) = some d →
    ∃ members, r.services.get? service = some members ∧
      members.keys = (d.element.mentions.filter fun o =>
        o ∈ names (ofKind .operations (definitions sources))).eraseDups ∧
      ∀ o ∈ members.keys, members.get? o = r.operations.get? o
  /-- An operation that no descriptor defines is reported for each mention by a definition of a
  service, and any other operation not at all. -/
  dropped : ∀ service operation, r.findings.count (.unknownOperation service operation) =
    if operation ∈ names (ofKind .operations (definitions sources)) then 0
    else (((ofKind .services (definitions sources)).filter (·.name = service)).flatMap
      (·.element.mentions)).count operation

/-- A build of well-formed descriptors does not fail, and gives every service the operations
that it mentions and that are defined anywhere; each mention of another one is reported. -/
theorem resolves_build (sources : List Source) (h : ∀ s ∈ sources, s.isWellFormed = true) :
    (Registry.empty.build sources).failure = none ∧
      Resolves sources (Registry.empty.build sources).registry := by
  refine ⟨Registry.failure_build_eq_none_iff.2 h, ?_⟩
  rw [Registry.registry_build h]
  have hservices := services_servicesLast sources
  constructor
  case serviceNames =>
    rw [hservices]
    exact keys_ofList_entries _ _
  case members =>
    intro service d hd
    refine ⟨Service.members (Registry.empty.afterSources
      (Registry.servicesLast sources)).operations d.element.mentions, ?_, ?_, ?_⟩
    · rw [hservices, get?_ofList_entries, hd]
      rfl
    · rw [Service.keys_members]
      simp only [contains_operations_servicesLast]
    · exact fun o ho => Service.get?_members ho
  case dropped =>
    intro service operation
    rw [Registry.count_unknownOperation_afterSources, dropped_servicesLast]
    split_ifs with hdefined
    · rw [List.count_eq_zero, List.mem_filter]
      simp [hdefined]
    · exact List.count_filter (by simpa using hdefined)

/-- A service that is defined twice, before the one operation that it mentions is defined. -/
def servicesFirst : List Source :=
  [⟨.services, "a.xml", "<s><service name='A'><m target='Ghost'/><m target='Y'/></service></s>"⟩,
    ⟨.services, "b.xml", "<s><service name='A'><m target='X'/><m target='Ghost'/></service></s>"⟩,
    ⟨.operations, "c.xml", "<o><operation name='X'/></o>"⟩]

/-- Both definitions count for what is dropped. -/
theorem resolves_build_servicesFirst :
    (∀ s ∈ servicesFirst, s.isWellFormed = true) ∧
      Resolves servicesFirst (Registry.empty.build servicesFirst).registry ∧
      (Registry.empty.build servicesFirst).registry.findings.count
        (.unknownOperation "A" "Ghost") = 2 := by
  have hwell : ∀ s ∈ servicesFirst, s.isWellFormed = true := by decide +kernel
  have hresolves := (resolves_build servicesFirst hwell).2
  refine ⟨hwell, hresolves, ?_⟩
  rw [hresolves.dropped]
  decide +kernel

end ServiceContract
