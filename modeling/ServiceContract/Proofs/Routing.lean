import ServiceContract.Proofs.Building
import ServiceContract.Proofs.Items
/-!
# Where the qualifier of a path item comes from

The routing text of a path item begins with a label. Labels stand in one table under bare
names, whether a name is that of a service or of an operation. In a build services come last,
so a name has the label of the last labelled descriptor that defines a service of this name,
else of the last that defines an operation of this name (`get?_qualifiers_servicesLast`). A path
item asks for the name of its service first, then for that of its operation, in each case for
both kinds (`routed_build`). An operation with the name of the service can therefore lend it its
label (`not_routed_by_own_labels`).
-/

namespace ServiceContract

/-! ## Labels after a build -/

/-- The label of the last labelled definition of a name by a descriptor of some kind. -/
def lastLabel (kind : Kind) (name : String) (ds : List Definition) : Option String :=
  (last? name (labelled (ofKind kind ds))).bind (·.label)

theorem labels_map_alone (ds : List Definition) :
    labels (ds.map Definition.alone) = labels ds := by
  rw [labels, List.filterMap_map]
  rfl

theorem labels_ofKind_operations {ds : List Definition} (h : ∀ d ∈ ds, d.kind ≠ .services) :
    labels (ofKind .operations ds) = labels ds := by
  rw [labels, ofKind, List.filterMap_filter, labels]
  refine List.filterMap_congr fun d hd => ?_
  cases hkind : d.kind with
  | errors => simp
  | operations => simp
  | services => exact absurd hkind (h d hd)

/-- In a build the labels of services stand behind those of operations. -/
theorem labels_definitions_servicesLast (sources : List Source) :
    labels (definitions (Registry.servicesLast sources)) =
      labels (ofKind .operations (definitions sources)) ++
        labels (ofKind .services (definitions sources)) := by
  have hothers : ∀ d ∈ (sources.filter (·.kind ≠ .services)).flatMap (Source.definitions []),
      d.kind ≠ .services := by
    intro d hd
    obtain ⟨s, hs, hmem⟩ := List.mem_flatMap.1 hd
    rw [kind_of_mem_definitions hmem]
    simpa using (List.mem_filter.1 hs).2
  have hoperations : (sources.filter (·.kind ≠ .services)).filter (·.kind = .operations) =
      sources.filter (·.kind = .operations) := by
    rw [List.filter_filter]
    refine List.filter_congr fun s _ => ?_
    by_cases hkind : s.kind = .operations <;> simp [hkind]
  rw [← labels_map_alone, map_alone_definitions, Registry.servicesLast, List.flatMap_append,
    labels_append, ← labels_ofKind_operations hothers, ofKind_flatMap_definitions, hoperations,
    ← ofKind_flatMap_definitions, ← ofKind_flatMap_definitions, ← map_alone_definitions,
    ← ofKind_map_alone, ← ofKind_map_alone, labels_map_alone, labels_map_alone]

/-- After a build a name has the label of the last labelled service, else of the last labelled
operation of this name. -/
theorem get?_qualifiers_servicesLast (sources : List Source) (name : String) :
    (Registry.empty.afterSources (Registry.servicesLast sources)).qualifiers.get? name =
      (lastLabel .services name (definitions sources)).or
        (lastLabel .operations name (definitions sources)) := by
  rw [(tabulates_after _).qualifiers, Table.get?_ofList, labels_definitions_servicesLast,
    List.reverse_append, List.lookup_append, lookup_reverse_labels, lookup_reverse_labels]
  rfl

namespace Contract

/-! ## Routing texts -/

/-- A path item carries a routing text, as the pattern and as the example of its header. -/
structure Carries (item : Json) (routing : String) : Prop where
  pattern : ((headerSchema "X-Amz-Target" item).part "pattern").text? = some routing
  sample : ((headerSchema "X-Amz-Target" item).part "example").text? = some routing

theorem carries_pathItem (r : Registry) (rule : DuplicateStatus) (p : Placement) :
    Carries (pathItem r rule p) (Qualifier.routing
      (Qualifier.resolve r.qualifiers p.service p.operation) p.service p.operation) := by
  constructor
  · simp [headerSchema_pathItem, Json.part, Json.member?, List.lookup_cons, Json.text?]
  · simp [headerSchema_pathItem, Json.part, Json.member?, List.lookup_cons, Json.text?]

/-- Every path item of a contract is that of an operation under the last service that has it,
and carries these two names behind the qualifier that is given for them. -/
def Routed (qualifier : String → String → String) (r : Registry) (style : Style) : Prop :=
  ∀ key item, (key, item) ∈ pathItems style.layout (emit r style).document →
    ∃ p, last? p.operation (placements r) = some p ∧ key = path p.operation ∧
      Carries item (qualifier p.service p.operation ++ "." ++ p.service ++ "." ++ p.operation)

/-- The label of a name, whichever kind of descriptor defines it : that of the last labelled
service, else that of the last labelled operation. -/
def labelOf (ds : List Definition) (name : String) : Option String :=
  (lastLabel .services name ds).or (lastLabel .operations name ds)

/-- After a build of well-formed descriptors, a path item is routed by the label of the name of
its service, else by the label of the name of its operation, else by the default. -/
theorem routed_build (sources : List Source) (h : ∀ s ∈ sources, s.isWellFormed = true)
    (style : Style) :
    Routed (fun service operation => ((labelOf (definitions sources) service).or
      (labelOf (definitions sources) operation)).getD "default")
      (Registry.empty.build sources).registry style := by
  intro key item hitem
  obtain ⟨p, hlast, hkey, rfl⟩ := mem_pathItems_emit_iff.1 hitem
  refine ⟨p, hlast, hkey, ?_⟩
  have hcarries := carries_pathItem (Registry.empty.build sources).registry
    style.duplicateStatus p
  rw [Qualifier.resolve, Registry.registry_build h, get?_qualifiers_servicesLast,
    get?_qualifiers_servicesLast] at hcarries
  rw [Registry.registry_build h]
  exact hcarries

/-- A labelled operation, and a service of the same name with another operation, neither of
which is labelled. -/
def sharedName : List Source :=
  [⟨.operations, "a.xml", "<o assembly='com.ops'><operation name='X'/></o>"⟩,
    ⟨.operations, "b.xml", "<o><operation name='Y'/></o>"⟩,
    ⟨.services, "c.xml", "<s><service name='X'><m target='Y'/></service></s>"⟩]

/-- The label of the operation counts for the service. -/
theorem routed_build_sharedName :
    (∀ s ∈ sharedName, s.isWellFormed = true) ∧
      Routed (fun service operation => ((labelOf (definitions sharedName) service).or
        (labelOf (definitions sharedName) operation)).getD "default")
        (Registry.empty.build sharedName).registry Style.default ∧
      labelOf (definitions sharedName) "X" = some "com.ops" := by
  have hwell : ∀ s ∈ sharedName, s.isWellFormed = true := by decide +kernel
  exact ⟨hwell, routed_build sharedName hwell Style.default, by decide +kernel⟩

/-- The path item is not routed by the labels of services for services and those of operations
for operations. -/
theorem not_routed_by_own_labels :
    ¬ Routed (fun service operation => ((lastLabel .services service (definitions sharedName)).or
      (lastLabel .operations operation (definitions sharedName))).getD "default")
      (Registry.empty.build sharedName).registry Style.default := by
  intro h
  let r := (Registry.empty.build sharedName).registry
  let placed : Placement := ⟨"X", "Y", Operation.blank⟩
  have hlast : last? "Y" (placements r) = some placed := by decide +kernel
  have hitem : ("/Y", pathItem r .keepFirst placed) ∈
      pathItems Style.default.layout (emit r Style.default).document :=
    mem_pathItems_emit_iff.2 ⟨placed, hlast, rfl, rfl⟩
  obtain ⟨p, hp, hkey, hcarries⟩ := h _ _ hitem
  obtain hoperation : "Y" = p.operation := path_inj.1 hkey
  rw [← hoperation, hlast] at hp
  obtain rfl := Option.some.inj hp
  have hpattern := hcarries.pattern.symm.trans (carries_pathItem r .keepFirst placed).pattern
  revert hpattern
  decide +kernel

end Contract

end ServiceContract
