import ServiceContract.Proofs.Membership
import Mathlib.Data.List.Infix
/-!
# Nothing in a descriptor gets lost

A descriptor has entries, and an entry has elements inside it. Each of these ends up in a table or
in a finding. An entry adds a name to the table of its kind, redefines a name, which is logged, or
has no name, which is reported (`Registry.size_ingestRoot`). An element inside a named entry that is
looked at has a target, which is kept, or it is reported (`Operation.length_childrenNamed`,
`Service.length_elements`). What is reported about an element depends on that element alone
(`remarks`), so the findings stand in the order of the document. `AccountsFor` puts this together
for one descriptor (`accountsFor_ingest`).
-/

namespace ServiceContract

/-! ## Folds that note something -/

theorem filterMap_cons_eq_append {α β : Type} (f : α → Option β) (a : α) (l : List α) :
    (a :: l).filterMap f = (f a).toList ++ l.filterMap f := by
  cases h : f a <;> simp [h]

/-- A fold that notes at most one thing for each element notes these things in order. -/
theorem foldl_snd_eq_append_filterMap {σ α β : Type} {step : σ × List β → α → σ × List β}
    {noted : α → Option β} (hstep : ∀ state a, (step state a).2 = state.2 ++ (noted a).toList)
    (state : σ × List β) (l : List α) :
    (l.foldl step state).2 = state.2 ++ l.filterMap noted := by
  induction l generalizing state with
  | nil => simp
  | cons a l ih =>
    rw [List.foldl_cons, ih, hstep, filterMap_cons_eq_append, List.append_assoc]

/-! ## What is reported -/

/-- What is reported about a child of an operation : it is looked at and has no target. -/
def Operation.remark? (file : String) (child : String × Xml.Node) : Option Finding :=
  if isPart child.1 then
    match child.2.label? "target" with
    | none => some (.missingAttribute file child.1 "target")
    | some _ => none
  else none

/-- What is reported about a child of a service : it has no target, or the target is no operation
that is known. -/
def Service.remark? (file : String) (known : Table Operation) (service : String)
    (child : String × Xml.Node) : Option Finding :=
  match child.2.label? "target" with
  | none => some (.missingAttribute file child.1 "target")
  | some target =>
    if known.contains target then none else some (.unknownOperation service target)

/-- What is reported inside an entry with a name : what is reported about its children, in order. -/
def remarksInside (file : String) (known : Table Operation) :
    Kind → String → Xml.Node → List Finding
  | .errors, _, _ => []
  | .operations, _, n => n.elements.filterMap (Operation.remark? file)
  | .services, name, n => n.elements.filterMap (Service.remark? file known name)

/-- What is reported about an entry and inside it. An entry without a name is passed over, which is
all that is reported. -/
def remarks (file : String) (known : Table Operation) (kind : Kind) (n : Xml.Node) : List Finding :=
  match n.label? kind.naming with
  | none => [.missingAttribute file kind.tag kind.naming]
  | some name => remarksInside file known kind name n

/-- Whether a finding says that an operation is not known. -/
def isUnknownOperation : Finding → Bool
  | .unknownOperation .. => true
  | _ => false

/-! ## Children of operations -/

namespace Operation

theorem addChild_snd (file : String) (state : Operation × List Finding)
    (child : String × Xml.Node) :
    (addChild file state child).2 = state.2 ++ (remark? file child).toList := by
  obtain ⟨tag, element⟩ := child
  by_cases htag : isPart tag = true
  · cases hl : element.label? "target" with
    | none => simp [addChild, remark?, htag, hl]
    | some target =>
      simp only [addChild, remark?, htag, hl, if_true, Option.toList_none, List.append_nil]
      split_ifs <;> rfl
  · simp [addChild, remark?, htag]

/-- The findings of an operation are those about its children, in order. -/
theorem ofElement_snd (file : String) (n : Xml.Node) :
    (ofElement file n).2 = n.elements.filterMap (remark? file) :=
  foldl_snd_eq_append_filterMap (addChild_snd file) (blank, []) n.elements

/-- A child that is looked at has a target, or is reported for the lack of one. -/
theorem length_filter_child (file : String) {tag : String} (htag : isPart tag = true)
    (child : String × Xml.Node) : ([child].filter (·.1 = tag)).length =
      (if child.1 = tag then (child.2.label? "target").toList else []).length +
        ([child].filterMap (remark? file)).count (.missingAttribute file tag "target") := by
  obtain ⟨name, element⟩ := child
  by_cases hname : name = tag
  · subst hname
    cases hl : element.label? "target" <;> simp [remark?, htag, hl]
  · -- What is reported about a child names the child, so another one has no part in it.
    cases hpart : isPart name with
    | true => cases hl : element.label? "target" <;> simp [remark?, hpart, hname, hl]
    | false => simp [remark?, hpart, hname]

theorem length_childrenNamed (file : String) (n : Xml.Node) {tag : String}
    (htag : isPart tag = true) :
    (n.childrenNamed tag).length = (n.targets tag).length +
      (n.elements.filterMap (remark? file)).count (.missingAttribute file tag "target") := by
  rw [n.childrenNamed_eq, List.length_map, ← targetsOf_elements]
  induction n.elements using List.reverseRecOn with
  | nil => rfl
  | append_singleton children child ih =>
    have hchild := length_filter_child file htag child
    rw [List.filter_append, List.length_append, targetsOf_append_singleton, List.length_append,
      List.filterMap_append, List.count_append, ih]
    omega

end Operation

/-! ## Children of services -/

namespace Service

theorem addChild_snd (file : String) (known : Table Operation) (service : String)
    (state : Table Operation × List Finding) (child : String × Xml.Node) :
    (addChild file known service state child).2 =
      state.2 ++ (remark? file known service child).toList := by
  unfold addChild remark?
  cases child.2.label? "target" with
  | none => rfl
  | some target => cases hknown : known.get? target <;> simp [Table.contains, hknown]

/-- The findings of a service are those about its children, in order. -/
theorem ofElement_snd (file : String) (known : Table Operation) (service : String)
    (n : Xml.Node) :
    (ofElement file known service n).2 = n.elements.filterMap (remark? file known service) :=
  foldl_snd_eq_append_filterMap (addChild_snd file known service) (Table.empty, []) n.elements

/-- An element inside a service has no target, or mentions an operation that is not known, or one
that is. -/
theorem one_eq_child (file : String) (known : Table Operation) (service : String)
    (child : String × Xml.Node) :
    1 = ([child].filterMap (remark? file known service)).countP isOmission +
      ([child].filterMap (remark? file known service)).countP isUnknownOperation +
      (([child].filterMap (·.2.label? "target")).filter fun o => known.contains o).length := by
  cases hl : child.2.label? "target" with
  | none => simp [remark?, hl, isOmission, isUnknownOperation]
  | some target =>
    cases hknown : known.contains target <;>
      simp [remark?, hl, hknown, isOmission, isUnknownOperation]

/-- Each child is counted as a member, an omission, or an operation that nobody defined. -/
theorem length_elements (file : String) (known : Table Operation) (service : String)
    (n : Xml.Node) :
    let found := n.elements.filterMap (remark? file known service)
    n.elements.length = found.countP isOmission + found.countP isUnknownOperation +
      (n.mentions.filter fun o => known.contains o).length := by
  intro found
  rw [n.mentions_eq]
  unfold found
  induction n.elements using List.reverseRecOn with
  | nil => rfl
  | append_singleton children child ih =>
    have hchild := one_eq_child file known service child
    simp only [List.length_append, List.length_singleton, List.filterMap_append,
      List.countP_append, List.filter_append]
    omega

end Service

/-! ## Entries -/

/-- Whether an event says that a name is defined again. -/
def Event.isRedefinition (e : Event) : Bool :=
  e.level = .debug && decide ("redefined".toList <:+: e.message.toList)

theorem Event.isRedefinition_debug (reporter : Reporter) {message : String} (before after : String)
    (h : message.toList = before.toList ++ "redefined".toList ++ after.toList) :
    (debug reporter message).isRedefinition = true := by
  simp only [isRedefinition, debug, decide_true, Bool.true_and]
  exact decide_eq_true ⟨before.toList, after.toList, h.symm⟩

namespace Entry

variable {α : Type}

/-- A definition gives its table one more name or is a redefinition. -/
theorem size_add_length_redefinitions (t : Table α) (ds : List (String × α)) :
    (t.insertAll ds).size + (redefinitions t ds).length = t.size + ds.length := by
  induction ds generalizing t with
  | nil => rfl
  | cons d rest ih =>
    obtain ⟨name, value⟩ := d
    have hrest := ih (t.insert name value)
    have hstep : t.insertAll ((name, value) :: rest) = (t.insert name value).insertAll rest := rfl
    rw [hstep, redefinitions]
    cases hname : t.get? name with
    | none =>
      rw [Table.size_insert_of_not_mem (Table.get?_eq_none_iff.1 hname)] at hrest
      simp only [List.length_cons]
      omega
    | some before =>
      have hmem : name ∈ t.keys := by
        rw [← Table.contains_iff, Table.contains, hname]
        rfl
      rw [Table.size_insert_of_mem hmem] at hrest
      simp only [List.length_cons]
      omega

/-- The events about redefinitions make up for what a table does not grow by. -/
theorem size_add_countP_isRedefinition (t : Table α) (ds : List (String × α))
    {event : Redefinition α → Event} (hevent : ∀ d, (event d).isRedefinition = true) :
    (t.insertAll ds).size + ((redefinitions t ds).map event).countP Event.isRedefinition =
      t.size + ds.length := by
  rw [← size_add_length_redefinitions, List.countP_eq_length.2, List.length_map]
  intro e he
  obtain ⟨d, -, rfl⟩ := List.mem_map.1 he
  exact hevent d

end Entry

/-- The findings of entries, where those inside an entry are known. -/
theorem Entry.allFindings_ofRoot {α : Type} {kind : Kind} {file : String}
    {known : Table Operation} {read : String → Xml.Node → α × List Finding}
    (hread : ∀ name n, (read name n).2 = remarksInside file known kind name n) (root : Xml.Node) :
    allFindings (ofRoot kind file read root) =
      (root.childrenNamed kind.tag).flatMap (remarks file known kind) := by
  rw [allFindings, ofRoot, List.flatMap_map]
  refine List.flatMap_congr fun n _ => ?_
  unfold ofElement remarks
  cases n.label? kind.naming with
  | none => rfl
  | some name => exact hread name n

/-- What the entries of a descriptor define, in order : the name of each entry that has one, with a
value by its element. -/
def defined {α : Type} (kind : Kind) (value : Xml.Node → α) (root : Xml.Node) : List (String × α) :=
  (root.childrenNamed kind.tag).filterMap fun n => (n.label? kind.naming).map (·, value n)

/-- What the entries define is what the elements with a name define. -/
theorem Entry.definitions_eq_defined {α : Type} {kind : Kind} {file : String}
    {read : String → Xml.Node → α × List Finding} {value : Xml.Node → α}
    (hread : ∀ name n, (read name n).1 = value n) (root : Xml.Node) :
    definitions (ofRoot kind file read root) = defined kind value root := by
  rw [definitions_ofRoot]
  simp only [hread]
  rfl

/-- Inside an operation targets are missing, and no names. -/
theorem Operation.missingName_not_mem_remarks (file tag : String)
    (children : List (String × Xml.Node)) :
    .missingAttribute file tag "name" ∉ children.filterMap (remark? file) := by
  rw [List.mem_filterMap]
  rintro ⟨child, -, hchild⟩
  unfold remark? at hchild
  split_ifs at hchild
  cases hl : child.2.label? "target" <;> simp [hl] at hchild

/-- Inside a service targets are missing or not known, and no names are missing. -/
theorem Service.missingName_not_mem_remarks (file tag service : String) (known : Table Operation)
    (children : List (String × Xml.Node)) :
    .missingAttribute file tag "name" ∉ children.filterMap (remark? file known service) := by
  rw [List.mem_filterMap]
  rintro ⟨child, -, hchild⟩
  unfold remark? at hchild
  cases hl : child.2.label? "target" with
  | none => simp [hl] at hchild
  | some target => cases hknown : known.contains target <;> simp [hl, hknown] at hchild

/-- It is reported of exactly those entries that have no name that they have none. -/
theorem count_missingAttribute_remarks (file : String) (known : Table Operation) (kind : Kind)
    (n : Xml.Node) :
    (remarks file known kind n).count (.missingAttribute file kind.tag kind.naming) =
      if n.label? kind.naming = none then 1 else 0 := by
  unfold remarks
  cases hname : n.label? kind.naming with
  | none => simp
  | some name =>
    cases kind with
    | errors => rfl
    | operations =>
      exact List.count_eq_zero.2 (Operation.missingName_not_mem_remarks file _ n.elements)
    | services =>
      exact List.count_eq_zero.2 (Service.missingName_not_mem_remarks file _ name known n.elements)

/-- An entry has a name and is a definition, or it is reported that it has none. -/
theorem length_childrenNamed_tag {α : Type} (file : String) (known : Table Operation) (kind : Kind)
    (value : Xml.Node → α) (root : Xml.Node) :
    (root.childrenNamed kind.tag).length = (defined kind value root).length +
      ((root.childrenNamed kind.tag).flatMap (remarks file known kind)).count
        (.missingAttribute file kind.tag kind.naming) := by
  unfold defined
  induction root.childrenNamed kind.tag with
  | nil => rfl
  | cons n rest ih =>
    rw [List.flatMap_cons, List.count_append, count_missingAttribute_remarks,
      filterMap_cons_eq_append, List.length_append, List.length_cons, ih]
    cases n.label? kind.naming with
    | none =>
      simp only [Option.map_none, Option.toList_none, List.length_nil, if_true]
      omega
    | some name =>
      simp only [Option.map_some, Option.toList_some, List.length_singleton, reduceCtorEq, if_false]
      omega

/-- The entries of a descriptor that goes into a table are new names, redefinitions, and entries
that have no name. -/
theorem size_add_length_childrenNamed {α : Type} (t : Table α) (file : String)
    (known : Table Operation) (kind : Kind) (value : Xml.Node → α) (root : Xml.Node)
    {event : Redefinition α → Event} (hevent : ∀ d, (event d).isRedefinition = true) :
    t.size + (root.childrenNamed kind.tag).length =
      (t.insertAll (defined kind value root)).size +
        ((Entry.redefinitions t (defined kind value root)).map event).countP Event.isRedefinition +
        ((root.childrenNamed kind.tag).flatMap (remarks file known kind)).count
          (.missingAttribute file kind.tag kind.naming) := by
  rw [Entry.size_add_countP_isRedefinition t _ hevent,
    length_childrenNamed_tag file known kind value, Nat.add_assoc]

/-! ## Descriptors -/

/-- The number of names in the table of a kind. -/
def Registry.size (r : Registry) : Kind → Nat
  | .errors => r.errorCodes.size
  | .operations => r.operations.size
  | .services => r.services.size

/-- Findings about a named operation by which each of its children is accounted for. -/
structure Operation.AccountsFor (file : String) (n : Xml.Node) (found : List Finding) : Prop where
  /-- They are about its children one after another. -/
  order : found = n.elements.filterMap (remark? file)
  /-- Of the inputs, outputs and errors each has a target, or is reported for the lack of one. -/
  parts : ∀ tag ∈ ["input", "output", "error"], (n.childrenNamed tag).length =
    (n.targets tag).length + found.count (.missingAttribute file tag "target")

/-- Findings about a named service by which each element inside it is accounted for, where some
operations are known. -/
structure Service.AccountsFor (file : String) (known : Table Operation) (name : String)
    (n : Xml.Node) (found : List Finding) : Prop where
  /-- They are about the elements one after another. -/
  order : found = n.elements.filterMap (remark? file known name)
  /-- An element has no target, or its target is not known, or it mentions an operation. -/
  elements : n.elements.length = found.countP isOmission + found.countP isUnknownOperation +
    (n.mentions.filter fun o => known.contains o).length
  /-- The members are the distinct ones of the operations that are mentioned and known. -/
  keys : (members known n.mentions).keys =
    (n.mentions.filter fun o => known.contains o).eraseDups
  /-- Each is kept as it is known. -/
  values : ∀ o ∈ (members known n.mentions).keys,
    (members known n.mentions).get? o = known.get? o

/-- What taking in a descriptor comes to accounts for each of its elements, where each entry has its
share of the findings. -/
structure AccountsFor (r : Registry) (s : Source) (root : Xml.Node) (next : Registry)
    (log : List Event) (share : Xml.Node → List Finding) : Prop where
  /-- The findings are about the entries one after another. -/
  findings : next.findings = r.findings ++ (root.childrenNamed s.kind.tag).flatMap share
  /-- An entry gives its table one more name, or is logged as a redefinition, or is reported for the
  lack of a name. -/
  entries : r.size s.kind + (root.childrenNamed s.kind.tag).length =
    next.size s.kind + log.countP Event.isRedefinition +
      ((root.childrenNamed s.kind.tag).flatMap share).count
        (.missingAttribute s.origin s.kind.tag s.kind.naming)
  /-- An entry without a name has one finding, and none for anything inside it. -/
  unnamed : ∀ n ∈ root.childrenNamed s.kind.tag, n.label? s.kind.naming = none →
    share n = [.missingAttribute s.origin s.kind.tag s.kind.naming]
  /-- Each named operation is stored with its last input, its last output and all its errors. -/
  operations : s.kind = .operations →
    next.operations = r.operations.insertAll (defined .operations (fun n =>
      ⟨(n.targets "input").getLast?, (n.targets "output").getLast?, n.targets "error"⟩) root) ∧
    ∀ n ∈ root.childrenNamed "operation", ∀ name, n.label? "name" = some name →
      Operation.AccountsFor s.origin n (share n)
  /-- Each named service is stored with the operations that it mentions and that are known. -/
  services : s.kind = .services →
    next.services = r.services.insertAll (defined .services (fun n =>
      Service.members r.operations n.mentions) root) ∧
    ∀ n ∈ root.childrenNamed "service", ∀ name, n.label? "name" = some name →
      Service.AccountsFor s.origin r.operations name n (share n)

/-- Each child of an operation is a part, or there is a remark about it. -/
theorem Operation.accountsFor_remarks (file : String) (n : Xml.Node) :
    AccountsFor file n (n.elements.filterMap (remark? file)) where
  order := rfl
  parts tag htag := length_childrenNamed file n (by simpa [isPart, or_assoc] using htag)

/-- Each child of a service is a member, or there is a remark about it. -/
theorem Service.accountsFor_remarks (file : String) (known : Table Operation) (name : String)
    (n : Xml.Node) : AccountsFor file known name n (n.elements.filterMap (remark? file known name))
    where
  order := rfl
  elements := length_elements file known name n
  keys := keys_members known n.mentions
  values _ ho := get?_members ho

/-! ## What is read -/

section Read

variable (file : String) (root : Xml.Node)

theorem ErrorStatus.definitions_entries :
    Entry.definitions (entries file root) = defined .errors ofElement root :=
  Entry.definitions_eq_defined
    (fun _ n => (rfl : (ofElement n, ([] : List Finding)).1 = ofElement n)) root

theorem Operation.definitions_entries : Entry.definitions (entries file root) =
    defined .operations (fun n => ⟨(n.targets "input").getLast?, (n.targets "output").getLast?,
      n.targets "error"⟩) root :=
  Entry.definitions_eq_defined (fun _ n => ofElement_fst file n) root

theorem Service.definitions_entries (known : Table Operation) :
    Entry.definitions (entries file known root) =
      defined .services (fun n => members known n.mentions) root :=
  Entry.definitions_eq_defined (fun name n => ofElement_fst file known name n) root

end Read

/-- About an element with a name there are only remarks on what is inside it. -/
theorem remarks_of_label? {file : String} {known : Table Operation} {kind : Kind} {n : Xml.Node}
    {name : String} (h : n.label? kind.naming = some name) :
    remarks file known kind n = remarksInside file known kind name n := by
  rw [remarks, h]

/-- About an element without a name there is one remark. -/
theorem remarks_of_label?_eq_none {file : String} {known : Table Operation} {kind : Kind}
    {n : Xml.Node} (h : n.label? kind.naming = none) :
    remarks file known kind n = [.missingAttribute file kind.tag kind.naming] := by
  rw [remarks, h]

namespace Registry

variable (r : Registry) (file : String) (root : Xml.Node)

/-- A descriptor adds the remarks about its elements, in document order. -/
theorem findings_ingestRoot (kind : Kind) : (r.ingestRoot kind file root).1.findings =
    r.findings ++ (root.childrenNamed kind.tag).flatMap (remarks file r.operations kind) := by
  cases kind with
  | errors =>
    exact congrArg (r.findings ++ ·) (Entry.allFindings_ofRoot (fun _ _ => rfl) root)
  | operations =>
    exact congrArg (r.findings ++ ·)
      (Entry.allFindings_ofRoot (fun _ n => Operation.ofElement_snd file n) root)
  | services =>
    exact congrArg (r.findings ++ ·)
      (Entry.allFindings_ofRoot (fun name n => Service.ofElement_snd file r.operations name n) root)

theorem operations_ingestRoot : (r.ingestRoot .operations file root).1.operations =
    r.operations.insertAll (defined .operations (fun n => ⟨(n.targets "input").getLast?,
      (n.targets "output").getLast?, n.targets "error"⟩) root) :=
  congrArg r.operations.insertAll (Operation.definitions_entries file root)

theorem services_ingestRoot : (r.ingestRoot .services file root).1.services =
    r.services.insertAll (defined .services (fun n => Service.members r.operations n.mentions)
      root) :=
  congrArg r.services.insertAll (Service.definitions_entries file root r.operations)

/-- The entries of a descriptor make its table longer, or are logged, or are reported. -/
theorem size_ingestRoot (kind : Kind) : r.size kind + (root.childrenNamed kind.tag).length =
    (r.ingestRoot kind file root).1.size kind +
      (r.ingestRoot kind file root).2.countP Event.isRedefinition +
      ((root.childrenNamed kind.tag).flatMap (remarks file r.operations kind)).count
        (.missingAttribute file kind.tag kind.naming) := by
  cases kind with
  | errors =>
    dsimp only [ingestRoot, addErrors, size]
    rw [ErrorStatus.definitions_entries]
    refine size_add_length_childrenNamed r.errorCodes file r.operations .errors _ root fun d => ?_
    exact Event.isRedefinition_debug _ ("Error target '" ++ d.name ++ "' ")
      (": " ++ d.before ++ " -> " ++ d.after) (by simp)
  | operations =>
    dsimp only [ingestRoot, addOperations, size]
    rw [Operation.definitions_entries]
    refine size_add_length_childrenNamed r.operations file r.operations .operations _ root
      fun d => ?_
    exact Event.isRedefinition_debug _ ("Operation '" ++ d.name ++ "' ") (" in " ++ file) (by simp)
  | services =>
    dsimp only [ingestRoot, addServices, size]
    rw [Service.definitions_entries]
    refine size_add_length_childrenNamed r.services file r.operations .services _ root fun d => ?_
    exact Event.isRedefinition_debug _ ("Service '" ++ d.name ++ "' ") (" in " ++ file) (by simp)

end Registry

/-- Taking in a well-formed descriptor accounts for each of its elements once. -/
theorem accountsFor_ingest (r : Registry) {s : Source} {root : Xml.Node}
    (h : Xml.read? s.text = some root) :
    ∃ next log, r.ingest s = .ok (next, log) ∧
      AccountsFor r s root next log (remarks s.origin r.operations s.kind) := by
  refine ⟨(r.ingestRoot s.kind s.origin root).1, (r.ingestRoot s.kind s.origin root).2, ?_, ?_⟩
  · simp only [Registry.ingest, h]
  · constructor
    case findings => exact r.findings_ingestRoot s.origin root s.kind
    case entries => exact r.size_ingestRoot s.origin root s.kind
    case unnamed => exact fun n _ => remarks_of_label?_eq_none
    case operations =>
      intro hkind
      rw [hkind]
      refine ⟨r.operations_ingestRoot s.origin root, fun n _ name hname => ?_⟩
      rw [remarks_of_label? hname]
      exact Operation.accountsFor_remarks s.origin n
    case services =>
      intro hkind
      rw [hkind]
      refine ⟨r.services_ingestRoot s.origin root, fun n _ name hname => ?_⟩
      rw [remarks_of_label? hname]
      exact Service.accountsFor_remarks s.origin r.operations name n

/-- An operation without a name, one without an input, and the same one again. -/
def patchyOperations : Source where
  kind := .operations
  origin := "o"
  text := "<o><operation><error/></operation>"
    ++ "<operation name='X'><input/><error target='E'/></operation><operation name='X'/></o>"

/-- The tree of the descriptor. -/
def patchyRoot : Xml.Node :=
  .element ⟨none, "o"⟩ []
    [.element ⟨none, "operation"⟩ [] [.element ⟨none, "error"⟩ [] []],
      .element ⟨none, "operation"⟩ [⟨⟨none, "name"⟩, "X"⟩]
        [.element ⟨none, "input"⟩ [] [],
          .element ⟨none, "error"⟩ [⟨⟨none, "target"⟩, "E"⟩] []],
      .element ⟨none, "operation"⟩ [⟨⟨none, "name"⟩, "X"⟩] []]

/-- Of the three entries one is a new name, one a redefinition and one has no name. -/
theorem accountsFor_ingest_patchy :
    Xml.read? patchyOperations.text = some patchyRoot ∧
      ∃ next log, Registry.empty.ingest patchyOperations = .ok (next, log) ∧
        AccountsFor Registry.empty patchyOperations patchyRoot next log
          (remarks "o" ∅ .operations) ∧
        (patchyRoot.childrenNamed "operation").length = 3 ∧ next.size .operations = 1 ∧
        log.countP Event.isRedefinition = 1 ∧
        next.findings = [.missingAttribute "o" "operation" "name",
          .missingAttribute "o" "input" "target"] := by
  have hread : Xml.read? patchyOperations.text = some patchyRoot := by decide +kernel
  obtain ⟨next, log, hingest, haccounts⟩ := accountsFor_ingest Registry.empty hread
  have hnext : Registry.empty.ingestRoot .operations "o" patchyRoot = (next, log) := by
    simp only [Registry.ingest, hread, Except.ok.injEq] at hingest
    exact hingest
  obtain ⟨rfl, rfl⟩ := Prod.mk.inj hnext
  exact ⟨hread, _, _, hingest, haccounts, by decide +kernel, by decide +kernel, by decide +kernel,
    by decide +kernel⟩

end ServiceContract
