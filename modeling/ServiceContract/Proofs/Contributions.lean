import ServiceContract.Proofs.Building
/-!
# What a descriptor adds to a registry

Taking in a descriptor fills tables and puts findings behind those so far. What goes in
(`Source.contribution`) is read off the descriptor alone, except that a service descriptor looks up
its operations; a registry with a descriptor more is the registry that has received this
contribution (`Registry.step_ingest_eq_receive`). Contributions are put together list by list, and
receiving two in a row is receiving both at once (`Registry.receive_receive`). So descriptors that
are no services, and services over operations that stay, come to one contribution
(`Registry.afterSources_of_no_services`, `Registry.afterSources_of_no_operations`).
-/

namespace ServiceContract

/-- The labels that a descriptor puts on names, if it has one. -/
def Qualifier.entries (label? : Option String) (names : List String) : List (String × String) :=
  match label? with
  | some label => names.map fun name => (name, label)
  | none => []

theorem Qualifier.label_eq_insertAll (labels : Table String) (label? : Option String)
    (names : List String) :
    label labels label? names = labels.insertAll (entries label? names) := by
  cases label? <;> rfl

/-- What a descriptor adds to a registry. -/
structure Contribution where
  /-- The status codes of error targets. -/
  errorCodes : List (String × String) := []
  /-- The operations. -/
  operations : List (String × Operation) := []
  /-- The services with their operations. -/
  services : List (String × Table Operation) := []
  /-- The labels of operations and services. -/
  labels : List (String × String) := []
  /-- The findings. -/
  findings : List Finding := []

namespace Contribution

/-- What two contributions add in a row. -/
def append (c d : Contribution) : Contribution where
  errorCodes := c.errorCodes ++ d.errorCodes
  operations := c.operations ++ d.operations
  services := c.services ++ d.services
  labels := c.labels ++ d.labels
  findings := c.findings ++ d.findings

instance : Append Contribution := ⟨append⟩

/-- A contribution of a kind fills the table of this kind only, and that of labels only if it is
not of errors. -/
structure IsOf (kind : Kind) (c : Contribution) : Prop where
  errorCodes : kind ≠ .errors → c.errorCodes = []
  operations : kind ≠ .operations → c.operations = []
  services : kind ≠ .services → c.services = []
  labels : kind = .errors → c.labels = []

end Contribution

/-- What a descriptor adds where some operations are known; nothing if it is malformed. -/
def Source.contribution (known : Table Operation) (s : Source) : Contribution :=
  match Xml.read? s.text with
  | none => {}
  | some root =>
    match s.kind with
    | .errors =>
      let entries := ErrorStatus.entries s.origin root
      { errorCodes := Entry.definitions entries, findings := Entry.allFindings entries }
    | .operations =>
      let entries := Operation.entries s.origin root
      { operations := Entry.definitions entries
        labels := Qualifier.entries (root.label? "assembly")
          ((Entry.definitions entries).map Prod.fst)
        findings := Entry.allFindings entries }
    | .services =>
      let entries := Service.entries s.origin known root
      { services := Entry.definitions entries
        labels := Qualifier.entries (root.label? "assembly")
          ((Entry.definitions entries).map Prod.fst)
        findings := Entry.allFindings entries }

/-- What several descriptors add where some operations are known. -/
def Contribution.ofSources (known : Table Operation) (sources : List Source) : Contribution where
  errorCodes := sources.flatMap fun s => (s.contribution known).errorCodes
  operations := sources.flatMap fun s => (s.contribution known).operations
  services := sources.flatMap fun s => (s.contribution known).services
  labels := sources.flatMap fun s => (s.contribution known).labels
  findings := sources.flatMap fun s => (s.contribution known).findings

theorem Contribution.ofSources_cons (known : Table Operation) (s : Source) (rest : List Source) :
    ofSources known (s :: rest) = s.contribution known ++ ofSources known rest :=
  rfl

namespace Source

/-- Only a service descriptor looks at what is known. -/
theorem contribution_of_ne_services {s : Source} (h : s.kind ≠ .services)
    (known other : Table Operation) : s.contribution known = s.contribution other := by
  unfold contribution
  cases Xml.read? s.text with
  | none => rfl
  | some root =>
    cases hkind : s.kind with
    | errors => rfl
    | operations => rfl
    | services => exact absurd hkind h

/-- What a descriptor adds is of its kind. -/
theorem isOf_contribution (s : Source) (known : Table Operation) :
    (s.contribution known).IsOf s.kind := by
  unfold contribution
  cases Xml.read? s.text with
  | none => exact ⟨fun _ => rfl, fun _ => rfl, fun _ => rfl, fun _ => rfl⟩
  | some root =>
    cases s.kind with
    | errors => exact ⟨fun h => absurd rfl h, fun _ => rfl, fun _ => rfl, fun _ => rfl⟩
    | operations => exact ⟨fun _ => rfl, fun h => absurd rfl h, fun _ => rfl, fun h => nomatch h⟩
    | services => exact ⟨fun _ => rfl, fun _ => rfl, fun h => absurd rfl h, fun h => nomatch h⟩

end Source

namespace Registry

/-- A registry with what is added to it. -/
def receive (r : Registry) (c : Contribution) : Registry :=
  { r with
    errorCodes := r.errorCodes.insertAll c.errorCodes
    operations := r.operations.insertAll c.operations
    services := r.services.insertAll c.services
    qualifiers := r.qualifiers.insertAll c.labels
    findings := r.findings ++ c.findings }

theorem receive_empty (r : Registry) : r.receive {} = r := by
  simp [receive, Table.insertAll]

theorem receive_receive (r : Registry) (c d : Contribution) :
    (r.receive c).receive d = r.receive (c ++ d) := by
  change _ = r.receive (c.append d)
  simp only [receive, Contribution.append, Table.insertAll_append, List.append_assoc]

/-- Taking in a descriptor is receiving its contribution. -/
theorem step_ingest_eq_receive (r : Registry) (s : Source) :
    r.step (.ingest s) = r.receive (s.contribution r.operations) := by
  unfold Source.contribution
  cases hroot : Xml.read? s.text with
  | none => rw [step_ingest_of_malformed hroot, receive_empty]
  | some root =>
    rw [step_ingest hroot]
    cases s.kind with
    | errors => rfl
    | operations => simp only [ingestRoot, addOperations, Qualifier.label_eq_insertAll]; rfl
    | services => simp only [ingestRoot, addServices, Qualifier.label_eq_insertAll]; rfl

/-- What descriptors that are no services add does not depend on what is known. -/
theorem afterSources_of_no_services {sources : List Source}
    (h : ∀ s ∈ sources, s.kind ≠ .services) (r : Registry) (known : Table Operation) :
    r.afterSources sources = r.receive (.ofSources known sources) := by
  induction sources generalizing r with
  | nil => exact (receive_empty r).symm
  | cons s rest ih =>
    obtain ⟨hs, hrest⟩ := List.forall_mem_cons.1 h
    calc r.afterSources (s :: rest)
        = (r.step (.ingest s)).afterSources rest := rfl
      _ = (r.receive (s.contribution known)).receive (.ofSources known rest) := by
          rw [ih hrest, step_ingest_eq_receive, Source.contribution_of_ne_services hs _ known]
      _ = r.receive (.ofSources known (s :: rest)) := by
          rw [receive_receive, Contribution.ofSources_cons]

/-- Descriptors that add no operations all look up the same ones. -/
theorem afterSources_of_no_operations {sources : List Source}
    (h : ∀ s ∈ sources, s.kind ≠ .operations) (r : Registry) :
    r.afterSources sources = r.receive (.ofSources r.operations sources) := by
  induction sources generalizing r with
  | nil => exact (receive_empty r).symm
  | cons s rest ih =>
    obtain ⟨hs, hrest⟩ := List.forall_mem_cons.1 h
    calc r.afterSources (s :: rest)
        = (r.step (.ingest s)).afterSources rest := rfl
      _ = (r.receive (s.contribution r.operations)).receive (.ofSources r.operations rest) := by
          rw [ih hrest, operations_step_of_ne hs, step_ingest_eq_receive]
      _ = r.receive (.ofSources r.operations (s :: rest)) := by
          rw [receive_receive, Contribution.ofSources_cons]

end Registry

end ServiceContract
