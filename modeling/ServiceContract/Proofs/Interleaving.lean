import ServiceContract.Proofs.Contributions
import ServiceContract.Contract
/-!
# The order of the kinds does not matter

Two lists of descriptors interleave the same ones if they have the same descriptors of each kind in
the same order (`Interleaves`). A build takes in the services last, and what the others add to a
table is added by one kind, in the order of this kind, whatever stands between. So all tables come
out the same from any registry, and with them every contract; the findings are the same up to their
order, and in the same order if only services have moved (`build_of_interleaves`).
-/

namespace ServiceContract

/-- A list of descriptors interleaves the kinds in another way : it has the same descriptors of each
kind in the same order. -/
def Interleaves (sources other : List Source) : Prop :=
  ∀ kind, other.filter (·.kind = kind) = sources.filter (·.kind = kind)

/-- The kinds of a list one after another have the same descriptors. -/
theorem perm_append_kinds (sources : List Source) :
    (sources.filter (·.kind = .errors) ++ (sources.filter (·.kind = .operations) ++
      sources.filter (·.kind = .services))).Perm sources := by
  induction sources with
  | nil => exact .refl _
  | cons s rest ih =>
    cases hkind : s.kind with
    | errors => simpa [hkind] using ih
    | operations => simpa [hkind] using List.perm_middle.trans (ih.cons s)
    | services =>
      simp only [hkind, List.filter_cons, reduceCtorEq, decide_false, decide_true, if_true,
        Bool.false_eq_true, if_false, ← List.append_assoc] at ih ⊢
      exact List.perm_middle.trans (ih.cons s)

theorem Interleaves.perm {sources other : List Source} (h : Interleaves sources other) :
    other.Perm sources := by
  have hkinds := perm_append_kinds other
  rw [h .errors, h .operations, h .services] at hkinds
  exact hkinds.symm.trans (perm_append_kinds sources)

theorem Interleaves.filter {sources other : List Source} (h : Interleaves sources other)
    (p : Source → Bool) : Interleaves (sources.filter p) (other.filter p) := by
  intro kind
  rw [List.filter_comm, h kind, List.filter_comm]

theorem flatMap_filter_kind {α : Type} {f : Source → List α} {kind : Kind} {sources : List Source}
    (hf : ∀ s ∈ sources, s.kind ≠ kind → f s = []) :
    (sources.filter (·.kind = kind)).flatMap f = sources.flatMap f := by
  induction sources with
  | nil => rfl
  | cons s rest ih =>
    obtain ⟨hs, hrest⟩ := List.forall_mem_cons.1 hf
    by_cases hkind : s.kind = kind
    · rw [List.filter_cons_of_pos (by simpa using hkind), List.flatMap_cons, List.flatMap_cons,
        ih hrest]
    · rw [List.filter_cons_of_neg (by simpa using hkind), List.flatMap_cons, hs hkind, ih hrest,
        List.nil_append]

/-- What only descriptors of one kind say does not depend on how the kinds are interleaved. -/
theorem Interleaves.flatMap_eq {α : Type} {f : Source → List α} {sources other : List Source}
    (h : Interleaves sources other) (kind : Kind)
    (hf : ∀ s ∈ sources, s.kind ≠ kind → f s = []) : other.flatMap f = sources.flatMap f := by
  have hother : ∀ s ∈ other, s.kind ≠ kind → f s = [] := fun s hs => hf s (h.perm.subset hs)
  rw [← flatMap_filter_kind hf, ← flatMap_filter_kind hother, h kind]

/-! ## Contributions up to the order of findings -/

namespace Contribution

/-- Two contributions are the same apart from the order of their findings. -/
structure Alike (c d : Contribution) : Prop where
  errorCodes : d.errorCodes = c.errorCodes
  operations : d.operations = c.operations
  services : d.services = c.services
  labels : d.labels = c.labels
  findings : d.findings.Perm c.findings

theorem Alike.append_right {c d : Contribution} (h : Alike c d) (e : Contribution) :
    Alike (c ++ e) (d ++ e) where
  errorCodes := congrArg (· ++ e.errorCodes) h.errorCodes
  operations := congrArg (· ++ e.operations) h.operations
  services := congrArg (· ++ e.services) h.services
  labels := congrArg (· ++ e.labels) h.labels
  findings := h.findings.append_right e.findings

/-- Descriptors that are no services add the same however errors and operations are interleaved. -/
theorem alike_ofSources {sources other : List Source} (h : Interleaves sources other)
    (hkinds : ∀ s ∈ sources, s.kind ≠ .services) (known : Table Operation) :
    Alike (ofSources known sources) (ofSources known other) where
  errorCodes := h.flatMap_eq .errors fun s _ hs => (s.isOf_contribution known).errorCodes hs
  operations := h.flatMap_eq .operations fun s _ hs => (s.isOf_contribution known).operations hs
  services := h.flatMap_eq .services fun s _ hs => (s.isOf_contribution known).services hs
  labels := by
    refine h.flatMap_eq .operations fun s hs hne => (s.isOf_contribution known).labels ?_
    cases hkind : s.kind with
    | errors => rfl
    | operations => exact absurd hkind hne
    | services => exact absurd hkind (hkinds s hs)
  findings := h.perm.flatMap_right _

end Contribution

/-! ## Builds -/

/-- Two registries that have come from one know the same, and have found the same since then up to
the order of the findings. -/
structure Agree (r a b : Registry) : Prop where
  errorCodes : b.errorCodes = a.errorCodes
  operations : b.operations = a.operations
  services : b.services = a.services
  qualifiers : b.qualifiers = a.qualifiers
  catalog : b.catalog = a.catalog
  findings : ∃ found others, a.findings = r.findings ++ found ∧ b.findings = r.findings ++ others ∧
    others.Perm found

namespace Registry

theorem agree_receive {c d : Contribution} (h : c.Alike d) (r : Registry) :
    Agree r (r.receive c) (r.receive d) where
  errorCodes := congrArg r.errorCodes.insertAll h.errorCodes
  operations := congrArg r.operations.insertAll h.operations
  services := congrArg r.services.insertAll h.services
  qualifiers := congrArg r.qualifiers.insertAll h.labels
  catalog := rfl
  findings := ⟨c.findings, d.findings, rfl, rfl, h.findings⟩

/-- What a build of well-formed descriptors adds : first the others, then the services over the
operations as they are then. -/
theorem registry_build_eq_receive {sources : List Source}
    (h : ∀ s ∈ sources, s.isWellFormed = true) (r : Registry) :
    let others := Contribution.ofSources r.operations (sources.filter (·.kind ≠ .services))
    (r.build sources).registry = r.receive (others ++ .ofSources
      (r.operations.insertAll others.operations) (sources.filter (·.kind = .services))) := by
  intro others
  have hservices : ∀ s ∈ sources.filter (·.kind = .services), s.kind ≠ .operations :=
    fun s hs => by simp [kind_of_mem_services s hs]
  rw [registry_build h, servicesLast, afterSources_append,
    afterSources_of_no_services kind_of_mem_others r r.operations,
    afterSources_of_no_operations hservices, receive_receive]
  rfl

end Registry

/-- A contract does not depend on the findings so far. -/
theorem Agree.emit_eq {r a b : Registry} (h : Agree r a b) (style : Style) :
    Contract.emit b style = Contract.emit a style := by
  have hb : b = { a with findings := b.findings } := by
    obtain ⟨codes, operations, services, qualifiers, catalog, findings⟩ := b
    obtain ⟨rfl, rfl, rfl, rfl, rfl, -⟩ := h
    rfl
  rw [hb]
  rfl

/-- However the kinds are interleaved, a build of well-formed descriptors comes to the same tables,
the same findings up to their order, and the same contracts. The findings are in the same order if
only services stand elsewhere. -/
theorem build_of_interleaves (r : Registry) {sources other : List Source}
    (hwell : ∀ s ∈ sources, s.isWellFormed = true) (h : Interleaves sources other) :
    (r.build sources).failure = none ∧ (r.build other).failure = none ∧
      Agree r (r.build sources).registry (r.build other).registry ∧
      (other.filter (·.kind ≠ .services) = sources.filter (·.kind ≠ .services) →
        (r.build other).registry.findings = (r.build sources).registry.findings) ∧
      ∀ style, Contract.emit (r.build other).registry style =
        Contract.emit (r.build sources).registry style := by
  have hother : ∀ s ∈ other, s.isWellFormed = true := fun s hs => hwell s (h.perm.subset hs)
  have halike := Contribution.alike_ofSources (h.filter (·.kind ≠ .services))
    Registry.kind_of_mem_others r.operations
  -- The services are one list in both builds, and they see the same operations.
  have hagree : Agree r (r.build sources).registry (r.build other).registry := by
    rw [Registry.registry_build_eq_receive hwell, Registry.registry_build_eq_receive hother,
      halike.operations, h .services]
    exact Registry.agree_receive (halike.append_right _) r
  refine ⟨Registry.failure_build_eq_none_iff.2 hwell, Registry.failure_build_eq_none_iff.2 hother,
    hagree, fun hservices => ?_, hagree.emit_eq⟩
  rw [Registry.build, Registry.build, Registry.servicesLast, Registry.servicesLast, hservices,
    h .services]

/-- A service with a member that is no operation. -/
def unknownMember : Source where
  kind := .services
  origin := "s"
  text := "<s assembly='p'><service name='A'><m target='X'/><m target='Y'/></service></s>"

/-- An error without a target. -/
def untargetedError : Source where
  kind := .errors
  origin := "e"
  text := "<e><httperror/></e>"

/-- An operation whose input has no target. -/
def untargetedInput : Source where
  kind := .operations
  origin := "o"
  text := "<o assembly='q'><operation name='X'><input/></operation></o>"

/-- The findings of the error and of the operation change places, and all else is the same. -/
theorem build_of_interleaves_threeKinds :
    let sources := [unknownMember, untargetedError, untargetedInput]
    let other := [untargetedInput, unknownMember, untargetedError]
    let registry (sources : List Source) := (Registry.empty.build sources).registry
    (∀ s ∈ sources, s.isWellFormed = true) ∧ Interleaves sources other ∧
      Agree Registry.empty (registry sources) (registry other) ∧
      (registry sources).findings =
        [.missingAttribute "e" "httperror" "target", .missingAttribute "o" "input" "target",
          .unknownOperation "A" "Y"] ∧
      (registry other).findings =
        [.missingAttribute "o" "input" "target", .missingAttribute "e" "httperror" "target",
          .unknownOperation "A" "Y"] := by
  intro sources other registry
  have hwell : ∀ s ∈ sources, s.isWellFormed = true := by decide +kernel
  have hinterleaves : Interleaves sources other := by
    intro kind
    cases kind <;> rfl
  exact ⟨hwell, hinterleaves, (build_of_interleaves Registry.empty hwell hinterleaves).2.2.1,
    by decide +kernel, by decide +kernel⟩

end ServiceContract
