import ServiceContract.Proofs.Contributions
import ServiceContract.Contract
/-!
# A descriptor taken in again

A descriptor may define a name several times, and the registry may know the name already, so a
second run through the descriptor goes through other tables than the first. Both end alike. What a
descriptor adds is the same both times, since the operations that a service descriptor looks up are
none of its own (`Source.contribution_after`), and the same entries once more leave a table as it is
(`Table.insertAll_insertAll_self`). So nothing is new after the second time but the findings, which
are those of the first time again (`ingest_ingest`).
-/

namespace ServiceContract

/-- What a descriptor adds where it has just been taken in is what it added before. -/
theorem Source.contribution_after (s : Source) (r : Registry) :
    s.contribution (r.step (.ingest s)).operations = s.contribution r.operations := by
  by_cases hkind : s.kind = .services
  · rw [Registry.operations_step_of_ne (by simp [hkind])]
  · exact contribution_of_ne_services hkind _ _

namespace Registry

/-- To receive a contribution twice is to receive it once, with its findings twice. -/
theorem receive_receive_self (r : Registry) (c : Contribution) :
    (r.receive c).receive c =
      { r.receive c with findings := (r.receive c).findings ++ c.findings } := by
  simp only [receive, Table.insertAll_insertAll_self]

theorem step_step_ingest (r : Registry) (s : Source) :
    (r.step (.ingest s)).step (.ingest s) =
      { r.step (.ingest s) with
        findings := (r.step (.ingest s)).findings ++ (s.contribution r.operations).findings } := by
  rw [step_ingest_eq_receive (r.step (.ingest s)), Source.contribution_after,
    step_ingest_eq_receive r, receive_receive_self]

end Registry

/-- A well-formed descriptor that is taken in twice in a row leaves what it leaves when it is taken
in once. It is only that its findings are there twice, and no contract shows them. -/
theorem ingest_ingest (r : Registry) {s : Source} (h : s.isWellFormed = true) :
    let once := r.step (.ingest s)
    let twice := once.step (.ingest s)
    (∃ log, r.ingest s = .ok (once, log)) ∧ (∃ log, once.ingest s = .ok (twice, log)) ∧
      (∃ found, once.findings = r.findings ++ found ∧
        twice = { once with findings := once.findings ++ found }) ∧
      ∀ style, Contract.emit twice style = Contract.emit once style := by
  intro once twice
  have htwice : twice =
      { once with findings := once.findings ++ (s.contribution r.operations).findings } :=
    Registry.step_step_ingest r s
  refine ⟨Registry.ingest_of_isWellFormed h r, Registry.ingest_of_isWellFormed h once,
    ⟨(s.contribution r.operations).findings, ?_, htwice⟩, fun style => ?_⟩
  · exact congrArg Registry.findings (Registry.step_ingest_eq_receive r s)
  · rw [htwice]
    rfl

/-- A service that is defined twice in one descriptor, the second time with a member that is no
operation. -/
def serviceTwice : Source where
  kind := .services
  origin := "s"
  text := "<s assembly='q'><service name='A'><m target='X'/></service>"
    ++ "<service name='A'><m target='Ghost'/></service></s>"

/-- A registry that knows the operation, another label of the service, and a service behind it. -/
def registryWithServices : Registry :=
  { Registry.empty with
    operations := Table.ofList [("X", Operation.blank)]
    services := Table.ofList [("A", ∅), ("B", Table.ofList [("X", Operation.blank)])]
    qualifiers := Table.ofList [("A", "p")] }

/-- The service gains its member and loses it again, both times, and the member that is unknown is
reported both times. -/
theorem ingest_ingest_serviceTwice :
    let once := registryWithServices.step (.ingest serviceTwice)
    let twice := once.step (.ingest serviceTwice)
    serviceTwice.isWellFormed = true ∧ (∃ log, once.ingest serviceTwice = .ok (twice, log)) ∧
      once.services.keys = ["A", "B"] ∧ (once.services.get? "A").map (·.keys) = some [] ∧
      once.findings = [.unknownOperation "A" "Ghost"] ∧
      twice = { once with
        findings := [.unknownOperation "A" "Ghost", .unknownOperation "A" "Ghost"] } := by
  intro once twice
  have hwell : serviceTwice.isWellFormed = true := by decide +kernel
  obtain ⟨-, htaken, ⟨found, honce, htwice⟩, -⟩ := ingest_ingest registryWithServices hwell
  have hfindings : once.findings = [.unknownOperation "A" "Ghost"] := by decide +kernel
  obtain rfl : [.unknownOperation "A" "Ghost"] = found := hfindings.symm.trans honce
  rw [hfindings] at htwice
  exact ⟨hwell, htaken, by decide +kernel, by decide +kernel, hfindings, htwice⟩

end ServiceContract
