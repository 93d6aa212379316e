import ServiceContract.Compilation
import ServiceContract.Proofs.Emission
import ServiceContract.Proofs.Writing
/-!
# Compiling is all or nothing

A compilation reads everything before it writes anything, and writes one file in one step.
So it either leaves all files as they are, whatever it was that failed, or leaves the output
with the rendered contract and all other files as they are. The report is about what was
written : the digest is that of the bytes in the output, and the number of paths that of the
path items in the contract (`compile_all_or_nothing`).
-/

namespace ServiceContract

namespace Run

variable {α β : Type}

/-- Two runs in a row succeed if both do. -/
theorem result_andThen_eq_ok {r : Run α} {next : α → Run β} {b : β} :
    (r.andThen next).result = .ok b ↔ ∃ a, r.result = .ok a ∧ (next a).result = .ok b := by
  unfold andThen
  cases r.result with
  | error e => simp
  | ok a => simp

end Run

/-- What a build gives is made from some registry in the style that was asked for. -/
theorem exists_registry_of_build {t : FileTree} {s : Settings} {c : Compiled}
    (h : (build t s).result = .ok c) : ∃ r, c = Compiled.ofRegistry r s.style := by
  unfold build at h
  split_ifs at h with hservices
  · simp [Run.fail] at h
  · simp only [Run.bind_def, Run.pure_def, Run.result_andThen_eq_ok] at h
    obtain ⟨sources, -, r₀, -, r, -, hr⟩ := h
    exact ⟨r, (Except.ok.inj hr).symm⟩

/-- The number of paths of a build is that of the path items in its document. -/
theorem paths_of_build {t : FileTree} {s : Settings} {c : Compiled}
    (h : (build t s).result = .ok c) :
    c.paths = (Contract.pathItems s.style.layout c.document).length := by
  obtain ⟨r, rfl⟩ := exists_registry_of_build h
  exact Contract.paths_emit r s.style

/-- What a compilation that succeeds has done : the output has the rendered contract, nothing
else has changed but for new directories, and the report is about this contract. -/
structure Published (t : FileTree) (s : Settings) (c : Compiled) (u : FileTree)
    (report : Report) : Prop where
  built : (build t s).result = .ok c
  wrote : FileTree.Wrote t s.output (Contract.render c.document).toUTF8 u
  output : report.output = s.output
  digest : report.digest = Contract.digest (Contract.render c.document).toUTF8
  paths : report.paths = (Contract.pathItems s.style.layout c.document).length

theorem growsTo_writeContract {t u : FileTree} {output : String} {c : Compiled} {device : Device}
    {run : Run Report} {e : Failure} (h : writeContract t output c device = (u, run))
    (he : run.result = .error e) : t.GrowsTo u := by
  unfold writeContract at h
  dsimp only at h
  split at h
  · next v cause hwrite =>
    rw [← (Prod.mk.inj h).1]
    exact FileTree.growsTo_write hwrite
  · obtain ⟨-, rfl⟩ := Prod.mk.inj h
    simp at he

/-- A contract that is written holds what was compiled, and the report names its digest. -/
theorem writeContract_eq_ok {t u : FileTree} {output : String} {c : Compiled} {device : Device}
    {run : Run Report} {report : Report} (h : writeContract t output c device = (u, run))
    (hreport : run.result = .ok report) :
    FileTree.Wrote t output (Contract.render c.document).toUTF8 u ∧
      report = c.report output (Contract.digest (Contract.render c.document).toUTF8) := by
  unfold writeContract at h
  dsimp only at h
  split at h
  · obtain ⟨-, rfl⟩ := Prod.mk.inj h
    simp [Run.fail] at hreport
  · next v hwrite =>
    obtain ⟨rfl, rfl⟩ := Prod.mk.inj h
    exact ⟨FileTree.wrote_write hwrite, (Except.ok.inj hreport).symm⟩

section Compile

variable {t : FileTree} {s : Settings} {c : Compiled}

theorem compile_of_build_error (device : Device) {e : Failure}
    (h : (build t s).result = .error e) :
    compile t s device = (t, ⟨(build t s).log, .error e⟩) := by
  unfold compile
  simp only [h]

/-- Findings that the policy denies end the run before anything is written. -/
theorem compile_of_denied (device : Device) (h : (build t s).result = .ok c)
    (hdenied : s.warnings.denies c.findings = true) : compile t s device =
      (t, ⟨(build t s).log ++ s.warnings.events c.findings,
        .error (.denied c.findings.length)⟩) := by
  unfold compile
  simp only [h, hdenied, if_true]

theorem compile_of_not_denied (device : Device) (h : (build t s).result = .ok c)
    (hdenied : ¬ s.warnings.denies c.findings = true) : compile t s device =
      ((writeContract t s.output c device).1,
        ⟨(build t s).log ++ s.warnings.events c.findings
          ++ (writeContract t s.output c device).2.log,
        (writeContract t s.output c device).2.result⟩) := by
  unfold compile
  simp only [h]
  rw [if_neg hdenied]

end Compile

/-- A compilation that fails changes no file, whatever fails; one that succeeds changes the
output only, and reports what it has written there. -/
theorem compile_all_or_nothing (t : FileTree) (s : Settings) (device : Device) :
    match compile t s device with
    | (u, ⟨_, .error _⟩) => t.GrowsTo u
    | (u, ⟨_, .ok report⟩) => ∃ c, Published t s c u report := by
  cases hbuilt : (build t s).result with
  | error e =>
    rw [compile_of_build_error device hbuilt]
    exact .refl t
  | ok c =>
    by_cases hdenied : s.warnings.denies c.findings = true
    · rw [compile_of_denied device hbuilt hdenied]
      exact .refl t
    · rw [compile_of_not_denied device hbuilt hdenied]
      cases hwritten : writeContract t s.output c device with
      | mk u run =>
        cases hresult : run.result with
        | error e => exact growsTo_writeContract hwritten hresult
        | ok report =>
          obtain ⟨hwrote, rfl⟩ := writeContract_eq_ok hwritten hresult
          exact ⟨c, hbuilt, hwrote, rfl, rfl, paths_of_build hbuilt⟩

end ServiceContract
