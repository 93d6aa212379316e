import ServiceContract.Proofs.Compiling
/-!
# What the policy for findings decides

Settings that differ only in the policy make the same build. The policy decides whether the findings
of the build are logged, as warnings or as errors, and whether they end the compilation before
anything is written; it decides nothing else (`compile_policies`). No other event of a compilation
is a warning or an error (`isQuiet_build`, `isQuiet_writeContract`), so the alarms in its log are
the findings and nothing more.
-/

namespace ServiceContract

/-! ## Alarms -/

/-- Whether an event is a warning or an error. -/
def Event.isAlarm (e : Event) : Bool := e.level = .warn || e.level = .error

/-- The warnings and errors in a log. -/
def alarms (log : List Event) : List Event := log.filter (·.isAlarm)

/-- A log without warnings and errors. -/
def IsQuiet (log : List Event) : Prop := ∀ e ∈ log, e.isAlarm = false

theorem isQuiet_nil : IsQuiet [] := by simp [IsQuiet]

theorem isQuiet_append {log more : List Event} :
    IsQuiet (log ++ more) ↔ IsQuiet log ∧ IsQuiet more :=
  List.forall_mem_append

theorem alarms_append (log more : List Event) : alarms (log ++ more) = alarms log ++ alarms more :=
  List.filter_append ..

/-- Where nothing is a warning or an error there are no alarms. -/
theorem IsQuiet.alarms_eq_nil {log : List Event} (h : IsQuiet log) : alarms log = [] := by
  rw [alarms, List.filter_eq_nil_iff]
  intro e he
  simp [h e he]

theorem isQuiet_map_debug {α : Type} (reporter : Reporter) (message : α → String) (l : List α) :
    IsQuiet (l.map fun a => .debug reporter (message a)) := by
  intro e he
  obtain ⟨a, -, rfl⟩ := List.mem_map.1 he
  rfl

theorem isQuiet_info (reporter : Reporter) (message : String) :
    IsQuiet [.info reporter message] := by
  intro e he
  rw [List.mem_singleton.1 he]
  rfl

/-- Two quiet runs in a row are quiet. -/
theorem Run.isQuiet_andThen {α β : Type} {r : Run α} {next : α → Run β} (hr : IsQuiet r.log)
    (hnext : ∀ a, IsQuiet (next a).log) : IsQuiet (r.andThen next).log := by
  unfold Run.andThen
  cases r.result with
  | ok a => exact isQuiet_append.2 ⟨hr, hnext a⟩
  | error e => exact hr

/-! ## Builds are quiet -/

/-- Descriptors report redefinitions only, as details. -/
theorem isQuiet_ingestRoot (r : Registry) (kind : Kind) (file : String) (root : Xml.Node) :
    IsQuiet (r.ingestRoot kind file root).2 := by
  cases kind with
  | errors => exact isQuiet_map_debug _ _ _
  | operations => exact isQuiet_map_debug _ _ _
  | services => exact isQuiet_map_debug _ _ _

/-- Taking in descriptors is quiet. -/
theorem isQuiet_ingestAll (r : Registry) (sources : List Source) :
    IsQuiet (r.ingestAll sources).log := by
  induction sources generalizing r with
  | nil => exact isQuiet_nil
  | cons s rest ih =>
    unfold Registry.ingestAll Registry.ingest
    cases Xml.read? s.text with
    | none => exact isQuiet_nil
    | some root => exact isQuiet_append.2 ⟨isQuiet_ingestRoot r _ _ root, ih _⟩

theorem isQuiet_loadSources (t : FileTree) (descriptors : List (Kind × String)) :
    IsQuiet (loadSources t descriptors).log := by
  induction descriptors with
  | nil => exact isQuiet_nil
  | cons d rest ih =>
    have hload : IsQuiet (loadSource t d.1 d.2).log := by
      unfold loadSource
      cases t.readText d.2 with
      | ok text => exact isQuiet_info _ _
      | error cause => exact isQuiet_nil
    exact Run.isQuiet_andThen hload fun source => Run.isQuiet_andThen ih fun sources => isQuiet_nil

theorem isQuiet_loadSchemas (t : FileTree) (r : Registry) (path : String) :
    IsQuiet (loadSchemas t r path).log := by
  unfold loadSchemas
  cases t.readText path with
  | error cause => exact isQuiet_nil
  | ok text =>
    simp only [Registry.addSchemas_eq]
    cases OpenApi.readComponents? text with
    | none => exact isQuiet_nil
    | some incoming => cases incoming <;> exact isQuiet_info _ _

theorem isQuiet_loadAllSchemas (t : FileTree) (r : Registry) (paths : List String) :
    IsQuiet (loadAllSchemas t r paths).log := by
  induction paths generalizing r with
  | nil => exact isQuiet_nil
  | cons path rest ih => exact Run.isQuiet_andThen (isQuiet_loadSchemas t r path) ih

/-- A build is quiet, whatever it finds. -/
theorem isQuiet_build (t : FileTree) (s : Settings) : IsQuiet (build t s).log := by
  unfold build
  split_ifs
  · exact isQuiet_nil
  · refine Run.isQuiet_andThen (isQuiet_loadSources t _) fun sources => ?_
    refine Run.isQuiet_andThen (isQuiet_loadAllSchemas t _ _) fun r => ?_
    exact Run.isQuiet_andThen (isQuiet_ingestAll r _) fun next => isQuiet_nil

/-- Writing is quiet, whether or not it succeeds. -/
theorem isQuiet_writeContract (t : FileTree) (output : String) (c : Compiled) (device : Device) :
    IsQuiet (writeContract t output c device).2.log := by
  unfold writeContract
  dsimp only
  split
  · exact isQuiet_nil
  · exact isQuiet_info _ _

/-! ## Policies -/

/-- All events of a policy are alarms. -/
theorem alarms_events (p : WarningPolicy) (findings : List Finding) :
    alarms (p.events findings) = p.events findings := by
  rw [alarms, List.filter_eq_self]
  intro e he
  cases p with
  | warn =>
    obtain ⟨f, -, rfl⟩ := List.mem_map.1 he
    rfl
  | fail =>
    obtain ⟨f, -, rfl⟩ := List.mem_map.1 he
    rfl
  | ignore => simp [WarningPolicy.events] at he

section Compile

variable {t : FileTree} {s : Settings} {c : Compiled}

/-- A build does not look at the policy. -/
theorem build_with_warnings (t : FileTree) (s : Settings) (p : WarningPolicy) :
    build t { s with warnings := p } = build t s :=
  rfl

/-- The alarms of a compilation are the findings of the build, as the policy has them logged. -/
theorem alarms_compile (device : Device) (h : (build t s).result = .ok c) :
    alarms (compile t s device).2.log = s.warnings.events c.findings := by
  have hbuild := (isQuiet_build t s).alarms_eq_nil
  by_cases hdenied : s.warnings.denies c.findings = true
  · rw [compile_of_denied device h hdenied]
    change alarms ((build t s).log ++ s.warnings.events c.findings) = _
    rw [alarms_append, hbuild, alarms_events, List.nil_append]
  · rw [compile_of_not_denied device h hdenied]
    have hwritten := (isQuiet_writeContract t s.output c device).alarms_eq_nil
    change alarms ((build t s).log ++ s.warnings.events c.findings
      ++ (writeContract t s.output c device).2.log) = _
    rw [alarms_append, alarms_append, hbuild, alarms_events, hwritten, List.nil_append,
      List.append_nil]

/-- Where the policy allows the findings, all that counts is the contract. -/
theorem compile_of_allowed (device : Device) (h : (build t s).result = .ok c) {p : WarningPolicy}
    (hp : p.denies c.findings = false) :
    (compile t { s with warnings := p } device).1 = (writeContract t s.output c device).1 ∧
      (compile t { s with warnings := p } device).2.result =
        (writeContract t s.output c device).2.result := by
  have hbuild : (build t { s with warnings := p }).result = .ok c := h
  rw [compile_of_not_denied device hbuild (by simp [hp])]
  exact ⟨rfl, rfl⟩

end Compile

/-- Under all policies there is one build. Findings are logged as warnings, as errors or not at all,
and there are no other alarms. Whether they are logged or ignored, the compilation comes to the same
files and the same result. Where they are forbidden it does so too, unless the build has findings :
then it fails with their number and leaves all files, whatever would have come of writing. -/
theorem compile_policies (t : FileTree) (s : Settings) (device : Device) :
    let run (p : WarningPolicy) := compile t { s with warnings := p } device
    (∀ p, build t { s with warnings := p } = build t s) ∧
    ((run .ignore).1 = (run .warn).1 ∧ (run .ignore).2.result = (run .warn).2.result) ∧
    match (build t s).result with
    | .error e => ∀ p, (run p).1 = t ∧ (run p).2.result = .error e ∧ alarms (run p).2.log = []
    | .ok c =>
      (if c.findings = [] then
        (run .fail).1 = (run .warn).1 ∧ (run .fail).2.result = (run .warn).2.result
      else (run .fail).1 = t ∧ (run .fail).2.result = .error (.denied c.findings.length)) ∧
      alarms (run .warn).2.log = c.findings.map (fun f => ⟨.warn, .compiler, f.message, []⟩) ∧
      alarms (run .fail).2.log = c.findings.map (fun f => ⟨.error, .compiler, f.message, []⟩) ∧
      alarms (run .ignore).2.log = [] := by
  intro run
  refine ⟨build_with_warnings t s, ?_⟩
  cases hbuilt : (build t s).result with
  | error e =>
    have hrun : ∀ p, run p = (t, ⟨(build t s).log, .error e⟩) := fun p =>
      compile_of_build_error (s := { s with warnings := p }) device hbuilt
    simp only [hrun, (isQuiet_build t s).alarms_eq_nil, and_self, implies_true]
  | ok c =>
    obtain ⟨hwarn, hwarnResult⟩ := compile_of_allowed device hbuilt (p := .warn) rfl
    obtain ⟨hignore, hignoreResult⟩ := compile_of_allowed device hbuilt (p := .ignore) rfl
    have halarms : ∀ p, alarms (run p).2.log = p.events c.findings := fun p =>
      alarms_compile (s := { s with warnings := p }) device hbuilt
    refine ⟨⟨hignore.trans hwarn.symm, hignoreResult.trans hwarnResult.symm⟩, ?_, halarms .warn,
      halarms .fail, halarms .ignore⟩
    split_ifs with hnone
    · have hallowed : WarningPolicy.fail.denies c.findings = false := by
        simp [WarningPolicy.denies, hnone]
      obtain ⟨hfail, hfailResult⟩ := compile_of_allowed device hbuilt hallowed
      exact ⟨hfail.trans hwarn.symm, hfailResult.trans hwarnResult.symm⟩
    -- A denied compilation ends before the device is asked for anything.
    · have hdenied : WarningPolicy.fail.denies c.findings = true := by
        simpa [WarningPolicy.denies] using hnone
      have hrun : run .fail = _ :=
        compile_of_denied (s := { s with warnings := .fail }) device hbuilt hdenied
      rw [hrun]
      exact ⟨rfl, rfl⟩

end ServiceContract
