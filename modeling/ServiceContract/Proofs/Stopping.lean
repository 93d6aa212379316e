import ServiceContract.Proofs.Building
/-!
# What a step leaves when it fails

A registry is built up by procedures that change it in place, and what a procedure has changed stays
changed when it fails. `takeIn`, `takeInAll` and `takeInSchemas` say in which order these changes
are made : a text is read before anything is changed, and a build goes through the descriptors
twice, the second time for the services. They come to what `Registry.ingest`, `Registry.build` and
`Registry.addSchemas` give (`comesTo_takeIn`, `comesTo_takeInAll`, `comesTo_takeInSchemas`), where a
failure leaves the registry as it was, or for a build as it is after the descriptors in front of the
first malformed one (`failed_steps_leave`).
-/

namespace ServiceContract

/-! ## Outcomes -/

namespace Registry.Outcome

/-- What a change comes to that is made as a whole or not at all. -/
def ofChange (r : Registry) : Except Failure (Registry × List Event) → Outcome
  | .ok (next, log) => ⟨next, log, none⟩
  | .error e => ⟨r, [], some e⟩

/-- What one thing after another comes to; behind a failure nothing is done. -/
def andThen (o : Outcome) (next : Registry → Outcome) : Outcome :=
  match o.failure with
  | some _ => o
  | none => { next o.registry with log := o.log ++ (next o.registry).log }

/-- Behind a failure nothing is done. -/
theorem andThen_of_failure {o : Outcome} {e : Failure} (h : o.failure = some e)
    (next : Registry → Outcome) : o.andThen next = o := by
  rw [andThen, h]

theorem andThen_assoc (o : Outcome) (next more : Registry → Outcome) :
    (o.andThen next).andThen more = o.andThen fun r => (next r).andThen more := by
  cases ho : o.failure with
  | some e => rw [andThen_of_failure ho, andThen_of_failure ho, andThen_of_failure ho]
  | none =>
    cases hnext : (next o.registry).failure <;> simp [andThen, ho, hnext]

end Registry.Outcome

open Registry (Outcome)

namespace Registry

theorem ingestAll_cons (r : Registry) (s : Source) (rest : List Source) :
    r.ingestAll (s :: rest) = (Outcome.ofChange r (r.ingest s)).andThen (·.ingestAll rest) := by
  rw [ingestAll]
  cases r.ingest s <;> rfl

/-- Sources in two parts are taken in one part behind the other. -/
theorem ingestAll_append (r : Registry) (sources more : List Source) :
    r.ingestAll (sources ++ more) = (r.ingestAll sources).andThen (·.ingestAll more) := by
  induction sources generalizing r with
  | nil => rfl
  | cons s rest ih => simp only [List.cons_append, ingestAll_cons, Outcome.andThen_assoc, ih]

end Registry

/-! ## Procedures -/

/-- A procedure changes a registry and a log in place. -/
abbrev Procedure := ExceptT Failure (StateM (Registry × List Event))

namespace Procedure

/-- Go on with a value, or fail if there is none. -/
def require {α : Type} (e : Failure) : Option α → Procedure α
  | some a => pure a
  | none => throw e

/-- Note several events. -/
def note (events : List Event) : Procedure Unit := modify fun (r, log) => (r, log ++ events)

/-- Change the registry. -/
def change (f : Registry → Registry) : Procedure Unit := modify fun (r, log) => (f r, log)

/-- Take in a descriptor. -/
def takeIn (s : Source) : Procedure Unit := do
  let root ← require (.malformed s.kind s.origin) (Xml.read? s.text)
  let (r, _) ← get
  note (r.ingestRoot s.kind s.origin root).2
  change fun r => (r.ingestRoot s.kind s.origin root).1

/-- Take in descriptors : first all that are no services, then the services. -/
def takeInAll (sources : List Source) : Procedure Unit := do
  (sources.filter (·.kind ≠ .services)).forM takeIn
  (sources.filter (·.kind = .services)).forM takeIn

/-- Take in the schema document in a text. -/
def takeInSchemas (origin text : String) : Procedure Unit := do
  let incoming ← require (.malformedSchemas origin) (OpenApi.readComponents? text)
  change fun r => { r with catalog.documents := r.catalog.documents + 1 }
  note [Catalog.added origin incoming]
  change fun r => { r with catalog.components := match r.catalog.components, incoming with
    | earlier, none => earlier
    | none, some later => some later
    | some earlier, some later => some (earlier.merge later) }

/-- What a procedure comes to from a registry, with what it leaves if it fails. -/
def outcome (p : Procedure Unit) (r : Registry) : Outcome :=
  match p.run.run (r, []) with
  | (.ok _, (next, log)) => ⟨next, log, none⟩
  | (.error e, (next, log)) => ⟨next, log, some e⟩

/-- A procedure comes to an outcome from a registry, and writes behind any log. -/
def ComesTo (p : Procedure Unit) (r : Registry) (o : Outcome) : Prop :=
  ∀ log, p.run.run (r, log) = (match o.failure with
    | some e => .error e
    | none => .ok (), (o.registry, log ++ o.log))

/-- A procedure that fails has done nothing. -/
def LeavesAll (p : Procedure Unit) (r : Registry) : Prop :=
  ∀ e, (p.outcome r).failure = some e → p.outcome r = ⟨r, [], some e⟩

/-- A procedure that comes to an outcome has this outcome. -/
theorem ComesTo.outcome_eq {p : Procedure Unit} {r : Registry} {o : Outcome} (h : p.ComesTo r o) :
    p.outcome r = o := by
  obtain ⟨next, log, failure⟩ := o
  rw [outcome, h []]
  cases failure <;> rfl

/-- A procedure that comes to one change leaves everything where the change fails. -/
theorem ComesTo.leavesAll {p : Procedure Unit} {r : Registry}
    {change : Except Failure (Registry × List Event)} (h : p.ComesTo r (.ofChange r change)) :
    p.LeavesAll r := by
  intro e he
  rw [h.outcome_eq] at he ⊢
  cases change with
  | ok next => simp [Outcome.ofChange] at he
  | error cause => rw [← Option.some.inj he]; rfl

/-- Procedures in a row come to their outcomes in a row. -/
theorem ComesTo.bind {p q : Procedure Unit} {r : Registry} {o : Outcome} {next : Registry → Outcome}
    (hp : p.ComesTo r o) (hq : q.ComesTo o.registry (next o.registry)) :
    ComesTo (do p; q) r (o.andThen next) := by
  intro log
  rw [ExceptT.run_bind, StateT.run_bind, hp log]
  cases ho : o.failure with
  | some e => rw [Outcome.andThen_of_failure ho, ho]; rfl
  | none =>
    simp only [Outcome.andThen, ho]
    exact (hq _).trans (by rw [List.append_assoc])

/-- A source is taken in by the steps of the procedure as by `Registry.ingest`. -/
theorem comesTo_takeIn (s : Source) (r : Registry) :
    (takeIn s).ComesTo r (.ofChange r (r.ingest s)) := by
  intro log
  unfold takeIn Registry.ingest
  cases Xml.read? s.text with
  | none => simp only [Outcome.ofChange, List.append_nil]; rfl
  | some root => rfl

/-- Sources are taken in one by one, up to the first that fails. -/
theorem comesTo_forM_takeIn (sources : List Source) (r : Registry) :
    (sources.forM takeIn).ComesTo r (r.ingestAll sources) := by
  induction sources generalizing r with
  | nil =>
    intro log
    simp only [Registry.ingestAll, List.append_nil]
    rfl
  | cons s rest ih =>
    rw [Registry.ingestAll_cons]
    exact (comesTo_takeIn s r).bind (ih _)

/-- A build takes in the three kinds one behind the other. -/
theorem comesTo_takeInAll (sources : List Source) (r : Registry) :
    (takeInAll sources).ComesTo r (r.build sources) := by
  rw [Registry.build, Registry.servicesLast, Registry.ingestAll_append]
  exact (comesTo_forM_takeIn _ r).bind (comesTo_forM_takeIn _ _)

/-- A schema document is taken in by the steps of the procedure as by `Registry.addSchemas`. -/
theorem comesTo_takeInSchemas (origin text : String) (r : Registry) :
    (takeInSchemas origin text).ComesTo r (.ofChange r
      ((r.addSchemas origin text).map fun (next, event) => (next, [event]))) := by
  intro log
  rw [Registry.addSchemas_eq]
  unfold takeInSchemas
  cases OpenApi.readComponents? text with
  | none => simp only [Except.map, Outcome.ofChange, List.append_nil]; rfl
  | some incoming => rfl

end Procedure

/-! ## Failures -/

open Procedure in
/-- A descriptor or a schema document that fails leaves everything as it was, and a descriptor fails
exactly if it is malformed. A build fails exactly if some descriptor is malformed. It names the
first one in the order in which it takes them in, and leaves what those in front of it have made. -/
theorem failed_steps_leave (r : Registry) :
    (∀ s : Source, (takeIn s).outcome r = .ofChange r (r.ingest s) ∧ (takeIn s).LeavesAll r ∧
      ((takeIn s).outcome r).failure =
        if s.isWellFormed then none else some (.malformed s.kind s.origin)) ∧
    (∀ origin text, (takeInSchemas origin text).outcome r =
        .ofChange r ((r.addSchemas origin text).map fun (next, event) => (next, [event])) ∧
      (takeInSchemas origin text).LeavesAll r) ∧
    ∀ sources : List Source, (takeInAll sources).outcome r = r.build sources ∧
      ((r.build sources).failure = none ↔ ∀ s ∈ sources, s.isWellFormed = true) ∧
      (r.build sources).failure = ((Registry.servicesLast sources).find? fun s =>
        !s.isWellFormed).map (fun s => .malformed s.kind s.origin) ∧
      (r.build sources).registry =
        r.afterSources ((Registry.servicesLast sources).takeWhile (·.isWellFormed)) := by
  refine ⟨fun s => ?_, fun origin text => ?_, fun sources => ?_⟩
  · refine ⟨(comesTo_takeIn s r).outcome_eq, (comesTo_takeIn s r).leavesAll, ?_⟩
    rw [(comesTo_takeIn s r).outcome_eq]
    split_ifs with hs
    · obtain ⟨log, hlog⟩ := Registry.ingest_of_isWellFormed hs r
      rw [hlog]
      rfl
    · rw [Registry.ingest_of_not_isWellFormed hs]
      rfl
  · have hcomes := comesTo_takeInSchemas origin text r
    exact ⟨hcomes.outcome_eq, hcomes.leavesAll⟩
  · exact ⟨(comesTo_takeInAll sources r).outcome_eq, Registry.failure_build_eq_none_iff,
      r.failure_ingestAll _, r.registry_ingestAll_takeWhile _⟩

/-- Of two malformed descriptors a service in front is not the one that is named. -/
example : (Registry.empty.build [⟨.services, "s", "<s"⟩, ⟨.operations, "o", "<o/>"⟩,
    ⟨.errors, "e", "<e"⟩]).failure = some (.malformed .errors "e") := by
  decide +kernel

end ServiceContract
