import ServiceContract.Proofs.Pipeline
import ServiceContract.Proofs.Stopping
/-!
# Which failure a build reports

A build goes through its inputs in phases : all descriptors are read, then the schema documents are
read and taken in one by one, then the descriptors are taken in. Each phase stops at its first
obstacle, so the first obstacle of an earlier phase is reported whatever comes later in the list of
inputs (`obstacle?`). The descriptors of settings have the services last, so taking them in goes
through them as they are listed (`servicesLast_eq_self_of_loaded`). Without an obstacle the build
succeeds (`build_result`).
-/

namespace ServiceContract

/-! ## Obstacles -/

/-- Why a descriptor cannot be read as text, if it cannot. -/
def unreadable? (t : FileTree) (d : Kind × String) : Option Failure :=
  match t.readText d.2 with
  | .ok _ => none
  | .error cause => some (.unreadable d.1 d.2 cause)

/-- Why a schema document cannot be taken in, if it cannot. -/
def unusableSchemas? (t : FileTree) (path : String) : Option Failure :=
  match t.readText path with
  | .ok text =>
    if (OpenApi.readComponents? text).isSome then none else some (.malformedSchemas path)
  | .error cause => some (.unreadableSchemas path cause)

/-- That a descriptor which can be read is malformed, if it is. -/
def malformed? (t : FileTree) (d : Kind × String) : Option Failure :=
  match t.readText d.2 with
  | .ok text => if (Xml.read? text).isSome then none else some (.malformed d.1 d.2)
  | .error _ => none

/-- What stands in the way of a build : that there is no service descriptor, else the first
descriptor that cannot be read, else the first schema document that cannot be taken in, else the
first descriptor that is malformed. -/
def obstacle? (t : FileTree) (s : Settings) : Option Failure :=
  if s.services = [] then some .noServices
  else (s.descriptors.findSome? (unreadable? t)).or <|
    (s.schemas.findSome? (unusableSchemas? t)).or <| s.descriptors.findSome? (malformed? t)

/-! ## Phases -/

namespace Run

variable {α β : Type}

/-- Behind a failure the rest of a run does not count. -/
theorem result_andThen_of_error {r : Run α} {e : Failure} (h : r.result = .error e)
    (next : α → Run β) : (r.andThen next).result = .error e := by
  rw [andThen, h]

theorem result_andThen_of_ok {r : Run α} {a : α} (h : r.result = .ok a) (next : α → Run β) :
    (r.andThen next).result = (next a).result := by
  rw [andThen, h]

/-- A run meets an obstacle if it fails for this reason, and none if it succeeds. -/
def Meets (r : Run α) : Option Failure → Prop
  | some e => r.result = .error e
  | none => ∃ a, r.result = .ok a

theorem meets_pure (a : α) : (pure a : Run α).Meets none := ⟨a, rfl⟩

/-- Of two runs in a row the second meets its obstacle only if the first has met none. -/
theorem Meets.andThen {r : Run α} {next : α → Run β} {first second : Option Failure}
    (hr : r.Meets first) (hnext : ∀ a, r.result = .ok a → (next a).Meets second) :
    (r.andThen next).Meets (first.or second) := by
  cases first with
  | some e => exact result_andThen_of_error hr next
  | none =>
    obtain ⟨a, ha⟩ := hr
    have hmeets := hnext a ha
    cases second with
    | some e => exact (result_andThen_of_ok ha next).trans hmeets
    | none =>
      obtain ⟨b, hb⟩ := hmeets
      exact ⟨b, (result_andThen_of_ok ha next).trans hb⟩

end Run

theorem findSome?_cons_eq_or {α β : Type} (f : α → Option β) (a : α) (l : List α) :
    (a :: l).findSome? f = (f a).or (l.findSome? f) := by
  rw [List.findSome?_cons]
  cases f a <;> rfl

/-- A descriptor that cannot be read ends the run. -/
theorem meets_loadSource (t : FileTree) (d : Kind × String) :
    (loadSource t d.1 d.2).Meets (unreadable? t d) := by
  unfold loadSource unreadable?
  cases t.readText d.2 with
  | ok text => exact ⟨_, rfl⟩
  | error cause => rfl

/-- Reading descriptors stops at the first that cannot be read. -/
theorem meets_loadSources (t : FileTree) (descriptors : List (Kind × String)) :
    (loadSources t descriptors).Meets (descriptors.findSome? (unreadable? t)) := by
  induction descriptors with
  | nil => exact Run.meets_pure []
  | cons d rest ih =>
    rw [findSome?_cons_eq_or]
    refine (meets_loadSource t d).andThen fun source _ => ?_
    have hrest := ih.andThen fun sources _ => Run.meets_pure (source :: sources)
    rwa [Option.or_none] at hrest

/-- A schema document that cannot be read or taken in ends the run. -/
theorem meets_loadSchemas (t : FileTree) (r : Registry) (path : String) :
    (loadSchemas t r path).Meets (unusableSchemas? t path) := by
  unfold loadSchemas unusableSchemas?
  cases t.readText path with
  | error cause => rfl
  | ok text =>
    simp only [Registry.addSchemas_eq]
    cases OpenApi.readComponents? text with
    | none => rfl
    | some incoming => exact ⟨_, rfl⟩

/-- Taking in schema documents stops at the first that cannot be taken in. -/
theorem meets_loadAllSchemas (t : FileTree) (r : Registry) (paths : List String) :
    (loadAllSchemas t r paths).Meets (paths.findSome? (unusableSchemas? t)) := by
  induction paths generalizing r with
  | nil => exact Run.meets_pure r
  | cons path rest ih =>
    rw [findSome?_cons_eq_or]
    exact (meets_loadSchemas t r path).andThen fun next _ => ih next

/-! ## Descriptors as they are listed -/

/-- Descriptors whose services stand last already are taken in as they stand. -/
theorem Registry.servicesLast_eq_self {sources : List Source}
    (h : sources.Pairwise fun a b => a.kind = .services → b.kind = .services) :
    servicesLast sources = sources := by
  induction sources with
  | nil => rfl
  | cons s rest ih =>
    obtain ⟨hs, hrest⟩ := List.pairwise_cons.1 h
    by_cases hkind : s.kind = .services
    · have hall : ∀ u ∈ s :: rest, u.kind = .services :=
        List.forall_mem_cons.2 ⟨hkind, fun u hu => hs u hu hkind⟩
      rw [servicesLast, List.filter_eq_nil_iff.2 fun u hu => by simp [hall u hu],
        List.filter_eq_self.2 fun u hu => by simp [hall u hu], List.nil_append]
    · have hcons : servicesLast (s :: rest) = s :: servicesLast rest := by
        rw [servicesLast, List.filter_cons_of_pos (by simpa using hkind),
          List.filter_cons_of_neg (by simpa using hkind)]
        rfl
      rw [hcons, ih hrest]

/-- Settings list the services behind the others. -/
theorem Settings.pairwise_descriptors (s : Settings) :
    s.descriptors.Pairwise fun a b => a.1 = .services → b.1 = .services := by
  have hothers : ∀ d ∈ s.errors.map (Kind.errors, ·) ++ s.operations.map (Kind.operations, ·),
      d.1 ≠ .services := by
    intro d hd
    rcases List.mem_append.1 hd with hd | hd
    · obtain ⟨path, -, rfl⟩ := List.mem_map.1 hd
      simp
    · obtain ⟨path, -, rfl⟩ := List.mem_map.1 hd
      simp
  have hservices : ∀ d ∈ s.services.map (Kind.services, ·), d.1 = .services := by
    intro d hd
    obtain ⟨path, -, rfl⟩ := List.mem_map.1 hd
    rfl
  exact Registry.pairwise_append_services hothers hservices

/-- Descriptors that have been read are taken in as settings list them. -/
theorem servicesLast_eq_self_of_loaded {s : Settings} {sources : List Source}
    (h : (sources.map fun source => (source.kind, source.origin)) = s.descriptors) :
    Registry.servicesLast sources = sources := by
  refine Registry.servicesLast_eq_self ?_
  have hpairs := s.pairwise_descriptors
  rw [← h, List.pairwise_map] at hpairs
  exact hpairs

theorem malformed?_of_readText {t : FileTree} {s : Source} (h : t.readText s.origin = .ok s.text) :
    malformed? t (s.kind, s.origin) =
      if s.isWellFormed then none else some (.malformed s.kind s.origin) := by
  rw [malformed?, h]
  rfl

/-- The first malformed one of the descriptors that have been read is the first in the tree. -/
theorem find?_eq_findSome?_malformed? {t : FileTree} {sources : List Source}
    (htexts : ∀ s ∈ sources, t.readText s.origin = .ok s.text) :
    ((sources.find? fun s => !s.isWellFormed).map fun s => Failure.malformed s.kind s.origin) =
      (sources.map fun s => (s.kind, s.origin)).findSome? (malformed? t) := by
  induction sources with
  | nil => rfl
  | cons s rest ih =>
    obtain ⟨htext, hrest⟩ := List.forall_mem_cons.1 htexts
    rw [List.map_cons, findSome?_cons_eq_or, ← ih hrest, malformed?_of_readText htext]
    by_cases hs : s.isWellFormed = true
    · rw [List.find?_cons_of_neg (by simp [hs]), if_pos hs, Option.none_or]
    · rw [List.find?_cons_of_pos (by simpa using hs), if_neg hs]
      rfl

theorem meets_ingestSources (r : Registry) (sources : List Source) :
    (ingestSources r sources).Meets (r.build sources).failure := by
  unfold ingestSources
  cases hfailure : (r.build sources).failure with
  | some e => simp only [Run.Meets, hfailure]
  | none => simp only [Run.Meets, hfailure, Except.ok.injEq, exists_eq']

/-! ## Builds -/

/-- A build meets the first obstacle, phase by phase. -/
theorem meets_build (t : FileTree) (s : Settings) : (build t s).Meets (obstacle? t s) := by
  unfold build obstacle?
  split_ifs with hservices
  · rfl
  refine (meets_loadSources t s.descriptors).andThen fun sources hsources => ?_
  obtain ⟨hdescriptors, htexts⟩ := loadSources_eq_ok_iff.1 hsources
  refine (meets_loadAllSchemas t _ s.schemas).andThen fun r _ => ?_
  -- Which descriptor is malformed does not depend on the registry that the schema documents left.
  have hingest := (meets_ingestSources r sources).andThen fun next _ =>
    Run.meets_pure (Compiled.ofRegistry next s.style)
  rwa [Option.or_none, Registry.build, Registry.failure_ingestAll,
    servicesLast_eq_self_of_loaded hdescriptors, find?_eq_findSome?_malformed? htexts,
    hdescriptors] at hingest

/-- A build fails with the first obstacle. If there is none it succeeds : it has taken in all its
inputs, and it has the findings of their registry and behind them those of the emission. -/
theorem build_result (t : FileTree) (s : Settings) :
    match obstacle? t s with
    | some e => (build t s).result = .error e
    | none => ∃ c sources documents, (build t s).result = .ok c ∧ Inputs t s sources documents ∧
      c.registry = Registry.ofInputs sources documents ∧
      c.findings = c.registry.findings ++ (Contract.emit c.registry s.style).findings := by
  have hmeets := meets_build t s
  cases hobstacle : obstacle? t s with
  | some e =>
    rw [hobstacle] at hmeets
    exact hmeets
  | none =>
    rw [hobstacle] at hmeets
    obtain ⟨c, hc⟩ := hmeets
    obtain ⟨-, sources, documents, hinputs, rfl⟩ := build_eq_ok_iff.1 hc
    exact ⟨_, sources, documents, hc, hinputs, rfl, rfl⟩

/-- A malformed error descriptor is passed over where a service descriptor is missing. -/
example : obstacle? (FileTree.ofTexts [("e", "<e")])
    { Settings.default with errors := ["e"], services := ["s"] } =
      some (.unreadable .services "s" .notFound) := by
  decide +kernel

end ServiceContract
