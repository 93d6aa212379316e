import ServiceContract.Catalog
import ServiceContract.Descriptor
import ServiceContract.Xml.Document
/-!
# The registry

The registry is what a build knows : the tables that descriptors fill, the catalog of
schemas, and the findings so far. `ingest` takes in one descriptor; it either fails and
changes nothing, or adds the entries of the descriptor to the table of its kind.
`ingestAll` takes in several and stops at the first failure. `build` puts the services last,
since a service looks up its operations at the moment it is taken in.
-/

namespace ServiceContract

/-- What a build knows. -/
structure Registry where
  /-- The status codes of error targets. -/
  errorCodes : Table String
  /-- The operations. -/
  operations : Table Operation
  /-- The services with their operations. -/
  services : Table (Table Operation)
  /-- The labels of operations and services. -/
  qualifiers : Table String
  /-- The schemas. -/
  catalog : Catalog
  /-- The findings so far. -/
  findings : List Finding

namespace Registry

/-- The registry that knows nothing. -/
def empty : Registry := ⟨∅, ∅, ∅, ∅, Catalog.empty, []⟩

/-! ## One descriptor -/

/-- Add the entries of an error descriptor. -/
def addErrors (r : Registry) (entries : List (Entry String)) : Registry × List Event :=
  let definitions := Entry.definitions entries
  ({ r with
      errorCodes := r.errorCodes.insertAll definitions
      findings := r.findings ++ Entry.allFindings entries },
    (Entry.redefinitions r.errorCodes definitions).map fun d =>
      .debug .errorCodes
        ("Error target '" ++ d.name ++ "' redefined: " ++ d.before ++ " -> " ++ d.after))

/-- Add the entries of an operation descriptor, which may be labelled. -/
def addOperations (r : Registry) (file : String) (label : Option String)
    (entries : List (Entry Operation)) : Registry × List Event :=
  let definitions := Entry.definitions entries
  ({ r with
      operations := r.operations.insertAll definitions
      qualifiers := Qualifier.label r.qualifiers label (definitions.map Prod.fst)
      findings := r.findings ++ Entry.allFindings entries },
    (Entry.redefinitions r.operations definitions).map fun d =>
      .debug .operations ("Operation '" ++ d.name ++ "' redefined in " ++ file))

/-- Add the entries of a service descriptor, which may be labelled. -/
def addServices (r : Registry) (file : String) (label : Option String)
    (entries : List (Entry (Table Operation))) : Registry × List Event :=
  let definitions := Entry.definitions entries
  ({ r with
      services := r.services.insertAll definitions
      qualifiers := Qualifier.label r.qualifiers label (definitions.map Prod.fst)
      findings := r.findings ++ Entry.allFindings entries },
    (Entry.redefinitions r.services definitions).map fun d =>
      .debug .services ("Service '" ++ d.name ++ "' redefined in " ++ file))

/-- Take in a descriptor by its root element. -/
def ingestRoot (r : Registry) (kind : Kind) (file : String) (root : Xml.Node) :
    Registry × List Event :=
  match kind with
  | .errors => r.addErrors (ErrorStatus.entries file root)
  | .operations => r.addOperations file (root.label? "assembly") (Operation.entries file root)
  | .services =>
    r.addServices file (root.label? "assembly") (Service.entries file r.operations root)

/-- Take in a descriptor. -/
def ingest (r : Registry) (s : Source) : Except Failure (Registry × List Event) :=
  match Xml.read? s.text with
  | some root => .ok (r.ingestRoot s.kind s.origin root)
  | none => .error (.malformed s.kind s.origin)

/-! ## Several descriptors -/

/-- What taking in several descriptors comes to. -/
structure Outcome where
  /-- The registry at the end, or at the first failure. -/
  registry : Registry
  /-- The events up to then. -/
  log : List Event
  /-- The failure. -/
  failure : Option Failure

/-- Take in descriptors in order, up to the first that fails. -/
def ingestAll (r : Registry) : List Source → Outcome
  | [] => ⟨r, [], none⟩
  | s :: rest =>
    match r.ingest s with
    | .error failure => ⟨r, [], some failure⟩
    | .ok (next, log) =>
      let outcome := next.ingestAll rest
      { outcome with log := log ++ outcome.log }

/-- Descriptors with the services behind all others. -/
def servicesLast (sources : List Source) : List Source :=
  sources.filter (·.kind ≠ .services) ++ sources.filter (·.kind = .services)

/-- Take in descriptors, services last. -/
def build (r : Registry) (sources : List Source) : Outcome := r.ingestAll (servicesLast sources)

/-- Take in the schema document in a text. -/
def addSchemas (r : Registry) (origin text : String) : Except Failure (Registry × Event) :=
  (r.catalog.read origin text).map fun (catalog, event) => ({ r with catalog }, event)

theorem addSchemas_eq (r : Registry) (origin text : String) :
    r.addSchemas origin text = match OpenApi.readComponents? text with
      | some incoming =>
        .ok ({ r with catalog := r.catalog.add incoming }, Catalog.added origin incoming)
      | none => .error (.malformedSchemas origin) := by
  unfold addSchemas Catalog.read
  cases OpenApi.readComponents? text <;> rfl

/-- Put a label on a name. -/
def record (r : Registry) (name label : String) : Registry :=
  { r with qualifiers := r.qualifiers.insert name label }

end Registry

end ServiceContract
