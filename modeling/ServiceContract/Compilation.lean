import ServiceContract.Contract
import ServiceContract.FileTree.Write
import ServiceContract.Failure
/-!
# Compilation

`build` reads the inputs that settings name from a file tree and makes the contract. All
descriptors are read before any of them is taken in. `compile` also writes the contract, if
the policy for findings allows it; nothing is read again after that. What the device it is
written to decides by itself is a parameter.
-/

namespace ServiceContract

/-- A contract with the registry that it was made from. -/
structure Compiled where
  /-- What was known. -/
  registry : Registry
  /-- The contract. -/
  document : Json
  /-- The number of paths. -/
  paths : Nat
  /-- The findings of the inputs, then those of the emission. -/
  findings : List Finding

/-- What a compilation has done. -/
structure Report where
  /-- Where the contract was written. -/
  output : String
  /-- The digest of its bytes. -/
  digest : String
  /-- The number of error targets with a status code. -/
  errorCodes : Nat
  /-- The number of operations. -/
  operations : Nat
  /-- The number of services. -/
  services : Nat
  /-- The number of paths. -/
  paths : Nat
  /-- All findings. -/
  findings : List Finding
deriving DecidableEq, Repr

/-! ## Making a contract -/

/-- Read a descriptor. -/
def loadSource (t : FileTree) (kind : Kind) (path : String) : Run Source :=
  match t.readText path with
  | .ok text =>
    ⟨[.info .descriptors ("Loaded " ++ kind.name ++ " descriptor " ++ path)],
      .ok ⟨kind, path, text⟩⟩
  | .error cause => .fail (.unreadable kind path cause)

/-- The descriptors that settings name, with their kinds. -/
def Settings.descriptors (s : Settings) : List (Kind × String) :=
  s.errors.map (Kind.errors, ·) ++ s.operations.map (Kind.operations, ·)
    ++ s.services.map (Kind.services, ·)

/-- Read all descriptors. -/
def loadSources (t : FileTree) : List (Kind × String) → Run (List Source)
  | [] => pure []
  | (kind, path) :: rest => do
    let source ← loadSource t kind path
    let sources ← loadSources t rest
    pure (source :: sources)

/-- Read a schema document and take it in. -/
def loadSchemas (t : FileTree) (r : Registry) (path : String) : Run Registry :=
  match t.readText path with
  | .ok text =>
    match r.addSchemas path text with
    | .ok (r, event) => ⟨[event], .ok r⟩
    | .error e => .fail e
  | .error cause => .fail (.unreadableSchemas path cause)

/-- Read all schema documents and take them in. -/
def loadAllSchemas (t : FileTree) : Registry → List String → Run Registry
  | r, [] => pure r
  | r, path :: rest => do
    let r ← loadSchemas t r path
    loadAllSchemas t r rest

/-- Take in descriptors as a run. -/
def ingestSources (r : Registry) (sources : List Source) : Run Registry :=
  let outcome := r.build sources
  ⟨outcome.log, match outcome.failure with
    | some e => .error e
    | none => .ok outcome.registry⟩

/-- The contract that a registry comes to. -/
def Compiled.ofRegistry (r : Registry) (style : Style) : Compiled :=
  let emission := Contract.emit r style
  ⟨r, emission.document, emission.paths, r.findings ++ emission.findings⟩

/-- Make the contract that settings ask for. -/
def build (t : FileTree) (s : Settings) : Run Compiled :=
  if s.services = [] then .fail .noServices
  else do
    let sources ← loadSources t s.descriptors
    let r ← loadAllSchemas t Registry.empty s.schemas
    let r ← ingestSources r sources
    pure (Compiled.ofRegistry r s.style)

/-! ## Writing it -/

/-- The events by which findings are logged under a policy. -/
def WarningPolicy.events (p : WarningPolicy) (findings : List Finding) : List Event :=
  match p with
  | .warn => findings.map fun f => ⟨.warn, .compiler, f.message, []⟩
  | .fail => findings.map fun f => ⟨.error, .compiler, f.message, []⟩
  | .ignore => []

/-- Whether a policy forbids findings. -/
def WarningPolicy.denies (p : WarningPolicy) (findings : List Finding) : Bool :=
  p = .fail && !findings.isEmpty

/-- The report on a contract that has been written. -/
def Compiled.report (c : Compiled) (output digest : String) : Report :=
  ⟨output, digest, c.registry.errorCodes.size, c.registry.operations.size,
    c.registry.services.size, c.paths, c.findings⟩

/-- Write a contract. The tree is also given where it could not be written. -/
def writeContract (t : FileTree) (output : String) (c : Compiled) (device : Device) :
    FileTree × Run Report :=
  let bytes := (Contract.render c.document).toUTF8
  let digest := Contract.digest bytes
  match t.write output bytes device with
  | (t, some cause) => (t, .fail (.unwritable output cause))
  | (t, none) =>
    let message := "Wrote " ++ toString c.paths ++ " path(s) to " ++ output ++ " (" ++ digest ++ ")"
    (t, ⟨[.info .compiler message], .ok (c.report output digest)⟩)

/-- Make the contract that settings ask for and write it. -/
def compile (t : FileTree) (s : Settings) (device : Device := Device.reliable) :
    FileTree × Run Report :=
  let built := build t s
  match built.result with
  | .error e => (t, ⟨built.log, .error e⟩)
  | .ok c =>
    let log := built.log ++ s.warnings.events c.findings
    if s.warnings.denies c.findings then (t, ⟨log, .error (.denied c.findings.length)⟩)
    else
      let (t, written) := writeContract t s.output c device
      (t, ⟨log ++ written.log, written.result⟩)

end ServiceContract
