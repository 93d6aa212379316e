import ServiceContract.Descriptor
import ServiceContract.Event
import ServiceContract.FileTree
/-!
# Failures and runs

A failure ends a build, and nothing is written. Findings, which do not end it, are in
`ServiceContract.Finding`. A `Run` is what a computation that logs and may fail comes to : the
events in order, and a value or the failure that ended it. Runs are put together in sequence; what
comes after a failure does not happen and logs nothing.
-/

namespace ServiceContract

/-- Why a build fails. -/
inductive Failure where
  /-- No service descriptor is given. -/
  | noServices
  /-- A descriptor cannot be read. -/
  | unreadable (kind : Kind) (path : String) (cause : FileError)
  /-- A descriptor is not well-formed. -/
  | malformed (kind : Kind) (path : String)
  /-- A schema document cannot be read. -/
  | unreadableSchemas (path : String) (cause : FileError)
  /-- A schema document is not an OpenAPI document. -/
  | malformedSchemas (path : String)
  /-- The contract cannot be written. -/
  | unwritable (path : String) (cause : FileError)
  /-- There are findings, and findings are not allowed. -/
  | denied (count : Nat)
deriving DecidableEq, Repr

namespace Failure

/-- The text of a failure. -/
def message : Failure → String
  | noServices => "Configuration error: at least one service descriptor is required"
  | unreadable kind path cause =>
    "Input error: failed to read " ++ kind.name ++ " descriptor '" ++ path ++ "': " ++ cause.message
  | malformed kind path =>
    "Input error: malformed " ++ kind.name ++ " descriptor '" ++ path ++ "'"
  | unreadableSchemas path cause =>
    "Schema error: failed to read schema document '" ++ path ++ "': " ++ cause.message
  | malformedSchemas path => "Schema error: failed to parse OpenAPI document '" ++ path ++ "'"
  | unwritable path cause =>
    "Output error: failed to write contract to '" ++ path ++ "': " ++ cause.message
  | denied count =>
    "Build produced " ++ toString count ++ " warning(s) and warnings are treated as failures"

/-- The reason in the file system, if there is one. -/
def cause? : Failure → Option FileError
  | unreadable _ _ cause => some cause
  | unreadableSchemas _ cause => some cause
  | unwritable _ cause => some cause
  | _ => none

/-- The text of a failure followed by that of its reason in the file system. -/
def chain (f : Failure) : String :=
  match f.cause? with
  | some cause => f.message ++ ": " ++ cause.message
  | none => f.message

end Failure

/-! ## Runs -/

/-- A logged computation that may have failed. -/
structure Run (α : Type) where
  /-- The events in order. -/
  log : List Event
  /-- The value, or the failure that ended the run. -/
  result : Except Failure α

namespace Run

variable {α β : Type}

/-- A run that only fails. -/
def fail (e : Failure) : Run α := ⟨[], .error e⟩

/-- One run after another, which may use the value of the first. -/
def andThen (r : Run α) (next : α → Run β) : Run β :=
  match r.result with
  | .ok a => ⟨r.log ++ (next a).log, (next a).result⟩
  | .error e => ⟨r.log, .error e⟩

instance : Monad Run where
  pure a := ⟨[], .ok a⟩
  bind := andThen

@[simp] theorem pure_def (a : α) : (pure a : Run α) = ⟨[], .ok a⟩ := rfl

@[simp] theorem bind_def (r : Run α) (next : α → Run β) : r >>= next = r.andThen next := rfl

@[simp] theorem andThen_ok (log : List Event) (a : α) (next : α → Run β) :
    (⟨log, .ok a⟩ : Run α).andThen next = ⟨log ++ (next a).log, (next a).result⟩ := rfl

@[simp] theorem andThen_error (log : List Event) (e : Failure) (next : α → Run β) :
    (⟨log, .error e⟩ : Run α).andThen next = ⟨log, .error e⟩ := rfl

end Run

end ServiceContract
