import ServiceContract.FileTree
import ServiceContract.Settings.Read
/-!
# The command line

Arguments are read from left to right (`parse`), and the first one that is refused, or that
asks for help or the version, decides. Options that take a value take it behind an equals
sign or as the next argument, which must not look like an option. Where an option is missing,
the environment may stand in for it (`complete?`); then the file of settings is read, if one is
named, and the options are laid over it (`resolve`).
-/

namespace ServiceContract.CommandLine

/-- How log lines are written. -/
inductive LogFormat where
  /-- As text. -/
  | text
  /-- As JSON objects. -/
  | json
deriving DecidableEq, Repr

/-- The word for a format. -/
def LogFormat.name : LogFormat → String
  | .text => "text"
  | .json => "json"

/-- The format that a word stands for. -/
def LogFormat.ofName? (s : String) : Option LogFormat := [text, json].find? (·.name = s)

/-- The arguments of a run. -/
structure Arguments where
  /-- The file of settings. -/
  config : Option String
  /-- Error descriptors. -/
  errors : List String
  /-- Operation descriptors. -/
  operations : List String
  /-- Service descriptors. -/
  services : List String
  /-- Schema documents. -/
  schemas : List String
  /-- Where the contract is written. -/
  output : Option String
  /-- What becomes of findings. -/
  warnings : Option WarningPolicy
  /-- Whether findings end the build, whatever else is said about them. -/
  denyWarnings : Bool
  /-- Which of two responses with one status code is kept. -/
  duplicateStatus : Option DuplicateStatus
  /-- The shape of the contract. -/
  layout : Option Layout
  /-- The title in the contract. -/
  title : Option String
  /-- The version in the contract. -/
  apiVersion : Option String
  /-- Which events are logged. -/
  logLevel : Option String
  /-- How log lines are written. -/
  logFormat : Option LogFormat
deriving DecidableEq, Repr

/-- No arguments. -/
def Arguments.none : Arguments :=
  ⟨.none, [], [], [], [], .none, .none, false, .none, .none, .none, .none, .none, .none⟩

/-! ## Options -/

/-- The options that take a value. -/
inductive Flag where
  /-- The file of settings. -/
  | config
  /-- An error descriptor. -/
  | errors
  /-- An operation descriptor. -/
  | operations
  /-- A service descriptor. -/
  | services
  /-- A schema document. -/
  | schemas
  /-- Where the contract is written. -/
  | output
  /-- What becomes of findings. -/
  | warnings
  /-- Which of two responses with one status code is kept. -/
  | duplicateStatus
  /-- The shape of the contract. -/
  | layout
  /-- The title in the contract. -/
  | title
  /-- The version in the contract. -/
  | apiVersion
  /-- Which events are logged. -/
  | logLevel
  /-- How log lines are written. -/
  | logFormat
deriving DecidableEq, Repr

/-- The options with their names. -/
def flags : List (String × Flag) :=
  [("config", .config), ("errors", .errors), ("operations", .operations),
    ("services", .services), ("schemas", .schemas), ("output", .output), ("warnings", .warnings),
    ("duplicate-status", .duplicateStatus), ("layout", .layout), ("title", .title),
    ("api-version", .apiVersion), ("log-level", .logLevel), ("log-format", .logFormat)]

/-- A value for something that has none yet. -/
def once? {α : Type} (before : Option α) (read : String → Option α) (value : String) :
    Option (Option α) :=
  match before with
  | some _ => none
  | none => (read value).map some

/-- A path, which is not empty. -/
def path? (value : String) : Option String := if value = "" then none else some value

/-- Give an option its value. Paths are not empty, words are known, and only the options
that list inputs may be given more than once. -/
def Arguments.give? (a : Arguments) : Flag → String → Option Arguments
  | .config, v => (once? a.config path? v).map fun x => { a with config := x }
  | .errors, v => (path? v).map fun x => { a with errors := a.errors ++ [x] }
  | .operations, v => (path? v).map fun x => { a with operations := a.operations ++ [x] }
  | .services, v => (path? v).map fun x => { a with services := a.services ++ [x] }
  | .schemas, v => (path? v).map fun x => { a with schemas := a.schemas ++ [x] }
  | .output, v => (once? a.output path? v).map fun x => { a with output := x }
  | .warnings, v => (once? a.warnings WarningPolicy.ofName? v).map fun x => { a with warnings := x }
  | .duplicateStatus, v =>
    (once? a.duplicateStatus DuplicateStatus.ofName? v).map fun x => { a with duplicateStatus := x }
  | .layout, v => (once? a.layout Layout.ofName? v).map fun x => { a with layout := x }
  | .title, v => (once? a.title some v).map fun x => { a with title := x }
  | .apiVersion, v => (once? a.apiVersion some v).map fun x => { a with apiVersion := x }
  | .logLevel, v => (once? a.logLevel some v).map fun x => { a with logLevel := x }
  | .logFormat, v => (once? a.logFormat LogFormat.ofName? v).map fun x => { a with logFormat := x }

/-! ## Arguments -/

/-- What one argument is. -/
inductive Word where
  /-- An option, with its value if it stands in the same argument. -/
  | flag (f : Flag) (value : Option String)
  /-- That findings end the build. -/
  | denyWarnings
  /-- A request for help. -/
  | help
  /-- A request for the version. -/
  | version
  /-- The mark that ends the options. -/
  | stop
  /-- Anything else. -/
  | unknown
deriving DecidableEq

/-- What a long option is, without its dashes. -/
def longWord (cs : List Char) : Word :=
  let name := String.ofList (cs.takeWhile (· ≠ '='))
  let value := match cs.dropWhile (· ≠ '=') with
    | [] => none
    | _ :: value => some (String.ofList value)
  match flags.lookup name with
  | some f => .flag f value
  | none =>
    if value.isSome then .unknown
    else if name = "deny-warnings" then .denyWarnings
    else if name = "help" then .help
    else if name = "version" then .version
    else .unknown

/-- What an argument is. -/
def word (arg : String) : Word :=
  match arg.toList with
  | ['-', '-'] => .stop
  | '-' :: '-' :: cs => longWord cs
  | ['-', 'o'] => .flag .output none
  | '-' :: 'o' :: '=' :: value => .flag .output (some (String.ofList value))
  | '-' :: 'o' :: value => .flag .output (some (String.ofList value))
  | '-' :: 'h' :: _ => .help
  | '-' :: 'V' :: _ => .version
  | _ => .unknown

/-- Whether an argument may be the value of the option before it. -/
def isValue (arg : String) : Bool := arg.toList.head? ≠ some '-' || arg = "-"

/-- What arguments come to. -/
inductive Parsed where
  /-- They are accepted. -/
  | accepted (a : Arguments)
  /-- They are refused. -/
  | refused
  /-- They ask for help. -/
  | help
  /-- They ask for the version. -/
  | version
deriving DecidableEq

/-- Read arguments, after some that have been accepted. -/
def parseAfter (a : Arguments) : List String → Parsed
  | [] => .accepted a
  | arg :: rest =>
    match word arg with
    | .flag f (some v) =>
      match a.give? f v with
      | some a => parseAfter a rest
      | none => .refused
    | .flag f none =>
      match rest with
      | [] => .refused
      | v :: rest =>
        match if isValue v then a.give? f v else none with
        | some a => parseAfter a rest
        | none => .refused
    | .denyWarnings =>
      if a.denyWarnings then .refused else parseAfter { a with denyWarnings := true } rest
    | .help => .help
    | .version => .version
    | .stop => if rest = [] then .accepted a else .refused
    | .unknown => .refused

/-- Read arguments. -/
def parse (args : List String) : Parsed := parseAfter Arguments.none args

/-- What the program is called with. -/
def usage : String :=
  let options := flags.map fun (name, _) => "[--" ++ name ++ " VALUE]"
  "[-o PATH] [--deny-warnings] " ++ " ".intercalate options

/-! ## The environment -/

/-- What the environment says. -/
structure Environment where
  /-- The file of settings. -/
  config : Option String
  /-- Where the contract is written. -/
  output : Option String
  /-- Which events are logged. -/
  logLevel : Option String
  /-- Which events are logged, whatever the arguments say. -/
  logFilter : Option String
deriving DecidableEq, Repr

/-- The variables that are looked at. -/
def Environment.names : List String :=
  ["CONTRACT_COMPILER_CONFIG", "CONTRACT_COMPILER_OUTPUT", "CONTRACT_COMPILER_LOG_LEVEL",
    "RUST_LOG"]

/-- The environment with the given variables. -/
def Environment.ofLookup (get? : String → Option String) : Environment :=
  ⟨get? "CONTRACT_COMPILER_CONFIG", get? "CONTRACT_COMPILER_OUTPUT",
    get? "CONTRACT_COMPILER_LOG_LEVEL", get? "RUST_LOG"⟩

/-- A path that an option gives, or else the environment. -/
def pathOr? (given fallback : Option String) : Option (Option String) :=
  match given, fallback with
  | none, some v => (path? v).map some
  | given, _ => some given

/-- Arguments with what the environment adds. -/
def complete? (a : Arguments) (env : Environment) : Option Arguments := do
  let config ← pathOr? a.config env.config
  let output ← pathOr? a.output env.output
  pure { a with config, output, logLevel := a.logLevel.or env.logLevel }

/-! ## Settings -/

/-- Why the file of settings cannot be used. -/
inductive ConfigFailure where
  /-- It cannot be read. -/
  | unreadable (path : String) (cause : FileError)
  /-- It does not hold settings. -/
  | malformed (path : String)
deriving DecidableEq, Repr

/-- The text of a failure. -/
def ConfigFailure.message : ConfigFailure → String
  | .unreadable path _ => "read config " ++ path
  | .malformed path => "parse " ++ path

/-- The text of a failure followed by that of its reason in the file system. -/
def ConfigFailure.chain : ConfigFailure → String
  | .unreadable path cause => "read config " ++ path ++ ": " ++ cause.message
  | .malformed path => "parse " ++ path

/-- The extension of the file that a path names : what stands behind the last point of its
name, if something stands before it. -/
def extension? (path : String) : Option String := do
  let name ← (Route.ofPath path).significant.getLast?
  let reversed := name.toList.reverse
  let before := (reversed.dropWhile (· ≠ '.')).tail
  if name = "." || name = ".." || before = [] then none
  else pure (String.ofList (reversed.takeWhile (· ≠ '.')).reverse)

/-- Whether a file of settings is JSON, by its name. -/
def isJson (path : String) : Bool := (extension? path).any fun e => e.toLower = "json"

/-- The settings in a file. -/
def load (t : FileTree) (path : String) : Except ConfigFailure Settings :=
  match t.read path with
  | .error cause => .error (.unreadable path cause)
  | .ok content =>
    match Settings.ofContent? (isJson path) content with
    | some s => .ok s
    | none => .error (.malformed path)

/-- Lay arguments over settings : inputs are added behind those of the settings, and all else
takes the place of what the settings say. -/
def override (s : Settings) (a : Arguments) : Settings :=
  { errors := s.errors ++ a.errors
    operations := s.operations ++ a.operations
    services := s.services ++ a.services
    schemas := s.schemas ++ a.schemas
    output := a.output.getD s.output
    warnings := if a.denyWarnings then .fail else a.warnings.getD s.warnings
    style :=
      { duplicateStatus := a.duplicateStatus.getD s.style.duplicateStatus
        layout := a.layout.getD s.style.layout
        info :=
          { title := a.title.getD s.style.info.title
            version := a.apiVersion.getD s.style.info.version } } }

/-- The settings that arguments come to. -/
def resolve (t : FileTree) (a : Arguments) : Except ConfigFailure Settings := do
  let s ← match a.config with
    | some path => load t path
    | none => .ok Settings.default
  pure (override s a)

/-- Which events are logged, if nothing is said. -/
def defaultLogLevel : String := "info"

/-- Which events the arguments ask to be logged. -/
def Arguments.level (a : Arguments) : String := a.logLevel.getD defaultLogLevel

/-- How the arguments ask log lines to be written. -/
def Arguments.format (a : Arguments) : LogFormat := a.logFormat.getD .text

end ServiceContract.CommandLine
