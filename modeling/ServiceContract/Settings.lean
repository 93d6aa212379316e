import ServiceContract.Json
/-!
# Settings of a build

Which files are read, where the contract goes, and what it looks like. The settings are
written as a JSON object (`toJson`), and `ofMembers?` reads the members of such an object back,
whatever notation they come in : a `Format` knows how texts, lists of texts,
choices and inner objects are written. Members that are missing have their default, and
members with other names are passed over.
-/

namespace ServiceContract

/-- What becomes of findings. -/
inductive WarningPolicy where
  /-- They are logged. -/
  | warn
  /-- They end the build before anything is written. -/
  | fail
  /-- They are reported at the end only. -/
  | ignore
deriving DecidableEq, Repr

/-- Which of two responses with one status code an operation keeps. -/
inductive DuplicateStatus where
  /-- The first. -/
  | keepFirst
  /-- The last. -/
  | keepLast
deriving DecidableEq, Repr

/-- The shape of a contract. -/
inductive Layout where
  /-- Path items by path, and nothing else. -/
  | paths
  /-- A whole OpenAPI document. -/
  | openapi
deriving DecidableEq, Repr

/-- What an OpenAPI document says about itself. -/
structure Info where
  /-- The title. -/
  title : String
  /-- The version. -/
  version : String
deriving DecidableEq, Repr

/-- How a contract is made from what is known. -/
structure Style where
  /-- Which of two responses with one status code is kept. -/
  duplicateStatus : DuplicateStatus
  /-- The shape of the contract. -/
  layout : Layout
  /-- What it says about itself. -/
  info : Info
deriving DecidableEq, Repr

/-- The settings of a build. -/
structure Settings where
  /-- The error descriptors. -/
  errors : List String
  /-- The operation descriptors. -/
  operations : List String
  /-- The service descriptors. -/
  services : List String
  /-- The schema documents. -/
  schemas : List String
  /-- Where the contract is written. -/
  output : String
  /-- What becomes of findings. -/
  warnings : WarningPolicy
  /-- How the contract is made. -/
  style : Style
deriving DecidableEq, Repr

/-! ## Words -/

namespace WarningPolicy

/-- The word for a policy. -/
def name : WarningPolicy → String
  | warn => "warn"
  | fail => "fail"
  | ignore => "ignore"

/-- The policy that a word stands for. -/
def ofName? (s : String) : Option WarningPolicy := [warn, fail, ignore].find? (·.name = s)

end WarningPolicy

namespace DuplicateStatus

/-- The word for a rule. -/
def name : DuplicateStatus → String
  | keepFirst => "keep-first"
  | keepLast => "keep-last"

/-- The rule that a word stands for. -/
def ofName? (s : String) : Option DuplicateStatus := [keepFirst, keepLast].find? (·.name = s)

end DuplicateStatus

namespace Layout

/-- The word for a shape. -/
def name : Layout → String
  | paths => "paths"
  | openapi => "openapi"

/-- The shape that a word stands for. -/
def ofName? (s : String) : Option Layout := [paths, openapi].find? (·.name = s)

end Layout

/-! ## Defaults -/

/-- What a contract says about itself by default. -/
def Info.default : Info := ⟨"Service contract", "1.0.0"⟩

/-- How a contract is made by default. -/
def Style.default : Style := ⟨.keepFirst, .paths, Info.default⟩

namespace Settings

/-- The settings by default, which name no input. -/
def default : Settings := ⟨[], [], [], [], "coral-operations.json", .warn, Style.default⟩

/-! ## Writing -/

/-- Texts as JSON. -/
def textsJson (texts : List String) : Json := .array (texts.map .string)

/-- Settings as JSON. -/
def toJson (s : Settings) : Json :=
  .object [("errors", textsJson s.errors), ("operations", textsJson s.operations),
    ("services", textsJson s.services), ("schemas", textsJson s.schemas),
    ("output", .string s.output), ("warnings", .string s.warnings.name),
    ("duplicateStatus", .string s.style.duplicateStatus.name),
    ("layout", .string s.style.layout.name),
    ("info", .object [("title", .string s.style.info.title),
      ("version", .string s.style.info.version)])]

/-! ## Reading -/

/-- How the parts of settings are written in some notation. -/
structure Format (α : Type) where
  /-- A text. -/
  text? : α → Option String
  /-- A list of texts. -/
  texts? : α → Option (List String)
  /-- One of several words. -/
  word? : α → Option String
  /-- The members of an object whose members have the given names, in this order. -/
  members? : List String → α → Option (List (String × α))

/-- The names of the members of settings, in order. -/
def names : List String :=
  ["errors", "operations", "services", "schemas", "output", "warnings", "duplicateStatus",
    "layout", "info"]

/-- The names of the members of the inner object, in order. -/
def infoNames : List String := ["title", "version"]

/-- The value of a member that is given at most once, or a default if it is missing. -/
def member? {α β : Type} (name : String) (read : α → Option β) (default : β)
    (members : List (String × α)) : Option β :=
  match members.filter (·.1 = name) with
  | [] => some default
  | [(_, v)] => read v
  | _ => none

/-- What the members of the inner object say. -/
def infoOfMembers? {α : Type} (n : Format α) (members : List (String × α)) : Option Info := do
  let title ← member? "title" n.text? Info.default.title members
  let version ← member? "version" n.text? Info.default.version members
  pure ⟨title, version⟩

/-- What the members of settings say. -/
def ofMembers? {α : Type} (n : Format α) (members : List (String × α)) : Option Settings := do
  let errors ← member? "errors" n.texts? [] members
  let operations ← member? "operations" n.texts? [] members
  let services ← member? "services" n.texts? [] members
  let schemas ← member? "schemas" n.texts? [] members
  let output ← member? "output" n.text? default.output members
  let warnings ← member? "warnings" (fun v => n.word? v >>= WarningPolicy.ofName?)
    default.warnings members
  let duplicateStatus ← member? "duplicateStatus" (fun v => n.word? v >>= DuplicateStatus.ofName?)
    default.style.duplicateStatus members
  let layout ← member? "layout" (fun v => n.word? v >>= Layout.ofName?)
    default.style.layout members
  let info ← member? "info" (fun v => n.members? infoNames v >>= infoOfMembers? n)
    default.style.info members
  pure ⟨errors, operations, services, schemas, output, warnings, ⟨duplicateStatus, layout, info⟩⟩

/-- What settings in some notation say. -/
def read? {α : Type} (n : Format α) (v : α) : Option Settings :=
  n.members? names v >>= ofMembers? n

/-- Items as members with the names of their places; the last names may have none. -/
def zipNames? {α : Type} (names : List String) (items : List α) : Option (List (String × α)) :=
  if items.length ≤ names.length then some (names.zip items) else none

end Settings

end ServiceContract
