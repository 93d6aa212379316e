import ServiceContract.Finding
import ServiceContract.Table
import ServiceContract.Xml.Node
/-!
# Descriptors

A source is the text of one descriptor with the kind that the caller gives it; the kind never
depends on the name or the content of a file. The three kinds have one shape : the root holds
entries with a given local name, and each entry defines a value under the name that one of its
attributes gives. An `Entry` is what one such element comes to : a definition, unless the name is
missing, and the findings made while reading it. Definitions go into a table in order, so the last
one of a name counts (`Table.insertAll`), and `redefinitions` are those whose name was taken.

The kinds differ in what is read from an entry. An error target has the status code of the response
that reports it. An operation has a request schema, a response schema and a list of error targets,
all by name. A service is a table of operations : it mentions them by name, each is looked up in the
operations known at that moment, and the service keeps what it finds, whatever becomes of the
operation later.

A qualifier is the label that a descriptor puts on everything it defines. Operations and services
share one table of labels. The routing text of an operation in a service begins with the label of
the service, else that of the operation, else the default one.
-/

namespace ServiceContract

/-! ## Sources -/

/-- What a descriptor describes. -/
inductive Kind where
  /-- Error targets and their status codes. -/
  | errors
  /-- Operations with their schemas and errors. -/
  | operations
  /-- Services with their operations. -/
  | services
deriving DecidableEq, Repr

namespace Kind

/-- The name of a kind in messages. -/
def name : Kind → String
  | errors => "error"
  | operations => "operation"
  | services => "service"

/-- The local name of the entries of a descriptor. -/
def tag : Kind → String
  | errors => "httperror"
  | operations => "operation"
  | services => "service"

/-- The attribute that names an entry. -/
def naming : Kind → String
  | errors => "target"
  | operations | services => "name"

end Kind

/-- The text of one descriptor. -/
structure Source where
  /-- What it describes. -/
  kind : Kind
  /-- The path that messages name it by. -/
  origin : String
  /-- The text. -/
  text : String
deriving DecidableEq, Repr

/-! ## Entries -/

/-- What one element of a descriptor comes to. -/
structure Entry (α : Type) where
  /-- The name and the value it defines. -/
  definition : Option (String × α)
  /-- The findings made while reading it. -/
  findings : List Finding

/-- A definition of a name that was defined before. -/
structure Redefinition (α : Type) where
  /-- The name. -/
  name : String
  /-- The value so far. -/
  before : α
  /-- The value from now on. -/
  after : α

namespace Entry

variable {α : Type}

/-- The entry of an element : `read` gives its value with the findings made inside it. Without a
name nothing inside the element counts. -/
def ofElement (kind : Kind) (file : String) (read : String → Xml.Node → α × List Finding)
    (element : Xml.Node) : Entry α :=
  match element.label? kind.naming with
  | some name =>
    let (value, findings) := read name element
    ⟨some (name, value), findings⟩
  | none => ⟨none, [.missingAttribute file kind.tag kind.naming]⟩

/-- The entries of a descriptor by its root. -/
def ofRoot (kind : Kind) (file : String) (read : String → Xml.Node → α × List Finding)
    (root : Xml.Node) : List (Entry α) :=
  (root.childrenNamed kind.tag).map (ofElement kind file read)

/-- The definitions among entries, in order. -/
def definitions (entries : List (Entry α)) : List (String × α) := entries.filterMap (·.definition)

/-- The findings of all entries, in order. -/
def allFindings (entries : List (Entry α)) : List Finding := entries.flatMap (·.findings)

/-- The redefinitions that adding definitions to a table makes, in order. -/
def redefinitions (t : Table α) : List (String × α) → List (Redefinition α)
  | [] => []
  | (name, value) :: rest =>
    let others := redefinitions (t.insert name value) rest
    match t.get? name with
    | some before => ⟨name, before, value⟩ :: others
    | none => others

end Entry

/-! ## Status codes of error targets -/

namespace ErrorStatus

/-- The status code of a target whose entry has none, and of a target without an entry. -/
def default : String := "500"

/-- The status code of one entry : the value of its last response code. -/
def ofElement (element : Xml.Node) : String :=
  (((element.childrenNamed "httpresponsecode").getLast?).bind (·.label? "value")).getD default

/-- The entries of an error descriptor. -/
def entries (file : String) (root : Xml.Node) : List (Entry String) :=
  Entry.ofRoot .errors file (fun _ element => (ofElement element, [])) root

/-- The status code of a target by a table. -/
def resolve (codes : Table String) (target : String) : String := (codes.get? target).getD default

end ErrorStatus

/-! ## Operations -/

/-- What an operation takes, gives and fails with. -/
structure Operation where
  /-- The schema of the request body. -/
  input : Option String
  /-- The schema of the success response. -/
  output : Option String
  /-- The error targets. -/
  errors : List String
deriving DecidableEq, Repr, Inhabited

namespace Operation

/-- The operation of which nothing is known. -/
def blank : Operation := ⟨none, none, []⟩

/-- Whether the children of an operation with a local name are looked at. -/
def isPart (tag : String) : Bool := tag = "input" || tag = "output" || tag = "error"

/-- Take up one child of the element of an operation. Of several input or output schemas the last
one counts, and all errors are kept in order. Children with other names than these three say
nothing. -/
def addChild (file : String) (op : Operation × List Finding) (child : String × Xml.Node) :
    Operation × List Finding :=
  let (tag, element) := child
  if isPart tag then
    match element.label? "target" with
    | none => (op.1, op.2 ++ [.missingAttribute file tag "target"])
    | some target =>
      if tag = "input" then ({ op.1 with input := some target }, op.2)
      else if tag = "output" then ({ op.1 with output := some target }, op.2)
      else ({ op.1 with errors := op.1.errors ++ [target] }, op.2)
  else op

/-- The operation that an element describes. -/
def ofElement (file : String) (element : Xml.Node) : Operation × List Finding :=
  element.elements.foldl (addChild file) (blank, [])

/-- The entries of an operation descriptor. -/
def entries (file : String) (root : Xml.Node) : List (Entry Operation) :=
  Entry.ofRoot .operations file (fun _ element => ofElement file element) root

end Operation

/-! ## Services -/

namespace Service

/-- Take up one child of the element of a service, whatever its local name. A name that is not known
is left out and reported. -/
def addChild (file : String) (known : Table Operation) (service : String)
    (state : Table Operation × List Finding) (child : String × Xml.Node) :
    Table Operation × List Finding :=
  let (members, findings) := state
  match child.2.label? "target" with
  | none => (members, findings ++ [.missingAttribute file child.1 "target"])
  | some target =>
    match known.get? target with
    | some operation => (members.insert target operation, findings)
    | none => (members, findings ++ [.unknownOperation service target])

/-- The operations of the service that an element describes. -/
def ofElement (file : String) (known : Table Operation) (service : String) (element : Xml.Node) :
    Table Operation × List Finding :=
  element.elements.foldl (addChild file known service) (Table.empty, [])

/-- The entries of a service descriptor. -/
def entries (file : String) (known : Table Operation) (root : Xml.Node) :
    List (Entry (Table Operation)) :=
  Entry.ofRoot .services file (ofElement file known) root

end Service

/-! ## Labels -/

namespace Qualifier

/-- The qualifier where no label is given. -/
def default : String := "default"

/-- Put a label, if there is one, on all given names. -/
def label (labels : Table String) (label? : Option String) (names : List String) : Table String :=
  match label? with
  | some label => labels.insertAll (names.map fun name => (name, label))
  | none => labels

/-- The qualifier of an operation in a service. -/
def resolve (labels : Table String) (service operation : String) : String :=
  ((labels.get? service).or (labels.get? operation)).getD default

/-- The routing text of an operation in a service. -/
def routing (qualifier service operation : String) : String :=
  qualifier ++ "." ++ service ++ "." ++ operation

end Qualifier

end ServiceContract
