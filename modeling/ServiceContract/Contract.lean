import ServiceContract.Json.Render
import ServiceContract.Registry
import ServiceContract.Settings
import ServiceContract.Sha256
/-!
# Contracts

The responses of an operation are a table by status code : the success response first, then one for
each error target in order. Each entry remembers what it came from. Where a code is taken, the
settings say which of the two stays, and the other is reported (`responses`). An operation of a
service becomes one path item : a request by POST with four headers, one of which carries the
routing text, a body by the input schema, and the responses (`pathItem`).

`emit` makes the contract from the registry. All operations of all services are taken in order, and
each puts its path item under its path. Where two services have one path the later item stays, in
the place of the earlier, and the findings of an operation are reported for its first item only.
-/

namespace ServiceContract.Contract

/-! ## Responses -/

/-- The status code of a success. -/
def successStatus : String := "200"

/-- What the references to schemas begin with. -/
def schemaPath : String := "#/components/schemas/"

/-- A reference to a schema. -/
def schemaReference (name : String) : Json := .object [("$ref", .string (schemaPath ++ name))]

/-- The schema of an object of which nothing is known. -/
def openObject : Json := .object [("type", .string "object")]

/-- The content of a body with a schema. -/
def content (schema : Json) : Json :=
  .object [("application/json", .object [("schema", schema)])]

/-- A response under a status code. -/
structure Response where
  /-- What it came from : a schema, an error target, or the success as such. -/
  source : String
  /-- The response itself. -/
  body : Json

/-- The success response of an operation. -/
def success (op : Operation) : Response :=
  match op.output with
  | some output =>
    ⟨output, .object [("description", .string output),
      ("content", content (schemaReference output))]⟩
  | none => ⟨"success response", .object [("content", content openObject)]⟩

/-- The response for an error under its status code. -/
def failure (code error : String) : Response :=
  ⟨error, .object [("description", .string (code ++ " response")), ("content", content openObject)]⟩

/-- Add the response for an error whose status code is known. -/
def addResponse (rule : DuplicateStatus) (operation : String) (table : Table Response)
    (code error : String) : Table Response × List Finding :=
  match table.get? code with
  | none => (table.insert code (failure code error), [])
  | some existing =>
    match rule with
    | .keepFirst => (table, [.statusCodeCollision operation code existing.source error])
    | .keepLast =>
      (table.insert code (failure code error),
        [.statusCodeCollision operation code error existing.source])

/-- Add the response for an error, whose status code may have to be filled in. -/
def addError (codes : Table String) (rule : DuplicateStatus) (operation : String)
    (state : Table Response × List Finding) (error : String) : Table Response × List Finding :=
  let filled := if codes.contains error then [] else [.defaultedErrorCode operation error]
  let (table, found) := addResponse rule operation state.1 (ErrorStatus.resolve codes error) error
  (table, state.2 ++ filled ++ found)

/-- The responses of an operation, and what was found on the way. -/
def responses (codes : Table String) (rule : DuplicateStatus) (operation : String)
    (op : Operation) : Table Response × List Finding :=
  op.errors.foldl (addError codes rule operation)
    (Table.empty.insert successStatus (success op), [])

/-- Responses by status code as JSON. -/
def responsesJson (table : Table Response) : Json :=
  .object (table.entries.map fun (code, response) => (code, response.body))

/-! ## Path items -/

/-- An operation in a service. -/
structure Placement where
  /-- The service. -/
  service : String
  /-- The name of the operation. -/
  operation : String
  /-- What the service keeps of the operation. -/
  definition : Operation
deriving DecidableEq, Repr

/-- A header parameter with a schema. -/
def header (name : String) (schema : List (String × Json)) : Json :=
  .object [("name", .string name), ("in", .string "header"), ("required", .bool false),
    ("schema", .object (("type", .string "string") :: schema))]

/-- The headers of a request, of which one carries the routing text. -/
def headers (routing : String) : Json :=
  .array
    [header "x-amz-requestsupertrace" [("pattern", .string "false")],
      header "X-Amz-Target" [("pattern", .string routing), ("example", .string routing)],
      header "X-Requested-With" [("pattern", .string "XMLHTTPRequest")],
      header "X-Amz-Date" []]

/-- The body of a request. -/
def requestBody (p : Placement) : Json :=
  let schema := match p.definition.input with
    | some input => schemaReference input
    | none => openObject
  .object [("description", .string (p.service ++ " - " ++ p.operation)),
    ("content", content schema), ("required", .bool true)]

/-- The finding that a schema is not defined, if schemas can be checked and this one is not. -/
def checkSchema (catalog : Catalog) (operation : String) (role : Role) :
    Option String → List Finding
  | some schema =>
    if catalog.isActive && !catalog.contains schema then [.unknownSchema operation schema role]
    else []
  | none => []

/-- The finding that an operation has no input schema, if it has none. -/
def checkInput (operation : String) : Option String → List Finding
  | some _ => []
  | none => [.missingInput operation]

/-- The path item of an operation in a service. -/
def pathItem (r : Registry) (rule : DuplicateStatus) (p : Placement) : Json :=
  let qualifier := Qualifier.resolve r.qualifiers p.service p.operation
  let table := (responses r.errorCodes rule p.operation p.definition).1
  .object [("post", .object
    [("operationId", .string p.operation),
      ("parameters", headers (Qualifier.routing qualifier p.service p.operation)),
      ("requestBody", requestBody p), ("responses", responsesJson table)])]

/-- What is left out, replaced or filled in by the path item of an operation. -/
def itemFindings (r : Registry) (rule : DuplicateStatus) (p : Placement) : List Finding :=
  checkSchema r.catalog p.operation .input p.definition.input
    ++ checkSchema r.catalog p.operation .output p.definition.output
    ++ checkInput p.operation p.definition.input
    ++ (responses r.errorCodes rule p.operation p.definition).2

/-! ## Emission -/

/-- A path item, with the service it belongs to. -/
structure Owned where
  /-- The service. -/
  service : String
  /-- The path item. -/
  item : Json

/-- A contract. -/
structure Emission where
  /-- The document. -/
  document : Json
  /-- The number of paths. -/
  paths : Nat
  /-- What was left out, replaced or filled in. -/
  findings : List Finding

/-- The operations of all services, in order. -/
def placements (r : Registry) : List Placement :=
  r.services.entries.flatMap fun (service, members) =>
    members.entries.map fun (operation, definition) => ⟨service, operation, definition⟩

/-- The path of an operation. -/
def path (operation : String) : String := "/" ++ operation

/-- Put the path item of an operation under its path. -/
def place (r : Registry) (rule : DuplicateStatus) (state : Table Owned × List Finding)
    (p : Placement) : Table Owned × List Finding :=
  let found := match state.1.get? (path p.operation) with
    | some before => [.duplicatePath (path p.operation) before.service p.service]
    | none => itemFindings r rule p
  (state.1.insert (path p.operation) ⟨p.service, pathItem r rule p⟩, state.2 ++ found)

/-- All path items by path, and the findings on the way. -/
def placed (r : Registry) (rule : DuplicateStatus) : Table Owned × List Finding :=
  (placements r).foldl (place r rule) (Table.empty, [])

/-- Path items by path as JSON. -/
def pathsJson (table : Table Owned) : Json :=
  .object (table.entries.map fun (path, owned) => (path, owned.item))

/-- The version of the format of whole documents. -/
def openapiVersion : String := "3.0.3"

/-- The whole document around path items. -/
def envelope (info : Info) (paths : Json) (components : Option OpenApi.Components) : Json :=
  .object ([("openapi", .string openapiVersion),
    ("info", .object [("title", .string info.title), ("version", .string info.version)]),
    ("paths", paths)]
    ++ components.toList.map fun c => ("components", c.toJson))

/-- The contract. -/
def emit (r : Registry) (style : Style) : Emission :=
  let (table, findings) := placed r style.duplicateStatus
  let paths := pathsJson table
  { document :=
      match style.layout with
      | .paths => paths
      | .openapi => envelope style.info paths r.catalog.components
    paths := table.size
    findings }

/-- The text of a contract. -/
def render (document : Json) : String := document.render

/-- The digest of the bytes of a contract. -/
def digest (bytes : ByteArray) : String := "sha256:" ++ Sha256.hex bytes

end ServiceContract.Contract
