import ServiceContract.Json
/-!
# Findings

A finding is something that a build leaves out, replaces or fills in without failing. Each
has a text for the operator (`message`) and a JSON form (`toJson`).
-/

namespace ServiceContract

/-- What an operation uses a schema for. -/
inductive Role where
  /-- The request body. -/
  | input
  /-- The success response. -/
  | output
deriving DecidableEq, Repr

/-- The name of a role. -/
def Role.name : Role → String
  | .input => "input"
  | .output => "output"

/-- Something left out, replaced or filled in. -/
inductive Finding where
  /-- An element without the attribute that names it is skipped. -/
  | missingAttribute (file element missing : String)
  /-- A service mentions an operation that is not known. -/
  | unknownOperation (service operation : String)
  /-- An operation mentions a schema that no schema document defines. -/
  | unknownSchema (operation schema : String) (role : Role)
  /-- An operation has no input schema, so its request body is an open object. -/
  | missingInput (operation : String)
  /-- An error target has no status code, so the default stands in. -/
  | defaultedErrorCode (operation error : String)
  /-- Two responses of an operation have one status code. -/
  | statusCodeCollision (operation code kept dropped : String)
  /-- Two services have one path; the later takes it. -/
  | duplicatePath (path replaced service : String)
deriving DecidableEq, Repr

namespace Finding

/-- The text for the operator. -/
def message : Finding → String
  | missingAttribute file element missing =>
    file ++ ": skipped <" ++ element ++ "> without a '" ++ missing ++ "' attribute"
  | unknownOperation service operation =>
    "service '" ++ service ++ "' references unknown operation '" ++ operation ++ "'; omitted"
  | unknownSchema operation schema role =>
    "operation '" ++ operation ++ "' " ++ role.name ++ " schema '" ++ schema
      ++ "' is not defined in any schema document"
  | missingInput operation =>
    "operation '" ++ operation ++ "' declares no input schema; request body uses an open object"
  | defaultedErrorCode operation error =>
    "operation '" ++ operation ++ "' error '" ++ error ++ "' has no status code; defaulted to 500"
  | statusCodeCollision operation code kept dropped =>
    "operation '" ++ operation ++ "' status " ++ code ++ ": kept '" ++ kept ++ "', dropped '"
      ++ dropped ++ "'"
  | duplicatePath path replaced service =>
    "path '" ++ path ++ "' from service '" ++ replaced ++ "' replaced by service '" ++ service
      ++ "'"

/-- The name of the kind of a finding, and its named parts. -/
def fields : Finding → String × List (String × String)
  | missingAttribute file element missing =>
    ("missingAttribute", [("file", file), ("element", element), ("attribute", missing)])
  | unknownOperation service operation =>
    ("unknownOperation", [("service", service), ("operation", operation)])
  | unknownSchema operation schema role =>
    ("unknownSchema", [("operation", operation), ("schema", schema), ("role", role.name)])
  | missingInput operation => ("missingInput", [("operation", operation)])
  | defaultedErrorCode operation error =>
    ("defaultedErrorCode", [("operation", operation), ("error", error)])
  | statusCodeCollision operation code kept dropped =>
    ("statusCodeCollision",
      [("operation", operation), ("code", code), ("kept", kept), ("dropped", dropped)])
  | duplicatePath path replaced service =>
    ("duplicatePath", [("path", path), ("replaced_service", replaced), ("service", service)])

/-- The JSON form : the kind and the parts as members. -/
def toJson (f : Finding) : Json :=
  .object (("kind", .string f.fields.1) :: f.fields.2.map fun (name, part) => (name, .string part))

end Finding

end ServiceContract
