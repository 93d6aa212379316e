import ServiceContract.Json
/-!
# The forms of OpenAPI objects

What an OpenAPI document may hold is data : for each kind of object the list of its parts, in
the order in which they are written (`Kind.parts`), and for each part the form of its value.
The reader in `ServiceContract.OpenApi.Read` goes by these tables and knows no object by name
but schemas, whose fields depend on each other.
-/

namespace ServiceContract.OpenApi

/-- The kinds of objects with fixed fields. -/
inductive Kind where
  /-- A whole document. -/
  | document
  /-- What a document says about itself. -/
  | info
  /-- Whom to ask. -/
  | contact
  /-- On which terms. -/
  | license
  /-- Where the service runs. -/
  | server
  /-- A part of the address of a server. -/
  | serverVariable
  /-- A group of operations. -/
  | tag
  /-- A link to documentation. -/
  | externalDocs
  /-- The definitions that the document can refer to. -/
  | components
  /-- The operations of one path. -/
  | pathItem
  /-- One operation. -/
  | operation
  /-- A response. -/
  | response
  /-- A body in one media type; the value of a parameter or header is described like one. -/
  | mediaType (ofParameter : Bool)
  /-- How a property of a body, or of such a value, is written. -/
  | encoding (ofParameter : Bool)
  /-- An example. -/
  | sample
  /-- A request body. -/
  | requestBody
  /-- A header of a response. -/
  | header
  /-- A parameter in the query. -/
  | queryParameter
  /-- A parameter in a header. -/
  | headerParameter
  /-- A parameter in the path. -/
  | pathParameter
  /-- A parameter in a cookie. -/
  | cookieParameter
  /-- A step from a response to another operation. -/
  | link
  /-- How schemas of one place are told apart. -/
  | discriminator
  /-- A key that is sent along. -/
  | apiKey
  /-- An authentication scheme of the protocol. -/
  | http
  /-- An authorization server. -/
  | oauth2
  /-- The ways to get a token. -/
  | flows
  /-- A way through a page. -/
  | implicitFlow
  /-- A way with a password. -/
  | passwordFlow
  /-- A way with the credentials of the client. -/
  | clientFlow
  /-- A way with a code. -/
  | codeFlow
  /-- An identity provider. -/
  | openIdConnect
deriving DecidableEq, Repr

/-- Kinds that one field of an object decides between. -/
inductive Choice where
  /-- Parameters, by their place. -/
  | parameter
  /-- Security schemes, by their type. -/
  | securityScheme
deriving DecidableEq, Repr

/-- The form of a value. -/
inductive Form where
  /-- A text. -/
  | text
  /-- A truth value. -/
  | bool
  /-- A number that counts something. -/
  | count
  /-- A number. -/
  | number
  /-- Any value at all. -/
  | any
  /-- One of several words. A word may also be the only key of a mapping whose value is null,
  or, where that is allowed, an empty mapping. -/
  | words (allowed : List String) (mayBeEmpty : Bool)
  /-- Values of one form. -/
  | list (item : Form)
  /-- Named values of one form. -/
  | map (value : Form)
  /-- An object of a kind. -/
  | object (kind : Kind)
  /-- An object of a kind that one of its fields decides. -/
  | oneOf (choice : Choice)
  /-- A value, or an object that refers to one. -/
  | reference (target : Form)
  /-- A truth value, or a value of another form. -/
  | boolOr (other : Form)
  /-- A schema. -/
  | schema
  /-- Responses by status code. -/
  | responses
  /-- Path items by path. -/
  | paths
deriving DecidableEq, Repr

/-- What it means that a field is absent. -/
inductive Absence where
  /-- The object is not valid. -/
  | refused
  /-- Nothing; it may also be null. -/
  | allowed
  /-- The same as null, which is written. -/
  | null
  /-- The same as a given value, which is written or left out. -/
  | default (value : Json) (written : Bool)

/-- A field of an object. -/
structure Field where
  /-- Its name. -/
  name : String
  /-- The form of its value. -/
  form : Form
  /-- What it means that it is absent. -/
  absence : Absence

/-- A part of an object, as it is written. -/
inductive Part where
  /-- A field. -/
  | field (f : Field)
  /-- The first that is given of several fields; one must be. -/
  | firstOf (fields : List Field)
  /-- The fields whose names begin as those of extensions do. -/
  | extensions

namespace Part

/-- A field that must be given. -/
def required (name : String) (form : Form) : Part := .field ⟨name, form, .refused⟩

/-- A field that may be absent or null. -/
def optional (name : String) (form : Form) : Part := .field ⟨name, form, .allowed⟩

/-- A field that may be absent or null, which is then written. -/
def nullable (name : String) (form : Form) : Part := .field ⟨name, form, .null⟩

/-- A truth value that is written only if it holds. -/
def flag (name : String) : Part := .field ⟨name, .bool, .default (.bool false) false⟩

/-- A list that is written only if it has items. -/
def items (name : String) (form : Form) : Part :=
  .field ⟨name, .list form, .default (.array []) false⟩

/-- Named values that are written only if there are any. -/
def named (name : String) (form : Form) : Part :=
  .field ⟨name, .map form, .default (.object []) false⟩

/-- The style of a parameter, which is always written. -/
def style (allowed : List String) (mayBeEmpty : Bool) (default : String) : Part :=
  .field ⟨"style", .words allowed mayBeEmpty, .default (.string default) true⟩

/-- The two ways to describe the value of a parameter. -/
def schemaOrContent : Part :=
  .firstOf [⟨"schema", .reference .schema, .refused⟩,
    ⟨"content", .map (.object (.mediaType true)), .refused⟩]

/-- The parts that all parameters begin with. -/
def parameter : List Part :=
  [required "name" .text, optional "description" .text, flag "required",
    optional "deprecated" .bool, schemaOrContent, optional "example" .any,
    named "examples" (.reference (.object .sample)), optional "explode" .bool, extensions]

end Part

/-- The styles of query parameters. -/
def queryStyles : List String := ["form", "spaceDelimited", "pipeDelimited", "deepObject"]

/-- The parts that all flows of an authorization server end with. -/
def scopes : List Part := [.required "scopes" (.map .text), .extensions]

/-- The sections of the components of a document. -/
inductive Section where
  /-- Schemas. -/
  | schemas
  /-- Responses. -/
  | responses
  /-- Parameters. -/
  | parameters
  /-- Examples. -/
  | examples
  /-- Request bodies. -/
  | requestBodies
  /-- Headers. -/
  | headers
  /-- Security schemes. -/
  | securitySchemes
  /-- Links. -/
  | links
  /-- Callbacks. -/
  | callbacks
deriving DecidableEq, Repr

namespace Section

/-- All sections in the order in which they are written. -/
def all : List Section :=
  [schemas, responses, parameters, examples, requestBodies, headers, securitySchemes, links,
    callbacks]

/-- The name of a section in a document. -/
def name : Section → String
  | schemas => "schemas"
  | responses => "responses"
  | parameters => "parameters"
  | examples => "examples"
  | requestBodies => "requestBodies"
  | headers => "headers"
  | securitySchemes => "securitySchemes"
  | links => "links"
  | callbacks => "callbacks"

/-- The form of the definitions in a section. -/
def form : Section → Form
  | schemas => .schema
  | responses => .object .response
  | parameters => .oneOf .parameter
  | examples => .object .sample
  | requestBodies => .object .requestBody
  | headers => .object .header
  | securitySchemes => .oneOf .securityScheme
  | links => .object .link
  | callbacks => .map (.object .pathItem)

end Section

open ServiceContract.OpenApi.Part in
/-- The parts of an object, in the order in which they are written. -/
def Kind.parts : Kind → List Part
  | document =>
    [required "openapi" .text, required "info" (.object .info), items "servers" (.object .server),
      required "paths" .paths, optional "components" (.object .components),
      optional "security" (.list (.map (.list .text))), items "tags" (.object .tag),
      optional "externalDocs" (.object .externalDocs), extensions]
  | info =>
    [required "title" .text, optional "description" .text, optional "termsOfService" .text,
      optional "contact" (.object .contact), optional "license" (.object .license),
      required "version" .text, extensions]
  | contact => [optional "name" .text, optional "url" .text, optional "email" .text, extensions]
  | license => [required "name" .text, optional "url" .text, extensions]
  | server =>
    [required "url" .text, optional "description" .text,
      optional "variables" (.map (.object .serverVariable)), extensions]
  | serverVariable =>
    [items "enum" .text, required "default" .text, nullable "description" .text, extensions]
  | tag =>
    [required "name" .text, optional "description" .text,
      optional "externalDocs" (.object .externalDocs), extensions]
  | externalDocs => [optional "description" .text, required "url" .text, extensions]
  | components => (Section.all.map fun s => named s.name (.reference s.form)) ++ [extensions]
  | pathItem =>
    [optional "summary" .text, optional "description" .text]
      ++ (["get", "put", "post", "delete", "options", "head", "patch", "trace"].map fun name =>
        optional name (.object .operation))
      ++ [items "servers" (.object .server), items "parameters" (.reference (.oneOf .parameter)),
        extensions]
  | operation =>
    [items "tags" .text, optional "summary" .text, optional "description" .text,
      optional "externalDocs" (.object .externalDocs), optional "operationId" .text,
      items "parameters" (.reference (.oneOf .parameter)),
      optional "requestBody" (.reference (.object .requestBody)), required "responses" .responses,
      named "callbacks" (.map (.object .pathItem)), flag "deprecated",
      optional "security" (.list (.map (.list .text))), items "servers" (.object .server),
      extensions]
  | response =>
    [required "description" .text, named "headers" (.reference (.object .header)),
      named "content" (.object (.mediaType false)), named "links" (.reference (.object .link)),
      extensions]
  | mediaType ofParameter =>
    [optional "schema" (.reference .schema), optional "example" .any,
      named "examples" (.reference (.object .sample)),
      named "encoding" (.object (.encoding ofParameter)), extensions]
  | encoding ofParameter =>
    [nullable "contentType" .text, named "headers" (.reference (.object .header)),
      optional "style" (.words queryStyles ofParameter), flag "explode", flag "allowReserved",
      extensions]
  | sample =>
    [optional "summary" .text, optional "description" .text, optional "value" .any,
      optional "externalValue" .text, extensions]
  | requestBody =>
    [optional "description" .text, named "content" (.object (.mediaType false)), flag "required",
      extensions]
  | header =>
    [optional "description" .text, style ["simple"] false "simple", flag "required",
      optional "deprecated" .bool, schemaOrContent, optional "example" .any,
      named "examples" (.reference (.object .sample)), extensions]
  | queryParameter =>
    parameter
      ++ [flag "allowReserved", style queryStyles true "form", optional "allowEmptyValue" .bool]
  | headerParameter => parameter ++ [style ["simple"] true "simple"]
  | pathParameter => parameter ++ [style ["matrix", "label", "simple"] true "simple"]
  | cookieParameter => parameter ++ [style ["form"] true "form"]
  | link =>
    [optional "description" .text,
      firstOf [⟨"operationRef", .text, .refused⟩, ⟨"operationId", .text, .refused⟩],
      optional "requestBody" .any, named "parameters" .any, optional "server" (.object .server),
      extensions]
  | discriminator => [required "propertyName" .text, named "mapping" .text, extensions]
  | apiKey =>
    [required "in" (.words ["query", "header", "cookie"] true), required "name" .text,
      optional "description" .text, extensions]
  | http =>
    [required "scheme" .text, optional "bearerFormat" .text, optional "description" .text,
      extensions]
  | oauth2 => [required "flows" (.object .flows), optional "description" .text, extensions]
  | flows =>
    [optional "implicit" (.object .implicitFlow), optional "password" (.object .passwordFlow),
      optional "clientCredentials" (.object .clientFlow),
      optional "authorizationCode" (.object .codeFlow), extensions]
  | implicitFlow => [required "authorizationUrl" .text, optional "refreshUrl" .text] ++ scopes
  | passwordFlow | clientFlow =>
    [optional "refreshUrl" .text, required "tokenUrl" .text] ++ scopes
  | codeFlow =>
    [required "authorizationUrl" .text, required "tokenUrl" .text, optional "refreshUrl" .text]
      ++ scopes
  | openIdConnect =>
    [required "openIdConnectUrl" .text, optional "description" .text, extensions]

/-- The field that decides a choice, and the kinds by its value. -/
def Choice.kinds : Choice → String × List (String × Kind)
  | parameter =>
    ("in", [("query", .queryParameter), ("header", .headerParameter), ("path", .pathParameter),
      ("cookie", .cookieParameter)])
  | securityScheme =>
    ("type", [("apiKey", .apiKey), ("http", .http), ("oauth2", .oauth2),
      ("openIdConnect", .openIdConnect)])

end ServiceContract.OpenApi
