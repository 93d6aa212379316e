import ServiceContract.Number
import ServiceContract.OpenApi.Form
/-!
# Schemas

A schema has general fields and fields that constrain values. The constraining fields
belong together : a schema of one basic type has the constraints of that type only, a
combination has one list of schemas, and every other mixture is kept as it is. The three
cases are written in different ways (`constraints`).
-/

namespace ServiceContract.OpenApi.Schema

/-- The general parts of a schema. -/
def generalParts : List Part :=
  [.flag "nullable", .flag "readOnly", .flag "writeOnly", .flag "deprecated",
    .optional "externalDocs" (.object .externalDocs), .optional "example" .any,
    .optional "title" .text, .optional "description" .text,
    .optional "discriminator" (.object .discriminator), .optional "default" .any, .extensions]

/-- The constraining parts of a schema. -/
def constrainingParts : List Part :=
  [.optional "type" .text, .optional "pattern" .text, .optional "multipleOf" .number,
    .optional "exclusiveMinimum" .bool, .optional "exclusiveMaximum" .bool,
    .optional "minimum" .number, .optional "maximum" .number,
    .optional "properties" (.map (.reference .schema)), .optional "required" (.list .text),
    .optional "additionalProperties" (.boolOr (.reference .schema)),
    .optional "minProperties" .count, .optional "maxProperties" .count,
    .optional "items" (.reference .schema), .optional "minItems" .count,
    .optional "maxItems" .count, .optional "uniqueItems" .bool, .optional "enum" (.list .any),
    .optional "format" .text, .optional "minLength" .count, .optional "maxLength" .count,
    .optional "oneOf" (.list (.reference .schema)), .optional "allOf" (.list (.reference .schema)),
    .optional "anyOf" (.list (.reference .schema)), .optional "not" (.reference .schema)]

/-- How a constraint is written. -/
inductive Writing where
  /-- As it is. -/
  | plain
  /-- As it is, unless it is empty. -/
  | nonEmpty
  /-- Only if it holds. -/
  | ifTrue
  /-- As a floating point number. -/
  | asFloat
  /-- As floating point numbers, unless there are none. -/
  | asFloats
deriving DecidableEq

/-- A number as a floating point number. -/
def toFloat : Json → Json
  | .int n => .float (.ofInt n)
  | v => v

/-- A constraint as it is written, if it is. -/
def Writing.write? : Writing → Json → Option Json
  | plain, v => some v
  | nonEmpty, .array [] => none
  | nonEmpty, .object [] => none
  | nonEmpty, v => some v
  | ifTrue, .bool false => none
  | ifTrue, v => some v
  | asFloat, v => some (toFloat v)
  | asFloats, .array [] => none
  | asFloats, .array vs => some (.array (vs.map toFloat))
  | asFloats, v => some v

/-- Whether a value is an integer of 64 bits with sign. -/
def isSigned : Json → Bool
  | .int n => Integer.fitsSigned 64 n
  | _ => false

/-- A basic type : what its constraints are and how each is written. -/
structure BasicType where
  /-- Whether a value may be given as a bound or listed as a value of the type. -/
  admits : Json → Bool
  /-- The constraints besides the type. -/
  constraints : List (String × Writing)

/-- The basic types. -/
def basicTypes : List (String × BasicType) :=
  [("string", ⟨Json.isString, [("format", .plain), ("pattern", .plain), ("enum", .nonEmpty),
      ("minLength", .plain), ("maxLength", .plain)]⟩),
    ("number", ⟨Json.isNumber, [("format", .plain), ("multipleOf", .asFloat),
      ("exclusiveMinimum", .ifTrue), ("exclusiveMaximum", .ifTrue), ("minimum", .asFloat),
      ("maximum", .asFloat), ("enum", .asFloats)]⟩),
    ("integer", ⟨isSigned, [("format", .plain), ("multipleOf", .plain),
      ("exclusiveMinimum", .ifTrue), ("exclusiveMaximum", .ifTrue), ("minimum", .plain),
      ("maximum", .plain), ("enum", .nonEmpty)]⟩),
    ("boolean", ⟨Json.isBool, [("enum", .nonEmpty)]⟩),
    ("object", ⟨fun _ => true, [("properties", .nonEmpty), ("required", .nonEmpty),
      ("additionalProperties", .plain), ("minProperties", .plain), ("maxProperties", .plain)]⟩),
    ("array", ⟨fun _ => true, [("items", .plain), ("minItems", .plain), ("maxItems", .plain),
      ("uniqueItems", .ifTrue)]⟩)]

/-- Whether a constraint lists or bounds values that the type admits. -/
def BasicType.allows (t : BasicType) (name : String) (v : Json) : Bool :=
  match name, v with
  | "enum", .array vs => vs.all fun v => v == .null || t.admits v
  | "multipleOf", v => t.admits v
  | "minimum", v => t.admits v
  | "maximum", v => t.admits v
  | _, _ => true

/-- The names of the combinations. -/
def combinations : List String := ["oneOf", "allOf", "anyOf", "not"]

/-- How each constraint is written in a mixture. -/
def mixtureWriting (name : String) : Writing :=
  if ["multipleOf", "minimum", "maximum"].contains name then .asFloat
  else if ["properties", "required", "enum", "oneOf", "allOf", "anyOf"].contains name then .nonEmpty
  else .plain

/-- The basic type of a schema, if its constraints are those of the type. -/
def basicType? (given : List (String × Json)) : Option BasicType := do
  match given.lookup "type" with
  | some (.string name) =>
    let t ← basicTypes.lookup name
    let fits := given.all fun (name, v) =>
      name = "type" || ((t.constraints.lookup name).isSome && t.allows name v)
    if fits then pure t else none
  | _ => none

/-- The constraints of a schema as they are written, from those that are given. -/
def constraints (given : List (String × Json)) : List (String × Json) :=
  match basicType? given with
  | some t =>
    (given.filter (·.1 = "type")) ++ t.constraints.filterMap fun (name, writing) =>
      ((given.lookup name).bind writing.write?).map fun v => (name, v)
  | none =>
    match given with
    | [(name, v)] =>
      if combinations.contains name then [(name, v)]
      else ((mixtureWriting name).write? v).toList.map fun v => (name, v)
    | _ => given.filterMap fun (name, v) => ((mixtureWriting name).write? v).map fun v => (name, v)

end ServiceContract.OpenApi.Schema
