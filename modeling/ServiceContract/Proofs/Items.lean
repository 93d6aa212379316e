import ServiceContract.Proofs.Emission
/-!
# What a path item says

A path item is JSON, and here are the questions that are put to it without knowing what it was
made from : its parts (`posted`), the schema of a header (`headerSchema`), the status codes of
its responses (`responseCodes`), and the references in a value, at any depth
(`Json.references`). The path item of a placement answers them from its operation.
-/

namespace ServiceContract

/-! ## Reading JSON -/

namespace Json

/-- The items of an array; none for any other value. -/
def items : Json → List Json
  | .array items => items
  | _ => []

/-- The text of a string. -/
def text? : Json → Option String
  | .string text => some text
  | _ => none

/-- The member of an object with the given name; the literal for nothing if there is none. -/
def part (name : String) (v : Json) : Json := (v.member? name).getD .null

/-- The name of the member that refers to something. -/
def referenceName : String := "$ref"

mutual

/-- The values of the references in a value, at any depth. -/
def references : Json → List Json
  | .array items => referencesOfItems items
  | .object members => referencesOfMembers members
  | _ => []

/-- The values of the references in several values. -/
def referencesOfItems : List Json → List Json
  | [] => []
  | v :: rest => references v ++ referencesOfItems rest

/-- The values of the references among named values and in them. -/
def referencesOfMembers : List (String × Json) → List Json
  | [] => []
  | (name, v) :: rest =>
    (if name = referenceName then [v] else []) ++ references v ++ referencesOfMembers rest

end

end Json

namespace Contract

/-! ## Parts of a path item -/

/-- A part of what a path item says about its request by POST. -/
def posted (name : String) (item : Json) : Json := (item.part "post").part name

/-- The schema of a header parameter of a path item. -/
def headerSchema (name : String) (item : Json) : Json :=
  (((posted "parameters" item).items.find? fun header =>
    (header.part "name").text? = some name).getD .null).part "schema"

/-- The status codes under which a path item has responses. -/
def responseCodes (item : Json) : List String := (posted "responses" item).members.map Prod.fst

theorem posted_requestBody_pathItem (r : Registry) (rule : DuplicateStatus) (p : Placement) :
    posted "requestBody" (pathItem r rule p) = requestBody p := by
  simp [posted, pathItem, Json.part, Json.member?, List.lookup_cons]

/-- A path item has the responses of its placement. -/
theorem posted_responses_pathItem (r : Registry) (rule : DuplicateStatus) (p : Placement) :
    posted "responses" (pathItem r rule p) =
      responsesJson (responses r.errorCodes rule p.operation p.definition).1 := by
  simp [posted, pathItem, Json.part, Json.member?, List.lookup_cons]

theorem map_fst_members_responsesJson (table : Table Response) :
    (responsesJson table).members.map Prod.fst = table.keys := by
  rw [responsesJson, Json.members, List.map_map]
  rfl

/-- Its status codes are those of the table of responses. -/
theorem responseCodes_pathItem (r : Registry) (rule : DuplicateStatus) (p : Placement) :
    responseCodes (pathItem r rule p) =
      (responses r.errorCodes rule p.operation p.definition).1.keys := by
  rw [responseCodes, posted_responses_pathItem, map_fst_members_responsesJson]

/-- The header that carries the routing text has it as pattern and as example. -/
theorem headerSchema_pathItem (r : Registry) (rule : DuplicateStatus) (p : Placement) :
    headerSchema "X-Amz-Target" (pathItem r rule p) =
      let routing := Qualifier.routing (Qualifier.resolve r.qualifiers p.service p.operation)
        p.service p.operation
      .object [("type", .string "string"), ("pattern", .string routing),
        ("example", .string routing)] := by
  simp [headerSchema, posted, pathItem, headers, header, Json.part, Json.member?, Json.items,
    Json.text?, List.lookup_cons]

end Contract

end ServiceContract
