import ServiceContract.OpenApi.Read
/-!
# Components of OpenAPI documents

The components of a document are named definitions in nine sections, and extensions. The
components of a later document are merged into those of an earlier one section by section,
where a name that is taken gets the later definition. Links, callbacks and extensions are
not merged : they stay those of the first document that has components.
-/

namespace ServiceContract.OpenApi

/-- The definitions of a document. -/
structure Components where
  /-- The definitions in each section. -/
  definitions : Section → Table Json
  /-- The fields whose names are those of extensions. -/
  extensions : Table Json

/-- The sections that are merged. -/
def Section.isMerged : Section → Bool
  | links | callbacks => false
  | _ => true

namespace Components

/-- The components that the members of an object make up. -/
def ofMembers (members : List (String × Json)) : Components where
  definitions s := Table.ofList (((members.lookup s.name).getD .null).members)
  extensions := Table.ofList (members.filter fun (name, _) => isExtension name)

/-- Components with those of a later document. -/
def merge (earlier later : Components) : Components :=
  { earlier with
    definitions := fun s =>
      if s.isMerged then (earlier.definitions s).extend (later.definitions s)
      else earlier.definitions s }

/-- The JSON form : the sections that are not empty, then the extensions. -/
def toJson (c : Components) : Json :=
  .object ((Section.all.filterMap fun s =>
    if (c.definitions s).isEmpty then none else some (s.name, .ofTable (c.definitions s)))
    ++ c.extensions.entries)

end Components

/-- The components of a document, if the text is an OpenAPI document; it may have none. -/
def readComponents? (text : String) : Option (Option Components) := do
  let members ← readDocument? text
  match members.lookup "components" with
  | some v => pure (some (Components.ofMembers v.members))
  | none => pure none

end ServiceContract.OpenApi
