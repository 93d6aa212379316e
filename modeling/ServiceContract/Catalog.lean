import ServiceContract.Event
import ServiceContract.Failure
import ServiceContract.OpenApi.Components
/-!
# The catalog of schemas

The catalog holds the components of the schema documents that have been read. It is active
as soon as one document has been read, even without components; only then can a reference to
a schema be checked.
-/

namespace ServiceContract

/-- The components of all schema documents so far. -/
structure Catalog where
  /-- The merged components, if a document had any. -/
  components : Option OpenApi.Components
  /-- The number of documents. -/
  documents : Nat

namespace Catalog

/-- The catalog without documents. -/
def empty : Catalog := ⟨none, 0⟩

/-- Whether references can be checked. -/
def isActive (c : Catalog) : Bool := 0 < c.documents

/-- Whether a schema is defined. -/
def contains (c : Catalog) (name : String) : Bool :=
  c.components.any fun components => (components.definitions .schemas).contains name

/-- The catalog with a further document, whose components are given if it has any. -/
def add (c : Catalog) (incoming : Option OpenApi.Components) : Catalog :=
  { components :=
      match c.components, incoming with
      | earlier, none => earlier
      | none, some later => some later
      | some earlier, some later => some (earlier.merge later)
    documents := c.documents + 1 }

/-- The event of adding a document. -/
def added (origin : String) : Option OpenApi.Components → Event
  | none => .info .schemas ("Schema document " ++ origin ++ " has no components")
  | some components =>
    .info .schemas ("Loaded " ++ toString (components.definitions .schemas).size
      ++ " schema(s) from " ++ origin)

/-- The catalog with the document in a text. -/
def read (c : Catalog) (origin text : String) : Except Failure (Catalog × Event) :=
  match OpenApi.readComponents? text with
  | some incoming => .ok (c.add incoming, added origin incoming)
  | none => .error (.malformedSchemas origin)

end Catalog

end ServiceContract
