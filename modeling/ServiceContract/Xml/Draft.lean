import ServiceContract.Xml.Node
/-!
# Documents under construction

A `Draft` is what has been read of a document : the elements that are still open, the nodes
inside the innermost of them, and the start tag that is being read. Start and end tags need
not stand in one text, since an entity may hold any of them, so a draft is built by separate
steps : `begin?` and `bind?` read a start tag, `complete?` finishes it, `close?` takes an end
tag. A start tag that its text does not finish is taken up by the next tag.

The namespaces of the names in a start tag are known only when the whole tag is. Then the
prefixes are looked up, first among those that the tag binds, then among those of the
enclosing element.
-/

namespace ServiceContract.Xml

/-- The prefixes in scope with their namespaces; the empty prefix for the default. -/
abbrev Scopes := List (String × String)

/-- An element whose end tag has not been read. -/
structure OpenElement where
  /-- The name as it is written, which the end tag must repeat. -/
  written : QName
  /-- The name. -/
  name : ExpandedName
  /-- The attributes. -/
  attributes : List Attribute
  /-- The prefixes in scope inside the element. -/
  scopes : Scopes
  /-- The nodes before the element, the last first. -/
  before : List Node

/-- What has been read of a document. -/
structure Draft where
  /-- The open elements, the innermost first. -/
  enclosing : List OpenElement
  /-- The finished nodes inside the innermost open element, the last first. -/
  nodes : List Node
  /-- The name of the last start tag in the text that is being read. -/
  tag : Option QName
  /-- The attributes of the start tag that is being read. -/
  attributes : List (QName × String)
  /-- The prefixes that the start tag being read binds. -/
  bindings : Scopes
  /-- The number of references inside entities since the last one in the document. -/
  nested : Nat

/-- The namespace of the prefix `xml`. -/
def xmlSpace : String := "http://www.w3.org/XML/1998/namespace"

/-- The namespace of the prefix `xmlns`. -/
def xmlnsSpace : String := "http://www.w3.org/2000/xmlns/"

namespace Draft

/-- The draft of a document of which nothing has been read. -/
def empty : Draft := ⟨[], [], none, [], [], 0⟩

/-- Add a node behind the others. -/
def add (d : Draft) (n : Node) : Draft := { d with nodes := n :: d.nodes }

/-- Begin a start tag. -/
def begin? (d : Draft) (name : QName) : Option Draft :=
  if name.scope = "xmlns" then none else some { d with tag := some name }

/-- Add an attribute to the start tag. One that binds a prefix must respect the two
namespaces that have a prefix of their own, and no prefix is bound twice; the default
namespace may be given again without effect. -/
def bind? (d : Draft) (name : QName) (value : String) : Option Draft :=
  if name.scope = "xmlns" then
    if value = xmlnsSpace then none
    else if (name.base = "xml") ≠ (value = xmlSpace) then none
    else if (d.bindings.lookup name.base).isSome then none
    else if value = xmlSpace then some d
    else some { d with bindings := d.bindings ++ [(name.base, value)] }
  else if name.base = "xmlns" then
    if value = xmlSpace || value = xmlnsSpace then none
    else some { d with bindings := d.bindings ++ [("", value)] }
  else some { d with attributes := d.attributes ++ [(name, value)] }

/-- The prefixes in scope inside the start tag. -/
def scopes (d : Draft) : Scopes :=
  match d.enclosing with
  | [] => d.bindings
  | outer :: _ => d.bindings ++ outer.scopes

/-- The name of an element : without a prefix it is in the default namespace, if there is one. -/
def elementName? (scopes : Scopes) (name : QName) : Option ExpandedName :=
  match scopes.lookup name.scope with
  | some space => some ⟨some space, name.base⟩
  | none => if name.scope = "" then some ⟨none, name.base⟩ else none

/-- The name of an attribute : without a prefix it is in no namespace. -/
def attributeName? (scopes : Scopes) (name : QName) : Option ExpandedName :=
  if name.scope = "" then some ⟨none, name.base⟩
  else if name.scope = "xml" then some ⟨some xmlSpace, name.base⟩
  else (scopes.lookup name.scope).map fun space => ⟨some space, name.base⟩

/-- Attributes with their namespaces, if no two have the same name. -/
def resolve? (scopes : Scopes) : List (QName × String) → Option (List Attribute)
  | [] => some []
  | (written, value) :: rest => do
    let name ← attributeName? scopes written
    let others ← resolve? scopes rest
    if others.any fun a => a.name = name then none else pure (⟨name, value⟩ :: others)

/-- Finish the start tag; the element is open, or it is empty and finished with its tag. -/
def complete? (d : Draft) (isOpen : Bool) : Option Draft := do
  let written ← d.tag
  let scopes := d.scopes
  let name ← elementName? scopes written
  let attributes ← resolve? scopes d.attributes
  let rest := { d with attributes := [], bindings := [] }
  if isOpen then
    let inner : OpenElement := ⟨written, name, attributes, scopes, d.nodes⟩
    pure { rest with enclosing := inner :: d.enclosing, nodes := [] }
  else pure (rest.add (.element name attributes []))

/-- Finish the innermost open element. The end tag repeats the name of the start tag as
it is written, and the text it stands in has begun an element before. If a text has ended
inside a start tag, what was read of that tag ends here too : its names must have namespaces
inside the element, and belong to no element. -/
def close? (d : Draft) (name : QName) : Option Draft := do
  let _ ← resolve? d.scopes d.attributes
  match d.tag, d.enclosing with
  | some _, inner :: outer =>
    if name = inner.written then
      let node := Node.element inner.name inner.attributes d.nodes.reverse
      pure { d with
        enclosing := outer, nodes := node :: inner.before, attributes := [], bindings := [] }
    else none
  | _, _ => none

/-- The root element, once no element is open. -/
def root? (d : Draft) : Option Node :=
  match d.enclosing with
  | [] => d.nodes.reverse.find? Node.isElement
  | _ :: _ => none

end Draft

end ServiceContract.Xml
