import ServiceContract.Xml.Draft
import ServiceContract.Xml.Entity
/-!
# The content of elements

`content?` reads text, elements, comments, processing instructions and references into a
draft, until the text ends or an end tag stands where no element has been opened in the
same text. A reference to an entity is read in place : the text of the entity is content of
its own, which may open elements for the surrounding text to close.
-/

namespace ServiceContract.Xml

open Text

/-- How a start tag ends. -/
inductive TagEnd where
  /-- The element has content. -/
  | opened
  /-- The element is empty. -/
  | closed
  /-- The text ends inside the tag. -/
  | unfinished
deriving DecidableEq, Repr

/-- The attributes of a start tag, each with a blank before it, up to the end of the tag. -/
def attributes? (value : List Char → Nat → Option (List Char × Nat)) :
    Nat → List Char → Draft → Option (TagEnd × List Char × Draft)
  | 0, _, _ => none
  | _ + 1, [], d => some (.unfinished, [], d)
  | fuel + 1, cs@(first :: _), d =>
    match skipBlanks cs with
    | [] => none
    | '/' :: rest => (strip? ['>'] rest).map fun rest => (.closed, rest, d)
    | '>' :: rest => some (.opened, rest, d)
    | rest =>
      if !isBlank first then none
      else do
        let (name, written, rest) ← attribute? rest
        let (text, nested) ← value written d.nested
        let d ← { d with nested }.bind? name (String.ofList text)
        attributes? value fuel rest d

/-- A start tag behind its opening, and whether it leaves an element open. -/
def startTag? (entities : Entities) (levels : Nat) (cs : List Char) (d : Draft) :
    Option (Bool × List Char × Draft) := do
  let (name, cs) ← qname? cs
  let d ← d.begin? name
  match ← attributes? (attributeValue? entities levels) (cs.length + 1) cs d with
  | (.unfinished, rest, d) => pure (false, rest, d)
  | (.closed, rest, d) => pure (false, rest, ← d.complete? false)
  | (.opened, rest, d) => pure (true, rest, ← d.complete? true)

/-- An end tag behind its opening. -/
def endTag? (cs : List Char) (d : Draft) : Option (List Char × Draft) := do
  let (name, cs) ← qname? cs
  let rest ← strip? ['>'] (skipBlanks cs)
  pure (rest, ← d.close? name)

/-- Text with each line break, however it is written, as one line feed. -/
def lineFeeds : List Char → List Char
  | [] => []
  | '\r' :: '\n' :: cs => '\n' :: lineFeeds cs
  | '\r' :: cs => '\n' :: lineFeeds cs
  | c :: cs => c :: lineFeeds cs

/-- A run of text, not empty, up to the next tag or reference. -/
def run? (cs : List Char) : Option (Node × List Char) :=
  let stops := fun c => c = '<' || c = '&'
  let written := cs.takeWhile (!stops ·)
  if written ≠ [] && written.all isCharacter && (upTo? [']', ']', '>'] written).isNone then
    some (.text (String.ofList (lineFeeds written)), cs.dropWhile (!stops ·))
  else none

/-- A piece of content that changes nothing but the list of nodes. -/
def piece? (cs : List Char) : Option (Node × List Char) :=
  match cs with
  | '<' :: '!' :: '-' :: '-' :: rest =>
    (comment? rest).map fun (written, rest) => (.comment (String.ofList written), rest)
  | '<' :: '!' :: '[' :: 'C' :: 'D' :: 'A' :: 'T' :: 'A' :: '[' :: rest => do
    let (written, rest) ← upTo? [']', ']', '>'] rest
    if written.all isCharacter then pure (.text (String.ofList (lineFeeds written)), rest) else none
  | '<' :: '?' :: rest =>
    (instruction? rest).map fun (target, written, rest) =>
      (.instruction (String.ofList target) (String.ofList written), rest)
  | _ => run? cs

/-- The pieces of content in a text in which `depth` elements have been opened. The text
behind an end tag at depth zero is left. -/
def pieces? (entities : Entities) (levels : Nat)
    (expand : String → Draft → Option Draft) :
    Nat → Nat → List Char → Draft → Option (List Char × Draft)
  | 0, _, _, _ => none
  | _ + 1, _, [], d => some ([], d)
  | fuel + 1, depth, '&' :: cs, d => do
    match ← reference? cs with
    | (.character c, rest) =>
      pieces? entities levels expand fuel depth rest (d.add (.text (String.singleton c)))
    | (.entity name, rest) => pieces? entities levels expand fuel depth rest (← expand name d)
  | fuel + 1, depth, '<' :: '/' :: cs, d => do
    let (rest, d) ← endTag? cs d
    if depth = 0 then pure (rest, d) else pieces? entities levels expand fuel (depth - 1) rest d
  | fuel + 1, depth, cs, d =>
    match cs with
    | '<' :: c :: rest =>
      if c = '!' || c = '?' then do
        let (node, rest) ← piece? cs
        pieces? entities levels expand fuel depth rest (d.add node)
      else do
        let (isOpen, rest, d) ← startTag? entities levels (c :: rest) d
        pieces? entities levels expand fuel (if isOpen then depth + 1 else depth) rest d
    | _ => do
      let (node, rest) ← piece? cs
      pieces? entities levels expand fuel depth rest (d.add node)

/-- Content, when `levels` further levels of entities may be entered. -/
def content? (entities : Entities) : Nat → List Char → Draft → Option (List Char × Draft)
  | 0, cs, d => pieces? entities 0 (fun _ _ => none) (cs.length + 1) 0 cs d
  | levels + 1, cs, d =>
    let expand := fun name (d : Draft) => do
      let (text, nested) ← enter? entities (levels + 1) d.nested name
      let (_, inner) ← content? entities levels text { d with nested, tag := none }
      pure { inner with tag := d.tag, nested := leave (levels + 1) inner.nested }
    pieces? entities (levels + 1) expand (cs.length + 1) 0 cs d

end ServiceContract.Xml
