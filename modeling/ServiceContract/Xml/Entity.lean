import ServiceContract.Number
import ServiceContract.Xml.Name
/-!
# References and the entities behind them

A reference stands for one character or for the text of a declared entity. Texts of
entities may hold references themselves; ten levels are the limit, and one reference in
the document itself may lead to two hundred and fifty-five further ones. The limits are
shared by attribute values and content, so the count of further references is handed on
from one to the other (`enter?`, `leave`).

The value of an attribute is what its literal stands for, where each literal tab and line
break becomes a blank (`attributeValue?`). Here and in the other readers of XML a call of itself
costs one unit of fuel, and one unit more than the text has characters suffices, because each call
takes a character.
-/

namespace ServiceContract.Xml

open Text

/-- What a reference stands for. -/
inductive Reference where
  /-- One character. -/
  | character (c : Char)
  /-- The text of an entity. -/
  | entity (name : String)
deriving DecidableEq, Repr

/-- The entities that need no declaration. -/
def predefined? (name : List Char) : Option Char :=
  if name = ['q', 'u', 'o', 't'] then some '"'
  else if name = ['a', 'm', 'p'] then some '&'
  else if name = ['a', 'p', 'o', 's'] then some '\''
  else if name = ['l', 't'] then some '<'
  else if name = ['g', 't'] then some '>'
  else none

/-- The character with a number. A number of thirty-two bits that names no character
stands for the replacement character. -/
def numbered? (n : Nat) : Option Char :=
  let c := if n.isValidChar then Char.ofNat n else '\uFFFD'
  if n < UInt32.size && isCharacter c then some c else none

/-- A character reference behind its number sign, in decimal or hexadecimal. -/
def characterReference? (cs : List Char) : Option (Char × List Char) := do
  let (base, cs) :=
    match strip? ['x'] cs with
    | some rest => (16, rest)
    | none => (10, cs)
  let (written, cs) := cs.span fun c => c ≠ ';'
  let rest ← strip? [';'] cs
  let c ← numbered? (← Digits.number? base written)
  pure (c, rest)

/-- A reference behind its ampersand. -/
def reference? (cs : List Char) : Option (Reference × List Char) :=
  match strip? ['#'] cs with
  | some cs => (characterReference? cs).map fun (c, rest) => (.character c, rest)
  | none => do
    let (name, rest) ← name? cs
    let rest ← strip? [';'] rest
    match predefined? name with
    | some c => pure (.character c, rest)
    | none => pure (.entity (String.ofList name), rest)

/-! ## Entities and their limits -/

/-- The texts of the declared entities; of two with one name the first counts. -/
abbrev Entities := List (String × List Char)

/-- How deep entities may nest. -/
def maxDepth : Nat := 10

/-- How many references inside entities one reference of the document may lead to. -/
def maxNested : Nat := 255

/-- The text of an entity, and the count of nested references after entering it, when
`levels` further levels may still be entered and `nested` references are counted. -/
def enter? (entities : Entities) (levels nested : Nat) (name : String) :
    Option (List Char × Nat) := do
  let text ← entities.lookup name
  if levels = maxDepth then pure (text, nested)
  else if nested = maxNested then none
  else pure (text, nested + 1)

/-- The count of nested references behind an entity : it starts anew in the document. -/
def leave (levels nested : Nat) : Nat := if levels = maxDepth then 0 else nested

/-! ## Attribute values -/

/-- A character in the value of an attribute, for one in its literal. -/
def flatten (c : Char) : Char := if c = '\n' || c = '\r' || c = '\t' then ' ' else c

/-- The characters that a literal, or the text of an entity inside one, stands for. A
character reference in the document is taken as it is; in an entity it counts as literal,
and none may stand for the beginning of a tag. -/
def literalValue (expand : String → Nat → Option (List Char × Nat)) (inEntity : Bool) :
    Nat → List Char → Nat → Option (List Char × Nat)
  | 0, _, _ => none
  | _ + 1, [], nested => some ([], nested)
  | fuel + 1, '&' :: cs, nested => do
    match ← reference? cs with
    | (.character c, rest) =>
      if inEntity && c = '<' then none
      else
        let (ds, nested) ← literalValue expand inEntity fuel rest nested
        pure ((if inEntity then flatten c else c) :: ds, nested)
    | (.entity name, rest) =>
      let (ds, nested) ← expand name nested
      let (es, nested) ← literalValue expand inEntity fuel rest nested
      pure (ds ++ es, nested)
  | fuel + 1, '\r' :: '\n' :: cs, nested => do
    let (ds, nested) ← literalValue expand inEntity fuel cs nested
    pure (' ' :: ds, nested)
  | fuel + 1, c :: cs, nested => do
    let (ds, nested) ← literalValue expand inEntity fuel cs nested
    pure (flatten c :: ds, nested)

/-- The value of the literal of an attribute when `levels` further levels of entities may
be entered, with the count of nested references before and after. -/
def attributeValue? (entities : Entities) :
    Nat → List Char → Nat → Option (List Char × Nat)
  | 0, cs, nested => literalValue (fun _ _ => none) true (cs.length + 1) cs nested
  | levels + 1, cs, nested =>
    let expand := fun name nested => do
      let (text, nested) ← enter? entities (levels + 1) nested name
      let (ds, nested) ← attributeValue? entities levels text nested
      pure (ds, leave (levels + 1) nested)
    literalValue expand (levels + 1 ≠ maxDepth) (cs.length + 1) cs nested

end ServiceContract.Xml
