import ServiceContract.Number
import ServiceContract.Text
import ServiceContract.Yaml.Node
/-!
# Values of YAML documents

A plain scalar may stand for nothing, a truth value or a number; `resolve?` says which. To
look at a document as a whole, its aliases are replaced by what they refer to
(`Document.expand?`), within two limits : collections nest at most 128 deep, and aliases are
followed at most a hundred times as often as the document has parts. A `Tree` is the result,
with its scalars as they are written; a `Value` has them resolved.
-/

namespace ServiceContract.Yaml

open Text

/-- A document without aliases. -/
inductive Tree where
  /-- A scalar as it is written. -/
  | scalar (tag : Option String) (style : Style) (text : String)
  /-- Trees in order. -/
  | sequence (tag : Option String) (items : List Tree)
  /-- Keys with their values in order. -/
  | mapping (tag : Option String) (entries : List (Tree × Tree))
deriving Inhabited

/-- A value. -/
inductive Value where
  /-- Nothing. -/
  | null
  /-- A truth value. -/
  | bool (value : Bool)
  /-- An integer of 64 bits without a minus sign. -/
  | natural (value : Nat)
  /-- An integer of 64 bits with a minus sign, and the number behind the sign. -/
  | negative (value : Nat)
  /-- A floating point number. -/
  | float (value : Binary64)
  /-- A text. -/
  | string (value : String)
  /-- Values in order. -/
  | sequence (items : List Value)
  /-- Keys with their values in order. -/
  | mapping (entries : List (Value × Value))
deriving Inhabited

/-! ## Aliases -/

mutual

/-- The number of parts of a node : one for each scalar and alias, two for each collection. -/
def Node.parts : Node → Nat
  | .scalar .. => 1
  | .alias _ => 1
  | .sequence _ items => 2 + partsOfItems items
  | .mapping _ entries => 2 + partsOfEntries entries

/-- The number of parts of several nodes. -/
def partsOfItems : List Node → Nat
  | [] => 0
  | n :: rest => n.parts + partsOfItems rest

/-- The number of parts of keys and values. -/
def partsOfEntries : List (Node × Node) → Nat
  | [] => 0
  | (k, v) :: rest => k.parts + v.parts + partsOfEntries rest

end

/-- How deep collections may nest. -/
def maxDepth : Nat := 128

/-- How often aliases may be followed, for each part of a document. -/
def maxFollowed : Nat := 100

/-- The node that a node stands for, with the number of aliases that may still be followed. -/
def Document.follow? (d : Document) (node : Node) (left : Nat) : Option (Node × Nat) :=
  match node, left with
  | .alias _, 0 => none
  | .alias number, left + 1 => (d.anchors.target? number).map fun node => (node, left)
  | node, left => some (node, left)

/-- Several parts with the aliases in each replaced, from left to right. -/
def expandEach? {α β : Type} (expand : α → Nat → Option (β × Nat)) :
    List α → Nat → Option (List β × Nat)
  | [], left => some ([], left)
  | x :: rest, left => do
    let (y, left) ← expand x left
    let (ys, left) ← expandEach? expand rest left
    pure (y :: ys, left)

/-- A node with its aliases replaced, where collections may nest to the given depth. -/
def Document.expandNode? (d : Document) : Nat → Node → Nat → Option (Tree × Nat)
  | depth, node, left => do
    match depth, ← d.follow? node left with
    | _, (.scalar tag style text, left) => pure (.scalar tag style text, left)
    | depth + 1, (.sequence tag items, left) =>
      let (items, left) ← expandEach? (d.expandNode? depth) items left
      pure (.sequence tag items, left)
    | depth + 1, (.mapping tag entries, left) =>
      let entry := fun (e : Node × Node) left => do
        let (k, left) ← d.expandNode? depth e.1 left
        let (v, left) ← d.expandNode? depth e.2 left
        pure ((k, v), left)
      let (entries, left) ← expandEach? entry entries left
      pure (.mapping tag entries, left)
    | _, _ => none

/-- A document that holds something, with its aliases replaced. -/
def Document.expand? (d : Document) : Option Tree := do
  let root ← d.root
  (·.1) <$> d.expandNode? maxDepth root (maxFollowed * root.parts)

/-! ## Scalars -/

/-- The tag of a core type. -/
def coreTag (name : String) : String := "tag:yaml.org,2002:" ++ name

/-- Whether a tag belongs to the document and not to a core type. -/
def isLocalTag (tag : Option String) : Bool := tag.any fun t => t.toList.head? = some '!'

/-- Whether a text is one of the words for nothing. -/
def isNullWord (text : String) : Bool := ["null", "Null", "NULL", "~"].contains text

/-- The truth value that a text stands for. -/
def bool? (text : String) : Option Bool :=
  if ["true", "True", "TRUE"].contains text then some true
  else if ["false", "False", "FALSE"].contains text then some false
  else none

/-- A text without a sign at its start. -/
def dropSign : List Char → List Char
  | '+' :: cs => cs
  | '-' :: cs => cs
  | cs => cs

/-- Digits with a zero before others, which make no number. -/
def isZeroLed (text : List Char) : Bool :=
  match dropSign text with
  | '0' :: rest => rest ≠ [] && rest.all Digits.isDecimal
  | _ => false

/-- The number that a text without sign stands for, in a base that two characters give. -/
def natural? (cs : List Char) : Option Nat :=
  match cs with
  | '0' :: 'x' :: rest => Digits.number? 16 rest
  | '0' :: 'o' :: rest => Digits.number? 8 rest
  | '0' :: 'b' :: rest => Digits.number? 2 rest
  | _ => Digits.number? 10 cs

/-- The integer that a text stands for, however large : whether it has a minus sign, and the
number behind the sign. -/
def integer? (text : List Char) : Option (Bool × Nat) :=
  if isZeroLed text then none
  else
    match text with
    | '-' :: cs => (natural? cs).map fun n => (true, n)
    | '+' :: cs => (natural? cs).map fun n => (false, n)
    | cs => (natural? cs).map fun n => (false, n)

/-- The exponent at the end of a number. -/
def exponent? : List Char → Option Int
  | [] => some 0
  | c :: cs =>
    if c = 'e' || c = 'E' then
      (Digits.number? 10 (dropSign cs)).map fun n => if cs.head? = some '-' then -(n : Int) else n
    else none

/-- The finite number that a decimal without sign stands for. Digits may be missing before
the point or behind it, but not on both sides. -/
def decimal? (negative : Bool) (cs : List Char) : Option Binary64 := do
  let whole := cs.takeWhile Digits.isDecimal
  let rest := cs.dropWhile Digits.isDecimal
  let part := if rest.head? = some '.' then rest.tail.takeWhile Digits.isDecimal else []
  let rest := if rest.head? = some '.' then rest.tail.dropWhile Digits.isDecimal else rest
  let power ← exponent? rest
  let digits ← Digits.number? 10 (whole ++ part)
  let x := Binary64.ofDecimal negative digits (power - part.length)
  if x.isFinite then pure x else none

/-- The floating point number that a text stands for. -/
def float? (text : List Char) : Option Binary64 :=
  let infinite := fun cs => [".inf", ".Inf", ".INF"].contains (String.ofList cs)
  match text with
  | '-' :: cs => if infinite cs then some (.infinity true) else decimal? true cs
  | '+' :: cs => if infinite cs then some (.infinity false) else decimal? false cs
  | cs =>
    if infinite cs then some (.infinity false)
    else if [".nan", ".NaN", ".NAN"].contains (String.ofList cs) then some .nan
    else decimal? false cs

/-- The value of an integer, if it fits into 64 bits. -/
def integerValue? (negative : Bool) (n : Nat) : Option Value :=
  if negative then if Integer.fitsSigned 64 (-(n : Int)) then some (.negative n) else none
  else if n < Integer.bound 64 then some (.natural n) else none

/-- An integer of up to 128 bits, as the text that it is written as gives it. -/
def boundedInteger? (text : List Char) : Option (Bool × Nat) :=
  (integer? text).filter fun (negative, n) => Integer.fits 128 (if negative then -(n : Int) else n)

/-- The value of a plain scalar without a tag. An integer of up to 128 bits is one, if not a
usable one; a longer one is a floating point number. -/
def plainValue? (text : String) : Option Value :=
  if text = "" || isNullWord text then some .null
  else
    match bool? text with
    | some b => some (.bool b)
    | none =>
      match boundedInteger? text.toList with
      | some (negative, n) => integerValue? negative n
      | none =>
        if isZeroLed text.toList then some (.string text)
        else
          match float? text.toList with
          | some x => some (.float x)
          | none => some (.string text)

/-- The value of a scalar. A core tag forces a type on its text, and a tag of the document
makes a value that this library has no use for. -/
def resolve? (tag : Option String) (style : Style) (text : String) : Option Value :=
  match tag with
  | none => if style = .plain then plainValue? text else some (.string text)
  | some t =>
    if isLocalTag tag then none
    else if t = coreTag "bool" then (bool? text).map .bool
    else if t = coreTag "int" then do
      let (negative, n) ← boundedInteger? text.toList
      integerValue? negative n
    else if t = coreTag "float" then (float? text.toList).map .float
    else if t = coreTag "null" then if isNullWord text then some .null else none
    else some (.string text)

mutual

/-- The value of a tree, if every scalar in it has one. -/
def Tree.value? : Tree → Option Value
  | .scalar tag style text => resolve? tag style text
  | .sequence tag items =>
    if isLocalTag tag then none else (itemValues? items).map .sequence
  | .mapping tag entries =>
    if isLocalTag tag then none else (entryValues? entries).map .mapping

/-- The values of several trees. -/
def itemValues? : List Tree → Option (List Value)
  | [] => some []
  | t :: rest => do pure ((← t.value?) :: (← itemValues? rest))

/-- The values of keys and values. -/
def entryValues? : List (Tree × Tree) → Option (List (Value × Value))
  | [] => some []
  | (k, v) :: rest => do pure ((← k.value?, ← v.value?) :: (← entryValues? rest))

end

end ServiceContract.Yaml
