import ServiceContract.Table
import ServiceContract.Yaml.Token
/-!
# Nodes

A YAML document is a tree of nodes : scalars, sequences and mappings, each with a tag if one
is written, and aliases. `Document.read?` accepts a text that holds at most one document. An
alias refers to an anchored node by number, and `Document.target?` finds the node : the numbers
are given out as the anchors are met, by the count of different names so far, and of two
nodes with one number the later counts.
-/

namespace ServiceContract.Yaml

/-- A node. -/
inductive Node where
  /-- A scalar as it is written. -/
  | scalar (tag : Option String) (style : Style) (text : String)
  /-- Nodes in order. -/
  | sequence (tag : Option String) (items : List Node)
  /-- Keys with their values in order. -/
  | mapping (tag : Option String) (entries : List (Node × Node))
  /-- A reference to the node with a number. -/
  | alias (number : Nat)
deriving Inhabited, Repr

/-- The scalar that stands where nothing is written. -/
def Node.missing : Node := .scalar none .plain ""

/-- The anchors of a document. -/
structure Anchors where
  /-- The numbers of the names. -/
  numbers : Table Nat
  /-- The anchored nodes that have begun, with their numbers, the last first. -/
  begun : List (Nat × Nat)
  /-- The anchored nodes that have ended, by their place among those that have begun. -/
  ended : List (Nat × Node)

namespace Anchors

/-- No node is anchored. -/
def empty : Anchors := ⟨Table.empty, [], []⟩

/-- Begin an anchored node : its place, and the anchors from now on. -/
def begin (a : Anchors) (name : String) : Nat × Anchors :=
  let number := a.numbers.size
  let place := a.begun.length
  (place, { a with numbers := a.numbers.insert name number, begun := (number, place) :: a.begun })

/-- End the node that has begun at a place. -/
def finish (a : Anchors) (place : Nat) (node : Node) : Anchors :=
  { a with ended := (place, node) :: a.ended }

/-- The node with a number. -/
def target? (a : Anchors) (number : Nat) : Option Node := do
  a.ended.lookup (← a.begun.lookup number)

end Anchors

/-! ## Properties of a node -/

/-- What the handles of tags stand for. -/
abbrev Handles := List (String × List UInt8)

/-- The handles that need no directive. -/
def standardHandles : Handles :=
  [("!", [byteOf '!']), ("!!", "tag:yaml.org,2002:".toList.map byteOf)]

/-- What is written before a node. -/
structure Properties where
  /-- The anchor. -/
  anchor : Option String
  /-- The tag. -/
  tag : Option Tag

/-- The properties before a node : an anchor and a tag at most, in either order. -/
def properties : List Token → Properties × List Token
  | .anchor name :: .tag t :: rest => (⟨some name, some t⟩, rest)
  | .tag t :: .anchor name :: rest => (⟨some name, some t⟩, rest)
  | .anchor name :: rest => (⟨some name, none⟩, rest)
  | .tag t :: rest => (⟨none, some t⟩, rest)
  | rest => (⟨none, none⟩, rest)

/-- The bytes of a tag with its handle expanded. -/
def expandTag? (handles : Handles) (t : Tag) : Option (List UInt8) :=
  if t.handle = "" then some (beforeZero t.suffix)
  else (handles.lookup t.handle).map fun expansion => beforeZero expansion ++ beforeZero t.suffix

/-- The tag that bytes stand for. Bytes that are no text make no tag if they begin as those of
a local tag do, and else a tag that means as little as an empty one. -/
def tagOf (bytes : List UInt8) : Option String :=
  match String.fromUTF8? ⟨bytes.toArray⟩ with
  | some text => some text
  | none => if bytes.head? = some (byteOf '!') then none else some ""

/-- The tag of a node, if it has one. -/
def resolveTag? (handles : Handles) : Option Tag → Option (Option String)
  | none => some none
  | some t => (expandTag? handles t).map tagOf

/-! ## From tokens to nodes -/

/-- Where a node stands. -/
inductive Position where
  /-- Inside brackets, where indentation means nothing. -/
  | flow
  /-- An item or a whole document. -/
  | block
  /-- The key or value of a mapping, where the items of a sequence need no indentation. -/
  | entry
deriving DecidableEq

/-- Whether nothing is written for an item : the token after its dash belongs to what follows. -/
def endsItem : Option Token → Bool
  | some .item | some .blockEnd => true
  | _ => false

/-- The same for an item whose sequence is not indented. -/
def endsLooseItem : Option Token → Bool
  | some .item | some .key | some .value | some .blockEnd => true
  | _ => false

/-- Whether nothing is written for a key or a value outside brackets. -/
def endsEntry : Option Token → Bool
  | some .key | some .value | some .blockEnd => true
  | _ => false

/-- Whether nothing is written for a value in a pair inside brackets. -/
def endsPair : Option Token → Bool
  | some .comma | some .flowSequenceEnd => true
  | _ => false

/-- Whether nothing is written for a value inside braces. -/
def endsMember : Option Token → Bool
  | some .comma | some .flowMappingEnd => true
  | _ => false

mutual

/-- A node. -/
def node? (handles : Handles) (position : Position) :
    Nat → List Token → Anchors → Option (Node × List Token × Anchors)
  | 0, _, _ => none
  | _ + 1, .alias name :: rest, a => do pure (.alias (← a.numbers.get? name), rest, a)
  | fuel + 1, ts, a => do
    let (written, ts) := properties ts
    let tag ← resolveTag? handles written.tag
    match written.anchor with
    | none => body? handles position tag written.tag.isSome fuel ts a
    | some name =>
      let (place, a) := a.begin name
      let (node, rest, a) ← body? handles position tag true fuel ts a
      pure (node, rest, a.finish place node)

/-- A node behind its properties. If there are any, nothing need be written. -/
def body? (handles : Handles) (position : Position) (tag : Option String) (mayMiss : Bool) :
    Nat → List Token → Anchors → Option (Node × List Token × Anchors)
  | 0, _, _ => none
  | fuel + 1, ts, a =>
    match ts with
    | .scalar style text :: rest =>
      some (.scalar tag style text, rest, a)
    | .flowSequence :: rest => do
      let (items, rest, a) ← flowItems? handles true fuel rest a
      pure (.sequence tag items, rest, a)
    | .flowMapping :: rest => do
      let (entries, rest, a) ← flowEntries? handles true fuel rest a
      pure (.mapping tag entries, rest, a)
    | .blockSequence :: rest =>
      if position = .flow then if mayMiss then some (.scalar tag .plain "", ts, a) else none
      else do
        let (items, rest, a) ← blockItems? handles fuel rest a
        pure (.sequence tag items, rest, a)
    | .blockMapping :: rest =>
      if position = .flow then if mayMiss then some (.scalar tag .plain "", ts, a) else none
      else do
        let (entries, rest, a) ← blockEntries? handles fuel rest a
        pure (.mapping tag entries, rest, a)
    | .item :: _ =>
      if position = .entry then do
        let (items, rest, a) ← looseItems? handles fuel ts a
        pure (.sequence tag items, rest, a)
      else if mayMiss then some (.scalar tag .plain "", ts, a) else none
    | _ => if mayMiss then some (.scalar tag .plain "", ts, a) else none

/-- The items of an indented sequence, up to its end. -/
def blockItems? (handles : Handles) :
    Nat → List Token → Anchors → Option (List Node × List Token × Anchors)
  | 0, _, _ => none
  | _ + 1, .blockEnd :: rest, a => some ([], rest, a)
  | fuel + 1, .item :: rest, a => do
    let (v, rest, a) ← if endsItem rest.head? then some (Node.missing, rest, a)
      else node? handles .block fuel rest a
    let (vs, rest, a) ← blockItems? handles fuel rest a
    pure (v :: vs, rest, a)
  | _, _, _ => none

/-- The items of a sequence that is not indented, up to the first other token. -/
def looseItems? (handles : Handles) :
    Nat → List Token → Anchors → Option (List Node × List Token × Anchors)
  | 0, _, _ => none
  | fuel + 1, .item :: rest, a => do
    let (v, rest, a) ← if endsLooseItem rest.head? then some (Node.missing, rest, a)
      else node? handles .block fuel rest a
    let (vs, rest, a) ← looseItems? handles fuel rest a
    pure (v :: vs, rest, a)
  | _ + 1, ts, a => some ([], ts, a)

/-- The entries of an indented mapping, up to its end. -/
def blockEntries? (handles : Handles) :
    Nat → List Token → Anchors → Option (List (Node × Node) × List Token × Anchors)
  | 0, _, _ => none
  | _ + 1, .blockEnd :: rest, a => some ([], rest, a)
  | fuel + 1, .key :: rest, a => do
    let (k, rest, a) ← if endsEntry rest.head? then some (Node.missing, rest, a)
      else node? handles .entry fuel rest a
    let (v, rest, a) ← blockValue? handles fuel rest a
    let (es, rest, a) ← blockEntries? handles fuel rest a
    pure ((k, v) :: es, rest, a)
  | _, _, _ => none

/-- The value of an entry of an indented mapping. -/
def blockValue? (handles : Handles) :
    Nat → List Token → Anchors → Option (Node × List Token × Anchors)
  | 0, _, _ => none
  | fuel + 1, .value :: rest, a =>
    if endsEntry rest.head? then some (Node.missing, rest, a)
    else node? handles .entry fuel rest a
  | _ + 1, ts, a => some (Node.missing, ts, a)

/-- The items between brackets, up to the closing one. A key begins a pair, which is a
mapping of its own. -/
def flowItems? (handles : Handles) (first : Bool) :
    Nat → List Token → Anchors → Option (List Node × List Token × Anchors)
  | 0, _, _ => none
  | _ + 1, .flowSequenceEnd :: rest, a => some ([], rest, a)
  | fuel + 1, ts, a => do
    let ts ← match ts with
      | .comma :: rest => if first then some ts else some rest
      | _ => if first then some ts else none
    match ts with
    | .flowSequenceEnd :: rest => pure ([], rest, a)
    | .key :: rest =>
      let (k, rest, a) ←
        if endsPair rest.head? || rest.head? = some .value then
          some (Node.missing, rest.tail, a)
        else node? handles .flow fuel rest a
      let (v, rest, a) ← match rest with
        | .value :: rest =>
          if endsPair rest.head? then some (Node.missing, rest, a)
          else node? handles .flow fuel rest a
        | _ => some (Node.missing, rest, a)
      let (vs, rest, a) ← flowItems? handles false fuel rest a
      pure (.mapping none [(k, v)] :: vs, rest, a)
    | _ =>
      let (v, rest, a) ← node? handles .flow fuel ts a
      let (vs, rest, a) ← flowItems? handles false fuel rest a
      pure (v :: vs, rest, a)

/-- The entries between braces, up to the closing one. -/
def flowEntries? (handles : Handles) (first : Bool) :
    Nat → List Token → Anchors → Option (List (Node × Node) × List Token × Anchors)
  | 0, _, _ => none
  | _ + 1, .flowMappingEnd :: rest, a => some ([], rest, a)
  | fuel + 1, ts, a => do
    let ts ← match ts with
      | .comma :: rest => if first then some ts else some rest
      | _ => if first then some ts else none
    match ts with
    | .flowMappingEnd :: rest => pure ([], rest, a)
    | .key :: rest =>
      let (k, rest, a) ←
        if endsMember rest.head? || rest.head? = some .value then some (Node.missing, rest, a)
        else node? handles .flow fuel rest a
      let (v, rest, a) ← match rest with
        | .value :: rest =>
          if endsMember rest.head? then some (Node.missing, rest, a)
          else node? handles .flow fuel rest a
        | _ => some (Node.missing, rest, a)
      let (es, rest, a) ← flowEntries? handles false fuel rest a
      pure ((k, v) :: es, rest, a)
    | _ =>
      let (k, rest, a) ← node? handles .flow fuel ts a
      let (es, rest, a) ← flowEntries? handles false fuel rest a
      pure ((k, Node.missing) :: es, rest, a)

end

/-! ## Documents -/

/-- A text as a document : its root, if anything is written, and its anchors. -/
structure Document where
  /-- The root. -/
  root : Option Node
  /-- The anchors. -/
  anchors : Anchors

/-- The directives before a document : at most one version, which must be supported, and no
handle twice. -/
def directives? : List Token → Bool → Handles → Option (Handles × List Token)
  | .directive (.version major minor) :: rest, versioned, handles =>
    if versioned || major ≠ 1 || (minor ≠ 1 && minor ≠ 2) then none
    else directives? rest true handles
  | .directive (.handle name expansion) :: rest, versioned, handles =>
    if (handles.lookup name).isSome then none
    else directives? rest versioned (handles ++ [(name, expansion)])
  | rest, _, handles => some (handles, rest)

/-- Whether a document that begins with a mark ends without content. -/
def endsDocument : Option Token → Bool
  | none | some .documentStart | some .documentEnd | some (.directive _) => true
  | _ => false

/-- The root of a document that begins with directives or a mark. -/
def explicitRoot? (ts : List Token) : Option (Node × List Token × Anchors) := do
  let (handles, ts) ← directives? ts false []
  match ts with
  | .documentStart :: rest =>
    if endsDocument rest.head? then pure (Node.missing, rest, Anchors.empty)
    else node? (handles ++ standardHandles) .block (4 * rest.length + 4) rest Anchors.empty
  | _ => none

/-- The document in a text. Behind it only marks that end documents may stand. -/
def Document.read? (text : String) : Option Document := do
  let ts ← tokens? text.toList
  match ts with
  | [] => pure ⟨none, Anchors.empty⟩
  | first :: _ =>
    let (root, rest, anchors) ←
      match first with
      | .directive _ | .documentStart => explicitRoot? ts
      | _ => node? standardHandles .block (4 * ts.length + 4) ts Anchors.empty
    if rest.all (· = .documentEnd) then pure ⟨some root, anchors⟩ else none

/-- The node that a node stands for. -/
def Document.target? (d : Document) : Node → Option Node
  | .alias number => d.anchors.target? number
  | node => some node

end ServiceContract.Yaml
