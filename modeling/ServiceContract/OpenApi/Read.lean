import ServiceContract.OpenApi.Schema
import ServiceContract.Yaml.Value
/-!
# Reading OpenAPI objects

`read?` checks a value against a form and gives it as it is written in a contract : fields
in their order, those that say nothing left out, unknown ones dropped. Where one of several
names is expected, its place among them will do (`named?`). The readers of objects are given
the reader of what is inside them, so that one recursion on a number of levels ties them
together; four times the depth of a value suffices.

Most of a document is read by the types of its values. Its outermost objects are read by the
text of their scalars : `loosen?` brings those into the typed form first.
-/

namespace ServiceContract.OpenApi

open Yaml

/-! ## Any value -/

mutual

/-- The number of levels of a value. -/
def depth : Value → Nat
  | .sequence items => depthOfItems items + 1
  | .mapping entries => depthOfEntries entries + 1
  | _ => 1

/-- The number of levels of the deepest of several values. -/
def depthOfItems : List Value → Nat
  | [] => 0
  | v :: rest => max (depth v) (depthOfItems rest)

/-- The number of levels of the deepest of several values with keys. -/
def depthOfEntries : List (Value × Value) → Nat
  | [] => 0
  | (_, v) :: rest => max (depth v) (depthOfEntries rest)

end

/-- The text of a key. -/
def keyText? : Value → Option String
  | .string s => some s
  | _ => none

/-- The entries of a mapping whose keys are strings. -/
def texts? (entries : List (Value × Value)) : Option (List (String × Value)) :=
  entries.mapM fun (k, v) => (keyText? k).map fun k => (k, v)

/-- Whether a value is a number without a minus sign. -/
def isNatural : Value → Bool
  | .natural _ => true
  | _ => false

/-- The members of an object with fixed fields : a natural number as key is passed over,
and any other key that is no string is refused. -/
def members? : Value → Option (List (String × Value))
  | .mapping entries => texts? (entries.filter fun (k, _) => !isNatural k)
  | _ => none

/-- Named values, each name once; of two values with one name the later counts. -/
def objectOf (members : List (String × Json)) : Json := .ofTable (Table.ofList members)

/-- Any value as JSON. A number that is not finite becomes null. -/
def anyJson? : Nat → Value → Option Json
  | 0, _ => none
  | fuel + 1, v =>
    match v with
    | .null => some .null
    | .bool b => some (.bool b)
    | .natural n => some (.int n)
    | .negative n => some (.int (-(n : Int)))
    | .float x => some (if x.isFinite then .float x else .null)
    | .string s => some (.string s)
    | .sequence items => (items.mapM (anyJson? fuel)).map .array
    | .mapping entries => do
      let members ← texts? entries
      let members ← members.mapM fun (k, v) => (anyJson? fuel v).map fun v => (k, v)
      pure (objectOf members)

/-! ## Parts of objects -/

/-- The value of a field that is given at most once. -/
def single? (name : String) (members : List (String × Value)) : Option (Option Value) :=
  match members.filter (·.1 = name) with
  | [] => some none
  | [(_, v)] => some (some v)
  | _ => none

/-- A field as it is written : itself, or nothing. -/
def readField? (read : Form → Value → Option Json) (members : List (String × Value))
    (f : Field) : Option (List (String × Json)) := do
  match f.absence, ← single? f.name members with
  | .refused, none => none
  | .refused, some v => (read f.form v).map fun v => [(f.name, v)]
  | .allowed, none => pure []
  | .allowed, some .null => pure []
  | .allowed, some v => (read f.form v).map fun v => [(f.name, v)]
  | .null, none => pure [(f.name, .null)]
  | .null, some .null => pure [(f.name, .null)]
  | .null, some v => (read f.form v).map fun v => [(f.name, v)]
  | .default v written, none => pure (if written then [(f.name, v)] else [])
  | .default silent written, some v =>
    let v ← read f.form v
    pure (if !written && v == silent then [] else [(f.name, v)])

/-- Whether a name is that of an extension. -/
def isExtension (name : String) : Bool := Text.startsWith ['x', '-'] name.toList

/-- A part of an object as it is written. -/
def readPart? (read : Form → Value → Option Json) (members : List (String × Value)) :
    Part → Option (List (String × Json))
  | .field f => readField? read members f
  | .firstOf fields => do
    let (name, v) ← members.find? fun (name, _) => fields.any (·.name = name)
    let f ← fields.find? (·.name = name)
    (read f.form v).map fun v => [(name, v)]
  | .extensions => do
    let given ← (members.filter fun (name, _) => isExtension name).mapM fun (name, v) =>
      (read .any v).map fun v => (name, v)
    pure (Table.ofList given).entries

/-- The parts of an object as they are written. -/
def readParts? (read : Form → Value → Option Json) (members : List (String × Value))
    (parts : List Part) : Option (List (String × Json)) :=
  (parts.mapM (readPart? read members)).map List.flatten

/-! ## Forms that are not objects with fixed fields -/

/-- The status code that a key stands for : a number of three digits, or one digit for a
hundred of them. -/
def status? : Value → Option String
  | .natural n => if 100 ≤ n && n < 1000 then some (toString n) else none
  | .string s =>
    match s.toList with
    | [a, b, c] =>
      if [a, b, c].all Digits.isDecimal then if a = '0' then none else some s
      else if Digits.isDecimal a && (b = 'X' || b = 'x') && (c = 'X' || c = 'x') then
        some (String.ofList [a, 'X', 'X'])
      else none
    | _ => none
  | _ => none

/-- Responses : the one for all other cases, those by status code, extensions. -/
def readResponses? (read : Form → Value → Option Json) (v : Value) : Option Json := do
  let members ← members? v
  let entries ← match v with
    | .mapping entries => some entries
    | _ => none
  let form := Form.reference (.object .response)
  let others ← readField? read members ⟨"default", form, .allowed⟩
  let coded ← (entries.filterMap fun (k, v) => (status? k).map fun k => (k, v)).mapM
    fun (k, v) => (read form v).map fun v => (k, v)
  let extensions ← readPart? read members .extensions
  pure (.object (others ++ (Table.ofList coded).entries ++ extensions))

/-- Path items : the entries whose names begin as paths do. -/
def readPaths? (read : Form → Value → Option Json) (v : Value) : Option Json := do
  let members ← members? v
  let items ← (members.filter fun (name, _) => name.toList.head? = some '/').mapM
    fun (name, v) => (read (.reference (.object .pathItem)) v).map fun v => (name, v)
  let extensions ← readPart? read members .extensions
  pure (.object ((Table.ofList items).entries ++ extensions))

/-- A schema : its general parts, then its constraints. -/
def readSchema? (read : Form → Value → Option Json) (v : Value) : Option Json := do
  let members ← members? v
  let general ← readParts? read members Schema.generalParts
  let given ← readParts? read members Schema.constrainingParts
  pure (.object (general ++ Schema.constraints given))

/-- The name that a value gives : one of several, or the place of one among them. -/
def named? (names : List String) : Value → Option String
  | .string s => if names.contains s then some s else none
  | .natural n => names[n]?
  | _ => none

/-- The reference that a value is, if it is one : an object with the text of the reference,
whatever else it has. The name of that field is the only one that a reference knows. -/
def reference? (v : Value) : Option String := do
  let _ ← members? v
  match v with
  | .mapping entries =>
    match entries.filter fun (k, _) => (named? ["$ref"] k).isSome with
    | [(_, .string s)] => pure s
    | _ => none
  | _ => none

/-- A word, or a mapping with the word as its only key and nothing as its value. -/
def readWord? (allowed : List String) (mayBeEmpty : Bool) : Value → Option String
  | .string s => named? allowed (.string s)
  | .mapping [(k, .null)] => named? allowed k
  | .mapping [(k, .mapping [])] => if mayBeEmpty then named? allowed k else none
  | _ => none

/-- An object whose kind one of its fields decides; that field is written first. -/
def readChoice? (read : Form → Value → Option Json) (choice : Choice) (v : Value) :
    Option Json := do
  let members ← members? v
  let (name, kinds) := choice.kinds
  let word ← named? (kinds.map (·.1)) (← ← single? name members)
  let kind ← kinds.lookup word
  let rest := members.filter (·.1 ≠ name)
  (readParts? read rest kind.parts).map fun parts => .object ((name, .string word) :: parts)

/-- A value of a form, given the reader of what is inside it. -/
def readWith? (read : Form → Value → Option Json) : Form → Value → Option Json
  | .text, .string s => some (.string s)
  | .bool, .bool b => some (.bool b)
  | .count, .natural n => some (.int n)
  | .count, .negative 0 => some (.int 0)
  | .number, .natural n => some (.int n)
  | .number, .negative n => some (.int (-(n : Int)))
  | .number, .float x => if x.isFinite then some (.float x) else none
  | .any, v => anyJson? (depth v + 1) v
  | .words allowed mayBeEmpty, v => (readWord? allowed mayBeEmpty v).map .string
  | .list item, .sequence vs => (vs.mapM (read item)).map .array
  | .map value, .mapping entries => do
    let members ← texts? entries
    let members ← members.mapM fun (k, v) => (read value v).map fun v => (k, v)
    pure (objectOf members)
  | .object kind, v => do
    let members ← members? v
    (readParts? read members kind.parts).map .object
  | .oneOf choice, v => readChoice? read choice v
  | .reference target, v =>
    match reference? v with
    | some s => some (.object [("$ref", .string s)])
    | none => read target v
  | .boolOr _, .bool b => some (.bool b)
  | .boolOr other, v => read other v
  | .schema, v => readSchema? read v
  | .responses, v => readResponses? read v
  | .paths, v => readPaths? read v
  | _, _ => none

/-- A value of a form. -/
def readLevels? : Nat → Form → Value → Option Json
  | 0, _, _ => none
  | levels + 1, form, v => readWith? (readLevels? levels) form v

/-- A value of a form, as it is written in a contract. -/
def read? (form : Form) (v : Value) : Option Json := readLevels? (4 * depth v + 4) form v

/-! ## The outermost objects of a document -/

/-- The text of a scalar. -/
def scalarText? : Tree → Option String
  | .scalar _ _ text => some text
  | _ => none

/-- Whether a scalar stands for nothing where a value may be absent. A tag that says so is
refused on any text but a word for it. -/
def isNothing? : Tree → Option Bool
  | .scalar none .plain text => some (text = "" || isNullWord text)
  | .scalar (some tag) .plain text =>
    if tag ≠ coreTag "null" then some false else if isNullWord text then some true else none
  | _ => some false

/-- The entries of a mapping by the texts of their keys; nothing written is an empty mapping. -/
def looseMembers? : Tree → Option (List (String × Tree))
  | .scalar _ .plain "" => some []
  | .mapping _ entries => entries.mapM fun (k, v) => (scalarText? k).map fun k => (k, v)
  | _ => none

/-- The items of a sequence; nothing written is an empty sequence. -/
def looseItems? : Tree → Option (List Tree)
  | .scalar _ .plain "" => some []
  | .sequence _ items => some items
  | _ => none

/-- The value of a field, given how values are brought into typed form. -/
def loosenField? (loosen : Form → Tree → Option Value) (parts : List Part)
    (member : String × Tree) : Option (Value × Value) := do
  let (name, t) := member
  let known : Option Field := parts.findSome? fun
    | .field f => if f.name = name then some f else none
    | _ => none
  let v ← match known with
    | some ⟨_, form, .allowed⟩ | some ⟨_, form, .null⟩ =>
      if ← isNothing? t then some .null else loosen form t
    | some f => loosen f.form t
    | none => t.value?
  pure (.string name, v)

/-- A tree as the value that it is in the outermost objects : a text is that of any scalar,
and what may refer to something, and what is not known, goes by its own type. -/
def loosen? : Nat → Form → Tree → Option Value
  | 0, _, _ => none
  | _ + 1, .text, t => (scalarText? t).map .string
  | fuel + 1, .list item, t => do
    let items ← looseItems? t
    (items.mapM (loosen? fuel item)).map .sequence
  | fuel + 1, .map value, t => do
    let members ← looseMembers? t
    let entries ← members.mapM fun (k, v) => (loosen? fuel value v).map fun v => (Value.string k, v)
    pure (.mapping entries)
  | fuel + 1, .object kind, t => do
    let members ← looseMembers? t
    (members.mapM (loosenField? (loosen? fuel) kind.parts)).map .mapping
  | _ + 1, .paths, t => do
    let members ← looseMembers? t
    let entries ← members.mapM fun (k, v) => v.value?.map fun v => (Value.string k, v)
    pure (.mapping entries)
  | _ + 1, _, t => t.value?

/-- The levels of forms in the outermost objects of a document. -/
def looseLevels : Nat := 8

/-- The members of an OpenAPI document, if a text is one. -/
def readDocument? (text : String) : Option (List (String × Json)) := do
  let document ← Yaml.Document.read? text
  let tree ← document.expand?
  let v ← loosen? looseLevels (.object .document) tree
  match ← read? (.object .document) v with
  | .object members => pure members
  | _ => none

end ServiceContract.OpenApi
