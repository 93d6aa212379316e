import ServiceContract.Json.Read
import ServiceContract.Settings
import ServiceContract.Yaml.Value
/-!
# Settings in JSON and in YAML

The two notations of settings. In JSON each part has one type, and an object may be given as
the list of its values; a member that is passed over need not be text. In YAML a text is that
of any scalar, whatever it would stand for elsewhere; nothing written is an empty list or
object, and a word may also be written as a tag on nothing.
-/

namespace ServiceContract.Settings

/-! ## JSON -/

/-- The text that a JSON string is. -/
def jsonText? : Json → Option String
  | .string s => some s
  | _ => none

/-- Settings in JSON. -/
def json : Format Json where
  text? := jsonText?
  texts?
    | .array items => items.mapM jsonText?
    | _ => none
  word?
    | .string s => some s
    | .object [(s, .null)] => some s
    | _ => none
  members? names
    | .object members => some members
    | .array items => zipNames? names items
    | _ => none

/-- The settings that a JSON value gives. -/
def ofJson? (v : Json) : Option Settings := read? json v

/-- What of a JSON value is looked at for settings. -/
def interest : Json.Interest :=
  let inner : Json.Interest := .members (infoNames.map fun name => (name, .everything))
  .members (names.map fun name => (name, if name = "info" then inner else .everything))

/-! ## YAML -/

section Yaml

open ServiceContract.Yaml

/-- The text of a scalar that a node is or refers to. -/
def yamlText? (d : Document) (node : Node) : Option String := do
  match ← d.target? node with
  | .scalar _ _ text => some text
  | _ => none

/-- The word of a scalar : its text, or a tag on nothing. -/
def yamlWord? (d : Document) (node : Node) : Option String := do
  match ← d.target? node with
  | .scalar tag style text =>
    if isLocalTag tag then
      if style = .plain && (text = "" || isNullWord text) then
        tag.map fun t => String.ofList t.toList.tail
      else none
    else some text
  | _ => none

/-- The items of a sequence that a node is or refers to. -/
def yamlItems? (d : Document) (node : Node) : Option (List Node) := do
  match ← d.target? node with
  | .sequence _ items => some items
  | .scalar _ .plain "" => some []
  | _ => none

/-- The members of a mapping that a node is or refers to. -/
def yamlMembers? (d : Document) (node : Node) : Option (List (String × Node)) := do
  match ← d.target? node with
  | .mapping _ entries => entries.mapM fun (k, v) => (yamlText? d k).map fun k => (k, v)
  | .scalar _ .plain "" => some []
  | _ => none

/-- Settings in YAML. -/
def yaml (d : Document) : Format Node where
  text? := yamlText? d
  texts? node := yamlItems? d node >>= fun items => items.mapM (yamlText? d)
  word? := yamlWord? d
  members? _ := yamlMembers? d

/-- The settings that a YAML document gives; an empty one gives the default. -/
def ofYaml? (d : Document) : Option Settings :=
  match d.root with
  | some root => read? (yaml d) root
  | none => some default

end Yaml

/-- The settings in the content of a file, which is JSON or YAML. -/
def ofContent? (isJson : Bool) (content : ByteArray) : Option Settings :=
  if isJson then Json.readBytes? interest content >>= ofJson?
  else String.fromUTF8? content >>= ServiceContract.Yaml.Document.read? >>= ofYaml?

end ServiceContract.Settings
