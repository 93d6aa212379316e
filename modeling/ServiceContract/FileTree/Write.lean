import ServiceContract.FileTree
/-!
# Writing files

A file is written through a temporary one : `write` makes the directories on the way, fills a
temporary file in the directory of the target, and puts it in place of the target in one
step. Where a step fails, the temporary file is removed again, though directories that were
made remain.

What a file system decides by itself is a `Device` : the name of the temporary file, which is
not in use, and which steps are refused for reasons that no tree of files shows, such as a
full disk. `Device.reliable` refuses nothing.
-/

namespace ServiceContract

/-! ## Devices -/

/-- A step of writing a file. -/
inductive WriteStep where
  /-- Making a directory at a place. -/
  | makeDirectory (p : Place)
  /-- Making the temporary file at a place. -/
  | create (p : Place)
  /-- Filling the temporary file. -/
  | fill
  /-- Handing on what has been filled in. -/
  | flush
  /-- Putting the temporary file in place of the target. -/
  | rename
deriving DecidableEq, Repr

/-- What a file system decides by itself while a file is written. -/
structure Device where
  /-- The name of a temporary file in a directory. -/
  spare : FileTree → Place → String
  /-- That name is not in use. -/
  unused : ∀ (t : FileTree) (p : Place), t.entry? (p.down (spare t p)) = none
  /-- Why a step is refused, if it is. -/
  refusal : WriteStep → Option FileError
  /-- How much of a content is in a file when filling it is refused. -/
  kept : ByteArray → ByteArray

theorem Place.length_le_length_text_down (p : Place) (name : String) :
    name.length ≤ (p.down name).text.length := by
  have hnames : name.length ≤ ("/".intercalate (p.down name).names.reverse).length := by
    simp only [Place.down, List.reverse_cons]
    by_cases h : p.names.reverse = []
    · simp [h]
    · rw [String.intercalate_append_of_ne_nil h (by simp)]
      simp only [String.intercalate_singleton, String.length_append]
      omega
  unfold Place.text
  split <;> simp only [String.length_append] <;> omega

namespace Device

/-- A name that is longer than all paths in a tree. -/
def longName (t : FileTree) : String :=
  ".tmp" ++ String.ofList (List.replicate ((t.entries.keys.map String.length).max?.getD 0) 'x')

theorem length_lt_length_longName {t : FileTree} {path : String} (h : path ∈ t.entries.keys) :
    path.length < (longName t).length := by
  have hle : path.length ≤ (t.entries.keys.map String.length).max?.getD 0 :=
    List.le_max?_getD_of_mem (List.mem_map_of_mem h)
  have htmp : ".tmp".length = 4 := rfl
  simp only [longName, String.length_append, String.length_ofList, List.length_replicate, htmp]
  omega

theorem entry?_down_longName (t : FileTree) (p : Place) :
    t.entry? (p.down (longName t)) = none := by
  rw [FileTree.entry?, if_neg (by simp [Place.down]), Table.get?_eq_none_iff]
  intro h
  have := length_lt_length_longName h
  have := p.length_le_length_text_down (longName t)
  omega

/-- A device that refuses nothing. -/
def reliable : Device where
  spare t _ := longName t
  unused := entry?_down_longName
  refusal _ := none
  kept content := content

end Device

namespace FileTree

/-! ## Making directories -/

/-- That everything before the last part of a path is a directory. -/
def checkWay (t : FileTree) (r : Route) : Except FileError Unit := do
  if 1 < r.parts.length then
    t.checkDirectory (← t.follow { r with parts := r.parts.dropLast, isOpen := false })

/-- Make one directory. -/
def makeDirectory (t : FileTree) (device : Device) (r : Route) : Except FileError FileTree := do
  let last := r.parts.getLast?
  if last = none || last = some "." || last = some ".." then
    t.checkWay r
    .error .alreadyExists
  else
    let p ← t.follow r
    match t.entry? p, device.refusal (.makeDirectory p) with
    | some _, _ => .error .alreadyExists
    | none, some e => .error e
    | none, none => pure (t.set p .directory)

/-- What a failure to make a directory comes to : nothing, if there is one already. -/
def settle (t : FileTree) (r : Route) (e : FileError) : FileTree × Option FileError :=
  (t, if t.isDirectory r then none else some e)

/-- Make a directory and those it is in, as far as they are missing. `names` are its parts,
the last first. The tree is also given where not all could be made. -/
def makeDirectories (t : FileTree) (device : Device) (isAbsolute : Bool) :
    List String → FileTree × Option FileError
  | [] => (t, none)
  | name :: outer =>
    let r : Route := ⟨isAbsolute, (name :: outer).reverse, false⟩
    match t.makeDirectory device r with
    | .ok t => (t, none)
    | .error .notFound =>
      match t.makeDirectories device isAbsolute outer with
      | (t, some e) => (t, some e)
      | (t, none) =>
        match t.makeDirectory device r with
        | .ok t => (t, none)
        | .error e => t.settle r e
    | .error e => t.settle r e

/-! ## Writing -/

/-- Make an empty temporary file in a directory, and give its place. -/
def createSpare (t : FileTree) (device : Device) (directory : Route) :
    Except FileError (FileTree × Place) := do
  let d ← t.follow directory
  t.checkDirectory d
  let spare := d.down (device.spare t d)
  match device.refusal (.create spare) with
  | some e => .error e
  | none => pure (t.set spare (.file .empty), spare)

/-- Fill the file at a place. The tree is also given where that is refused. -/
def fill (t : FileTree) (device : Device) (p : Place) (content : ByteArray) :
    FileTree × Option FileError :=
  match device.refusal .fill with
  | some e => (t.set p (.file (device.kept content)), some e)
  | none => (t.set p (.file content), device.refusal .flush)

/-- The place that a path gives to a file : what stands there, if anything, is a file. -/
def target (t : FileTree) (r : Route) : Except FileError Place := do
  match r.parts.getLast? with
  | none => .error (if r.isAbsolute then .busy else .notFound)
  | some last =>
    if last = "." || last = ".." then
      t.checkWay r
      .error .busy
    else
      let p ← t.follow { r with isOpen := false }
      if r.isOpen then .error .notDirectory
      else
        match t.entry? p with
        | some .directory => .error .isDirectory
        | _ => pure p

/-- Move the file at a place to the end of a path, in place of any file there. -/
def rename (t : FileTree) (device : Device) (source : Place) (r : Route) :
    Except FileError FileTree := do
  let p ← t.target r
  match device.refusal .rename, t.entry? source with
  | some e, _ => .error e
  | none, some e => pure ((t.erase source).set p e)
  | none, none => .error .notFound

/-- Fill a temporary file and move it to the end of a path; where that fails, the temporary
file is removed. -/
def persist (t : FileTree) (device : Device) (spare : Place) (r : Route) (content : ByteArray) :
    FileTree × Option FileError :=
  match t.fill device spare content with
  | (t, some e) => (t.erase spare, some e)
  | (t, none) =>
    match t.rename device spare r with
    | .ok t => (t, none)
    | .error e => (t.erase spare, some e)

/-- Write a file : make the directories it is in, fill a temporary file there, and put that in
place. The tree is also given where the file could not be written. -/
def write (t : FileTree) (path : String) (content : ByteArray)
    (device : Device := Device.reliable) : FileTree × Option FileError :=
  let r := Route.ofPath path
  let dir := r.parent
  match t.makeDirectories device dir.isAbsolute dir.parts.reverse with
  | (t, some e) => (t, some e)
  | (t, none) =>
    match t.createSpare device dir with
    | .error e => (t, some e)
    | .ok (t, spare) => t.persist device spare r content

end FileTree

end ServiceContract
