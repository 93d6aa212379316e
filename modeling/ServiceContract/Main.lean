import ServiceContract.Program
import ServiceContract.Json.Render
/-!
# The executable

The outer layer of the program. It copies the files that a run looks at into a file tree,
runs the program on the tree, and carries out what has changed.
-/

open ServiceContract

/-- What the file system has at a path; nothing if it cannot be looked at. -/
def lookAt (path : String) : IO (Option FileEntry) := do
  try return some (.file (← IO.FS.readBinFile path))
  catch
    | .inappropriateType .. => return some .directory
    | _ => return none

/-- The tree with what the file system has at a path and on the way to it, up to the first
place where a file or nothing stands. -/
def probe (t : FileTree) (path : String) : IO FileTree := do
  let mut t := t
  let place := FileTree.placeOf path
  for outer in FileTree.wayTo place.start place.names do
    match ← lookAt outer.text with
    | some entry =>
      t := t.put outer.text entry
      if !entry.isDirectory then return t
    | none => return t
  return t

/-- Write a file through a second one beside it. -/
def store (path : String) (content : ByteArray) : IO Unit := do
  let outer := (FileTree.placeOf path).up.text
  if outer ≠ "" then IO.FS.createDirAll outer
  let beside := path ++ ".new"
  IO.FS.writeBinFile beside content
  IO.FS.rename beside path

/-- Print what a run leaves behind, and write what it has changed. -/
def finish (before : FileTree) (o : Program.Outcome) : IO UInt32 := do
  for line in o.log do
    IO.eprintln (line.level.name ++ " " ++ match line.content with
      | .string s => s
      | v => String.ofList (v.pretty 0))
  for line in o.complaints do IO.eprintln line
  for (path, content) in o.files.files do
    unless (before.entries.get? path).any fun e => e.holds content do store path content
  IO.print o.printed
  return UInt32.ofNat o.status

/-- The program. -/
def main (args : List String) : IO UInt32 := do
  let mut found : List (String × String) := []
  for name in CommandLine.Environment.names do
    if let some value ← IO.getEnv name then found := (name, value) :: found
  let env := CommandLine.Environment.ofLookup fun name => found.lookup name
  let mut t := FileTree.empty
  for _ in [0, 1] do
    for path in Program.paths args env t do t ← probe t path
  match Program.run args env t with
  | .run outcome => finish t outcome
  | .help =>
    IO.println ("usage: " ++ CommandLine.usage)
    return 0
  | .usage =>
    IO.eprintln ("usage: " ++ CommandLine.usage)
    return 2
