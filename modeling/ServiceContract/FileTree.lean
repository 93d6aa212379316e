import ServiceContract.Table
import ServiceContract.Text
/-!
# Trees of files

A `FileTree` is the state of a file system without links, seen from a working directory : a
table of files and directories by their places. A path is a text (`Route` is what it says),
and it leads to a place only through directories. Reading gives bytes or a reason why there
are none (`FileError`). Writing is in `ServiceContract.FileTree.Write`.
-/

namespace ServiceContract

/-! ## Reasons why a file cannot be used -/

/-- Why a file cannot be read or written. -/
inductive FileError where
  /-- The file, or a directory on the way to it, is missing. -/
  | notFound
  /-- The place is in use as a directory. -/
  | busy
  /-- A file stands where a directory is to be made. -/
  | alreadyExists
  /-- A file stands where the path goes through a directory. -/
  | notDirectory
  /-- A directory stands where a file is needed. -/
  | isDirectory
  /-- A name on the path, or the whole path, is too long. -/
  | nameTooLong
  /-- The path holds the character that ends paths. -/
  | nulInPath
  /-- The content is not UTF-8. -/
  | notText
  /-- The file system does not permit it. -/
  | notPermitted
  /-- The disk is full. -/
  | noSpace
deriving DecidableEq, Repr

/-- The text of a failure. -/
def FileError.message : FileError → String
  | .notFound => "No such file or directory (os error 2)"
  | .busy => "Device or resource busy (os error 16)"
  | .alreadyExists => "File exists (os error 17)"
  | .notDirectory => "Not a directory (os error 20)"
  | .isDirectory => "Is a directory (os error 21)"
  | .nameTooLong => "File name too long (os error 36)"
  | .nulInPath => "file name contained an unexpected NUL byte"
  | .notText => "stream did not contain valid UTF-8"
  | .notPermitted => "Permission denied (os error 13)"
  | .noSpace => "No space left on device (os error 28)"

/-! ## Paths -/

/-- Where a path begins. -/
inductive Start where
  /-- The root of the file system. -/
  | root
  /-- A number of levels above the working directory. -/
  | above (levels : Nat)
deriving DecidableEq, Repr

/-- A place in the file system. -/
structure Place where
  /-- Where it is counted from. -/
  start : Start
  /-- The names from there on, the last first. -/
  names : List String
deriving DecidableEq, Repr

namespace Place

/-- The place as a path. -/
def text (p : Place) : String :=
  let names := "/".intercalate p.names.reverse
  match p.start with
  | .root => "/" ++ names
  | .above 0 => names
  | .above n => "/".intercalate (List.replicate n "..") ++ "/" ++ names

/-- The place that contains a place; the root contains itself. -/
def up (p : Place) : Place :=
  match p.names, p.start with
  | _ :: names, start => ⟨start, names⟩
  | [], .above n => ⟨.above (n + 1), []⟩
  | [], .root => p

/-- A place inside a place. -/
def down (p : Place) (name : String) : Place := ⟨p.start, name :: p.names⟩

end Place

/-- What a path says. -/
structure Route where
  /-- Whether it begins at the root. -/
  isAbsolute : Bool
  /-- The parts between the separators, without empty ones. -/
  parts : List String
  /-- Whether it ends with a separator, so that it can only lead to a directory. -/
  isOpen : Bool
deriving DecidableEq, Repr

namespace Route

/-- What a path says. -/
def ofPath (path : String) : Route :=
  let cs := path.toList
  ⟨cs.head? = some '/', (Text.split '/' path).filter (· ≠ ""), cs.getLast? = some '/'⟩

/-- The parts without those that change nothing : a dot behind another part. -/
def significant (r : Route) : List String :=
  match r.isAbsolute, r.parts with
  | false, "." :: rest => "." :: rest.filter (· ≠ ".")
  | _, parts => parts.filter (· ≠ ".")

/-- The directory that the last significant part is in; the working directory if no other
is named. -/
def parent (r : Route) : Route :=
  match r.isAbsolute, r.significant.dropLast with
  | true, parts => ⟨true, parts, false⟩
  | false, [] => ⟨false, ["."], false⟩
  | false, parts => ⟨false, parts, false⟩

/-- The number of bytes of the path. -/
def size (r : Route) : Nat := r.parts.foldl (fun n part => n + part.utf8ByteSize + 1) 0

/-- Where the path begins. -/
def start (r : Route) : Place := ⟨if r.isAbsolute then .root else .above 0, []⟩

end Route

/-- What stands at a place. -/
inductive FileEntry where
  /-- A file with its content. -/
  | file (content : ByteArray)
  /-- A directory. -/
  | directory

namespace FileEntry

/-- Whether this is a directory. -/
def isDirectory : FileEntry → Bool
  | file _ => false
  | directory => true

/-- Whether this is a file with the given content. -/
def holds : FileEntry → ByteArray → Bool
  | file old, content => old.data = content.data
  | directory, _ => false

end FileEntry

/-- The files and directories of a file system by their places. -/
structure FileTree where
  /-- The entries by the paths of their places. -/
  entries : Table FileEntry

namespace FileTree

/-- The tree with an empty working directory. -/
def empty : FileTree := ⟨∅⟩

/-- What stands at a place. The working directory, those above it and the root are directories. -/
def entry? (t : FileTree) (p : Place) : Option FileEntry :=
  if p.names = [] then some .directory else t.entries.get? p.text

/-- The tree with an entry at a place. -/
def set (t : FileTree) (p : Place) (e : FileEntry) : FileTree :=
  ⟨t.entries.insert p.text e⟩

/-- The tree with nothing at a place. -/
def erase (t : FileTree) (p : Place) : FileTree := ⟨t.entries.erase p.text⟩

/-! ## Following paths -/

/-- The number of bytes of the longest name. -/
def maxName : Nat := 255

/-- The number of bytes of the longest path. -/
def maxPath : Nat := 4095

/-- That a directory stands at a place. -/
def checkDirectory (t : FileTree) (p : Place) : Except FileError Unit :=
  match t.entry? p with
  | some .directory => .ok ()
  | some (.file _) => .error .notDirectory
  | none => .error .notFound

/-- The place that one part of a path leads to. -/
def step (t : FileTree) (p : Place) (part : String) : Except FileError Place := do
  t.checkDirectory p
  if part = "." then pure p
  else if part = ".." then pure p.up
  else if maxName < part.utf8ByteSize then .error .nameTooLong
  else pure (p.down part)

/-- The place that a path leads to, if everything before its last part is a directory. -/
def follow (t : FileTree) (r : Route) : Except FileError Place := do
  if r.parts.any (·.toList.contains '\x00') then .error .nulInPath
  else if maxPath < r.size then .error .nameTooLong
  else if r.parts = [] && !r.isAbsolute then .error .notFound
  else
    let p ← r.parts.foldlM t.step r.start
    if r.isOpen then t.checkDirectory p
    pure p

/-- Whether a path leads to a directory. -/
def isDirectory (t : FileTree) (r : Route) : Bool :=
  match t.follow r with
  | .ok p => (t.entry? p).any FileEntry.isDirectory
  | .error _ => false

/-! ## Reading -/

/-- The content of a file. -/
def read (t : FileTree) (path : String) : Except FileError ByteArray := do
  match t.entry? (← t.follow (Route.ofPath path)) with
  | some (.file content) => pure content
  | some .directory => .error .isDirectory
  | none => .error .notFound

/-- The content of a file that is text. -/
def readText (t : FileTree) (path : String) : Except FileError String := do
  match String.fromUTF8? (← t.read path) with
  | some text => pure text
  | none => .error .notText

/-! ## Setting up and comparing trees -/

/-- The places on the way to a place, the outermost first. -/
def wayTo (start : Start) : List String → List Place
  | [] => []
  | name :: outer => wayTo start outer ++ [⟨start, name :: outer⟩]

/-- The place that a path names, whatever stands on the way. -/
def placeOf (path : String) : Place :=
  let r := Route.ofPath path
  r.parts.foldl (fun p part => if part = "." then p else if part = ".." then p.up else p.down part)
    r.start

/-- Put an entry at a path, with the directories on the way to it. -/
def put (t : FileTree) (path : String) (e : FileEntry) : FileTree :=
  let p := placeOf path
  let t := (wayTo p.start p.names.tail).foldl (fun t outer => t.set outer .directory) t
  t.set p e

/-- Take away what stands at a path, with everything inside. -/
def remove (t : FileTree) (path : String) : FileTree :=
  let p := (placeOf path).text
  let inside := (p ++ "/").toList
  ⟨(t.entries.entries.filter fun e => inside.isPrefixOf e.1.toList).foldl
    (fun table e => table.erase e.1) (t.entries.erase p)⟩

/-- The files of a tree with their contents. -/
def files (t : FileTree) : List (String × ByteArray) :=
  t.entries.entries.filterMap fun
    | (path, .file content) => some (path, content)
    | (_, .directory) => none

/-- Whether the path of a place lies inside the working directory. -/
def isInside (path : String) : Bool :=
  let cs := path.toList
  cs.head? ≠ some '/' && !(['.', '.', '/'].isPrefixOf cs)

/-- The files inside the working directory that are new, or have a new content, since an
earlier tree. -/
def changes (earlier later : FileTree) : List (String × ByteArray) :=
  later.files.filter fun (path, content) =>
    isInside path && !(earlier.entries.get? path).any fun e => e.holds content

end FileTree

end ServiceContract
