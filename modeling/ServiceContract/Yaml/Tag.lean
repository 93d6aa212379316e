import ServiceContract.Yaml.Scalar
/-!
# Tags and directives

A tag is written with a handle, which a directive may give a meaning, and a suffix; or in
full between angle brackets. Its bytes may be escaped, and a zero byte ends the part that it
stands in. Here are the readers of both notations, of anchors, and of the two directives.
-/

namespace ServiceContract.Yaml

/-- The name of an anchor or alias behind its first character. -/
def anchor? (c : Cursor) : Option (String × Cursor) :=
  let (name, rest) := c.takeWhile isWord
  let ends := Cursor.endsWord rest.peek
    || rest.peek.any fun d => ['?', ':', ',', ']', '}', '%', '@', '`'].contains d
  if name = [] || !ends then none else some (String.ofList name, rest)

/-! ## Parts of a tag -/

/-- A tag as it is written. -/
structure Tag where
  /-- The handle, empty if the tag is written in full. -/
  handle : String
  /-- The bytes of the suffix. -/
  suffix : List UInt8
deriving DecidableEq, Repr

/-- The characters of a tag that stand for themselves; some only in a full tag. -/
def isTagCharacter (isFull : Bool) (c : Char) : Bool :=
  isWord c
    || [';', '/', '?', ':', '@', '&', '=', '+', '$', '.', '%', '!', '~', '*', '\'', '(',
      ')'].contains c
    || (isFull && [',', '[', ']'].contains c)

/-- The byte of an ASCII character. -/
def byteOf (c : Char) : UInt8 := UInt8.ofNat c.toNat

/-- A byte that is written as a percent sign and two hexadecimal digits. -/
def escapedByte? (c : Cursor) : Option (UInt8 × Cursor) :=
  match c.rest with
  | '%' :: a :: b :: _ => (Digits.number? 16 [a, b]).map fun n => (UInt8.ofNat n, c.advanceBy 3)
  | _ => none

/-- Further bytes of an escaped character. -/
def escapedTail? : Nat → Cursor → Option (List UInt8 × Cursor)
  | 0, c => some ([], c)
  | count + 1, c => do
    let (byte, c) ← escapedByte? c
    let (others, c) ← escapedTail? count c
    if byte / 64 = 2 then pure (byte :: others, c) else none

/-- The bytes of an escaped character : as many as the first one announces. -/
def escapedCharacter? (c : Cursor) : Option (List UInt8 × Cursor) := do
  let (first, c) ← escapedByte? c
  let count ←
    if first < 0x80 then some 0
    else if first / 32 = 6 then some 1
    else if first / 16 = 14 then some 2
    else if first / 8 = 30 then some 3
    else none
  let (others, c) ← escapedTail? count c
  pure (first :: others, c)

/-- The bytes of a tag up to a character that cannot belong to it. -/
def tagBytes? (isFull : Bool) : Nat → Cursor → Option (List UInt8 × Cursor)
  | 0, _ => none
  | fuel + 1, c =>
    match c.peek with
    | none => some ([], c)
    | some d =>
      if !isTagCharacter isFull d then some ([], c)
      else do
        let (bytes, c) ← if d = '%' then escapedCharacter? c else some ([byteOf d], c.advance)
        let (others, c) ← tagBytes? isFull fuel c
        pure (bytes ++ others, c)

/-- The bytes of a part of a tag that count : those before a zero. -/
def beforeZero (bytes : List UInt8) : List UInt8 := bytes.takeWhile (· ≠ 0)

/-- The handle at the beginning of a tag : the first mark, a word, and perhaps a second mark. -/
def handle? (c : Cursor) : Option (List Char × Cursor) :=
  if !c.at? '!' then none
  else
    let (word, c) := c.advance.takeWhile isWord
    if c.at? '!' then some ('!' :: (word ++ ['!']), c.advance) else some ('!' :: word, c)

/-- Whether a text is a handle with two marks. -/
def isNamedHandle (handle : List Char) : Bool := 1 < handle.length && handle.getLast? = some '!'

/-- A tag in short notation. Without a second mark the word behind the first belongs to the
suffix, and a mark alone is a tag of its own. -/
def shortTag? (c : Cursor) : Option (Tag × Cursor) := do
  let (handle, c) ← handle? c
  let (bytes, c) ← tagBytes? false (c.rest.length + 1) c
  if isNamedHandle handle then
    if bytes = [] then none else pure (⟨String.ofList handle, bytes⟩, c)
  else
    let suffix := handle.tail.map byteOf ++ bytes
    pure (if beforeZero suffix = [] then ⟨"", [byteOf '!']⟩ else ⟨"!", suffix⟩, c)

/-- A tag in full notation. -/
def fullTag? (c : Cursor) : Option (Tag × Cursor) := do
  let (bytes, c) ← tagBytes? true (c.rest.length + 1) (c.advanceBy 2)
  if bytes = [] || !c.at? '>' then none else pure (⟨"", bytes⟩, c.advance)

/-- A tag at its first character. A blank follows it, or a comma inside brackets. -/
def tag? (inFlow : Bool) (c : Cursor) : Option (Tag × Cursor) := do
  let (tag, c) ← if c.peekAt 1 = some '<' then fullTag? c else shortTag? c
  if Cursor.endsWord c.peek || (inFlow && c.at? ',') then pure (tag, c) else none

/-! ## Directives -/

/-- What a directive says. -/
inductive Directive where
  /-- The version of the language. -/
  | version (major minor : Nat)
  /-- What a handle stands for. -/
  | handle (name : String) (expansion : List UInt8)
deriving DecidableEq, Repr

/-- A number of up to nine digits. -/
def versionNumber? (c : Cursor) : Option (Nat × Cursor) :=
  let (digits, rest) := c.takeWhile fun d => '0' ≤ d && d ≤ '9'
  if digits = [] || 9 < digits.length then none
  else some (digits.foldl (fun n d => n * 10 + (d.toNat - 48)) 0, rest)

/-- What follows the name of a version directive. -/
def version? (c : Cursor) : Option (Directive × Cursor) := do
  let (major, c) ← versionNumber? c.skipBlanks
  let (minor, c) ← if c.at? '.' then versionNumber? c.advance else none
  pure (.version major minor, c)

/-- What follows the name of a handle directive. -/
def handleDirective? (c : Cursor) : Option (Directive × Cursor) := do
  let (handle, c) ← handle? c.skipBlanks
  let (bytes, rest) ← tagBytes? true (c.skipBlanks.rest.length + 1) c.skipBlanks
  if (handle = ['!'] || isNamedHandle handle) && c.peek.any isBlank && bytes ≠ []
      && Cursor.endsWord rest.peek then
    pure (.handle (String.ofList handle) bytes, rest)
  else none

/-- A directive behind its first character, with its line. -/
def directive? (c : Cursor) : Option (Directive × Cursor) := do
  let (name, rest) := c.takeWhile isWord
  let (directive, rest) ←
    if !Cursor.endsWord rest.peek then none
    else if name = ['Y', 'A', 'M', 'L'] then version? rest
    else if name = ['T', 'A', 'G'] then handleDirective? rest
    else none
  pure (directive, ← rest.skipRestOfLine?)

end ServiceContract.Yaml
