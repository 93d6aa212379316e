/-!
# Positions in a YAML text

A `Cursor` is the text that is left together with the place where it begins : how many
bytes stand before it, on which line, and in which column. YAML gives columns a meaning
and limits the length of keys, so every step of the reader goes through `advance` and
`nextLine`.
-/

namespace ServiceContract.Yaml

/-- The characters that may occur in a text. -/
def isPrintable (c : Char) : Bool :=
  let n := c.toNat
  n = 0x09 || n = 0x0A || n = 0x0D || (0x20 ≤ n && n ≤ 0x7E) || n = 0x85
    || (0xA0 ≤ n && n ≠ 0xFFFE && n ≠ 0xFFFF)

/-- The characters that separate words on a line. -/
def isBlank (c : Char) : Bool := c = ' ' || c = '\t'

/-- The characters that end a line. -/
def isBreak (c : Char) : Bool :=
  c = '\n' || c = '\r' || c = '\u0085' || c = '\u2028' || c = '\u2029'

/-- The characters of anchors, handles and directive names. -/
def isWord (c : Char) : Bool :=
  ('0' ≤ c && c ≤ '9') || ('A' ≤ c && c ≤ 'Z') || ('a' ≤ c && c ≤ 'z') || c = '_' || c = '-'

/-- A place in a text, with the text from there on. -/
structure Cursor where
  /-- The text that is left. -/
  rest : List Char
  /-- The number of bytes before it in UTF-8. -/
  offset : Nat
  /-- The number of lines before it. -/
  line : Nat
  /-- The number of characters before it on its line. -/
  column : Nat

namespace Cursor

/-- The beginning of a text. -/
def start (text : List Char) : Cursor := ⟨text, 0, 0, 0⟩

/-- The character at the cursor. -/
def peek (c : Cursor) : Option Char := c.rest.head?

/-- The character some places behind the cursor. -/
def peekAt (c : Cursor) (n : Nat) : Option Char := c.rest[n]?

/-- Whether the text begins with a given character. -/
def at? (c : Cursor) (d : Char) : Bool := c.peek = some d

/-- Whether a character is missing, or ends a word. -/
def endsWord : Option Char → Bool
  | none => true
  | some c => isBlank c || isBreak c

/-- The number of bytes of a text in UTF-8. -/
def byteCount (cs : List Char) : Nat := cs.foldl (fun n c => n + c.utf8Size) 0

/-- Move over several characters that do not end a line. -/
def advanceBy (c : Cursor) (n : Nat) : Cursor :=
  ⟨c.rest.drop n, c.offset + byteCount (c.rest.take n), c.line, c.column + n⟩

/-- Move over one character that does not end a line. -/
def advance (c : Cursor) : Cursor := c.advanceBy 1

/-- Move over a line break : what it stands for in the value of a scalar, and the cursor
on the next line. A carriage return with a line feed is one break. -/
def nextLine (c : Cursor) : List Char × Cursor :=
  match c.rest with
  | '\r' :: '\n' :: rest => (['\n'], ⟨rest, c.offset + 2, c.line + 1, 0⟩)
  | d :: rest =>
    (if d = '\u2028' || d = '\u2029' then [d] else ['\n'],
      ⟨rest, c.offset + d.utf8Size, c.line + 1, 0⟩)
  | [] => ([], c)

/-- The characters at the cursor that satisfy a test, none of which ends a line. -/
def takeWhile (c : Cursor) (p : Char → Bool) : List Char × Cursor :=
  let taken := c.rest.takeWhile p
  (taken, c.advanceBy taken.length)

/-- Move over blanks. -/
def skipBlanks (c : Cursor) : Cursor := (c.takeWhile isBlank).2

/-- Move to the end of the line if a comment begins here. -/
def skipComment (c : Cursor) : Cursor :=
  if c.at? '#' then (c.takeWhile (!isBreak ·)).2 else c

/-- Move over blanks, a comment and a line break, if nothing else is left on the line. -/
def skipRestOfLine? (c : Cursor) : Option Cursor :=
  let c := c.skipBlanks.skipComment
  match c.peek with
  | none => some c
  | some d => if isBreak d then some c.nextLine.2 else none

/-- Whether a line begins here with three given characters that stand alone. -/
def atMarker (c : Cursor) (d : Char) : Bool :=
  c.column = 0 && c.rest.take 3 = [d, d, d] && endsWord (c.peekAt 3)

/-- Whether a line begins here that begins or ends a document. -/
def atDocumentMarker (c : Cursor) : Bool := c.atMarker '-' || c.atMarker '.'

end Cursor

end ServiceContract.Yaml
