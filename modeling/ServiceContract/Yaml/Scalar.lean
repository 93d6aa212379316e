import ServiceContract.Number
import ServiceContract.Yaml.Cursor
/-!
# Scalars

The three notations of scalars : quoted, plain, and blocks. Inside quoted and plain scalars
a single line break becomes a blank and further ones stay (`Fold`); in a block the
indentation decides what belongs to it.
-/

namespace ServiceContract.Yaml

/-- How a scalar is written. -/
inductive Style where
  /-- Without quotes, so that its text may stand for a value that is no string. -/
  | plain
  /-- Between quotes or as a block, so that it is a string. -/
  | quoted
deriving DecidableEq, Repr

/-! ## Line breaks inside a scalar -/

/-- The blanks and line breaks between two words of a scalar. -/
structure Fold where
  /-- Whether there has been a line break, so that further blanks are indentation. -/
  broken : Bool
  /-- The blanks before any line break. -/
  blanks : List Char
  /-- The first line break. -/
  first : List Char
  /-- The line breaks after the first. -/
  others : List Char

namespace Fold

/-- Nothing between two words. -/
def none : Fold := ⟨false, [], [], []⟩

/-- What stands between two words for a fold : blanks as they are, one line break as a
blank, and of several line breaks all but the first. -/
def text (f : Fold) : List Char :=
  if !f.broken then f.blanks
  else if f.first.head? = some '\n' then
    if f.others = [] then [' '] else f.others
  else f.first ++ f.others

/-- Take up the blanks and line breaks at the cursor. Where a line may not be indented by
a tab, `limit` is the column that the indentation must reach. -/
def read? (limit : Nat) : Nat → Fold → Cursor → Option (Fold × Cursor)
  | 0, _, _ => Option.none
  | fuel + 1, f, c =>
    match c.peek with
    | Option.none => some (f, c)
    | some d =>
      if isBlank d then
        if f.broken && c.column < limit && d = '\t' then Option.none
        else if f.broken then read? limit fuel f c.advance
        else read? limit fuel { f with blanks := f.blanks ++ [d] } c.advance
      else if isBreak d then
        let (text, c) := c.nextLine
        if f.broken then read? limit fuel { f with others := f.others ++ text } c
        else read? limit fuel { f with broken := true, blanks := [], first := text } c
      else some (f, c)

end Fold

/-! ## Quoted scalars -/

/-- What the letter behind a backslash stands for : a character, or the number of
hexadecimal digits that give one. -/
def escape? : Char → Option (Char ⊕ Nat)
  | '0' => some (.inl '\x00')
  | 'a' => some (.inl '\x07')
  | 'b' => some (.inl '\x08')
  | 't' => some (.inl '\t')
  | '\t' => some (.inl '\t')
  | 'n' => some (.inl '\n')
  | 'v' => some (.inl '\x0b')
  | 'f' => some (.inl '\x0c')
  | 'r' => some (.inl '\r')
  | 'e' => some (.inl '\x1b')
  | ' ' => some (.inl ' ')
  | '"' => some (.inl '"')
  | '/' => some (.inl '/')
  | '\\' => some (.inl '\\')
  | 'N' => some (.inl '\u0085')
  | '_' => some (.inl '\u00a0')
  | 'L' => some (.inl '\u2028')
  | 'P' => some (.inl '\u2029')
  | 'x' => some (.inr 2)
  | 'u' => some (.inr 4)
  | 'U' => some (.inr 8)
  | _ => none

/-- The character of an escape, behind its backslash. -/
def escaped? (c : Cursor) : Option (Char × Cursor) := do
  match ← escape? (← c.peek) with
  | .inl d => pure (d, c.advance)
  | .inr count =>
    let digits := (c.advance.rest).take count
    let n ← Digits.number? 16 digits
    if digits.length = count && n.isValidChar then pure (Char.ofNat n, c.advance.advanceBy count)
    else none

/-- The characters of a quoted scalar up to a blank, a line break or the closing quote. The
flag tells that they end in an escaped line break, which stands for nothing. -/
def quotedWord? (mark : Char) : Nat → Cursor → Option (List Char × Bool × Cursor)
  | 0, _ => none
  | fuel + 1, c =>
    match c.peek with
    | none => some ([], false, c)
    | some d =>
      if isBlank d || isBreak d then some ([], false, c)
      else if d = mark then
        if mark = '\'' && c.peekAt 1 = some '\'' then
          (quotedWord? mark fuel (c.advanceBy 2)).map fun (word, rest) => ('\'' :: word, rest)
        else some ([], false, c)
      else if d = '\\' && mark = '"' then
        match c.peekAt 1 with
        | none => none
        | some e =>
          if isBreak e then some ([], true, c.advance.nextLine.2)
          else do
            let (e, c) ← escaped? c.advance
            (quotedWord? mark fuel c).map fun (word, rest) => (e :: word, rest)
      else (quotedWord? mark fuel c.advance).map fun (word, rest) => (d :: word, rest)

/-- The words of a quoted scalar up to the closing quote. No document may begin or end
inside. -/
def quotedWords? (mark : Char) : Nat → Cursor → Option (List Char × Cursor)
  | 0, _ => none
  | fuel + 1, c =>
    if c.atDocumentMarker || c.rest = [] then none
    else do
      let (word, joined, c) ← quotedWord? mark (c.rest.length + 1) c
      if c.at? mark then pure (word, c.advance)
      else
        let (fold, c) ← Fold.read? 0 (c.rest.length + 1) { Fold.none with broken := joined } c
        let (others, c) ← quotedWords? mark fuel c
        pure (word ++ fold.text ++ others, c)

/-- A quoted scalar at its first quote. -/
def quoted? (c : Cursor) : Option (List Char × Cursor) := do
  quotedWords? (← c.peek) (c.rest.length + 1) c.advance

/-! ## Plain scalars -/

/-- The characters that have a meaning of their own inside brackets. -/
def isFlowIndicator (c : Char) : Bool := [',', '[', ']', '{', '}'].contains c

/-- The characters of a plain scalar up to a blank, a line break or an indicator that ends
it. Inside brackets a colon must not stand before another indicator. -/
def plainWord? (inFlow : Bool) : Nat → Cursor → Option (List Char × Cursor)
  | 0, _ => none
  | fuel + 1, c =>
    match c.peek with
    | none => some ([], c)
    | some d =>
      if isBlank d || isBreak d then some ([], c)
      else if inFlow && d = ':' && (c.peekAt 1).any (fun e => e = '?' || isFlowIndicator e)
      then none
      else if (d = ':' && Cursor.endsWord (c.peekAt 1)) || (inFlow && isFlowIndicator d) then
        some ([], c)
      else (plainWord? inFlow fuel c.advance).map fun (word, rest) => (d :: word, rest)

/-- The words of a plain scalar, behind the given fold. The flag tells whether the scalar
is followed by a line break. A line outside brackets must be indented by `limit`. -/
def plainWords? (inFlow : Bool) (limit : Nat) :
    Nat → Fold → Cursor → Option (List Char × Bool × Cursor)
  | 0, _, _ => none
  | fuel + 1, before, c =>
    if c.atDocumentMarker || c.at? '#' then some ([], before.broken, c)
    else do
      let (word, c) ← plainWord? inFlow (c.rest.length + 1) c
      let joined := if word = [] then [] else before.text ++ word
      let fold := if word = [] then before else Fold.none
      if !(c.peek.any fun d => isBlank d || isBreak d) then pure (joined, fold.broken, c)
      else
        let (fold, c) ← fold.read? limit (c.rest.length + 1) c
        if !inFlow && c.column < limit then pure (joined, fold.broken, c)
        else
          let (others, broken, c) ← plainWords? inFlow limit fuel fold c
          pure (joined ++ others, broken, c)

/-- A plain scalar, and whether a line break follows it. -/
def plain? (inFlow : Bool) (limit : Nat) (c : Cursor) : Option (List Char × Bool × Cursor) :=
  plainWords? inFlow limit (c.rest.length + 1) Fold.none c

/-! ## Block scalars -/

/-- What becomes of the line breaks at the end of a block. -/
inductive Chomping where
  /-- The last line keeps its break. -/
  | clip
  /-- No break is kept. -/
  | strip
  /-- All breaks are kept. -/
  | keep
deriving DecidableEq, Repr

/-- The indicators in the first line of a block : what becomes of the line breaks at its
end, and how far it is indented if that is given. -/
structure BlockHeader where
  /-- What becomes of the line breaks at the end. -/
  chomping : Chomping
  /-- How far the block is indented, or zero. -/
  indent : Nat

/-- An indicator for the line breaks at the end. -/
def chomping? (c : Cursor) : Option (Chomping × Cursor) :=
  if c.at? '+' then some (.keep, c.advance)
  else if c.at? '-' then some (.strip, c.advance)
  else none

/-- An indicator for the indentation, which is not zero. -/
def indentation? (c : Cursor) : Option (Option Nat × Cursor) :=
  match c.peek with
  | some d =>
    if d = '0' then none
    else if '1' ≤ d && d ≤ '9' then some (some (d.toNat - 48), c.advance)
    else some (none, c)
  | none => some (none, c)

/-- The first line of a block behind its first character. The two indicators may stand in
either order. -/
def blockHeader? (c : Cursor) : Option (BlockHeader × Cursor) := do
  match chomping? c with
  | some (chomping, c) =>
    let (indent, c) ← indentation? c
    pure (⟨chomping, indent.getD 0⟩, ← c.skipRestOfLine?)
  | none =>
    let (indent, c) ← indentation? c
    match indent, chomping? c with
    | some n, some (chomping, c) => pure (⟨chomping, n⟩, ← c.skipRestOfLine?)
    | _, _ => pure (⟨.clip, indent.getD 0⟩, ← c.skipRestOfLine?)

/-- The empty lines at the cursor : their breaks, the deepest column reached, and the cursor
behind the indentation of the next line. While the indentation is not known (zero), all
blanks belong to it. -/
def emptyLines? (indent : Nat) : Nat → Nat → Cursor → Option (List Char × Nat × Cursor)
  | 0, _, _ => none
  | fuel + 1, deepest, c =>
    let inside := fun (c : Cursor) => indent = 0 || c.column < indent
    let blanks := c.rest.takeWhile (· = ' ')
    let count := if indent = 0 then blanks.length else min blanks.length (indent - c.column)
    let c := c.advanceBy count
    let deepest := max deepest c.column
    if inside c && c.at? '\t' then none
    else if c.peek.any isBreak then do
      let (text, c) := c.nextLine
      let (breaks, deepest, c) ← emptyLines? indent fuel deepest c
      pure (text ++ breaks, deepest, c)
    else some ([], deepest, c)

/-- The lines of a block from the cursor on, joined. `first` is the break that ends the
line before, `others` are the breaks of empty lines after it, and `blank` tells whether the
line before begins with a blank. In a folded block the break between two lines that begin
with no blank is folded. The result ends with what the end of the block keeps. -/
def blockLines? (isLiteral : Bool) (chomping : Chomping) (indent : Nat) :
    Nat → List Char → List Char → Bool → Cursor → Option (List Char × Cursor)
  | 0, _, _, _, _ => none
  | fuel + 1, first, others, blank, c =>
    if c.column = indent && c.rest ≠ [] then do
      let indented := c.peek.any isBlank
      let folded := !isLiteral && first.head? = some '\n' && !blank && !indented
      let joint := if folded then (if others = [] then [' '] else others) else first ++ others
      let (line, c) := c.takeWhile (!isBreak ·)
      let (next, c) := c.nextLine
      let (breaks, _, c) ← emptyLines? indent (c.rest.length + 1) 0 c
      let (text, c) ← blockLines? isLiteral chomping indent fuel next breaks indented c
      pure (joint ++ line ++ text, c)
    else
      match chomping with
      | .strip => some ([], c)
      | .clip => some (first, c)
      | .keep => some (first ++ others, c)

/-- A block at its first character, inside a collection that is indented by `outer`, which
is less than zero outside of all collections. -/
def block? (outer : Int) (c : Cursor) : Option (List Char × Cursor) := do
  let isLiteral := c.at? '|'
  let (header, c) ← blockHeader? c.advance
  let given := if header.indent = 0 then 0 else (max outer 0).toNat + header.indent
  let (breaks, deepest, c) ← emptyLines? given (c.rest.length + 1) 0 c
  let indent := if given = 0 then max deepest (max (outer + 1) 1).toNat else given
  blockLines? isLiteral header.chomping indent (c.rest.length + 1) [] breaks false c

end ServiceContract.Yaml
