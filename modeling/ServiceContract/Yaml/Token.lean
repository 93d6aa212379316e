import ServiceContract.Yaml.Tag
/-!
# Tokens

`tokens?` cuts a text into tokens. Two kinds of tokens are not written but follow from
columns : a collection outside brackets begins where a line is indented further than the
collection around it, and it ends where one is indented less. And a key is recognised only
at the colon behind it, so the token that announces it is put back to where the key began :
each place that may be the beginning of a key is kept in mind (`KeyPlace`), one for each pair
of open brackets. Such a key stands on one line and has at most 1024 bytes.
-/

namespace ServiceContract.Yaml

/-- A token. -/
inductive Token where
  /-- A directive. -/
  | directive (d : Directive)
  /-- The mark before a document. -/
  | documentStart
  /-- The mark behind a document. -/
  | documentEnd
  /-- A sequence begins by its indentation. -/
  | blockSequence
  /-- A mapping begins by its indentation. -/
  | blockMapping
  /-- A collection ends by the indentation of what follows. -/
  | blockEnd
  /-- A sequence in brackets begins. -/
  | flowSequence
  /-- A sequence in brackets ends. -/
  | flowSequenceEnd
  /-- A mapping in braces begins. -/
  | flowMapping
  /-- A mapping in braces ends. -/
  | flowMappingEnd
  /-- The dash before an item. -/
  | item
  /-- The comma between items. -/
  | comma
  /-- A key follows. -/
  | key
  /-- A value follows. -/
  | value
  /-- A reference to an anchored node. -/
  | alias (name : String)
  /-- The name of the node that follows. -/
  | anchor (name : String)
  /-- The type of the node that follows. -/
  | tag (t : Tag)
  /-- A scalar. -/
  | scalar (style : Style) (text : String)
deriving DecidableEq, Repr

/-- A place where a key may have begun. -/
structure KeyPlace where
  /-- Whether a key must begin there. -/
  required : Bool
  /-- The number of tokens before it. -/
  count : Nat
  /-- Where it is in the text. -/
  mark : Cursor

/-- What is known while tokens are read. -/
structure Progress where
  /-- The text that is left. -/
  cursor : Cursor
  /-- The tokens so far, the last first. -/
  tokens : List Token
  /-- The number of tokens so far. -/
  count : Nat
  /-- The column of the innermost collection outside brackets, or -1. -/
  indent : Int
  /-- The columns of the collections around it, the innermost first. -/
  outer : List Int
  /-- Whether a key may begin at the next token. -/
  keyAllowed : Bool
  /-- The place where a key may have begun on the innermost level. -/
  place : Option KeyPlace
  /-- The same for the levels around it, one for each pair of open brackets. -/
  places : List (Option KeyPlace)

namespace Progress

/-- Nothing has been read. -/
def start (text : List Char) : Progress := ⟨Cursor.start text, [], 0, -1, [], true, none, []⟩

/-- Whether a bracket is open. -/
def inFlow (p : Progress) : Bool := !p.places.isEmpty

/-- Add a token. -/
def push (p : Progress) (t : Token) : Progress :=
  { p with tokens := t :: p.tokens, count := p.count + 1 }

/-- Add a token where a given number of tokens stand before it. -/
def pushAt (p : Progress) (before : Nat) (t : Token) : Progress :=
  let behind := p.count - before
  { p with tokens := p.tokens.take behind ++ t :: p.tokens.drop behind, count := p.count + 1 }

/-- Move the cursor. -/
def moveTo (p : Progress) (c : Cursor) : Progress := { p with cursor := c }

/-! ## Places of keys -/

/-- Give up the place on the innermost level, unless a key must begin there. -/
def dropPlace? (p : Progress) : Option Progress :=
  if p.place.any (·.required) then none else some { p with place := none }

/-- Keep the cursor in mind as the place of a key, where one is allowed. Outside brackets
one must begin where the line has the indentation of the collection. -/
def savePlace? (p : Progress) : Option Progress :=
  if p.keyAllowed then do
    let required := !p.inFlow && p.indent = p.cursor.column
    pure { (← p.dropPlace?) with place := some ⟨required, p.count, p.cursor⟩ }
  else some p

/-- Whether a place is too far behind for a key. -/
def isStale (p : Progress) (k : KeyPlace) : Bool :=
  k.mark.line < p.cursor.line || k.mark.offset + 1024 < p.cursor.offset

/-- Give up all places that are too far behind. -/
def dropStale? (p : Progress) : Option Progress :=
  if (p.place :: p.places).any fun k => k.any fun k => p.isStale k && k.required then none
  else some { p with
    place := p.place.filter (!p.isStale ·)
    places := p.places.map fun k => k.filter (!p.isStale ·) }

/-! ## Indentation -/

/-- Begin a collection in a column, if it is further than the one around it. The token
stands behind the given number of tokens. -/
def indentTo (p : Progress) (column before : Nat) (t : Token) : Progress :=
  if !p.inFlow && p.indent < column then
    { p with indent := column, outer := p.indent :: p.outer }.pushAt before t
  else p

/-- End the collections that are indented further than a column. -/
def closeBlocks (column : Int) : List Int → Progress → Progress
  | [], p => p
  | around :: outer, p =>
    if column < p.indent then
      closeBlocks column outer { p.push .blockEnd with indent := around, outer }
    else p

/-- End the collections that are indented further than a column, outside brackets. -/
def unindentTo (p : Progress) (column : Int) : Progress :=
  if p.inFlow then p else closeBlocks column p.outer p

/-! ## Between tokens -/

/-- Move over blanks, comments and line breaks. A tab is a blank where no key may begin. -/
def skipToToken : Nat → Progress → Progress
  | 0, p => p
  | fuel + 1, p =>
    let c := if p.cursor.column = 0 && p.cursor.at? '\uFEFF' then p.cursor.advance else p.cursor
    let c := (c.takeWhile fun d => d = ' ' || ((p.inFlow || !p.keyAllowed) && d = '\t')).2
    let c := c.skipComment
    if c.peek.any isBreak then
      let p := p.moveTo c.nextLine.2
      skipToToken fuel (if p.inFlow then p else { p with keyAllowed := true })
    else p.moveTo c

/-! ## Single tokens -/

/-- A token that ends everything before it, at the beginning of a line. -/
def breakOff? (p : Progress) : Option Progress := do
  pure { (← (p.unindentTo (-1)).dropPlace?) with keyAllowed := false }

/-- A bracket that opens. -/
def openFlow? (p : Progress) (t : Token) : Option Progress := do
  let p ← p.savePlace?
  let p := { p with places := p.place :: p.places, place := none, keyAllowed := true }
  pure ((p.push t).moveTo p.cursor.advance)

/-- A bracket that closes. -/
def closeFlow? (p : Progress) (t : Token) : Option Progress := do
  let p ← p.dropPlace?
  let p := { p with place := p.places.head?.join, places := p.places.tail, keyAllowed := false }
  pure ((p.push t).moveTo p.cursor.advance)

/-- A comma between brackets. -/
def comma? (p : Progress) : Option Progress := do
  let p ← p.dropPlace?
  pure ({ p with keyAllowed := true }.push .comma |>.moveTo p.cursor.advance)

/-- The dash before an item. -/
def item? (p : Progress) : Option Progress := do
  if !p.inFlow && !p.keyAllowed then none
  else
    let p ← (p.indentTo p.cursor.column p.count .blockSequence).dropPlace?
    pure ({ p with keyAllowed := true }.push .item |>.moveTo p.cursor.advance)

/-- The mark before a key. -/
def key? (p : Progress) : Option Progress := do
  if !p.inFlow && !p.keyAllowed then none
  else
    let p ← (p.indentTo p.cursor.column p.count .blockMapping).dropPlace?
    pure ({ p with keyAllowed := !p.inFlow }.push .key |>.moveTo p.cursor.advance)

/-- The colon before a value. If a key may have begun on this level, it has. -/
def value? (p : Progress) : Option Progress :=
  match p.place with
  | some k =>
    let p := (p.pushAt k.count .key).indentTo k.mark.column k.count .blockMapping
    some ({ p with place := none, keyAllowed := false }.push .value |>.moveTo p.cursor.advance)
  | none =>
    if !p.inFlow && !p.keyAllowed then none
    else
      let p := p.indentTo p.cursor.column p.count .blockMapping
      some ({ p with keyAllowed := !p.inFlow }.push .value |>.moveTo p.cursor.advance)

/-- A token with which a key may begin, and behind which none may. -/
def word? (p : Progress) (read : Cursor → Option (Token × Cursor)) : Option Progress := do
  let p ← p.savePlace?
  let (t, c) ← read p.cursor
  pure ({ p with keyAllowed := false }.push t |>.moveTo c)

/-- A plain scalar. A line break behind it allows a key. -/
def plainScalar? (p : Progress) : Option Progress := do
  let p ← p.savePlace?
  let (text, broken, c) ← plain? p.inFlow (p.indent + 1).toNat p.cursor
  pure ({ p with keyAllowed := broken }.push (.scalar .plain (String.ofList text)) |>.moveTo c)

/-- A block. -/
def blockScalar? (p : Progress) : Option Progress := do
  let p ← p.dropPlace?
  let (text, c) ← block? p.indent p.cursor
  pure ({ p with keyAllowed := true }.push (.scalar .quoted (String.ofList text)) |>.moveTo c)

/-- Whether a plain scalar may begin with a character, given the one behind it. -/
def beginsPlain (inFlow : Bool) (d : Char) (next : Option Char) : Bool :=
  if d = '-' then !next.any isBlank
  else if d = '?' || d = ':' then !inFlow && !Cursor.endsWord next
  else !isBlank d && !isFlowIndicator d
    && !(['#', '&', '*', '!', '|', '>', '\'', '"', '%', '@', '`'].contains d)

/-- The next token, at a character that begins it. -/
def next? (p : Progress) (d : Char) : Option Progress :=
  let c := p.cursor
  let stands := Cursor.endsWord (c.peekAt 1)
  if c.column = 0 && d = '%' then do
    let p ← p.breakOff?
    let (directive, c) ← directive? c.advance
    pure ((p.push (.directive directive)).moveTo c)
  else if c.atMarker '-' then
    p.breakOff?.map fun p => (p.push .documentStart).moveTo (c.advanceBy 3)
  else if c.atMarker '.' then
    p.breakOff?.map fun p => (p.push .documentEnd).moveTo (c.advanceBy 3)
  else if d = '[' then p.openFlow? .flowSequence
  else if d = '{' then p.openFlow? .flowMapping
  else if d = ']' then p.closeFlow? .flowSequenceEnd
  else if d = '}' then p.closeFlow? .flowMappingEnd
  else if d = ',' then p.comma?
  else if d = '-' && stands then p.item?
  else if d = '?' && (p.inFlow || stands) then p.key?
  else if d = ':' && (p.inFlow || stands) then p.value?
  else if d = '*' then
    p.word? fun c => (anchor? c.advance).map fun (name, c) => (.alias name, c)
  else if d = '&' then
    p.word? fun c => (anchor? c.advance).map fun (name, c) => (.anchor name, c)
  else if d = '!' then p.word? fun c => (tag? p.inFlow c).map fun (t, c) => (.tag t, c)
  else if (d = '|' || d = '>') && !p.inFlow then p.blockScalar?
  else if d = '\'' || d = '"' then
    p.word? fun c => (quoted? c).map fun (text, c) => (.scalar .quoted (String.ofList text), c)
  else if beginsPlain p.inFlow d (c.peekAt 1) then p.plainScalar?
  else none

/-- The end of the text : it ends all collections, and a key that must begin must have ended. -/
def finish? (p : Progress) : Option Progress := do
  pure (← (p.unindentTo (-1)).dropPlace?)

/-- All tokens. -/
def run? : Nat → Progress → Option Progress
  | 0, _ => none
  | fuel + 1, p => do
    let p ← (skipToToken (fuel + 1) p).dropStale?
    let p := p.unindentTo p.cursor.column
    match p.cursor.peek with
    | none => p.finish?
    | some d => run? fuel (← p.next? d)

end Progress

/-- The tokens of a text. -/
def tokens? (text : List Char) : Option (List Token) :=
  if text.all isPrintable then
    (Progress.run? (text.length + 1) (Progress.start text)).map (·.tokens.reverse)
  else none

end ServiceContract.Yaml
