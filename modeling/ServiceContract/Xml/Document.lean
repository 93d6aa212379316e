import ServiceContract.Xml.Content
/-!
# Documents

`read?` accepts a document : perhaps a byte order mark, an XML declaration and a document type
declaration, with comments and processing instructions between them, then one element. The
internal subset of a document type declaration is read for the entities it declares; the
declarations of elements, attributes and notations are passed over. External entities are
never fetched : a reference to one is a reference to an entity without declaration.
-/

namespace ServiceContract.Xml

open Text

/-! ## The XML declaration -/

/-- At least one blank, unless the declaration ends here. -/
def declarationBlanks? (cs : List Char) : Option (List Char) :=
  if cs = [] || startsWith ['?', '>'] cs then some cs else blanks? cs

/-- An attribute of the declaration that may be left out. -/
def optional? (name : List Char) (cs : List Char) : Option (List Char) :=
  if startsWith name cs then do
    let (_, _, rest) ← attribute? cs
    declarationBlanks? rest
  else some cs

/-- An XML declaration behind its opening. -/
def declaration? (cs : List Char) : Option (List Char) := do
  let (_, _, cs) ← if startsWith ['v', 'e', 'r', 's', 'i', 'o', 'n'] (skipBlanks cs)
    then attribute? (skipBlanks cs) else none
  let cs ← declarationBlanks? cs
  let cs ← optional? ['e', 'n', 'c', 'o', 'd', 'i', 'n', 'g'] cs
  let cs ← if startsWith ['s', 't', 'a', 'n', 'd', 'a', 'l', 'o', 'n', 'e'] cs
    then (attribute? cs).map (·.2.2) else some cs
  strip? ['?', '>'] (skipBlanks cs)

/-! ## Between the declarations -/

/-- The text behind a comment or processing instruction. -/
def remark? (cs : List Char) : Option (List Char) :=
  match strip? ['<', '!', '-', '-'] cs with
  | some rest => (comment? rest).map (·.2)
  | none => do
    let rest ← strip? ['<', '?'] cs
    (instruction? rest).map (·.2.2)

/-- Whether a comment or processing instruction begins. -/
def beginsRemark (cs : List Char) : Bool :=
  startsWith ['<', '!', '-', '-'] cs || startsWith ['<', '?'] cs

/-- The text behind blanks, comments and processing instructions. -/
def skipRemarks? : Nat → List Char → Option (List Char)
  | 0, _ => none
  | fuel + 1, cs =>
    let cs := skipBlanks cs
    if beginsRemark cs then do skipRemarks? fuel (← remark? cs) else some cs

/-! ## The document type declaration -/

/-- A literal, and the text behind it, after at least one blank. -/
def spacedLiteral? (cs : List Char) : Option (List Char) := do
  let cs ← blanks? cs
  (literal? cs).map (·.2)

/-- An external identifier : a system literal, or a public and a system literal. -/
def externalId? (cs : List Char) : Option (List Char) :=
  match strip? ['S', 'Y', 'S', 'T', 'E', 'M'] cs with
  | some rest => spacedLiteral? rest
  | none => do
    let rest ← strip? ['P', 'U', 'B', 'L', 'I', 'C'] cs
    spacedLiteral? (← spacedLiteral? rest)

/-- The text behind the notation of an entity that is not XML, if one is named. -/
def skipUnparsed? (cs : List Char) : Option (List Char) :=
  match strip? ['N', 'D', 'A', 'T', 'A'] (skipBlanks cs) with
  | some rest => do
    let rest ← blanks? rest
    (name? rest).map (·.2)
  | none => some (skipBlanks cs)

/-- An entity declaration behind its opening : the name, the text if it is given in place,
and what follows. -/
def entity? (cs : List Char) : Option (String × Option (List Char) × List Char) := do
  let cs ← blanks? cs
  let general := !startsWith ['%'] cs
  let cs ← if general then some cs else blanks? (cs.drop 1)
  let (name, cs) ← name? cs
  let cs ← blanks? cs
  let (text, cs) ←
    if startsWith ['S'] cs || startsWith ['P'] cs then do
      let rest ← externalId? cs
      pure (none, ← if general then skipUnparsed? rest else some rest)
    else (literal? cs).map fun (text, rest) => (some text, rest)
  let rest ← strip? ['>'] (skipBlanks cs)
  pure (String.ofList name, text, rest)

/-- The declarations that are passed over. -/
def isPassedOver (cs : List Char) : Bool :=
  startsWith ['<', '!', 'E', 'L', 'E', 'M', 'E', 'N', 'T'] cs
    || startsWith ['<', '!', 'A', 'T', 'T', 'L', 'I', 'S', 'T'] cs
    || startsWith ['<', '!', 'N', 'O', 'T', 'A', 'T', 'I', 'O', 'N'] cs

/-- The entities of an internal subset, and the text behind its end. -/
def subset? : Nat → List Char → Option (Entities × List Char)
  | 0, _ => none
  | fuel + 1, cs =>
    let cs := skipBlanks cs
    match strip? ['<', '!', 'E', 'N', 'T', 'I', 'T', 'Y'] cs with
    | some rest => do
      let (name, text, rest) ← entity? rest
      let (others, rest) ← subset? fuel rest
      pure ((text.map fun text => (name, text)).toList ++ others, rest)
    | none =>
      if beginsRemark cs then do subset? fuel (← remark? cs)
      else if isPassedOver cs then do subset? fuel (← upTo? ['>'] cs).2
      else do
        let rest ← strip? [']'] cs
        let rest ← strip? ['>'] (skipBlanks rest)
        pure ([], rest)

/-- A document type declaration behind its opening : the entities it declares. -/
def doctype? (cs : List Char) : Option (Entities × List Char) := do
  let cs ← blanks? cs
  let (_, cs) ← name? cs
  let cs := skipBlanks cs
  let hasId := startsWith ['S', 'Y', 'S', 'T', 'E', 'M'] cs
    || startsWith ['P', 'U', 'B', 'L', 'I', 'C'] cs
  let cs ← if hasId then externalId? cs else some cs
  match skipBlanks cs with
  | '>' :: rest => pure ([], rest)
  | '[' :: rest => subset? (rest.length + 1) rest
  | _ => none

/-! ## The whole document -/

/-- The root element behind everything that may stand before it. -/
def rootElement? (entities : Entities) (cs : List Char) : Option Node := do
  let cs ← strip? ['<'] cs
  let (isOpen, rest, d) ← startTag? entities maxDepth cs Draft.empty
  let (rest, d) ← if isOpen then content? entities maxDepth rest d else some (rest, d)
  let rest ← skipRemarks? (rest.length + 1) rest
  if rest = [] then d.root? else none

/-- The root element of a document, if the text is one. -/
def read? (text : String) : Option Node := do
  let cs := text.toList
  let cs := (strip? ['\uFEFF'] cs).getD cs
  let cs ← match strip? ['<', '?', 'x', 'm', 'l', ' '] cs with
    | some rest => declaration? rest
    | none => some cs
  let cs ← skipRemarks? (cs.length + 1) cs
  match strip? ['<', '!', 'D', 'O', 'C', 'T', 'Y', 'P', 'E'] cs with
  | some rest =>
    let (entities, rest) ← doctype? rest
    let rest ← skipRemarks? (rest.length + 1) rest
    rootElement? entities rest
  | none => rootElement? [] cs

end ServiceContract.Xml
