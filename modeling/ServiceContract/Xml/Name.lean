import ServiceContract.Text
/-!
# Names and the other small parts of markup

The grammar of XML speaks of the characters that may occur at all, those that begin a name and those
that go on with one. A name is written with at most one colon (`QName`); the part before the colon
stands for a namespace. An `ExpandedName` has the namespace itself in its place. Below them are the
readers of the parts that all kinds of markup are made of : blanks, names, quoted literals.
-/

namespace ServiceContract.Xml

open Text

/-! ## Characters -/

/-- The characters that may occur in a document. -/
def isCharacter (c : Char) : Bool :=
  if c.toNat < 0x20 then c = '\t' || c = '\n' || c = '\r'
  else c.toNat ≠ 0xFFFE && c.toNat ≠ 0xFFFF

/-- The ranges of the characters that begin a name. -/
def nameStarts : List (Nat × Nat) :=
  [(0x3A, 0x3A), (0x41, 0x5A), (0x5F, 0x5F), (0x61, 0x7A), (0xC0, 0xD6), (0xD8, 0xF6),
   (0xF8, 0x2FF), (0x370, 0x37D), (0x37F, 0x1FFF), (0x200C, 0x200D), (0x2070, 0x218F),
   (0x2C00, 0x2FEF), (0x3001, 0xD7FF), (0xF900, 0xFDCF), (0xFDF0, 0xFFFD), (0x10000, 0xEFFFF)]

/-- The ranges of the characters that go on with a name but do not begin one. -/
def nameTails : List (Nat × Nat) :=
  [(0x2D, 0x2E), (0x30, 0x39), (0xB7, 0xB7), (0x300, 0x36F), (0x203F, 0x2040)]

/-- The characters that begin a name; the colon is one of them. -/
def isNameStart (c : Char) : Bool := inRanges nameStarts c

/-- The characters of a name behind its first. -/
def isNamePart (c : Char) : Bool := inRanges nameStarts c || inRanges nameTails c

/-! ## Names -/

/-- A name as it is written. -/
structure QName where
  /-- The part before the colon, empty if there is none. -/
  scope : String
  /-- The part behind the colon. -/
  base : String
deriving DecidableEq, Repr, Inhabited

/-- A name in a namespace, or in none. -/
structure ExpandedName where
  /-- The namespace. -/
  space : Option String
  /-- The name inside the namespace. -/
  base : String
deriving DecidableEq, Repr, Inhabited

/-! ## Readers -/

/-- The text behind at least one blank. -/
def blanks? : List Char → Option (List Char)
  | [] => none
  | c :: cs => if isBlank c then some (skipBlanks cs) else none

/-- A name in which colons are ordinary characters. -/
def name? : List Char → Option (List Char × List Char)
  | [] => none
  | c :: cs =>
    if isNameStart c then some (c :: cs.takeWhile isNamePart, cs.dropWhile isNamePart) else none

/-- The characters up to the first colon, and those behind it if there is one. -/
def splitColon : List Char → List Char × Option (List Char)
  | [] => ([], none)
  | c :: cs =>
    if c = ':' then ([], some cs)
    else
      let (before, behind) := splitColon cs
      (c :: before, behind)

/-- A name with at most one colon. The part before the colon may be empty, the part
behind it may not, and both begin as names do. -/
def qname? (cs : List Char) : Option (QName × List Char) :=
  let written := cs.takeWhile isNamePart
  let (scope, base) :=
    match splitColon written with
    | (base, none) => ([], base)
    | (scope, some base) => (scope, base)
  if base.contains ':' || !(base.head?.any isNameStart) || !(scope.head?.all isNameStart) then none
  else some (⟨String.ofList scope, String.ofList base⟩, cs.dropWhile isNamePart)

/-- A quote and the text behind it. -/
def openingQuote? : List Char → Option (Char × List Char)
  | c :: cs => if c = '"' || c = '\'' then some (c, cs) else none
  | [] => none

/-- A quoted literal that may hold any character but its quote. -/
def literal? (cs : List Char) : Option (List Char × List Char) := do
  let (mark, cs) ← openingQuote? cs
  upTo? [mark] cs

/-- The quoted value of an attribute as it is written : characters of XML without the
one that begins a tag. -/
def attributeLiteral? (cs : List Char) : Option (List Char × List Char) := do
  let (written, rest) ← literal? cs
  if written.all fun c => isCharacter c && c ≠ '<' then pure (written, rest) else none

/-- An attribute : its name, an equals sign that may have blanks around it, and its value. -/
def attribute? (cs : List Char) : Option (QName × List Char × List Char) := do
  let (name, cs) ← qname? cs
  let cs ← strip? ['='] (skipBlanks cs)
  let (written, cs) ← attributeLiteral? (skipBlanks cs)
  pure (name, written, cs)

/-- A comment behind its opening. Two hyphens in a row occur only in its end. -/
def comment? (cs : List Char) : Option (List Char × List Char) := do
  let (written, rest) ← upTo? ['-', '-'] cs
  let rest ← strip? ['>'] rest
  if written.all isCharacter then pure (written, rest) else none

/-- A processing instruction behind its opening : its target and its content. -/
def instruction? (cs : List Char) : Option (List Char × List Char × List Char) := do
  let (target, rest) ← name? cs
  let (written, rest) ← upTo? ['?', '>'] (skipBlanks rest)
  if startsWith ['x', 'm', 'l', ' '] cs || !written.all isCharacter then none
  else pure (target, written, rest)

end ServiceContract.Xml
