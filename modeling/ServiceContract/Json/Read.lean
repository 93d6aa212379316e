import ServiceContract.Number
import ServiceContract.Json
import ServiceContract.Text
/-!
# Reading JSON

`Json.read?` accepts exactly the JSON texts : one value with blanks around it. The
members of an object stay as they are written, repeated names included; what a repeated
name means is for those who use the value.

A number without fraction and exponent is an integer if it fits into 64 bits, with or
without sign, and the nearest floating point number otherwise; so is a negative zero. Each
reader takes the characters that are left and returns its result with those behind it. The
readers of values take one unit of fuel a step, and twice the length of the text suffices,
because no two steps in a row leave the text as it is.

Strings may name half of a surrogate pair, which is no character. Such a string is JSON, but it
is no text : it is accepted where nobody looks at it, and an `Interest` says where that is
(`readPart?`).
-/

namespace ServiceContract.Json

open Text

/-! ## Interest -/

/-- What of a value is looked at. -/
inductive Interest where
  /-- Nothing. -/
  | nothing
  /-- All of it. -/
  | everything
  /-- The members with some names; of an array, the items at the places of the names. -/
  | members (fields : List (String × Interest))

namespace Interest

/-- Whether a value is looked at. -/
def isSome : Interest → Bool
  | nothing => false
  | _ => true

/-- What is looked at of the member with a name. -/
def member : Interest → String → Interest
  | members fields, name => (fields.lookup name).getD nothing
  | i, _ => i

/-- What is looked at of the item at a place. -/
def item : Interest → Nat → Interest
  | members fields, place => (fields[place]?.map Prod.snd).getD nothing
  | i, _ => i

end Interest

/-! ## Strings -/

/-- The number that four hexadecimal digits stand for. -/
def hexQuad? : List Char → Option (Nat × List Char)
  | a :: b :: c :: d :: rest => (Digits.number? 16 [a, b, c, d]).map fun n => (n, rest)
  | _ => none

/-- The character of an escape that has one letter. -/
def escaped? : Char → Option Char
  | '"' => some '"'
  | '\\' => some '\\'
  | '/' => some '/'
  | 'b' => some '\x08'
  | 'f' => some '\x0c'
  | 'n' => some '\n'
  | 'r' => some '\r'
  | 't' => some '\t'
  | _ => none

/-- The character of an escape by number, behind its letter. In a text two halves of a
surrogate pair make one character, and half a pair is refused; elsewhere each half stands for
an unknown character. -/
def numbered? (isText : Bool) (cs : List Char) : Option (Char × List Char) := do
  let (n, rest) ← hexQuad? cs
  if !isText then pure (if n.isValidChar then Char.ofNat n else '\uFFFD', rest)
  else if 0xD800 ≤ n ∧ n < 0xDC00 then
    let rest ← strip? ['\\', 'u'] rest
    let (m, rest) ← hexQuad? rest
    if 0xDC00 ≤ m ∧ m < 0xE000 then
      pure (Char.ofNat (0x10000 + (n - 0xD800) * 0x400 + (m - 0xDC00)), rest)
    else none
  else if 0xDC00 ≤ n ∧ n < 0xE000 then none
  else pure (Char.ofNat n, rest)

/-- The characters of a string behind its first quote, up to the second. -/
def characters (isText : Bool) : Nat → List Char → Option (List Char × List Char)
  | 0, _ => none
  | _ + 1, [] => none
  | fuel + 1, c :: cs =>
    if c = '"' then some ([], cs)
    else if c.toNat < 0x20 then none
    else if c = '\\' then
      match cs with
      | [] => none
      | 'u' :: rest => do
        let (d, rest) ← numbered? isText rest
        let (ds, rest) ← characters isText fuel rest
        pure (d :: ds, rest)
      | e :: rest => do
        let d ← escaped? e
        let (ds, rest) ← characters isText fuel rest
        pure (d :: ds, rest)
    else do
      let (ds, rest) ← characters isText fuel cs
      pure (c :: ds, rest)

/-- A string behind its first quote. -/
def string? (isText : Bool) (cs : List Char) : Option (String × List Char) :=
  (characters isText (cs.length + 1) cs).map fun (ds, rest) => (String.ofList ds, rest)

/-! ## Numbers -/

/-- The digits at the start and the text behind them. -/
def digits (cs : List Char) : List Char × List Char :=
  (cs.takeWhile Digits.isDecimal, cs.dropWhile Digits.isDecimal)

/-- The fraction of a number : a point and at least one digit, or nothing. -/
def fraction? : List Char → Option (List Char × List Char)
  | '.' :: cs =>
    match digits cs with
    | ([], _) => none
    | (ds, rest) => some (ds, rest)
  | cs => some ([], cs)

/-- The sign of an exponent. -/
def exponentSign : List Char → Bool × List Char
  | '-' :: cs => (true, cs)
  | '+' :: cs => (false, cs)
  | cs => (false, cs)

/-- The exponent of a number : a letter, perhaps a sign, and at least one digit, or nothing. -/
def exponent? (cs : List Char) : Option (Option Int × List Char) :=
  match cs with
  | c :: rest =>
    if c = 'e' || c = 'E' then
      let (negative, rest) := exponentSign rest
      let (ds, rest) := digits rest
      (Digits.number? 10 ds).map fun n => (some (if negative then -(n : Int) else n), rest)
    else some (none, cs)
  | [] => some (none, [])

/-- The value of an integer literal. -/
def integer (negative : Bool) (n : Nat) : Json :=
  let signed : Int := if negative then -n else n
  if Integer.fits 64 signed && !(negative && n = 0) then .int signed
  else .float (.ofDecimal negative n 0)

/-- A number behind its sign. Only a zero that stands alone before the point begins
with a zero. -/
def number? (negative : Bool) (cs : List Char) : Option (Json × List Char) := do
  let (whole, rest) := digits cs
  if whole = [] || (whole.head? = some '0' && whole.length ≠ 1) then none
  else
    let (part, rest) ← fraction? rest
    let (power, rest) ← exponent? rest
    let n ← Digits.number? 10 (whole ++ part)
    if part = [] && power = none then pure (integer negative n, rest)
    else pure (.float (.ofDecimal negative n (power.getD 0 - part.length)), rest)

/-! ## Values -/

mutual

/-- A value, with blanks before it. -/
def readValue : Nat → Interest → List Char → Option (Json × List Char)
  | 0, _, _ => none
  | fuel + 1, interest, cs =>
    match skipBlanks cs with
    | [] => none
    | c :: rest =>
      if c = '{' then
        match skipBlanks rest with
        | '}' :: rest => some (.object [], rest)
        | rest => (readMembers fuel interest rest).map fun (ms, rest) => (.object ms, rest)
      else if c = '[' then
        match skipBlanks rest with
        | ']' :: rest => some (.array [], rest)
        | rest => (readItems fuel interest 0 rest).map fun (vs, rest) => (.array vs, rest)
      else if c = '"' then (string? interest.isSome rest).map fun (s, rest) => (.string s, rest)
      else if c = '-' then number? true rest
      else if Digits.isDecimal c then number? false (c :: rest)
      else if c = 't' then (strip? ['r', 'u', 'e'] rest).map fun rest => (.bool true, rest)
      else if c = 'f' then (strip? ['a', 'l', 's', 'e'] rest).map fun rest => (.bool false, rest)
      else if c = 'n' then (strip? ['u', 'l', 'l'] rest).map fun rest => (.null, rest)
      else none

/-- The items of an array from a place on, at least one, up to its end. -/
def readItems : Nat → Interest → Nat → List Char → Option (List Json × List Char)
  | 0, _, _, _ => none
  | fuel + 1, interest, place, cs => do
    let (v, rest) ← readValue fuel (interest.item place) cs
    match skipBlanks rest with
    | ']' :: rest => pure ([v], rest)
    | ',' :: rest =>
      let (vs, rest) ← readItems fuel interest (place + 1) rest
      pure (v :: vs, rest)
    | _ => none

/-- The members of an object, at least one, up to its end. -/
def readMembers : Nat → Interest → List Char → Option (List (String × Json) × List Char)
  | 0, _, _ => none
  | fuel + 1, interest, cs => do
    let rest ← strip? ['"'] (skipBlanks cs)
    let (key, rest) ← string? interest.isSome rest
    let rest ← strip? [':'] (skipBlanks rest)
    let (v, rest) ← readValue fuel (interest.member key) rest
    match skipBlanks rest with
    | '}' :: rest => pure ([(key, v)], rest)
    | ',' :: rest =>
      let (ms, rest) ← readMembers fuel interest rest
      pure ((key, v) :: ms, rest)
    | _ => none

end

/-- The value that characters make, if they are JSON and what is looked at is text. -/
def readPart? (interest : Interest) (cs : List Char) : Option Json := do
  let (v, rest) ← readValue (2 * cs.length + 2) interest cs
  if skipBlanks rest = [] then pure v else none

/-- The value that a text holds, if the text is JSON. -/
def read? (s : String) : Option Json := readPart? .everything s.toList

/-! ## Bytes -/

/-- The character that bytes begin with in UTF-8, and the number of its bytes. -/
def leading? (bytes : List UInt8) : Option (Char × Nat) :=
  [1, 2, 3, 4].findSome? fun count =>
    match (String.fromUTF8? ⟨(bytes.take count).toArray⟩).map String.toList with
    | some [c] => some (c, count)
    | _ => none

/-- What stands for a byte that belongs to no character : like the byte it may stand in a string
that is not looked at, and nowhere else. -/
def strayByte : List Char := ['x', '\\', 'u', 'D', 'C', '0', '0']

/-- The characters of bytes behind some that have been read. -/
def charactersFrom : Nat → List UInt8 → List Char
  | _, [] => []
  | skipped + 1, _ :: rest => charactersFrom skipped rest
  | 0, first :: rest =>
    match leading? (first :: rest) with
    | some (c, count) => c :: charactersFrom (count - 1) rest
    | none => strayByte ++ charactersFrom 0 rest

/-- The value that bytes hold, if they are JSON and what is looked at is text. -/
def readBytes? (interest : Interest) (bytes : ByteArray) : Option Json :=
  readPart? interest (charactersFrom 0 bytes.toList)

end ServiceContract.Json
