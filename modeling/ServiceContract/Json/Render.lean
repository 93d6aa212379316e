import ServiceContract.Json
/-!
# The text of a JSON value

`Json.pretty` writes a value over several lines : two spaces for each level of nesting,
one item or member a line, a blank after each colon, and nothing between the brackets of
an empty array or object. Strings escape the quote, the backslash and the characters
below U+0020, and hold every other character as it is.
-/

namespace ServiceContract.Json

/-- The hexadecimal digit of a number below sixteen, in lower case. -/
def hexDigit (n : Nat) : Char := Nat.digitChar n

/-- A character as it stands inside a string. -/
def escape (c : Char) : List Char :=
  if c = '"' then ['\\', '"']
  else if c = '\\' then ['\\', '\\']
  else if c = '\x08' then ['\\', 'b']
  else if c = '\x0c' then ['\\', 'f']
  else if c = '\n' then ['\\', 'n']
  else if c = '\r' then ['\\', 'r']
  else if c = '\t' then ['\\', 't']
  else if c.toNat < 0x20 then
    ['\\', 'u', '0', '0', hexDigit (c.toNat / 16), hexDigit (c.toNat % 16)]
  else [c]

/-- A string between quotes. -/
def quote (s : String) : List Char := '"' :: (s.toList.flatMap escape ++ ['"'])

/-- An integer in decimal. -/
def decimal : Int → List Char
  | .ofNat n => Nat.toDigits 10 n
  | .negSucc n => '-' :: Nat.toDigits 10 (n + 1)

/-- A line break and the indentation of a level. -/
def newline (level : Nat) : List Char := '\n' :: List.replicate (2 * level) ' '

mutual

/-- The text of a value whose enclosing line is indented to the given level. -/
def pretty (level : Nat) : Json → List Char
  | .null => ['n', 'u', 'l', 'l']
  | .bool true => ['t', 'r', 'u', 'e']
  | .bool false => ['f', 'a', 'l', 's', 'e']
  | .int n => decimal n
  | .float x => if x.isFinite then x.text else ['n', 'u', 'l', 'l']
  | .string s => quote s
  | .array [] => ['[', ']']
  | .array (v :: rest) =>
    '[' :: (newline (level + 1) ++ pretty (level + 1) v ++ prettyItems (level + 1) rest
      ++ newline level ++ [']'])
  | .object [] => ['{', '}']
  | .object ((key, v) :: rest) =>
    '{' :: (newline (level + 1) ++ quote key ++ ':' :: ' ' :: pretty (level + 1) v
      ++ prettyMembers (level + 1) rest ++ newline level ++ ['}'])

/-- The items after the first of an array. -/
def prettyItems (level : Nat) : List Json → List Char
  | [] => []
  | v :: rest => ',' :: (newline level ++ pretty level v ++ prettyItems level rest)

/-- The members after the first of an object. -/
def prettyMembers (level : Nat) : List (String × Json) → List Char
  | [] => []
  | (key, v) :: rest =>
    ',' :: (newline level ++ quote key ++ ':' :: ' ' :: pretty level v ++ prettyMembers level rest)

end

/-- The text of a value with a final line break. -/
def render (v : Json) : String := String.ofList (v.pretty 0 ++ ['\n'])

end ServiceContract.Json
