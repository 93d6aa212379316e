import ServiceContract.CommandLine
import ServiceContract.Number
import ServiceContract.Event
import ServiceContract.Json
/-!
# The log as it is shown

An event is shown as a line of text, or as an object with its message and fields. In a text
the characters of the message by which terminals are controlled are escaped, and the line has
no colours.
-/

namespace ServiceContract

/-! ## Colours -/

/-- The number of characters of the code of a colour that a text begins with. -/
def colourLength? : List Char → Option Nat
  | '\x1b' :: '[' :: rest =>
    let isPart := fun c => Digits.isDecimal c || c = ';'
    if (rest.dropWhile isPart).head? = some 'm' then some ((rest.takeWhile isPart).length + 3)
    else none
  | _ => none

/-- A text without the codes of colours, behind some characters that are left out. -/
def plainFrom : Nat → List Char → List Char
  | _, [] => []
  | skipped + 1, _ :: rest => plainFrom skipped rest
  | 0, c :: rest =>
    match colourLength? (c :: rest) with
    | some length => plainFrom (length - 1) rest
    | none => c :: plainFrom 0 rest

/-- A text without the codes of colours. -/
def withoutColours (text : String) : String := String.ofList (plainFrom 0 text.toList)

/-! ## Events -/

/-- A text as the lines that it takes up. A carriage return belongs to the line feed behind
it, and the last line ends as the others do. -/
def linesOf (text : String) : List String :=
  (Text.split '\n' text).map fun line =>
    if line.toList.getLast? = some '\r' then String.ofList line.toList.dropLast else line

namespace Event

/-- The digits of a number in base sixteen. -/
def hexDigits (n : Nat) : String := String.ofList (Nat.toDigits 16 n)

/-- A character of a message as it is shown. -/
def shown (c : Char) : String :=
  let n := c.toNat
  if n = 0x07 || n = 0x08 || n = 0x0C then "\\x0" ++ hexDigits n
  else if n = 0x1B || n = 0x7F then "\\x" ++ hexDigits n
  else if 0x80 ≤ n && n ≤ 0x9F then "\\u\x7b" ++ hexDigits n ++ "\x7d"
  else String.singleton c

/-- The text of the value of a field. -/
def fieldText : FieldValue → String
  | .number n => toString n
  | .text s => s

/-- The JSON form of the value of a field. -/
def fieldJson : FieldValue → Json
  | .number n => .int n
  | .text s => .string s

/-- The message, followed by the fields. -/
def line (e : Event) : String :=
  e.fields.foldl (fun line (name, value) => line ++ " " ++ name ++ "=" ++ fieldText value)
    (String.join (e.message.toList.map shown))

/-- The message and the fields as an object. -/
def toJson (e : Event) : Json :=
  .object (("message", .string e.message)
    :: e.fields.map fun (name, value) => (name, fieldJson value))

end Event

/-- A line of the log as it is shown. -/
structure LogLine where
  /-- The level of the event. -/
  level : Level
  /-- What is shown : a text, or an object. -/
  content : Json

/-- The lines that show events. A text with line breaks takes up further lines, which are
given apart because nothing on them tells that they belong to the log. -/
def showEvents (format : CommandLine.LogFormat) (log : List Event) : List LogLine × List String :=
  match format with
  | .json => (log.map fun e => ⟨e.level, e.toJson⟩, [])
  | .text =>
    (log.map fun e => ⟨e.level, .string (withoutColours ((linesOf e.line).headD ""))⟩,
      log.flatMap fun e => (linesOf e.line).tail)

end ServiceContract
