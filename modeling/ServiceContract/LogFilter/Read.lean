import ServiceContract.Number
import ServiceContract.LogFilter
import ServiceContract.Text
/-!
# The notation of log filters

A filter is written as rules with commas between them. A rule is a level, or `target=level`,
where the target may be followed by `[span{field=value}]` and the level may be missing; a word
that is no level is a target. A text with a rule that cannot be read is refused as a whole
(`ofText?`), or read without that rule and with a complaint about it (`ofLenient`).

Blanks around a rule are passed over where its marks are looked for. The marks are then
counted from the first character that is no blank, but what stands between them is cut out of
the text with its blanks.
-/

namespace ServiceContract.LogFilter

open Text

/-- Why a rule is refused. -/
inductive Refusal where
  /-- It is no rule. -/
  | malformed
  /-- Its level is none. -/
  | unknownLevel
deriving DecidableEq, Repr

/-- The text of a refusal. -/
def Refusal.message : Refusal → String
  | malformed => "invalid filter directive"
  | unknownLevel =>
    "error parsing level filter: expected one of \"off\", \"error\", \"warn\", \"info\", "
      ++ "\"debug\", \"trace\", or a number 0-5"

/-! ## Levels -/

/-- The words for numbers of levels. -/
def levelWords : List (String × Nat) :=
  [("off", 0), ("error", 1), ("warn", 2), ("info", 3), ("debug", 4), ("trace", 5)]

/-- The number of all levels, of which the last has no event in this library. -/
def allLevels : Nat := 5

/-- The number of levels that a number gives. -/
def levelNumber? (cs : List Char) : Option Nat :=
  let digits := if cs.head? = some '+' then cs.tail else cs
  (Digits.number? 10 digits).filter (· ≤ allLevels)

/-- The number of levels that a word or a number stands for. -/
def level? (cs : List Char) : Option Nat :=
  (levelNumber? cs).or (levelWords.lookup (String.ofList cs).toLower)

/-- The number of levels that stands behind a mark; nothing there means all. -/
def levelBehind (cs : List Char) : Except Refusal Nat :=
  if cs = [] then .ok allLevels
  else
    match level? cs with
    | some levels => .ok levels
    | none => .error .unknownLevel

/-! ## Rules -/

/-- Whether a target may begin with a character. -/
def beginsTarget (c : Char) : Bool :=
  c = '-' || c = ':' || c = '_' || isAlphanumeric c

/-- The rule that a text without marks is : a level, or a target. -/
def ofWord (written : List Char) : LogRule :=
  match level? written with
  | some levels => ⟨none, none, false, levels⟩
  | none => ⟨some (String.ofList written), none, false, allLevels⟩

/-- A rule with the level that stands behind it, if one does, when its other parts have been
read up to a place. -/
def closed (r : LogRule) (written : List Char) (place : Nat) :
    List Char → Except Refusal LogRule
  | [] => .ok r
  | '=' :: _ => (levelBehind (written.drop (place + 1))).map fun levels => { r with levels }
  | _ => .error .malformed

/-- The rule behind an opening bracket : a span, and perhaps a field with a value in braces. -/
def bracketed (target : Option String) (written : List Char) (place : Nat) (cs : List Char) :
    Except Refusal LogRule :=
  let span := cs.takeWhile fun c => c ≠ ']' && c ≠ '{'
  let place := place + span.length + 1
  match cs.dropWhile fun c => c ≠ ']' && c ≠ '{' with
  | ']' :: rest => closed ⟨target, none, true, allLevels⟩ written place rest
  | '{' :: rest =>
    let length := (rest.takeWhile (· ≠ '}')).length
    let field := (written.drop place).take length
    let name := String.ofList (field.takeWhile (· ≠ '='))
    match rest.dropWhile (· ≠ '}') with
    | '}' :: ']' :: rest =>
      if length = 0 then .error .malformed
      else closed ⟨target, some name, span ≠ [] || field.contains '=', allLevels⟩ written
        (place + length + 2) rest
    | _ => .error .malformed
  | _ => .error .malformed

/-- A rule. -/
def rule (written : List Char) : Except Refusal LogRule :=
  let text := trim written
  let length := (text.takeWhile fun c => c ≠ '=' && c ≠ '[').length
  let target := if length = 0 then none else some (String.ofList (written.take length))
  if !text.head?.any (fun c => c = '[' || beginsTarget c) then .error .malformed
  else
    match text.drop length with
    | [] => .ok (ofWord written)
    | '[' :: rest => bracketed target written (length + 1) rest
    | rest => closed ⟨target, none, false, allLevels⟩ written length rest

/-! ## Filters -/

/-- The rules as they are written in a text. -/
def written (text : String) : List String := (split ',' text).filter (· ≠ "")

/-- The filter in a text all of whose rules can be read. -/
def ofText? (text : String) : Option LogFilter :=
  ((written text).mapM fun r => (rule r.toList).toOption).map LogFilter.mk

/-- The complaint about a rule that cannot be read. -/
def complaint? (r : String) : Option String :=
  match rule r.toList with
  | .ok _ => none
  | .error e => some ("ignoring `" ++ r ++ "`: " ++ e.message)

/-- The filter in a text, from the rules that can be read, with complaints about the others.
A text without rules shows errors only. -/
def ofLenient (text : String) : LogFilter × List String :=
  let rules := (written text).filterMap fun r => (rule r.toList).toOption
  (if rules = [] then upTo Level.error.rank else ⟨rules⟩, (written text).filterMap complaint?)

end ServiceContract.LogFilter
