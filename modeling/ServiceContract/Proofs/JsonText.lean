import ServiceContract.Json.Read
import ServiceContract.Json.Render
import Mathlib.Data.List.Basic
import Mathlib.Tactic.SplitIfs
/-!
# JSON texts

The notation of JSON as a set of texts, apart from any reader : what a string, a number and a value
look like, and where blanks may stand (`IsText`). A value whose numbers are integers is rendered as
such a text (`isText_render`), whatever its strings hold. `Json.IsPlain` names these values : the
integers fit into 64 bits, and no object has a name twice.
-/

namespace ServiceContract.Json

open Text

/-! ## Plain values -/

/-- Whether a value has integers for numbers and objects with distinct names only. The integers have
64 bits, with a sign or without, as all integers of a document do. -/
inductive IsPlain : Json → Prop where
  | null : IsPlain .null
  | bool (value : Bool) : IsPlain (.bool value)
  | int (value : Int) (h : Integer.fits 64 value = true) : IsPlain (.int value)
  | string (value : String) : IsPlain (.string value)
  | array (items : List Json) (h : ∀ v ∈ items, IsPlain v) : IsPlain (.array items)
  | object (members : List (String × Json)) (hnames : (members.map Prod.fst).Nodup)
      (h : ∀ m ∈ members, IsPlain m.2) : IsPlain (.object members)

@[simp] theorem isPlain_null : Json.null.IsPlain := .null

@[simp] theorem isPlain_bool (value : Bool) : (Json.bool value).IsPlain := .bool value

@[simp] theorem isPlain_string (value : String) : (Json.string value).IsPlain := .string value

/-- An array is plain if its items are. -/
@[simp] theorem isPlain_array_iff {items : List Json} :
    (Json.array items).IsPlain ↔ ∀ v ∈ items, v.IsPlain :=
  ⟨fun h => by cases h; assumption, .array items⟩

/-- An object is plain if its members are and no name is given twice. -/
@[simp] theorem isPlain_object_iff {members : List (String × Json)} :
    (Json.object members).IsPlain ↔
      (members.map Prod.fst).Nodup ∧ ∀ m ∈ members, m.2.IsPlain :=
  ⟨fun h => by cases h; exact ⟨‹_›, ‹_›⟩, fun ⟨hnames, h⟩ => .object members hnames h⟩

/-! ## The notation -/

/-- A hexadecimal digit. -/
def IsHexDigit (c : Char) : Prop :=
  '0' ≤ c ∧ c ≤ '9' ∨ 'a' ≤ c ∧ c ≤ 'f' ∨ 'A' ≤ c ∧ c ≤ 'F'

instance (c : Char) : Decidable (IsHexDigit c) := inferInstanceAs (Decidable (_ ∨ _ ∨ _))

/-- Digits, at least one. -/
def AreDigits (cs : List Char) : Prop := cs ≠ [] ∧ ∀ c ∈ cs, Digits.isDecimal c = true

/-- A character of a string : as it is, or as an escape by letter or by number. -/
inductive IsCharacter : List Char → Prop where
  | plain (c : Char) (hcontrol : 0x20 ≤ c.toNat) (hquote : c ≠ '"') (hslash : c ≠ '\\') :
      IsCharacter [c]
  | letter (c : Char) (h : c ∈ ['"', '\\', '/', 'b', 'f', 'n', 'r', 't']) : IsCharacter ['\\', c]
  | number (digits : List Char) (hlength : digits.length = 4) (h : ∀ d ∈ digits, IsHexDigit d) :
      IsCharacter ('\\' :: 'u' :: digits)

/-- A string : characters between quotes. -/
inductive IsString : List Char → Prop where
  | quoted (parts : List (List Char)) (h : ∀ part ∈ parts, IsCharacter part) :
      IsString ('"' :: (parts.flatten ++ ['"']))

/-- The whole part of a number. Only a zero that stands alone begins with a zero. -/
def IsWhole (cs : List Char) : Prop := AreDigits cs ∧ (cs.head? = some '0' → cs = ['0'])

/-- The fraction of a number, if there is one. -/
inductive IsFraction : List Char → Prop where
  | none : IsFraction []
  | some (digits : List Char) (h : AreDigits digits) : IsFraction ('.' :: digits)

/-- The exponent of a number, if there is one. -/
inductive IsExponent : List Char → Prop where
  | none : IsExponent []
  | some (letter : Char) (sign digits : List Char) (hletter : letter ∈ ['e', 'E'])
      (hsign : sign ∈ [[], ['+'], ['-']]) (h : AreDigits digits) :
      IsExponent (letter :: (sign ++ digits))

mutual

/-- A value without blanks around it. -/
inductive IsValue : List Char → Prop where
  | null : IsValue ['n', 'u', 'l', 'l']
  | true : IsValue ['t', 'r', 'u', 'e']
  | false : IsValue ['f', 'a', 'l', 's', 'e']
  | number {sign whole fraction exponent : List Char} (hsign : sign ∈ [[], ['-']])
      (hwhole : IsWhole whole) (hfraction : IsFraction fraction)
      (hexponent : IsExponent exponent) : IsValue (sign ++ whole ++ fraction ++ exponent)
  | string {cs : List Char} (h : IsString cs) : IsValue cs
  | emptyArray {cs : List Char} (h : AreBlanks cs) : IsValue ('[' :: (cs ++ [']']))
  | array {cs : List Char} (h : AreItems cs) : IsValue ('[' :: (cs ++ [']']))
  | emptyObject {cs : List Char} (h : AreBlanks cs) : IsValue ('{' :: (cs ++ ['}']))
  | object {cs : List Char} (h : AreMembers cs) : IsValue ('{' :: (cs ++ ['}']))

/-- A value with blanks around it. -/
inductive IsText : List Char → Prop where
  | padded {before value after : List Char} (hbefore : AreBlanks before) (h : IsValue value)
      (hafter : AreBlanks after) : IsText (before ++ value ++ after)

/-- Values with commas between them, at least one. -/
inductive AreItems : List Char → Prop where
  | last {cs : List Char} (h : IsText cs) : AreItems cs
  | next {cs rest : List Char} (h : IsText cs) (hrest : AreItems rest) :
      AreItems (cs ++ ',' :: rest)

/-- Named values with commas between them, at least one. -/
inductive AreMembers : List Char → Prop where
  | last {before name after cs : List Char} (hbefore : AreBlanks before) (hname : IsString name)
      (hafter : AreBlanks after) (h : IsText cs) :
      AreMembers (before ++ name ++ after ++ ':' :: cs)
  | next {before name after cs rest : List Char} (hbefore : AreBlanks before)
      (hname : IsString name) (hafter : AreBlanks after) (h : IsText cs)
      (hrest : AreMembers rest) :
      AreMembers (before ++ name ++ after ++ ':' :: (cs ++ ',' :: rest))

end

/-! ## Rendered values -/

theorem areBlanks_space : AreBlanks [' '] := by decide

/-- A line break and the indentation behind it are blanks. -/
theorem areBlanks_newline (level : Nat) : AreBlanks (newline level) := by
  intro c hc
  rcases List.mem_cons.1 hc with rfl | hspace
  · simp
  · obtain rfl := List.eq_of_mem_replicate hspace
    simp

theorem isHexDigit_hexDigit : ∀ n, n < 16 → IsHexDigit (hexDigit n) := by decide

/-- What stands for a character in a string is one spelled character. -/
theorem isCharacter_escape (c : Char) : IsCharacter (escape c) := by
  unfold escape
  split_ifs with hquote hslash hb hf hn hr ht hcontrol
  · exact .letter '"' (by simp)
  · exact .letter '\\' (by simp)
  · exact .letter 'b' (by simp)
  · exact .letter 'f' (by simp)
  · exact .letter 'n' (by simp)
  · exact .letter 'r' (by simp)
  · exact .letter 't' (by simp)
  · refine .number ['0', '0', hexDigit (c.toNat / 16), hexDigit (c.toNat % 16)] rfl ?_
    have hzero : IsHexDigit '0' := by decide
    have hhigh := isHexDigit_hexDigit (c.toNat / 16) (by omega)
    have hlow := isHexDigit_hexDigit (c.toNat % 16) (by omega)
    simp [hzero, hhigh, hlow]
  · exact .plain c (by omega) hquote hslash

/-- A quoted text is a string. -/
theorem isString_quote (s : String) : IsString (quote s) := by
  rw [quote, List.flatMap_def]
  refine .quoted _ fun part hpart => ?_
  obtain ⟨c, -, rfl⟩ := List.mem_map.1 hpart
  exact isCharacter_escape c

/-- Decimal digits that the digits of a number are made of. -/
theorem isDecimal_of_mem_toDigits {n : Nat} {c : Char} (h : c ∈ Nat.toDigits 10 n) :
    Digits.isDecimal c = true := by
  have hdigit := Nat.isDigit_of_mem_toDigits (by decide) (by decide) h
  simpa [Digits.isDecimal, Char.isDigit, Char.le_def] using hdigit

theorem areDigits_toDigits (n : Nat) : AreDigits (Nat.toDigits 10 n) :=
  ⟨Nat.toDigits_ne_nil, fun _ hc => isDecimal_of_mem_toDigits hc⟩

theorem digitChar_ne_zero : ∀ n, n < 10 → 0 < n → Nat.digitChar n ≠ '0' := by decide

/-- The digits of a positive number do not begin with a zero. -/
theorem head?_toDigits_ne {n : Nat} (h : 0 < n) : (Nat.toDigits 10 n).head? ≠ some '0' := by
  induction n using Nat.strongRecOn with
  | ind n ih =>
    rw [Nat.toDigits_eq_if (by decide)]
    split_ifs with hsmall
    · simpa using digitChar_ne_zero n hsmall h
    · have hrest := ih (n / 10) (by omega) (by omega)
      rwa [List.head?_append_of_ne_nil _ Nat.toDigits_ne_nil]

/-- The digits of a number do not begin with a zero that others follow. -/
theorem isWhole_toDigits (n : Nat) : IsWhole (Nat.toDigits 10 n) := by
  refine ⟨areDigits_toDigits n, fun hhead => ?_⟩
  rcases Nat.eq_zero_or_pos n with rfl | hpos
  · rfl
  · exact absurd hhead (head?_toDigits_ne hpos)

/-- An integer is written as a number. -/
theorem isValue_decimal (n : Int) : IsValue (decimal n) := by
  cases n with
  | ofNat n =>
    have hsign : [] ∈ [[], ['-']] := by simp
    simpa [decimal] using IsValue.number hsign (isWhole_toDigits n) .none .none
  | negSucc n =>
    have hsign : ['-'] ∈ [[], ['-']] := by simp
    simpa [decimal] using IsValue.number hsign (isWhole_toDigits (n + 1)) .none .none

/-- The items of an array are written one a line. -/
theorem areItems_pretty {level : Nat} {v : Json} {items : List Json} {after : List Char}
    (h : ∀ w ∈ v :: items, IsValue (pretty level w)) (hafter : AreBlanks after) :
    AreItems (newline level ++ pretty level v ++ prettyItems level items ++ after) := by
  induction items generalizing v with
  | nil =>
    simpa [prettyItems] using
      AreItems.last (.padded (areBlanks_newline level) (h v List.mem_cons_self) hafter)
  | cons w rest ih =>
    have hrest := ih fun u hu => h u (List.mem_cons_of_mem v hu)
    simpa [prettyItems] using AreItems.next
      (.padded (areBlanks_newline level) (h v List.mem_cons_self) areBlanks_nil) hrest

/-- The members of an object are written one a line. -/
theorem areMembers_pretty {level : Nat} {name : String} {v : Json} {members : List (String × Json)}
    {after : List Char} (h : ∀ m ∈ (name, v) :: members, IsValue (pretty level m.2))
    (hafter : AreBlanks after) :
    AreMembers (newline level ++ quote name ++ ':' :: ' ' :: pretty level v
      ++ prettyMembers level members ++ after) := by
  induction members generalizing name v with
  | nil =>
    simpa [prettyMembers] using AreMembers.last (areBlanks_newline level) (isString_quote name)
      areBlanks_nil (.padded areBlanks_space (h (name, v) List.mem_cons_self) hafter)
  | cons m rest ih =>
    have hrest := ih fun k hk => h k (List.mem_cons_of_mem (name, v) hk)
    simpa [prettyMembers] using AreMembers.next (areBlanks_newline level) (isString_quote name)
      areBlanks_nil (.padded areBlanks_space (h (name, v) List.mem_cons_self) areBlanks_nil) hrest

/-- A value with integers for numbers is written as a JSON value. -/
theorem isValue_pretty {v : Json} (h : v.IsPlain) (level : Nat) : IsValue (pretty level v) := by
  induction h generalizing level with
  | null => exact .null
  | bool value => cases value with
    | true => exact .true
    | false => exact .false
  | int n _ => exact isValue_decimal n
  | string s => exact .string (isString_quote s)
  | array items _ ih =>
    cases items with
    | nil => exact .emptyArray areBlanks_nil
    | cons v rest =>
      simpa [pretty] using IsValue.array
        (areItems_pretty (fun w hw => ih w hw (level + 1)) (areBlanks_newline level))
  | object members _ _ ih =>
    cases members with
    | nil => exact .emptyObject areBlanks_nil
    | cons m rest =>
      simpa [pretty] using IsValue.object
        (areMembers_pretty (fun m hm => ih m hm (level + 1)) (areBlanks_newline level))

/-- The text of a plain value is a JSON text. -/
theorem isText_render {v : Json} (h : v.IsPlain) : IsText v.render.toList := by
  have hline : AreBlanks ['\n'] := by decide
  simpa [render] using IsText.padded areBlanks_nil (isValue_pretty h 0) hline

end ServiceContract.Json
