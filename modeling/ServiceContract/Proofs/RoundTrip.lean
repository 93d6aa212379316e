import ServiceContract.Proofs.Collisions
import ServiceContract.Proofs.JsonText
/-!
# Reading back what was rendered

A rendered value is read back as it was (`read?_render`). The reader is followed along the text :
an escaped character, the digits of a number, an item or a member at a time. Each time the text
behind a value begins with a comma or a line break (`EndsValue`), so that the reader of the value
stops there, and the length of the text bounds the fuel that it takes (`ReadsBack`).

Contracts that consist of path items have no floating point numbers and no repeated names
(`isPlain_emit`), and so they are read back as well (`roundTrips_render`).
-/

namespace ServiceContract

/-! ## Digits -/

namespace Digits

theorem digit?_of_isDecimal {c : Char} (h : isDecimal c = true) :
    digit? 10 c = some (c.toNat - '0'.toNat) := by
  have hbounds : 48 ≤ c.toNat ∧ c.toNat ≤ 57 := by
    simpa [isDecimal, Char.le_def, UInt32.le_iff_toNat_le] using h
  have hsmall : c.toNat - 48 < 10 := by omega
  simp [digit?, h, hsmall]

/-- Decimal digits stand for the number that they are the digits of. -/
theorem foldlM_digit? {cs : List Char} (h : ∀ c ∈ cs, isDecimal c = true) (n : Nat) :
    cs.foldlM (fun n c => (digit? 10 c).map (n * 10 + ·)) n = some (Nat.ofDigitChars 10 cs n) := by
  induction cs generalizing n with
  | nil => rfl
  | cons c cs ih =>
    have hrest := ih (fun d hd => h d (List.mem_cons_of_mem c hd)) (n * 10 + (c.toNat - '0'.toNat))
    rw [List.foldlM_cons, digit?_of_isDecimal (h c List.mem_cons_self)]
    rw [Nat.ofDigitChars, List.foldl_cons, Nat.mul_comm 10 n]
    exact hrest

theorem number?_toDigits (n : Nat) : number? 10 (Nat.toDigits 10 n) = some n := by
  rw [number?, if_neg Nat.toDigits_ne_nil,
    foldlM_digit? fun _ hc => Json.isDecimal_of_mem_toDigits hc,
    Nat.ofDigitChars_toDigits (by decide) (by decide)]

end Digits

namespace Json

open Text

/-! ## Strings -/

/-- The digits of an escape by number give the number back. -/
theorem number?_hexDigit : ∀ n, n < 0x20 →
    Digits.number? 16 ['0', '0', hexDigit (n / 16), hexDigit (n % 16)] = some n := by decide

/-- A control character is read back from its number. -/
theorem numbered?_of_control {c : Char} (h : c.toNat < 0x20) (rest : List Char) :
    numbered? true ('0' :: '0' :: hexDigit (c.toNat / 16) :: hexDigit (c.toNat % 16) :: rest) =
      some (c, rest) := by
  have hlow : ¬ (0xD800 ≤ c.toNat ∧ c.toNat < 0xDC00) := by omega
  have hhigh : ¬ (0xDC00 ≤ c.toNat ∧ c.toNat < 0xE000) := by omega
  simp [numbered?, hexQuad?, number?_hexDigit c.toNat h, hlow, hhigh]

/-- An escape by letter is read as its character. -/
theorem characters_letter {e c : Char} (h : escaped? e = some c) (fuel : Nat) (cs : List Char) :
    characters true (fuel + 1) ('\\' :: e :: cs) =
      (characters true fuel cs).map fun (ds, rest) => (c :: ds, rest) := by
  -- By this fact of the context simp takes the branch of the letters.
  have hnumber : e ≠ 'u' := by
    rintro rfl
    cases h
  cases hrest : characters true fuel cs <;> simp [characters, h, hrest]

/-- A character is read back from what it is written as. -/
theorem characters_escape (fuel : Nat) (c : Char) (cs : List Char) :
    characters true (fuel + 1) (escape c ++ cs) =
      (characters true fuel cs).map fun (ds, rest) => (c :: ds, rest) := by
  unfold escape
  split_ifs with hquote hslash hb hf hn hr ht hcontrol
  · subst hquote
    exact characters_letter rfl fuel cs
  · subst hslash
    exact characters_letter rfl fuel cs
  · subst hb
    exact characters_letter rfl fuel cs
  · subst hf
    exact characters_letter rfl fuel cs
  · subst hn
    exact characters_letter rfl fuel cs
  · subst hr
    exact characters_letter rfl fuel cs
  · subst ht
    exact characters_letter rfl fuel cs
  · cases hrest : characters true fuel cs <;>
      simp [characters, numbered?_of_control hcontrol, hrest]
  · cases hrest : characters true fuel cs <;>
      simp [characters, hquote, hslash, hcontrol, hrest]

/-- Escaped characters are read back one by one. -/
theorem characters_flatMap_escape {cs : List Char} {fuel : Nat} (h : cs.length < fuel)
    (rest : List Char) :
    characters true fuel (cs.flatMap escape ++ '"' :: rest) = some (cs, rest) := by
  induction cs generalizing fuel with
  | nil =>
    obtain ⟨fuel, rfl⟩ := Nat.exists_eq_add_of_lt h
    simp [characters]
  | cons c cs ih =>
    simp only [List.length_cons] at h
    obtain ⟨fuel, rfl⟩ : ∃ k, fuel = k + 1 := ⟨fuel - 1, by omega⟩
    rw [List.flatMap_cons, List.append_assoc, characters_escape, ih (by omega)]
    rfl

theorem length_escape_pos (c : Char) : 0 < (escape c).length := by
  unfold escape
  split_ifs <;> simp

/-- Escaping makes no text shorter, so the fuel of a string suffices for its characters. -/
theorem length_le_flatMap_escape (cs : List Char) : cs.length ≤ (cs.flatMap escape).length := by
  induction cs with
  | nil => simp
  | cons c cs ih =>
    have hpos := length_escape_pos c
    rw [List.flatMap_cons, List.length_append, List.length_cons]
    omega

/-- A string is read back from what it is written as. -/
theorem string?_quote (s : String) (rest : List Char) :
    string? true (s.toList.flatMap escape ++ '"' :: rest) = some (s, rest) := by
  have hescaped := length_le_flatMap_escape s.toList
  have hfuel : s.toList.length < (s.toList.flatMap escape ++ '"' :: rest).length + 1 := by
    rw [List.length_append]
    omega
  rw [string?, characters_flatMap_escape hfuel]
  simp

/-! ## Numbers -/

/-- Whether a text may stand behind a value in a rendered text. -/
def EndsValue (rest : List Char) : Prop := ∀ c ∈ rest.head?, c = ',' ∨ c = '\n'

/-- Digits are read up to what ends a value. -/
theorem digits_append {cs rest : List Char} (h : AreDigits cs) (hrest : EndsValue rest) :
    digits (cs ++ rest) = (cs, rest) := by
  have hstop : ∀ c ∈ rest.head?, ¬ Digits.isDecimal c = true := by
    intro c hc
    rcases hrest c hc with rfl | rfl <;> decide
  rw [digits, List.takeWhile_append_of_pos h.2, List.dropWhile_append_of_pos h.2]
  cases rest with
  | nil => simp
  | cons c rest => simp [hstop c rfl]

/-- Where a value ends there is no fraction. -/
theorem fraction?_of_endsValue {rest : List Char} (h : EndsValue rest) :
    fraction? rest = some ([], rest) := by
  cases rest with
  | nil => rfl
  | cons c rest => rcases h c rfl with rfl | rfl <;> rfl

theorem exponent?_of_endsValue {rest : List Char} (h : EndsValue rest) :
    exponent? rest = some (none, rest) := by
  cases rest with
  | nil => rfl
  | cons c rest => rcases h c rfl with rfl | rfl <;> rfl

/-- A number is read back from its digits. -/
theorem number?_toDigits (negative : Bool) (n : Nat) {rest : List Char} (h : EndsValue rest) :
    number? negative (Nat.toDigits 10 n ++ rest) = some (integer negative n, rest) := by
  have hwhole : ¬ (Nat.toDigits 10 n = [] ∨
      (Nat.toDigits 10 n).head? = some '0' ∧ (Nat.toDigits 10 n).length ≠ 1) := by
    rintro (hnil | ⟨hzero, hlength⟩)
    · exact Nat.toDigits_ne_nil hnil
    · exact hlength (by rw [(isWhole_toDigits n).2 hzero]; rfl)
  rw [number?, digits_append (areDigits_toDigits n) h]
  simp only [Bool.or_eq_true, Bool.and_eq_true, decide_eq_true_eq, if_neg hwhole]
  simp [fraction?_of_endsValue h, exponent?_of_endsValue h, Digits.number?_toDigits]

/-! ## Blanks -/

theorem ne_of_isDecimal {c : Char} (hc : Digits.isDecimal c = true) (d : Char)
    (hd : Digits.isDecimal d = false) : c ≠ d := by
  rintro rfl
  exact absurd hc (by simp [hd])

theorem isBlank_of_isDecimal {c : Char} (h : Digits.isDecimal c = true) : isBlank c = false := by
  have hne := ne_of_isDecimal h
  simp [isBlank, hne ' ' rfl, hne '\t' rfl, hne '\n' rfl, hne '\r' rfl]

/-- Line breaks and indentation are skipped. -/
theorem skipBlanks_newline_cons (level : Nat) {c : Char} (h : isBlank c = false)
    (cs : List Char) : skipBlanks (newline level ++ c :: cs) = c :: cs := by
  rw [skipBlanks_append (areBlanks_newline level), skipBlanks_cons h]

/-- Whether a text begins as a value does. -/
def BeginsValue (cs : List Char) : Prop :=
  ∃ c rest, cs = c :: rest ∧ isBlank c = false ∧ c ≠ ']'

theorem skipBlanks_of_beginsValue {cs : List Char} (h : BeginsValue cs) : skipBlanks cs = cs := by
  obtain ⟨c, rest, rfl, hblank, -⟩ := h
  exact skipBlanks_cons hblank rest

/-- What begins a value is no blank and closes nothing. -/
theorem beginsValue_of_isValue {cs : List Char} (h : IsValue cs) (rest : List Char) :
    BeginsValue (cs ++ rest) := by
  cases h with
  | null => exact ⟨_, _, rfl, by decide, by decide⟩
  | true => exact ⟨_, _, rfl, by decide, by decide⟩
  | false => exact ⟨_, _, rfl, by decide, by decide⟩
  | @number sign whole fraction exponent hsign hwhole _ _ =>
    obtain ⟨c, ds, rfl⟩ := List.exists_cons_of_ne_nil hwhole.1.1
    have hc : Digits.isDecimal c = true := hwhole.1.2 c List.mem_cons_self
    obtain rfl | rfl : sign = [] ∨ sign = ['-'] := by simpa using hsign
    · exact ⟨c, _, rfl, isBlank_of_isDecimal hc, ne_of_isDecimal hc ']' rfl⟩
    · exact ⟨'-', _, rfl, by decide, by decide⟩
  | string h =>
    obtain ⟨parts, -⟩ := h
    exact ⟨_, _, rfl, by decide, by decide⟩
  | emptyArray => exact ⟨_, _, rfl, by decide, by decide⟩
  | array => exact ⟨_, _, rfl, by decide, by decide⟩
  | emptyObject => exact ⟨_, _, rfl, by decide, by decide⟩
  | object => exact ⟨_, _, rfl, by decide, by decide⟩

theorem skipBlanks_value {blanks value : List Char} (hblanks : AreBlanks blanks)
    (h : IsValue value) (rest : List Char) :
    skipBlanks (blanks ++ (value ++ rest)) = value ++ rest := by
  rw [skipBlanks_append hblanks, skipBlanks_of_beginsValue (beginsValue_of_isValue h rest)]

/-! ## Values -/

/-- Whether a value is read back from its text, wherever it stands. Twice the length of the text
is fuel enough. -/
def ReadsBack (level : Nat) (v : Json) : Prop :=
  ∀ {fuel : Nat} {cs rest : List Char}, skipBlanks cs = pretty level v ++ rest →
    EndsValue rest → 2 * (pretty level v).length ≤ fuel →
    readValue fuel .everything cs = some (v, rest)

/-- It is enough to read a value with some fuel, because no value is written with nothing. -/
theorem readsBack_of_succ {level : Nat} {v : Json} (hvalue : IsValue (pretty level v))
    (h : ∀ {fuel : Nat} {cs rest : List Char}, skipBlanks cs = pretty level v ++ rest →
      EndsValue rest → 2 * (pretty level v).length ≤ fuel + 1 →
      readValue (fuel + 1) .everything cs = some (v, rest)) : ReadsBack level v := by
  intro fuel cs rest hcs hrest hfuel
  obtain ⟨c, more, hbegin, -⟩ := beginsValue_of_isValue hvalue []
  have hpos : 0 < (pretty level v).length := by
    rw [← List.append_nil (pretty level v), hbegin, List.length_cons]
    omega
  obtain ⟨fuel, rfl⟩ : ∃ k, fuel = k + 1 := ⟨fuel - 1, by omega⟩
  exact h hcs hrest hfuel

/-- A string is read back. -/
theorem readsBack_string (level : Nat) (s : String) : ReadsBack level (.string s) :=
  readsBack_of_succ (isValue_pretty (.string s) level) fun hcs _ _ => by
    simp [readValue, hcs, pretty, quote, string?_quote, Interest.isSome]

/-- An integer that fits is kept as one. -/
theorem integer_of_fits {n : Nat} (h : Integer.fits 64 (n : Int) = true) :
    integer false n = .int n := by
  simp [integer, h]

theorem integer_of_fits_negSucc {n : Nat} (h : Integer.fits 64 (.negSucc n) = true) :
    integer true (n + 1) = .int (.negSucc n) := by
  have hsigned : -((n + 1 : Nat) : Int) = .negSucc n := rfl
  simp only [integer, if_true, hsigned, h]
  simp

/-- A digit begins a number. -/
theorem readValue_of_isDecimal {fuel : Nat} {cs rest : List Char} {c : Char}
    (hcs : skipBlanks cs = c :: rest) (hc : Digits.isDecimal c = true) :
    readValue (fuel + 1) .everything cs = number? false (c :: rest) := by
  have hne := ne_of_isDecimal hc
  simp [readValue, hcs, hc, hne '{' rfl, hne '[' rfl, hne '"' rfl, hne '-' rfl]

/-- An integer is read back, with its sign. -/
theorem readsBack_int (level : Nat) {n : Int} (h : Integer.fits 64 n = true) :
    ReadsBack level (.int n) := by
  refine readsBack_of_succ (isValue_pretty (.int n h) level) fun {fuel cs rest} hcs hrest _ => ?_
  rw [pretty] at hcs
  cases n with
  | ofNat n =>
    obtain ⟨c, ds, hdigits⟩ : ∃ c ds, Nat.toDigits 10 n = c :: ds :=
      List.exists_cons_of_ne_nil Nat.toDigits_ne_nil
    have hc : Digits.isDecimal c = true := isDecimal_of_mem_toDigits (n := n) (by simp [hdigits])
    rw [decimal, hdigits, List.cons_append] at hcs
    rw [readValue_of_isDecimal hcs hc, ← List.cons_append, ← hdigits, number?_toDigits _ _ hrest,
      integer_of_fits h]
    rfl
  | negSucc n =>
    rw [decimal, List.cons_append] at hcs
    simp [readValue, hcs, number?_toDigits, hrest, integer_of_fits_negSucc h]

theorem endsValue_newline (level : Nat) (rest : List Char) : EndsValue (newline level ++ rest) := by
  simp [EndsValue, newline]

/-- A value is ended by the next item or by the end of the array. -/
theorem endsValue_prettyItems (level after : Nat) (items : List Json) (rest : List Char) :
    EndsValue (prettyItems level items ++ (newline after ++ rest)) := by
  cases items with
  | nil => exact endsValue_newline after rest
  | cons v items => simp [EndsValue, prettyItems]

/-- A value is ended by the next member or by the end of the object. -/
theorem endsValue_prettyMembers (level after : Nat) (members : List (String × Json))
    (rest : List Char) : EndsValue (prettyMembers level members ++ (newline after ++ rest)) := by
  cases members with
  | nil => exact endsValue_newline after rest
  | cons m members => simp [EndsValue, prettyMembers]

/-- The last item has the end of the array behind it. -/
theorem readItems_last {fuel place : Nat} {v : Json} {cs behind rest : List Char}
    (hv : readValue fuel .everything cs = some (v, behind))
    (hend : skipBlanks behind = ']' :: rest) :
    readItems (fuel + 1) .everything place cs = some ([v], rest) := by
  simp [readItems, Interest.item, hv, hend]

/-- An item has a comma behind it, and further items behind that. -/
theorem readItems_next {fuel place : Nat} {v : Json} {items : List Json}
    {cs behind next rest : List Char} (hv : readValue fuel .everything cs = some (v, behind))
    (hcomma : skipBlanks behind = ',' :: next)
    (hrest : readItems fuel .everything (place + 1) next = some (items, rest)) :
    readItems (fuel + 1) .everything place cs = some (v :: items, rest) := by
  simp [readItems, Interest.item, hv, hcomma, hrest]

/-- The items of an array are read back one after the other. -/
theorem readItems_pretty {level after : Nat} {v : Json} {items : List Json}
    (hplain : ∀ w ∈ v :: items, w.IsPlain) (h : ∀ w ∈ v :: items, ReadsBack level w)
    (fuel place : Nat) {cs rest : List Char}
    (hcs : skipBlanks cs =
      pretty level v ++ (prettyItems level items ++ (newline after ++ ']' :: rest)))
    (hfuel : 2 * (pretty level v ++ prettyItems level items).length ≤ fuel) :
    readItems (fuel + 1) .everything place cs = some (v :: items, rest) := by
  -- The induction is on the items behind the first : with none of them the bracket comes next, and
  -- with one a comma, behind which the same text starts again.
  induction items generalizing v fuel place cs with
  | nil =>
    have hv : readValue fuel .everything cs = some (v, newline after ++ ']' :: rest) :=
      h v List.mem_cons_self hcs (endsValue_newline after _) (by simpa [prettyItems] using hfuel)
    exact readItems_last hv (skipBlanks_newline_cons after rfl rest)
  | cons w items ih =>
    simp only [prettyItems, List.length_append, List.length_cons] at hfuel
    have hv : readValue fuel .everything cs = _ :=
      h v List.mem_cons_self hcs (endsValue_prettyItems level after (w :: items) _) (by omega)
    have hw := skipBlanks_value (areBlanks_newline level)
      (isValue_pretty (hplain w (by simp)) level)
      (prettyItems level items ++ (newline after ++ ']' :: rest))
    obtain ⟨fuel, rfl⟩ : ∃ k, fuel = k + 1 := ⟨fuel - 1, by omega⟩
    have hrest := ih (fun u hu => hplain u (List.mem_cons_of_mem v hu))
      (fun u hu => h u (List.mem_cons_of_mem v hu)) fuel (place + 1) hw
      (by rw [List.length_append]; omega)
    exact readItems_next hv (by simp [prettyItems, skipBlanks_cons, isBlank]) hrest

theorem readMembers_last {fuel : Nat} {name : String} {v : Json} {cs value behind rest : List Char}
    (hname : skipBlanks cs = quote name ++ ':' :: value)
    (hv : readValue fuel .everything value = some (v, behind))
    (hend : skipBlanks behind = '}' :: rest) :
    readMembers (fuel + 1) .everything cs = some ([(name, v)], rest) := by
  simp [readMembers, Interest.member, Interest.isSome, hname, quote, Text.strip?, string?_quote,
    skipBlanks_cons, isBlank, hv, hend]

/-- A member has its name before it, and a comma and further members behind it. -/
theorem readMembers_next {fuel : Nat} {name : String} {v : Json} {members : List (String × Json)}
    {cs value behind next rest : List Char} (hname : skipBlanks cs = quote name ++ ':' :: value)
    (hv : readValue fuel .everything value = some (v, behind))
    (hcomma : skipBlanks behind = ',' :: next)
    (hrest : readMembers fuel .everything next = some (members, rest)) :
    readMembers (fuel + 1) .everything cs = some ((name, v) :: members, rest) := by
  simp [readMembers, Interest.member, Interest.isSome, hname, quote, Text.strip?, string?_quote,
    skipBlanks_cons, isBlank, hv, hcomma, hrest]

/-- The members of an object are read back one after the other. -/
theorem readMembers_pretty {level after : Nat} {name : String} {v : Json}
    {members : List (String × Json)} (hplain : ∀ m ∈ (name, v) :: members, m.2.IsPlain)
    (h : ∀ m ∈ (name, v) :: members, ReadsBack level m.2) (fuel : Nat) {cs rest : List Char}
    (hcs : skipBlanks cs = quote name ++ ':' :: ' ' :: (pretty level v ++
      (prettyMembers level members ++ (newline after ++ '}' :: rest))))
    (hfuel : 2 * (pretty level v ++ prettyMembers level members).length ≤ fuel) :
    readMembers (fuel + 1) .everything cs = some ((name, v) :: members, rest) := by
  induction members generalizing name v fuel cs with
  | nil =>
    have hspace := skipBlanks_value areBlanks_space
      (isValue_pretty (hplain (name, v) (by simp)) level)
      (newline after ++ '}' :: rest)
    have hv : readValue fuel .everything _ = some (v, newline after ++ '}' :: rest) :=
      h (name, v) List.mem_cons_self hspace (endsValue_newline after _)
        (by simpa [prettyMembers] using hfuel)
    exact readMembers_last hcs hv (skipBlanks_newline_cons after rfl rest)
  | cons m members ih =>
    simp only [prettyMembers, List.length_append, List.length_cons] at hfuel
    have hspace := skipBlanks_value areBlanks_space
      (isValue_pretty (hplain (name, v) (by simp)) level)
      (prettyMembers level (m :: members) ++ (newline after ++ '}' :: rest))
    have hv : readValue fuel .everything _ = some (v, _) :=
      h (name, v) List.mem_cons_self hspace (endsValue_prettyMembers level after (m :: members) _)
        (show 2 * (pretty level v).length ≤ fuel by omega)
    have hname := skipBlanks_value (areBlanks_newline level) (.string (isString_quote m.1))
      (':' :: ' ' :: (pretty level m.2 ++
        (prettyMembers level members ++ (newline after ++ '}' :: rest))))
    obtain ⟨fuel, rfl⟩ : ∃ k, fuel = k + 1 := ⟨fuel - 1, by omega⟩
    have hrest := ih (fun k hk => hplain k (List.mem_cons_of_mem _ hk))
      (fun k hk => h k (List.mem_cons_of_mem _ hk)) fuel hname
      (by rw [List.length_append]; omega)
    exact readMembers_next hcs hv (by simp [prettyMembers, skipBlanks_cons, isBlank]) hrest

theorem readValue_array {fuel : Nat} {cs inner items : List Char}
    (hcs : skipBlanks cs = '[' :: inner) (hinner : skipBlanks inner = items)
    (hitems : BeginsValue items) : readValue (fuel + 1) .everything cs =
      (readItems fuel .everything 0 items).map fun (vs, rest) => (.array vs, rest) := by
  obtain ⟨c, more, rfl, -, hend⟩ := hitems
  simp [readValue, hcs, hinner, hend]

theorem readValue_object {fuel : Nat} {cs inner members : List Char}
    (hcs : skipBlanks cs = '{' :: inner) (hinner : skipBlanks inner = '"' :: members) :
    readValue (fuel + 1) .everything cs =
      (readMembers fuel .everything ('"' :: members)).map fun (ms, rest) => (.object ms, rest) := by
  simp [readValue, hcs, hinner]

/-- An array is read back if its items are, one level deeper. -/
theorem readsBack_array {level : Nat} {items : List Json} (hplain : ∀ v ∈ items, v.IsPlain)
    (h : ∀ v ∈ items, ReadsBack (level + 1) v) : ReadsBack level (.array items) := by
  refine readsBack_of_succ (isValue_pretty (.array items hplain) level)
    fun {fuel cs rest} hcs _ hfuel => ?_
  cases items with
  | nil => simp [readValue, hcs, pretty, skipBlanks_cons, isBlank]
  | cons v items =>
    have hvalue := isValue_pretty (hplain v List.mem_cons_self) (level + 1)
    have hbegin := beginsValue_of_isValue hvalue
      (prettyItems (level + 1) items ++ (newline level ++ ']' :: rest))
    have hinner := skipBlanks_value (areBlanks_newline (level + 1)) hvalue
      (prettyItems (level + 1) items ++ (newline level ++ ']' :: rest))
    simp only [pretty, List.length_cons, List.length_append] at hfuel
    obtain ⟨fuel, rfl⟩ : ∃ k, fuel = k + 1 := ⟨fuel - 1, by omega⟩
    rw [readValue_array (by simpa [pretty] using hcs) hinner hbegin,
      readItems_pretty hplain h fuel 0 (skipBlanks_of_beginsValue hbegin)
        (by rw [List.length_append]; omega)]
    rfl

/-- An object is read back if the values of its members are, one level deeper. -/
theorem readsBack_object {level : Nat} {members : List (String × Json)}
    (hplain : (Json.object members).IsPlain)
    (h : ∀ m ∈ members, ReadsBack (level + 1) m.2) : ReadsBack level (.object members) := by
  refine readsBack_of_succ (isValue_pretty hplain level) fun {fuel cs rest} hcs _ hfuel => ?_
  obtain ⟨-, hmembers⟩ := isPlain_object_iff.1 hplain
  cases members with
  | nil => simp [readValue, hcs, pretty, skipBlanks_cons, isBlank]
  | cons m members =>
    have hinner := skipBlanks_value (areBlanks_newline (level + 1)) (.string (isString_quote m.1))
      (':' :: ' ' :: (pretty (level + 1) m.2 ++
        (prettyMembers (level + 1) members ++ (newline level ++ '}' :: rest))))
    simp only [pretty, List.length_cons, List.length_append] at hfuel
    obtain ⟨fuel, rfl⟩ : ∃ k, fuel = k + 1 := ⟨fuel - 1, by omega⟩
    rw [readValue_object (by simpa [pretty] using hcs) hinner,
      readMembers_pretty hmembers h fuel (skipBlanks_cons rfl _)
        (by rw [List.length_append]; omega)]
    rfl

/-- A plain value is read back from its text. -/
theorem IsPlain.readsBack {v : Json} (h : v.IsPlain) (level : Nat) : ReadsBack level v := by
  induction h generalizing level with
  | null =>
    exact readsBack_of_succ (isValue_pretty .null level) fun hcs _ _ => by
      simp [readValue, hcs, pretty, Text.strip?, Digits.isDecimal]
  | bool value =>
    exact readsBack_of_succ (isValue_pretty (.bool value) level) fun hcs _ _ => by
      cases value <;> simp [readValue, hcs, pretty, Text.strip?, Digits.isDecimal]
  | int n hfits => exact readsBack_int level hfits
  | string s => exact readsBack_string level s
  | array items hplain ih => exact readsBack_array hplain fun v hv => ih v hv (level + 1)
  | object members hnames hplain ih =>
    exact readsBack_object (.object members hnames hplain) fun m hm => ih m hm (level + 1)

/-- What was rendered is read back as it was. -/
theorem read?_render {v : Json} (h : v.IsPlain) : read? v.render = some v := by
  have hvalue := isValue_pretty h 0
  have hbegin := skipBlanks_of_beginsValue (beginsValue_of_isValue hvalue ['\n'])
  have hread : readValue (2 * (pretty 0 v ++ ['\n']).length + 2) .everything _ = some (v, ['\n']) :=
    h.readsBack 0 hbegin (by simp [EndsValue]) (by rw [List.length_append]; omega)
  have hend : skipBlanks ['\n'] = [] := rfl
  rw [read?, readPart?, render, String.toList_ofList, hread]
  simp [hend]

/-! ## Repeated names -/

mutual

/-- A value in which of several members with one name the last gives the value, in the place of the
first. -/
def merged : Json → Json
  | .array items => .array (mergedItems items)
  | .object members => .ofTable (Table.ofList (mergedMembers members))
  | v => v

/-- Items in each of which the members with one name are merged. -/
def mergedItems : List Json → List Json
  | [] => []
  | v :: rest => merged v :: mergedItems rest

/-- Named values in each of which the members with one name are merged. -/
def mergedMembers : List (String × Json) → List (String × Json)
  | [] => []
  | (name, v) :: rest => (name, merged v) :: mergedMembers rest

end

theorem mergedItems_eq_map (items : List Json) : mergedItems items = items.map merged := by
  induction items with
  | nil => rfl
  | cons v rest ih => rw [mergedItems, ih, List.map_cons]

theorem mergedMembers_eq_map (members : List (String × Json)) :
    mergedMembers members = members.map fun m => (m.1, merged m.2) := by
  induction members with
  | nil => rfl
  | cons m rest ih => rw [mergedMembers, ih, List.map_cons]

/-- Where no name is repeated there is nothing to merge. -/
theorem IsPlain.merged_eq {v : Json} (h : v.IsPlain) : merged v = v := by
  induction h with
  | null => rfl
  | bool value => rfl
  | int n _ => rfl
  | string s => rfl
  | array items _ ih =>
    rw [merged, mergedItems_eq_map, List.map_congr_left ih, List.map_id']
  | object members hnames _ ih =>
    have hmembers : mergedMembers members = members := by
      rw [mergedMembers_eq_map]
      conv_rhs => rw [← List.map_id' members]
      exact List.map_congr_left fun m hm => by rw [ih m hm]
    rw [merged, hmembers, ofTable, Table.entries_ofList hnames]

/-! ## The last line -/

/-- No number stands on two lines. -/
theorem newline_not_mem_decimal (n : Int) : '\n' ∉ decimal n := by
  have hdigits (n : Nat) : '\n' ∉ Nat.toDigits 10 n := fun hmem =>
    absurd (isDecimal_of_mem_toDigits hmem) (by decide)
  cases n with
  | ofNat n => exact hdigits n
  | negSucc n => simp [decimal, hdigits (n + 1)]

/-- A value does not end in a line break. -/
theorem IsPlain.getLast?_pretty_ne {v : Json} (h : v.IsPlain) (level : Nat) :
    (pretty level v).getLast? ≠ some '\n' := by
  cases h with
  | null => simp [pretty]
  | bool value => cases value <;> simp [pretty]
  | int n _ =>
    intro hlast
    rw [pretty] at hlast
    exact newline_not_mem_decimal n (List.mem_of_getLast? hlast)
  | string s => simp [pretty, quote, List.getLast?_cons]
  | array items _ => cases items <;> simp [pretty, List.getLast?_cons]
  | object members _ _ => cases members <;> simp [pretty, List.getLast?_cons]

end Json

/-! ## Contracts -/

namespace Contract

open Json

/-- Whether a text is JSON of one value and ends in exactly one line break, and that value is read
from it, whatever readers do about names that are repeated. -/
structure RoundTrips (v : Json) (text : String) : Prop where
  isText : IsText text.toList
  ends : ∃ line, text.toList = line ++ ['\n'] ∧ line.getLast? ≠ some '\n'
  read : read? text = some v
  merged : (read? text).map merged = some v

/-- Every plain value survives being written and read. -/
theorem roundTrips_of_isPlain {v : Json} (h : v.IsPlain) : RoundTrips v (render v) where
  isText := isText_render h
  ends := ⟨v.pretty 0, by simp [render, Json.render], h.getLast?_pretty_ne 0⟩
  read := read?_render h
  merged := by rw [render, read?_render h, Option.map_some, h.merged_eq]

theorem isPlain_body_success (op : Operation) : (success op).body.IsPlain := by
  unfold success
  cases op.output <;> simp [content, schemaReference, openObject]

theorem isPlain_responsesJson (codes : Table String) (rule : DuplicateStatus)
    (operation : String) (op : Operation) :
    (responsesJson (responses codes rule operation op).1).IsPlain := by
  rw [responsesJson, isPlain_object_iff, List.map_map]
  refine ⟨(responses codes rule operation op).1.nodup, fun m hm => ?_⟩
  obtain ⟨⟨code, response⟩, he, rfl⟩ := List.mem_map.1 hm
  change response.body.IsPlain
  rw [body_of_get?_responses (Table.mem_entries_iff.1 he)]
  split_ifs
  · exact isPlain_body_success op
  · simp [errorBody, content, openObject]

theorem isPlain_pathItem (r : Registry) (rule : DuplicateStatus) (p : Placement) :
    (pathItem r rule p).IsPlain := by
  have hresponses := isPlain_responsesJson r.errorCodes rule p.operation p.definition
  have hbody : (requestBody p).IsPlain := by
    unfold requestBody
    cases p.definition.input <;> simp [content, schemaReference, openObject]
  simp [pathItem, headers, header, hbody, hresponses]

/-- A contract that consists of path items is plain. -/
theorem isPlain_emit (r : Registry) {style : Style} (h : style.layout = .paths) :
    (emit r style).document.IsPlain := by
  have hdocument : (emit r style).document = pathsJson (placed r style.duplicateStatus).1 := by
    simp [emit, h]
  rw [hdocument, pathsJson, isPlain_object_iff, List.map_map]
  refine ⟨(placed r style.duplicateStatus).1.nodup, fun m hm => ?_⟩
  obtain ⟨e, he, rfl⟩ := List.mem_map.1 hm
  obtain ⟨p, -, rfl⟩ := mem_entries_placed_iff.1 he
  exact isPlain_pathItem r style.duplicateStatus p

/-- Different plain values have different bytes. -/
theorem eq_of_toUTF8_render_eq {v w : Json} (hv : v.IsPlain) (hw : w.IsPlain)
    (h : (render v).toUTF8 = (render w).toUTF8) : v = w := by
  have htext : render v = render w := String.toByteArray_inj.1 h
  have hread : some v = some w := by
    rw [← read?_render hv, ← read?_render hw]
    exact congrArg read? htext
  exact Option.some.inj hread

/-- A plain value is read back from its text, so that no other plain value has the same bytes; and
contracts that consist of path items are plain. -/
theorem roundTrips_render :
    (∀ v : Json, v.IsPlain → RoundTrips v (render v)) ∧
      (∀ v w : Json, v.IsPlain → w.IsPlain → (render v).toUTF8 = (render w).toUTF8 → v = w) ∧
      ∀ (r : Registry) (style : Style), style.layout = .paths →
        (emit r style).document.IsPlain ∧
          RoundTrips (emit r style).document (render (emit r style).document) :=
  ⟨fun _ hv => roundTrips_of_isPlain hv, fun _ _ hv hw => eq_of_toUTF8_render_eq hv hw,
    fun r _ h => ⟨isPlain_emit r h, roundTrips_of_isPlain (isPlain_emit r h)⟩⟩

/-- Names and texts with characters of every kind around empty and nested values. -/
def motley : Json :=
  .object [("\"\\\n\x01é", .array [.int (-1), .array [], .object [], .array [.null]]),
    ("", .string "\x1f/\t😀")]

/-- The same with its members the other way round. -/
def motleyReversed : Json := .object motley.members.reverse

/-- A service and an operation with names that have to be escaped. -/
def escapedNames : Registry :=
  { Registry.empty with
    services := Table.ofList [("a\\b", Table.ofList [("\"\n", ⟨none, some "\t", ["E", "F"]⟩)])] }

/-- Members in another order make another text, of which each gives back its own order; and names
that have to be escaped come back in a contract. -/
theorem roundTrips_render_motley :
    motley.IsPlain ∧ motleyReversed.IsPlain ∧ RoundTrips motley (render motley) ∧
      RoundTrips motleyReversed (render motleyReversed) ∧
      (render motley).toUTF8 ≠ (render motleyReversed).toUTF8 ∧
      (emit escapedNames Style.default).paths = 1 ∧
      RoundTrips (emit escapedNames Style.default).document
        (render (emit escapedNames Style.default).document) := by
  have hnumber : (Json.int (-1)).IsPlain := .int (-1) (by decide)
  have hplain : motley.IsPlain := by simp [motley, hnumber]
  have hreversed : motleyReversed.IsPlain := by
    simp [motleyReversed, motley, Json.members, hnumber]
  refine ⟨hplain, hreversed, roundTrips_render.1 _ hplain, roundTrips_render.1 _ hreversed,
    fun hbytes => ?_, by decide +kernel, (roundTrips_render.2.2 escapedNames Style.default rfl).2⟩
  have hsame := roundTrips_render.2.1 _ _ hplain hreversed hbytes
  simp [motley, motleyReversed, Json.members] at hsame

end Contract

end ServiceContract
