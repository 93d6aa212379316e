import ServiceContract.Proofs.JsonText
import Mathlib.Data.List.DropRight
import Mathlib.Data.List.TakeWhile
/-!
# JSON as it is written

A `Written` value is a JSON value with all that its text says beyond the value : the blanks between
its tokens, the way each character of a string is spelled, the digits of a number. So the text can
be read off it (`Written.text`), and every text that the reader takes is the text of a written
value, which stands for what the reader makes of it (`exists_written_of_readPart?`). Only what half
of a surrogate pair stands for is left open. Where no string has one, the written value is legible.
-/

namespace ServiceContract.Json

open Text

/-! ## Written values -/

/-- Blanks between two tokens. -/
structure Blanks where
  /-- The blanks. -/
  text : List Char
  areBlanks : AreBlanks text

/-- A character of a string as it is spelled. -/
inductive Piece where
  /-- As it is. -/
  | plain (c : Char) (hcontrol : 0x20 ≤ c.toNat) (hquote : c ≠ '"') (hslash : c ≠ '\\')
  /-- As a letter behind a backslash. -/
  | letter (e c : Char) (h : escaped? e = some c)
  /-- As the four hexadecimal digits of a number. -/
  | number (digits : List Char) (n : Nat) (hlength : digits.length = 4)
      (h : Digits.number? 16 digits = some n)

/-- A number, or one of the three words. -/
inductive IsLiteral : List Char → Prop where
  | null : IsLiteral ['n', 'u', 'l', 'l']
  | true : IsLiteral ['t', 'r', 'u', 'e']
  | false : IsLiteral ['f', 'a', 'l', 's', 'e']
  | number {sign whole fraction exponent : List Char} (hsign : sign ∈ [[], ['-']])
      (hwhole : IsWhole whole) (hfraction : IsFraction fraction)
      (hexponent : IsExponent exponent) : IsLiteral (sign ++ whole ++ fraction ++ exponent)

/-- The name of a member as it is written, with the blanks around it. -/
structure Label where
  /-- The blanks before it. -/
  before : Blanks
  /-- Its characters. -/
  name : List Piece
  /-- The blanks between it and the colon. -/
  gap : Blanks

mutual

/-- A value as it is written. -/
inductive Written where
  /-- A number, or one of the three words. -/
  | literal (cs : List Char) (h : IsLiteral cs)
  /-- A string. -/
  | string (pieces : List Piece)
  /-- An array without items. -/
  | emptyArray (inner : Blanks)
  /-- An array. -/
  | array (items : WrittenItems)
  /-- An object without members. -/
  | emptyObject (inner : Blanks)
  /-- An object. -/
  | object (members : WrittenMembers)

/-- The items of an array as they are written. -/
inductive WrittenItems where
  /-- One item. -/
  | last (before : Blanks) (v : Written) (after : Blanks)
  /-- An item and further ones. -/
  | next (before : Blanks) (v : Written) (after : Blanks) (rest : WrittenItems)

/-- The members of an object as they are written. -/
inductive WrittenMembers where
  /-- One member. -/
  | last (label : Label) (before : Blanks) (v : Written) (after : Blanks)
  /-- A member and further ones. -/
  | next (label : Label) (before : Blanks) (v : Written) (after : Blanks) (rest : WrittenMembers)

end

/-- A text with one value in it. -/
structure WrittenText where
  /-- The blanks before the value. -/
  before : Blanks
  /-- The value. -/
  root : Written
  /-- The blanks behind it. -/
  after : Blanks

/-! ## Their text -/

/-- The text of a character of a string. -/
def Piece.text : Piece → List Char
  | plain c .. => [c]
  | letter e _ _ => ['\\', e]
  | number digits .. => '\\' :: 'u' :: digits

/-- The text of a string. -/
def quoted (pieces : List Piece) : List Char := '"' :: (pieces.flatMap Piece.text ++ ['"'])

/-- The text of a name from its first quote to the colon. -/
def Label.text (l : Label) : List Char := quoted l.name ++ l.gap.text

mutual

/-- The text of a value. -/
def Written.text : Written → List Char
  | .literal cs _ => cs
  | .string pieces => quoted pieces
  | .emptyArray inner => '[' :: (inner.text ++ [']'])
  | .array items => '[' :: (items.text ++ [']'])
  | .emptyObject inner => '{' :: (inner.text ++ ['}'])
  | .object members => '{' :: (members.text ++ ['}'])

/-- The text of items. -/
def WrittenItems.text : WrittenItems → List Char
  | .last before v after => before.text ++ v.text ++ after.text
  | .next before v after rest => before.text ++ v.text ++ after.text ++ ',' :: rest.text

/-- The text of members. -/
def WrittenMembers.text : WrittenMembers → List Char
  | .last label before v after =>
    label.before.text ++ label.text ++ ':' :: (before.text ++ v.text ++ after.text)
  | .next label before v after rest =>
    label.before.text ++ label.text ++
      ':' :: (before.text ++ v.text ++ after.text ++ ',' :: rest.text)

end

/-- The text with its blanks. -/
def WrittenText.text (t : WrittenText) : List Char := t.before.text ++ t.root.text ++ t.after.text

/-! ## What they stand for -/

/-- Whether a spelling is that of a character, and not that of half a surrogate pair. -/
def Piece.isLegible : Piece → Bool
  | number _ n .. => n.isValidChar
  | _ => true

/-- The character that is spelled. -/
def Piece.character : Piece → Char
  | plain c .. => c
  | letter _ c _ => c
  | number _ n .. => Char.ofNat n

/-- The text that a string stands for. -/
def textOf (pieces : List Piece) : String := String.ofList (pieces.map Piece.character)

mutual

/-- Whether all strings in a value are text. -/
def Written.isLegible : Written → Bool
  | .string pieces => pieces.all Piece.isLegible
  | .array items => items.isLegible
  | .object members => members.isLegible
  | _ => true

/-- The same for items. -/
def WrittenItems.isLegible : WrittenItems → Bool
  | .last _ v _ => v.isLegible
  | .next _ v _ rest => v.isLegible && rest.isLegible

/-- The same for members, whose names are text as well. -/
def WrittenMembers.isLegible : WrittenMembers → Bool
  | .last label _ v _ => label.name.all Piece.isLegible && v.isLegible
  | .next label _ v _ rest =>
    label.name.all Piece.isLegible && (v.isLegible && rest.isLegible)

end

/-- Whether a value is a number, a truth value or nothing. -/
def isLiteral : Json → Bool
  | .string _ | .array _ | .object _ => false
  | _ => true

/-- Whether a string stands for a text. What half of a surrogate pair stands for is left open. -/
def Stands (pieces : List Piece) (s : String) : Prop :=
  pieces.all Piece.isLegible = true → textOf pieces = s

mutual

/-- Whether a written value stands for a value. -/
def Written.Denotes : Written → Json → Prop
  | .literal _ _, v => v.isLiteral = true
  | .string pieces, v => ∃ s, v = .string s ∧ Stands pieces s
  | .emptyArray _, v => v = .array []
  | .array items, v => ∃ vs, v = .array vs ∧ items.Denotes vs
  | .emptyObject _, v => v = .object []
  | .object members, v => ∃ ms, v = .object ms ∧ members.Denotes ms

/-- Whether written items stand for values. -/
def WrittenItems.Denotes : WrittenItems → List Json → Prop
  | .last _ w _, vs => ∃ v, vs = [v] ∧ w.Denotes v
  | .next _ w _ rest, vs => ∃ v others, vs = v :: others ∧ w.Denotes v ∧ rest.Denotes others

/-- Whether written members stand for named values. -/
def WrittenMembers.Denotes : WrittenMembers → List (String × Json) → Prop
  | .last label _ w _, ms => ∃ s v, ms = [(s, v)] ∧ Stands label.name s ∧ w.Denotes v
  | .next label _ w _ rest, ms => ∃ s v others, ms = (s, v) :: others ∧ Stands label.name s ∧
      w.Denotes v ∧ rest.Denotes others

end

/-! ## What is read is written -/

theorem exists_blanks (cs : List Char) : ∃ before : Blanks, cs = before.text ++ skipBlanks cs := by
  refine ⟨⟨cs.takeWhile isBlank, fun c hc => ?_⟩, (List.takeWhile_append_dropWhile).symm⟩
  exact isBlank_iff.1 (List.mem_takeWhile_imp hc)

/-- Four digits that are read are those of a spelling by number, which is legible if the number is
that of a character. -/
theorem exists_piece_of_hexQuad? {cs rest : List Char} {n : Nat}
    (h : hexQuad? cs = some (n, rest)) :
    ∃ p : Piece, '\\' :: 'u' :: cs = p.text ++ rest ∧ p.isLegible = decide n.isValidChar ∧
      p.character = Char.ofNat n := by
  unfold hexQuad? at h
  split at h
  · rename_i a b c d tail
    obtain ⟨m, hm, heq⟩ := Option.map_eq_some_iff.1 h
    obtain ⟨rfl, rfl⟩ := Prod.mk.inj heq
    exact ⟨.number [a, b, c, d] m rfl hm, rfl, rfl, rfl⟩
  · cases h

/-- Whether characters are those of a string, up to a rest, and spell what is read of them. -/
def IsSpelled (cs ds rest : List Char) : Prop :=
  ∃ pieces : List Piece, cs = pieces.flatMap Piece.text ++ rest ∧
    (pieces.all Piece.isLegible = true → pieces.map Piece.character = ds)

namespace IsSpelled

theorem nil (rest : List Char) : IsSpelled rest [] rest := ⟨[], rfl, fun _ => rfl⟩

theorem piece {p : Piece} {d : Char} (hp : p.isLegible = true → p.character = d)
    (rest : List Char) : IsSpelled (p.text ++ rest) [d] rest :=
  ⟨[p], by simp, fun hall => by simpa using hp (by simpa using hall)⟩

/-- Spellings stand one behind the other. -/
theorem append {cs ds behind es rest : List Char} (h : IsSpelled cs ds behind)
    (hrest : IsSpelled behind es rest) : IsSpelled cs (ds ++ es) rest := by
  obtain ⟨pieces, rfl, hpieces⟩ := h
  obtain ⟨others, rfl, hothers⟩ := hrest
  refine ⟨pieces ++ others, by simp, fun hall => ?_⟩
  rw [List.all_append, Bool.and_eq_true] at hall
  rw [List.map_append, hpieces hall.1, hothers hall.2]

end IsSpelled

/-- What is read of an escape by number is one such escape, or two that are halves of a pair. -/
theorem isSpelled_of_numbered? {isText : Bool} {cs rest : List Char} {d : Char}
    (h : numbered? isText cs = some (d, rest)) : IsSpelled ('\\' :: 'u' :: cs) [d] rest := by
  simp only [numbered?, Option.bind_eq_bind, Option.bind_eq_some_iff, Prod.exists] at h
  obtain ⟨n, behind, hquad, h⟩ := h
  obtain ⟨p, htext, hlegible, hcharacter⟩ := exists_piece_of_hexQuad? hquad
  have hlone : ∀ {c : Char}, (n.isValidChar → Char.ofNat n = c) →
      IsSpelled ('\\' :: 'u' :: cs) [c] behind := by
    intro c hc
    rw [htext]
    exact .piece (fun hp => hcharacter.trans (hc (by simpa [hlegible] using hp))) behind
  split_ifs at h with hpart hvalid hhigh hlow
  · obtain ⟨hd, rfl⟩ := Prod.mk.inj (Option.some.inj h)
    exact hlone fun _ => hd
  · obtain ⟨-, rfl⟩ := Prod.mk.inj (Option.some.inj h)
    exact hlone fun h => absurd h hvalid
  · -- The first half of a pair, which is not legible, whatever follows.
    simp only [Option.bind_eq_some_iff, Prod.exists] at h
    obtain ⟨tail, htail, m, after, hsecond, h⟩ := h
    obtain ⟨q, hq, -, -⟩ := exists_piece_of_hexQuad? hsecond
    have hrest : rest = after := by
      split_ifs at h
      exact (Prod.mk.inj (Option.some.inj h)).2.symm
    refine ⟨[p, q], ?_, fun hall => ?_⟩
    · rw [htext, Text.strip?_eq_some_iff.1 htail, hrest]
      simpa using hq
    · have hvalid : n.isValidChar := by
        have hboth : n.isValidChar ∧ q.isLegible = true := by simpa [hlegible] using hall
        exact hboth.1
      exact absurd hvalid (by unfold Nat.isValidChar; omega)
  · obtain ⟨hd, rfl⟩ := Prod.mk.inj (Option.some.inj h)
    exact hlone fun _ => hd

/-- What is read as a string is one. -/
theorem isSpelled_of_characters {isText : Bool} {fuel : Nat} {cs ds rest : List Char}
    (h : characters isText fuel cs = some (ds, rest)) : IsSpelled cs ds ('"' :: rest) := by
  induction fuel generalizing cs ds rest with
  | zero => cases h
  | succ fuel ih =>
    cases cs with
    | nil => cases h
    | cons c cs =>
      simp only [characters, Option.bind_eq_bind] at h
      split_ifs at h with hquote hcontrol hslash
      · obtain ⟨rfl, rfl⟩ := Prod.mk.inj (Option.some.inj h)
        rw [hquote]
        exact .nil _
      · subst hslash
        split at h
        · cases h
        · simp only [Option.bind_eq_some_iff, Prod.exists, Option.pure_def, Option.some.injEq,
            Prod.mk.injEq] at h
          obtain ⟨d, behind, hnumber, others, _, hread, rfl, rfl⟩ := h
          exact (isSpelled_of_numbered? hnumber).append (ih hread)
        · rename_i e behind _
          simp only [Option.bind_eq_some_iff, Prod.exists, Option.pure_def, Option.some.injEq,
            Prod.mk.injEq] at h
          obtain ⟨d, hletter, others, _, hread, rfl, rfl⟩ := h
          exact (IsSpelled.piece (p := .letter e d hletter) (fun _ => rfl) behind).append (ih hread)
      · simp only [Option.bind_eq_some_iff, Prod.exists, Option.pure_def, Option.some.injEq,
          Prod.mk.injEq] at h
        obtain ⟨others, _, hread, rfl, rfl⟩ := h
        exact (IsSpelled.piece (p := .plain c (by omega) hquote hslash) (fun _ => rfl) cs).append
          (ih hread)

/-- What is read as a string behind its first quote is the rest of a quoted one. -/
theorem exists_pieces_of_string? {isText : Bool} {cs rest : List Char} {s : String}
    (h : string? isText cs = some (s, rest)) :
    ∃ pieces : List Piece, '"' :: cs = quoted pieces ++ rest ∧ Stands pieces s := by
  obtain ⟨⟨ds, behind⟩, hread, heq⟩ := Option.map_eq_some_iff.1 h
  obtain ⟨rfl, rfl⟩ := Prod.mk.inj heq
  obtain ⟨pieces, htext, hpieces⟩ := isSpelled_of_characters hread
  exact ⟨pieces, by simp [quoted, htext], fun hall => by rw [textOf, hpieces hall]⟩

/-! ### Numbers -/

theorem areDigits_of_digits {cs ds rest : List Char} (h : digits cs = (ds, rest)) (hne : ds ≠ []) :
    cs = ds ++ rest ∧ AreDigits ds := by
  obtain ⟨rfl, rfl⟩ := Prod.mk.inj h
  exact ⟨(List.takeWhile_append_dropWhile).symm, hne, fun c hc => List.mem_takeWhile_imp hc⟩

/-- What is taken as a fraction is one, or it is nothing. -/
theorem isFraction_of_fraction? {cs ds rest : List Char} (h : fraction? cs = some (ds, rest)) :
    ∃ written, IsFraction written ∧ cs = written ++ rest := by
  unfold fraction? at h
  split at h
  · split at h
    · cases h
    · rename_i _ _ hne hdigits
      obtain ⟨rfl, rfl⟩ := Prod.mk.inj (Option.some.inj h)
      obtain ⟨rfl, hare⟩ := areDigits_of_digits hdigits hne
      exact ⟨_, .some _ hare, rfl⟩
  · obtain ⟨-, rfl⟩ := Prod.mk.inj (Option.some.inj h)
    exact ⟨[], .none, rfl⟩

theorem exists_sign_of_exponentSign (cs : List Char) :
    ∃ sign, sign ∈ [[], ['+'], ['-']] ∧ cs = sign ++ (exponentSign cs).2 := by
  unfold exponentSign
  split
  · exact ⟨['-'], by simp, rfl⟩
  · exact ⟨['+'], by simp, rfl⟩
  · exact ⟨[], by simp, rfl⟩

/-- What is taken as an exponent is one, or it is nothing. -/
theorem isExponent_of_exponent? {cs rest : List Char} {power : Option Int}
    (h : exponent? cs = some (power, rest)) :
    ∃ written, IsExponent written ∧ cs = written ++ rest := by
  unfold exponent? at h
  split at h
  · rename_i c behind
    split_ifs at h with hletter
    · obtain ⟨sign, hsign, htext⟩ := exists_sign_of_exponentSign behind
      generalize exponentSign behind = signed at h htext
      obtain ⟨negative, unsigned⟩ := signed
      dsimp only at h htext
      generalize hdigits : digits unsigned = split at h
      obtain ⟨ds, after⟩ := split
      have hne : ds ≠ [] := by
        rintro rfl
        cases h
      obtain ⟨rfl, hare⟩ := areDigits_of_digits hdigits hne
      obtain ⟨n, -, heq⟩ := Option.map_eq_some_iff.1 h
      obtain ⟨-, rfl⟩ := Prod.mk.inj heq
      exact ⟨_, .some c sign ds (by simpa using hletter) hsign hare, by simp [htext]⟩
    · obtain ⟨-, rfl⟩ := Prod.mk.inj (Option.some.inj h)
      exact ⟨[], .none, rfl⟩
  · obtain ⟨-, rfl⟩ := Prod.mk.inj (Option.some.inj h)
    exact ⟨[], .none, rfl⟩

/-- A number is no container, whether or not it is kept as an integer. -/
theorem isLiteral_integer (negative : Bool) (n : Nat) : (integer negative n).isLiteral = true := by
  unfold integer
  generalize (if negative then -(n : Int) else n) = signed
  dsimp only
  generalize (Integer.fits 64 signed && _) = fits
  cases fits <;> rfl

/-- What is read as a number is one. -/
theorem isLiteral_of_number? {negative : Bool} {cs rest : List Char} {v : Json}
    (h : number? negative cs = some (v, rest)) : v.isLiteral = true ∧
      ∃ written, IsLiteral ((if negative then ['-'] else []) ++ written) ∧
        cs = written ++ rest := by
  unfold number? at h
  generalize hdigits : digits cs = split at h
  obtain ⟨whole, behind⟩ := split
  simp only [Option.bind_eq_bind] at h
  split_ifs at h with hwhole
  simp only [Option.bind_eq_some_iff, Prod.exists] at h
  obtain ⟨part, tail, hfraction, power, last, hexponent, n, -, h⟩ := h
  have hne : whole ≠ [] := fun hnil => hwhole (by simp [hnil])
  obtain ⟨rfl, hare⟩ := areDigits_of_digits hdigits hne
  obtain ⟨fraction, hisFraction, rfl⟩ := isFraction_of_fraction? hfraction
  obtain ⟨exponent, hisExponent, rfl⟩ := isExponent_of_exponent? hexponent
  have hrest : v.isLiteral = true ∧ last = rest := by
    split_ifs at h <;> obtain ⟨rfl, rfl⟩ := Prod.mk.inj (Option.some.inj h)
    · exact ⟨isLiteral_integer negative n, rfl⟩
    · exact ⟨rfl, rfl⟩
  obtain ⟨hliteral, rfl⟩ := hrest
  refine ⟨hliteral, whole ++ fraction ++ exponent, ?_, by simp⟩
  have hsign : (if negative then ['-'] else []) ∈ [[], ['-']] := by cases negative <;> simp
  have hzero : whole.head? = some '0' → whole = ['0'] := by
    intro hhead
    obtain ⟨others, rfl⟩ := List.head?_eq_some_iff.1 hhead
    have hothers : others = [] := by
      by_contra hothers
      exact hwhole (by simp [hothers])
    rw [hothers]
  simpa using IsLiteral.number hsign ⟨hare, hzero⟩ hisFraction hisExponent

/-! ### Values -/

theorem skipBlanks_skipBlanks (cs : List Char) : skipBlanks (skipBlanks cs) = skipBlanks cs :=
  List.dropWhile_idempotent isBlank cs

/-- A value is read behind any blanks, so those before it may be skipped first. -/
theorem readValue_skipBlanks (fuel : Nat) (interest : Interest) (cs : List Char) :
    readValue fuel interest (skipBlanks cs) = readValue fuel interest cs := by
  cases fuel with
  | zero => rfl
  | succ fuel => rw [readValue, readValue, skipBlanks_skipBlanks]

theorem readItems_skipBlanks (fuel : Nat) (interest : Interest) (place : Nat) (cs : List Char) :
    readItems fuel interest place (skipBlanks cs) = readItems fuel interest place cs := by
  cases fuel with
  | zero => rfl
  | succ fuel => rw [readItems, readItems, readValue_skipBlanks]

theorem readMembers_skipBlanks (fuel : Nat) (interest : Interest) (cs : List Char) :
    readMembers fuel interest (skipBlanks cs) = readMembers fuel interest cs := by
  cases fuel with
  | zero => rfl
  | succ fuel => rw [readMembers, readMembers, skipBlanks_skipBlanks]

/-- Whether characters are a value as it is written, with a rest behind it. -/
def IsWritten (cs rest : List Char) (v : Json) : Prop :=
  ∃ w : Written, cs = w.text ++ rest ∧ w.Denotes v

/-- One of the three words, behind its first letter. -/
theorem isWritten_word {c : Char} {word behind rest : List Char} {u v : Json}
    (hu : u.isLiteral = true) (hliteral : IsLiteral (c :: word))
    (h : (Text.strip? word behind).map (fun rest => (u, rest)) = some (v, rest)) :
    IsWritten (c :: behind) rest v := by
  obtain ⟨last, hlast, heq⟩ := Option.map_eq_some_iff.1 h
  obtain ⟨rfl, rfl⟩ := Prod.mk.inj heq
  rw [Text.strip?_eq_some_iff.1 hlast]
  exact ⟨.literal _ hliteral, rfl, hu⟩

theorem isWritten_emptyArray {cs rest : List Char} (h : skipBlanks cs = ']' :: rest) :
    IsWritten ('[' :: cs) rest (.array []) := by
  obtain ⟨inner, hinner⟩ := exists_blanks cs
  rw [h] at hinner
  exact ⟨.emptyArray inner, by simp [Written.text, hinner], rfl⟩

theorem isWritten_emptyObject {cs rest : List Char} (h : skipBlanks cs = '}' :: rest) :
    IsWritten ('{' :: cs) rest (.object []) := by
  obtain ⟨inner, hinner⟩ := exists_blanks cs
  rw [h] at hinner
  exact ⟨.emptyObject inner, by simp [Written.text, hinner], rfl⟩

/-- What is read as a value, with some fuel, is written as one and stands for what is read. -/
def ValuesWritten (fuel : Nat) : Prop :=
  ∀ (interest : Interest) (cs rest : List Char) (v : Json),
    readValue fuel interest cs = some (v, rest) →
    ∃ (before : Blanks) (w : Written), cs = before.text ++ (w.text ++ rest) ∧ w.Denotes v

/-- The same for items. -/
def ItemsWritten (fuel : Nat) : Prop :=
  ∀ (interest : Interest) (place : Nat) (cs rest : List Char) (vs : List Json),
    readItems fuel interest place cs = some (vs, rest) →
    ∃ ws : WrittenItems, cs = ws.text ++ ']' :: rest ∧ ws.Denotes vs

/-- The same for members. -/
def MembersWritten (fuel : Nat) : Prop :=
  ∀ (interest : Interest) (cs rest : List Char) (ms : List (String × Json)),
    readMembers fuel interest cs = some (ms, rest) →
    ∃ ws : WrittenMembers, cs = ws.text ++ '}' :: rest ∧ ws.Denotes ms

section Step

variable {fuel : Nat} {interest : Interest} {cs rest : List Char}

/-- An array is written if its items are. -/
theorem isWritten_array (hitems : ItemsWritten fuel) {place : Nat} {vs : List Json}
    (h : readItems fuel interest place (skipBlanks cs) = some (vs, rest)) :
    IsWritten ('[' :: cs) rest (.array vs) := by
  rw [readItems_skipBlanks] at h
  obtain ⟨ws, htext, hws⟩ := hitems _ _ _ _ _ h
  exact ⟨.array ws, by simp [Written.text, htext], vs, rfl, hws⟩

/-- An object is written if its members are. -/
theorem isWritten_object (hmembers : MembersWritten fuel) {ms : List (String × Json)}
    (h : readMembers fuel interest (skipBlanks cs) = some (ms, rest)) :
    IsWritten ('{' :: cs) rest (.object ms) := by
  rw [readMembers_skipBlanks] at h
  obtain ⟨ws, htext, hws⟩ := hmembers _ _ _ _ h
  exact ⟨.object ws, by simp [Written.text, htext], ms, rfl, hws⟩

/-- The first character decides what kind of value is written. -/
theorem valuesWritten_succ (hitems : ItemsWritten fuel) (hmembers : MembersWritten fuel) :
    ValuesWritten (fuel + 1) := by
  intro interest cs rest v h
  obtain ⟨before, hbefore⟩ := exists_blanks cs
  unfold readValue at h
  split at h
  · cases h
  · rename_i c behind hbehind
    rw [hbehind] at hbefore
    -- It is enough to find what is written from the first character on.
    suffices hwritten : IsWritten (c :: behind) rest v by
      obtain ⟨w, htext, hw⟩ := hwritten
      exact ⟨before, w, by rw [hbefore, htext], hw⟩
    split_ifs at h with hbrace hbracket hquote hminus hdigit htrue hfalse hnull
    · subst hbrace
      split at h
      · rename_i last hlast
        obtain ⟨rfl, rfl⟩ := Prod.mk.inj (Option.some.inj h)
        exact isWritten_emptyObject hlast
      · obtain ⟨⟨ms, last⟩, hread, heq⟩ := Option.map_eq_some_iff.1 h
        obtain ⟨rfl, rfl⟩ := Prod.mk.inj heq
        exact isWritten_object hmembers hread
    · subst hbracket
      split at h
      · rename_i last hlast
        obtain ⟨rfl, rfl⟩ := Prod.mk.inj (Option.some.inj h)
        exact isWritten_emptyArray hlast
      · obtain ⟨⟨vs, last⟩, hread, heq⟩ := Option.map_eq_some_iff.1 h
        obtain ⟨rfl, rfl⟩ := Prod.mk.inj heq
        exact isWritten_array hitems hread
    · subst hquote
      obtain ⟨⟨s, last⟩, hread, heq⟩ := Option.map_eq_some_iff.1 h
      obtain ⟨rfl, rfl⟩ := Prod.mk.inj heq
      obtain ⟨pieces, htext, hpieces⟩ := exists_pieces_of_string? hread
      exact ⟨.string pieces, htext, s, rfl, hpieces⟩
    · subst hminus
      obtain ⟨hliteral, written, hwritten, rfl⟩ := isLiteral_of_number? h
      exact ⟨.literal _ hwritten, by simp [Written.text], hliteral⟩
    · obtain ⟨hliteral, written, hwritten, htext⟩ := isLiteral_of_number? h
      exact ⟨.literal _ hwritten, by simpa [Written.text] using htext, hliteral⟩
    · exact isWritten_word rfl (by subst htrue; exact .true) h
    · exact isWritten_word rfl (by subst hfalse; exact .false) h
    · exact isWritten_word rfl (by subst hnull; exact .null) h

/-- Items are written one by one, each with the blanks around it. -/
theorem itemsWritten_succ (hvalue : ValuesWritten fuel) (hitems : ItemsWritten fuel) :
    ItemsWritten (fuel + 1) := by
  intro interest place cs rest vs h
  unfold readItems at h
  simp only [Option.bind_eq_bind, Option.bind_eq_some_iff, Prod.exists] at h
  obtain ⟨v, behind, hread, h⟩ := h
  obtain ⟨before, w, htext, hw⟩ := hvalue _ _ _ _ hread
  obtain ⟨after, hafter⟩ := exists_blanks behind
  split at h
  · rename_i last hlast
    obtain ⟨rfl, rfl⟩ := Prod.mk.inj (Option.some.inj h)
    exact ⟨.last before w after, by simp [WrittenItems.text, htext, ← hlast, ← hafter], v, rfl, hw⟩
  · rename_i next hnext
    simp only [Option.bind_eq_some_iff, Prod.exists] at h
    obtain ⟨others, last, hothers, h⟩ := h
    obtain ⟨rfl, rfl⟩ := Prod.mk.inj (Option.some.inj h)
    obtain ⟨ws, hws, hdenotes⟩ := hitems _ _ _ _ _ hothers
    refine ⟨.next before w after ws, ?_, v, others, rfl, hw, hdenotes⟩
    simp [WrittenItems.text, htext, ← hws, ← hnext, ← hafter]
  · cases h

/-- Members are written one by one, each with its name. -/
theorem membersWritten_succ (hvalue : ValuesWritten fuel) (hmembers : MembersWritten fuel) :
    MembersWritten (fuel + 1) := by
  intro interest cs rest ms h
  unfold readMembers at h
  simp only [Option.bind_eq_bind, Option.bind_eq_some_iff, Prod.exists] at h
  obtain ⟨opened, hopened, key, named, hkey, coloned, hcoloned, v, behind, hread, h⟩ := h
  obtain ⟨first, hfirst⟩ := exists_blanks cs
  obtain ⟨pieces, hname, hpieces⟩ := exists_pieces_of_string? hkey
  obtain ⟨gap, hgap⟩ := exists_blanks named
  obtain ⟨before, w, htext, hw⟩ := hvalue _ _ _ _ hread
  obtain ⟨after, hafter⟩ := exists_blanks behind
  -- The text up to the end of the value.
  have hmember : cs = first.text ++ (quoted pieces ++ (gap.text ++ ':' ::
      (before.text ++ (w.text ++ behind)))) := by
    rw [Text.strip?_eq_some_iff.1 hcoloned] at hgap
    rw [Text.strip?_eq_some_iff.1 hopened] at hfirst
    rw [hfirst, List.singleton_append, hname, hgap, htext]
    rfl
  split at h
  · rename_i last hlast
    obtain ⟨rfl, rfl⟩ := Prod.mk.inj (Option.some.inj h)
    refine ⟨.last ⟨first, pieces, gap⟩ before w after, ?_, key, v, rfl, hpieces, hw⟩
    simp [WrittenMembers.text, Label.text, hmember, ← hlast, ← hafter]
  · rename_i next hnext
    simp only [Option.bind_eq_some_iff, Prod.exists] at h
    obtain ⟨others, last, hothers, h⟩ := h
    obtain ⟨rfl, rfl⟩ := Prod.mk.inj (Option.some.inj h)
    obtain ⟨ws, hws, hdenotes⟩ := hmembers _ _ _ _ hothers
    refine ⟨.next ⟨first, pieces, gap⟩ before w after ws, ?_, key, v, others, rfl, hpieces, hw,
      hdenotes⟩
    simp [WrittenMembers.text, Label.text, hmember, ← hws, ← hnext, ← hafter]
  · cases h

end Step

/-- What is read with any fuel is written, by induction on the fuel. -/
theorem written_of_read (fuel : Nat) :
    ValuesWritten fuel ∧ ItemsWritten fuel ∧ MembersWritten fuel := by
  induction fuel with
  | zero =>
    refine ⟨fun _ _ _ _ h => ?_, fun _ _ _ _ _ h => ?_, fun _ _ _ _ h => ?_⟩ <;>
      simp [readValue, readItems, readMembers] at h
  | succ fuel ih =>
    obtain ⟨hvalue, hitems, hmembers⟩ := ih
    exact ⟨valuesWritten_succ hitems hmembers, itemsWritten_succ hvalue hitems,
      membersWritten_succ hvalue hmembers⟩

/-- What the reader takes is the text of a written value that stands for what is read. -/
theorem exists_written_of_readPart? {interest : Interest} {cs : List Char} {v : Json}
    (h : readPart? interest cs = some v) :
    ∃ w : WrittenText, w.text = cs ∧ w.root.Denotes v := by
  simp only [readPart?, Option.bind_eq_bind, Option.bind_eq_some_iff, Prod.exists] at h
  obtain ⟨u, rest, hread, h⟩ := h
  split_ifs at h with hrest
  obtain rfl := Option.some.inj h
  obtain ⟨before, w, htext, hw⟩ := (written_of_read _).1 _ _ _ _ hread
  obtain ⟨after, hafter⟩ := exists_blanks rest
  rw [hrest, List.append_nil] at hafter
  exact ⟨⟨before, w, after⟩, by simp [WrittenText.text, htext, ← hafter], hw⟩

end ServiceContract.Json
