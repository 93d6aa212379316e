import ServiceContract.Proofs.Blanks
/-!
# Strings and literals of JSON as scalars of YAML

The reader of YAML takes a string of JSON for the text that it stands for, if it is legible, and
refuses it otherwise (`quoted?_quoted`). Words with spaces between them are what it reads step by
step, so a string is cut at its spaces. A literal between brackets is taken for a plain scalar, and
with it the blanks behind it (`plain?_literal`).
-/

namespace ServiceContract.Yaml

open Text (AreBlanks)
open Json (Piece IsLiteral quoted)

/-! ## Between two words -/

namespace Fold

/-- Nothing is taken up before what is neither a blank nor a line break. -/
theorem read?_of_neg {c : Cursor} (h : ∀ d ∈ c.peek, isBlank d = false ∧ isBreak d = false)
    (fuel : Nat) (f : Fold) : read? 0 (fuel + 1) f c = some (f, c) := by
  cases hpeek : c.peek with
  | none => simp [read?, hpeek]
  | some d => simp [read?, hpeek, h d hpeek]

/-- A blank is kept, unless a line break stands before it. -/
theorem read?_of_isBlank {c : Cursor} {d : Char} (hpeek : c.peek = some d)
    (hd : isBlank d = true) (fuel : Nat) (f : Fold) :
    read? 0 (fuel + 1) f c =
      read? 0 fuel (if f.broken then f else { f with blanks := f.blanks ++ [d] }) c.advance := by
  cases hbroken : f.broken <;> simp [read?, hpeek, hd, hbroken]

/-- The first line break drops the blanks before it. -/
theorem read?_of_isBreak {c : Cursor} {d : Char} (hpeek : c.peek = some d)
    (hblank : ¬ isBlank d = true) (hd : isBreak d = true) (fuel : Nat) (f : Fold) :
    read? 0 (fuel + 1) f c =
      read? 0 fuel (if f.broken then { f with others := f.others ++ c.nextLine.1 }
        else { f with broken := true, blanks := [], first := c.nextLine.1 }) c.nextLine.2 := by
  cases hbroken : f.broken <;> simp [read?, hpeek, hblank, hd, hbroken]

/-- Between two words blanks and line breaks are taken up. -/
theorem exists_read? {blanks tail : List Char} (hb : AreBlanks blanks) (htail : BeginsToken tail)
    {fuel : Nat} (hfuel : blanks.length < fuel) (f : Fold) {c : Cursor}
    (hrest : c.rest = blanks ++ tail) :
    ∃ g d, read? 0 fuel f c = some (g, d) ∧ c.Passes blanks d ∧ d.rest = tail := by
  induction hn : blanks.length using Nat.strong_induction_on generalizing blanks fuel f c with
  | h n ih =>
    obtain ⟨fuel, rfl⟩ : ∃ k, fuel = k + 1 := ⟨fuel - 1, by omega⟩
    cases blanks with
    | nil =>
      refine ⟨f, c, read?_of_neg (fun d hd => ?_) fuel f, .refl c, hrest⟩
      obtain ⟨hblank, hbreak, -⟩ := htail d (by rwa [Cursor.peek, hrest] at hd)
      exact ⟨hblank, hbreak⟩
    | cons d blanks =>
      have hbs : AreBlanks blanks := fun x hx => hb x (List.mem_cons_of_mem d hx)
      have hpeek : c.peek = some d := Cursor.peek_of_rest hrest
      simp only [List.length_cons] at hn hfuel
      by_cases hblank : isBlank d = true
      · have hbreak : isBreak d = false := by
          obtain rfl | rfl : d = ' ' ∨ d = '\t' := by simpa [isBlank] using hblank
          · decide
          · decide
        rw [read?_of_isBlank hpeek hblank]
        obtain ⟨g, e, hread, hpasses, hbehind⟩ := ih blanks.length (by omega) hbs
          (show blanks.length < fuel by omega) _ (Cursor.rest_advance hrest) rfl
        exact ⟨g, e, hread, (Cursor.passes_advance hrest hbreak).trans hpasses, hbehind⟩
      · have hbreak : isBreak d = true :=
          (isBlank_or_isBreak (hb d List.mem_cons_self)).resolve_left hblank
        rw [read?_of_isBreak hpeek hblank hbreak]
        obtain ⟨taken, others, rfl, -, hpasses, hbehind⟩ :=
          Cursor.exists_passes_nextLine hrest hbreak htail
        rw [List.length_append] at hn hfuel
        obtain ⟨g, e, hread, hpasses', hbehind'⟩ := ih others.length (by omega)
          (fun x hx => hbs x (List.mem_append_right _ hx)) (show others.length < fuel by omega)
          _ hbehind rfl
        exact ⟨g, e, hread, hpasses.trans hpasses', hbehind'⟩

/-- Spaces between two words on a line are taken up as they are. -/
theorem exists_read?_spaces (count : Nat) {tail : List Char}
    (htail : ∀ d ∈ tail.head?, isBlank d = false ∧ isBreak d = false) {fuel : Nat}
    (hfuel : count < fuel) (blanks : List Char) {c : Cursor}
    (hrest : c.rest = List.replicate count ' ' ++ tail) :
    ∃ d, read? 0 fuel ⟨false, blanks, [], []⟩ c =
        some (⟨false, blanks ++ List.replicate count ' ', [], []⟩, d) ∧
      c.Passes (List.replicate count ' ') d ∧ d.rest = tail := by
  induction count generalizing fuel blanks c with
  | zero =>
    obtain ⟨fuel, rfl⟩ : ∃ k, fuel = k + 1 := ⟨fuel - 1, by omega⟩
    have hread := read?_of_neg (fun d hd => htail d (by rwa [Cursor.peek, hrest] at hd)) fuel
    exact ⟨c, by simpa using hread _, .refl c, hrest⟩
  | succ count ih =>
    obtain ⟨fuel, rfl⟩ : ∃ k, fuel = k + 1 := ⟨fuel - 1, by omega⟩
    have hfirst : c.rest = ' ' :: (List.replicate count ' ' ++ tail) := hrest
    obtain ⟨d, hread, hpasses, hbehind⟩ := ih (show count < fuel by omega) (blanks ++ [' '])
      (Cursor.rest_advance hfirst)
    refine ⟨d, ?_, (Cursor.passes_advance hfirst (by decide)).trans hpasses, hbehind⟩
    rw [read?_of_isBlank (Cursor.peek_of_rest hfirst) (by decide)]
    simpa [List.replicate_succ] using hread

end Fold

/-! ## Strings -/

/-- Whether a character of a string is a space as it is. -/
def isSpace : Piece → Bool
  | .plain c .. => c = ' '
  | _ => false

theorem text_of_isSpace {x : Piece} (h : isSpace x = true) :
    x.text = [' '] ∧ x.character = ' ' ∧ x.isLegible = true := by
  cases x <;> simp_all [isSpace, Piece.text, Piece.character, Piece.isLegible]

/-- The letters behind a backslash mean the same in JSON and in YAML. -/
theorem escape?_of_escaped? {e d : Char} (h : Json.escaped? e = some d) :
    escape? e = some (.inl d) ∧ isBreak e = false := by
  unfold Json.escaped? at h
  split at h <;> cases h <;> exact ⟨rfl, by decide⟩

theorem peekAt_one {c : Cursor} {d e : Char} {rest : List Char} (h : c.rest = d :: e :: rest) :
    c.peekAt 1 = some e := by
  rw [Cursor.peekAt, h]
  rfl

theorem isBreak_of_digit? {base n : Nat} {c : Char} (h : Digits.digit? base c = some n) :
    isBreak c = false := by
  by_contra hbreak
  rw [Bool.not_eq_false] at hbreak
  simp only [isBreak, Bool.or_eq_true, decide_eq_true_eq] at hbreak
  obtain (((rfl | rfl) | rfl) | rfl) | rfl := hbreak <;> simp [Digits.digit?, Digits.isDecimal] at h

theorem isInline_of_number? {base n : Nat} {digits : List Char}
    (h : Digits.number? base digits = some n) : IsInline digits := by
  have hfold : ∀ (digits : List Char) (k : Nat),
      digits.foldlM (fun n c => (Digits.digit? base c).map (n * base + ·)) k = some n →
      IsInline digits := by
    intro digits
    induction digits with
    | nil => intro _ _; simp [IsInline]
    | cons d digits ih =>
      intro k hk
      rw [List.foldlM_cons, Option.bind_eq_bind, Option.bind_eq_some_iff] at hk
      obtain ⟨m, hm, hrest⟩ := hk
      obtain ⟨v, hv, -⟩ := Option.map_eq_some_iff.1 hm
      exact List.forall_mem_cons.2 ⟨isBreak_of_digit? hv, ih m hrest⟩
  unfold Digits.number? at h
  split_ifs at h with hnil
  exact hfold digits 0 h

/-- A character of a string is written on one line. -/
theorem isInline_text {x : Piece} (h : BreaksPlainly x.text) : IsInline x.text := by
  have hslash : isBreak '\\' = false := by decide
  cases x with
  | plain e hcontrol hquote hback =>
    have hline : e ≠ '\n' ∧ e ≠ '\r' := by constructor <;> rintro rfl <;> simp at hcontrol
    obtain ⟨hnext, hls, hps⟩ := h e List.mem_cons_self
    simp [IsInline, Piece.text, isBreak, hline, hnext, hls, hps]
  | letter e d hletter => simpa [IsInline, Piece.text, hslash] using (escape?_of_escaped? hletter).2
  | number digits n hlength hnumber =>
    have hu : isBreak 'u' = false := by decide
    simpa [IsInline, Piece.text, hslash, hu] using isInline_of_number? hnumber

section Word

variable {c : Cursor} {rest : List Char}

/-- A character without a meaning of its own stands for itself. -/
theorem quotedWord?_plain {e : Char} (hblank : isBlank e = false) (hbreak : isBreak e = false)
    (hquote : e ≠ '"') (hback : e ≠ '\\') (hrest : c.rest = e :: rest) (fuel : Nat) :
    quotedWord? '"' (fuel + 1) c =
      (quotedWord? '"' fuel c.advance).map fun (word, after) => (e :: word, after) := by
  have hpeek : c.peek = some e := Cursor.peek_of_rest hrest
  simp [quotedWord?, hpeek, hblank, hbreak, hquote, hback]

/-- An escape that is no line break is taken for the character that it stands for. -/
theorem quotedWord?_escape {e : Char} (hbreak : isBreak e = false)
    (hrest : c.rest = '\\' :: e :: rest) (fuel : Nat) :
    quotedWord? '"' (fuel + 1) c = (escaped? c.advance).bind fun (d, behind) =>
      (quotedWord? '"' fuel behind).map fun (word, after) => (d :: word, after) := by
  have hslash : isBlank '\\' = false ∧ isBreak '\\' = false := by decide
  have hpeek : c.peek = some '\\' := Cursor.peek_of_rest hrest
  simp [quotedWord?, hpeek, hslash, peekAt_one hrest, hbreak]

theorem escaped?_letter {e d : Char} (h : Json.escaped? e = some d) (hrest : c.rest = e :: rest) :
    escaped? c = some (d, c.advance) := by
  have hpeek : c.peek = some e := Cursor.peek_of_rest hrest
  simp [escaped?, hpeek, (escape?_of_escaped? h).1]

/-- An escape by number needs the number of a character. -/
theorem escaped?_number {digits : List Char} {n : Nat} (hlength : digits.length = 4)
    (h : Digits.number? 16 digits = some n) (hrest : c.rest = 'u' :: (digits ++ rest)) :
    escaped? c =
      if n.isValidChar then some (Char.ofNat n, c.advance.advanceBy digits.length) else none := by
  have hpeek : c.peek = some 'u' := Cursor.peek_of_rest hrest
  have hbehind : c.advance.rest = digits ++ rest := Cursor.rest_advance hrest
  have htake : (digits ++ rest).take 4 = digits := by rw [← hlength, List.take_left]
  simp [escaped?, hpeek, escape?, hbehind, htake, hlength, h]

/-- A character other than a space is taken as what it stands for, if it is legible. -/
theorem quotedWord?_piece {x : Piece} (hspace : isSpace x = false)
    (hrest : c.rest = x.text ++ rest) (hplain : BreaksPlainly x.text) (fuel : Nat) :
    ∃ d, c.Passes x.text d ∧ d.rest = rest ∧
      quotedWord? '"' (fuel + 1) c =
        if x.isLegible then
          (quotedWord? '"' fuel d).map fun (word, after) => (x.character :: word, after)
        else none := by
  have hinline := isInline_text hplain
  have hbehind : (c.advanceBy x.text.length).rest = rest := by
    rw [Cursor.advanceBy, hrest, List.drop_left]
  refine ⟨_, Cursor.passes_advanceBy hrest hinline, hbehind, ?_⟩
  cases x with
  | plain e hcontrol hquote hback =>
    have hblank : isBlank e = false := by
      have htab : e ≠ '\t' := by rintro rfl; simp at hcontrol
      simpa [isBlank, htab, isSpace] using hspace
    exact quotedWord?_plain hblank (hinline e List.mem_cons_self) hquote hback hrest fuel
  | letter e d h =>
    have hbeyond : c.advance.advance = c.advanceBy (Piece.letter e d h).text.length :=
      Cursor.advance_advanceBy hrest 1
    rw [quotedWord?_escape (escape?_of_escaped? h).2 hrest,
      escaped?_letter h (Cursor.rest_advance hrest), hbeyond]
    rfl
  | number digits n hlength h =>
    have hfirst : c.advance.rest = 'u' :: (digits ++ rest) := Cursor.rest_advance hrest
    have hbeyond : c.advance.advance.advanceBy digits.length =
        c.advanceBy (Piece.number digits n hlength h).text.length := by
      rw [Cursor.advance_advanceBy hfirst, Cursor.advance_advanceBy hrest]
      rfl
    rw [quotedWord?_escape (by decide) hrest, escaped?_number hlength h hfirst, hbeyond]
    by_cases hvalid : n.isValidChar <;> simp [hvalid, Piece.isLegible, Piece.character]

end Word

/-- Characters other than spaces are taken up to the next space or the closing quote. -/
theorem quotedWord?_pieces {pieces : List Piece} (hspace : pieces.all (!isSpace ·) = true)
    {e : Char} (he : e = '"' ∨ e = ' ') {rest : List Char}
    (hplain : BreaksPlainly (pieces.flatMap Piece.text)) {fuel : Nat}
    (hfuel : pieces.length < fuel) {c : Cursor}
    (hrest : c.rest = pieces.flatMap Piece.text ++ e :: rest) :
    ∃ d, c.Passes (pieces.flatMap Piece.text) d ∧ d.rest = e :: rest ∧
      quotedWord? '"' fuel c =
        if pieces.all Piece.isLegible then some (pieces.map Piece.character, false, d)
        else none := by
  induction pieces generalizing c fuel with
  | nil =>
    obtain ⟨fuel, rfl⟩ : ∃ k, fuel = k + 1 := ⟨fuel - 1, by omega⟩
    have hpeek : c.peek = some e := Cursor.peek_of_rest hrest
    refine ⟨c, .refl c, hrest, ?_⟩
    obtain rfl | rfl := he
    · simp [quotedWord?, hpeek, isBlank, isBreak]
    · simp [quotedWord?, hpeek, isBlank]
  | cons x pieces ih =>
    obtain ⟨fuel, rfl⟩ : ∃ k, fuel = k + 1 := ⟨fuel - 1, by omega⟩
    rw [List.all_cons, Bool.and_eq_true, Bool.not_eq_true'] at hspace
    rw [List.flatMap_cons, breaksPlainly_append] at hplain
    rw [List.flatMap_cons, List.append_assoc] at hrest
    obtain ⟨d, hpasses, hbehind, hword⟩ := quotedWord?_piece hspace.1 hrest hplain.1 fuel
    obtain ⟨f, hpasses', hbehind', hwords⟩ :=
      ih hspace.2 hplain.2 (Nat.lt_of_succ_lt_succ hfuel) hbehind
    refine ⟨f, hpasses.trans hpasses', hbehind', ?_⟩
    rw [hword, hwords]
    cases hx : x.isLegible <;> cases hall : pieces.all Piece.isLegible <;> simp [hx, hall]

theorem flatMap_text_of_isSpace {spaces : List Piece} (h : spaces.all isSpace = true) :
    spaces.flatMap Piece.text = List.replicate spaces.length ' ' ∧
      spaces.map Piece.character = List.replicate spaces.length ' ' ∧
      spaces.all Piece.isLegible = true := by
  induction spaces with
  | nil => exact ⟨rfl, rfl, rfl⟩
  | cons x spaces ih =>
    rw [List.all_cons, Bool.and_eq_true] at h
    obtain ⟨htext, hcharacter, hlegible⟩ := text_of_isSpace h.1
    obtain ⟨htexts, hcharacters, hall⟩ := ih h.2
    simp [htext, hcharacter, hlegible, htexts, hcharacters, hall, List.replicate_succ]

/-- Behind spaces stands the next word, or the closing quote. -/
theorem head?_text {pieces : List Piece} (hspace : ∀ x ∈ pieces.head?, isSpace x = false)
    (hplain : BreaksPlainly (pieces.flatMap Piece.text)) (rest : List Char) :
    ∀ d ∈ (pieces.flatMap Piece.text ++ '"' :: rest).head?,
      isBlank d = false ∧ isBreak d = false := by
  intro d hd
  cases pieces with
  | nil =>
    obtain rfl : '"' = d := Option.some.inj hd
    decide
  | cons x pieces =>
    rw [List.flatMap_cons, breaksPlainly_append] at hplain
    have hinline := isInline_text hplain.1
    have hx := hspace x rfl
    have hslash : isBlank '\\' = false := by decide
    cases x with
    | plain e hcontrol _ _ =>
      obtain rfl : e = d := Option.some.inj hd
      have htab : e ≠ '\t' := by rintro rfl; simp at hcontrol
      exact ⟨by simpa [isBlank, htab, isSpace] using hx, hinline e List.mem_cons_self⟩
    | letter e _ _ =>
      obtain rfl : '\\' = d := Option.some.inj hd
      exact ⟨hslash, hinline '\\' List.mem_cons_self⟩
    | number digits _ _ _ =>
      obtain rfl : '\\' = d := Option.some.inj hd
      exact ⟨hslash, hinline '\\' List.mem_cons_self⟩

theorem isInline_pieces {pieces : List Piece} (h : BreaksPlainly (pieces.flatMap Piece.text)) :
    IsInline (pieces.flatMap Piece.text) := by
  induction pieces with
  | nil => simp [IsInline]
  | cons x pieces ih =>
    rw [List.flatMap_cons, breaksPlainly_append] at h
    rw [List.flatMap_cons, isInline_append]
    exact ⟨isInline_text h.1, ih h.2⟩

theorem length_le_flatMap_text (pieces : List Piece) :
    pieces.length ≤ (pieces.flatMap Piece.text).length := by
  induction pieces with
  | nil => exact Nat.le_refl 0
  | cons x pieces ih =>
    have hone : 1 ≤ x.text.length := by cases x <;> simp [Piece.text]
    rw [List.flatMap_cons, List.length_append, List.length_cons]
    omega

/-- Characters of a string are words with spaces between them. -/
theorem exists_words (pieces : List Piece) :
    ∃ word spaces others, pieces = word ++ (spaces ++ others) ∧
      word.all (!isSpace ·) = true ∧ spaces.all isSpace = true ∧
      (∀ x ∈ others.head?, isSpace x = false) ∧ (spaces = [] → others = []) := by
  refine ⟨pieces.takeWhile (!isSpace ·), (pieces.dropWhile (!isSpace ·)).takeWhile isSpace,
    (pieces.dropWhile (!isSpace ·)).dropWhile isSpace, ?_, List.all_takeWhile,
    List.all_takeWhile, fun x hx => ?_, fun hnil => ?_⟩
  · rw [List.takeWhile_append_dropWhile, List.takeWhile_append_dropWhile]
  · have h := List.head?_dropWhile_not isSpace (pieces.dropWhile (!isSpace ·))
    rw [Option.mem_def.1 hx] at h
    simpa using h
  · have h := List.head?_dropWhile_not (!isSpace ·) pieces
    cases hbehind : pieces.dropWhile (!isSpace ·) with
    | nil => rfl
    | cons x others =>
      rw [hbehind] at h hnil
      have hx : isSpace x = true := by simpa using h
      simp [hx] at hnil

theorem atDocumentMarker_of_column {c : Cursor} (h : 0 < c.column) :
    c.atDocumentMarker = false := by
  have hcolumn : c.column ≠ 0 := by omega
  simp [Cursor.atDocumentMarker, Cursor.atMarker, hcolumn]

section Words

variable {word : List Piece} {c : Cursor}

/-- The last word of a string is taken with the closing quote. -/
theorem quotedWords?_last (hword : word.all (!isSpace ·) = true)
    (hplain : BreaksPlainly (word.flatMap Piece.text)) (hcolumn : 0 < c.column) {rest : List Char}
    (hrest : c.rest = word.flatMap Piece.text ++ '"' :: rest) (fuel : Nat) :
    ∃ d, c.Passes (word.flatMap Piece.text ++ ['"']) d ∧ d.rest = rest ∧
      quotedWords? '"' (fuel + 1) c =
        if word.all Piece.isLegible then some (word.map Piece.character, d) else none := by
  have hlong := length_le_flatMap_text word
  obtain ⟨d, hpasses, hbehind, hread⟩ := quotedWord?_pieces hword (.inl rfl) hplain
    (show _ < c.rest.length + 1 by rw [hrest, List.length_append]; omega) hrest
  have hquote : d.at? '"' = true := by simp [Cursor.at?, Cursor.peek, hbehind]
  refine ⟨d.advance, hpasses.trans (Cursor.passes_advance hbehind (by decide)),
    Cursor.rest_advance hbehind, ?_⟩
  rw [quotedWords?, atDocumentMarker_of_column hcolumn, hread]
  cases word.all Piece.isLegible <;> simp [hrest, hquote]

/-- Any other word is taken with the spaces behind it, and what follows begins on the same line. -/
theorem quotedWords?_next (hword : word.all (!isSpace ·) = true)
    (hplain : BreaksPlainly (word.flatMap Piece.text)) (hcolumn : 0 < c.column) (count : Nat)
    {tail : List Char} (htail : ∀ d ∈ tail.head?, isBlank d = false ∧ isBreak d = false)
    (hrest : c.rest = word.flatMap Piece.text ++ (List.replicate (count + 1) ' ' ++ tail))
    (fuel : Nat) :
    ∃ d, c.Passes (word.flatMap Piece.text ++ List.replicate (count + 1) ' ') d ∧
      d.rest = tail ∧ 0 < d.column ∧
      quotedWords? '"' (fuel + 1) c =
        if word.all Piece.isLegible then
          (quotedWords? '"' fuel d).map fun (others, after) =>
            (word.map Piece.character ++ List.replicate (count + 1) ' ' ++ others, after)
        else none := by
  have hlong := length_le_flatMap_text word
  obtain ⟨d, hpasses, hbehind, hread⟩ := quotedWord?_pieces hword (.inr rfl) hplain
    (show _ < c.rest.length + 1 by rw [hrest, List.length_append]; omega) hrest
  have hspan : d.rest = List.replicate (count + 1) ' ' ++ tail := hbehind
  obtain ⟨e, hfold, hspaces, hbehind'⟩ := Fold.exists_read?_spaces (count + 1) htail
    (show _ < d.rest.length + 1 by
      rw [hspan, List.length_append, List.length_replicate]
      omega) [] hspan
  have hboth := hpasses.trans hspaces
  refine ⟨e, hboth, hbehind', ?_, ?_⟩
  · have hstays := hboth.stays (isInline_append.2 ⟨isInline_pieces hplain, fun x hx => by
      rw [List.eq_of_mem_replicate hx]
      decide⟩)
    omega
  · have hspace : d.at? '"' = false := by simp [Cursor.at?, Cursor.peek, hbehind]
    have hne : c.rest ≠ [] := by simp [hrest]
    have hfold' : Fold.read? 0 (d.rest.length + 1) { Fold.none with broken := false } d = _ := hfold
    rw [quotedWords?, atDocumentMarker_of_column hcolumn, hread]
    cases word.all Piece.isLegible <;> cases hothers : quotedWords? '"' fuel e <;>
      simp [hne, hspace, hfold', Fold.text, hothers]

/-- What stands behind the first quote of a string is taken as what it stands for, if all of it is
legible. -/
theorem quotedWords?_pieces {pieces : List Piece} {rest : List Char}
    (hplain : BreaksPlainly (pieces.flatMap Piece.text)) {fuel : Nat}
    (hfuel : pieces.length < fuel) (hcolumn : 0 < c.column)
    (hrest : c.rest = pieces.flatMap Piece.text ++ '"' :: rest) :
    ∃ d, c.Passes (pieces.flatMap Piece.text ++ ['"']) d ∧ d.rest = rest ∧
      quotedWords? '"' fuel c =
        if pieces.all Piece.isLegible then some (pieces.map Piece.character, d) else none := by
  induction hn : pieces.length using Nat.strong_induction_on generalizing pieces fuel c with
  | h n ih =>
    obtain ⟨fuel, rfl⟩ : ∃ k, fuel = k + 1 := ⟨fuel - 1, by omega⟩
    obtain ⟨word, spaces, others, rfl, hword, hspaces, hothers, hnil⟩ := exists_words pieces
    obtain ⟨htext, hcharacters, hlegible⟩ := flatMap_text_of_isSpace hspaces
    cases spaces with
    | nil =>
      obtain rfl := hnil rfl
      simp only [List.append_nil] at hplain hrest ⊢
      exact quotedWords?_last hword hplain hcolumn hrest fuel
    | cons x spaces =>
      simp only [List.flatMap_append, List.append_assoc, breaksPlainly_append] at hplain hrest
      rw [htext] at hrest
      simp only [List.length_append, List.length_cons] at hn hfuel
      obtain ⟨d, hpasses, hbehind, hcolumn', hread⟩ := quotedWords?_next hword hplain.1 hcolumn
        spaces.length (head?_text hothers hplain.2.2 rest) hrest fuel
      obtain ⟨f, hpasses', hbehind', hread'⟩ := ih others.length (by omega) hplain.2.2
        (show others.length < fuel by omega) hcolumn' hbehind rfl
      refine ⟨f, ?_, hbehind', ?_⟩
      · rw [List.flatMap_append, List.flatMap_append, htext]
        simpa using hpasses.trans hpasses'
      · rw [hread, hread', List.all_append, List.all_append, hlegible, List.map_append,
          List.map_append, hcharacters]
        cases word.all Piece.isLegible <;> cases others.all Piece.isLegible <;> simp

end Words

/-- A string is taken as the text that it stands for, if it is legible. -/
theorem quoted?_quoted {pieces : List Piece} {rest : List Char}
    (hplain : BreaksPlainly (quoted pieces)) {c : Cursor} (hrest : c.rest = quoted pieces ++ rest) :
    ∃ d, c.Passes (quoted pieces) d ∧ d.rest = rest ∧
      quoted? c =
        if pieces.all Piece.isLegible then some (pieces.map Piece.character, d) else none := by
  have hfirst : c.rest = '"' :: (pieces.flatMap Piece.text ++ '"' :: rest) := by
    simpa [quoted] using hrest
  have hpeek : c.peek = some '"' := Cursor.peek_of_rest hfirst
  have hinner : BreaksPlainly (pieces.flatMap Piece.text) := fun x hx =>
    hplain x (by simp only [quoted, List.mem_cons, List.mem_append]; exact .inr (.inl hx))
  have hlong := length_le_flatMap_text pieces
  have hfuel : pieces.length < c.rest.length + 1 := by
    rw [hfirst, List.length_cons, List.length_append]
    omega
  obtain ⟨d, hpasses, hbehind, hread⟩ := quotedWords?_pieces hinner hfuel
    (c := c.advance) (Nat.succ_pos _) (Cursor.rest_advance hfirst)
  refine ⟨d, (Cursor.passes_advance hfirst (by decide)).trans hpasses, hbehind, ?_⟩
  rw [quoted?, hpeek]
  exact hread

/-- A string is written on one line. -/
theorem isInline_quoted {pieces : List Piece} (h : BreaksPlainly (quoted pieces)) :
    IsInline (quoted pieces) := by
  have hquote : isBreak '"' = false := by decide
  have hinner : IsInline (pieces.flatMap Piece.text) := isInline_pieces fun x hx =>
    h x (by simp only [quoted, List.mem_cons, List.mem_append]; exact .inr (.inl hx))
  rw [quoted, IsInline, List.forall_mem_cons, List.forall_mem_append]
  exact ⟨hquote, hinner, by simpa using hquote⟩

/-! ## Literals -/

/-- Whether a character belongs to a plain scalar wherever it stands. -/
def isSolid (c : Char) : Bool :=
  !isBlank c && !isBreak c && !isFlowIndicator c && c ≠ ':' && c ≠ '#' && c ≠ '\uFEFF'

/-- The characters that do not. -/
def fluids : List Char :=
  [' ', '\t', '\n', '\r', '\u0085', '\u2028', '\u2029', ',', '[', ']', '{', '}', ':', '#',
    '\uFEFF']

theorem mem_fluids_of_not_isSolid {c : Char} (h : isSolid c = false) : c ∈ fluids := by
  simp only [isSolid, isBlank, isBreak, isFlowIndicator, Bool.and_eq_false_iff,
    Bool.not_eq_false', Bool.or_eq_true, decide_eq_true_eq, decide_eq_false_iff_not, not_not,
    List.contains_eq_mem, List.mem_cons, List.not_mem_nil, or_false] at h
  simpa [fluids, or_assoc] using h

theorem isSolid_of_isDecimal {c : Char} (h : Digits.isDecimal c = true) : isSolid c = true := by
  by_contra hnot
  have hall : fluids.all (!Digits.isDecimal ·) = true := by decide
  have hdigit := List.all_eq_true.1 hall c (mem_fluids_of_not_isSolid (Bool.not_eq_true _ ▸ hnot))
  simp [h] at hdigit

theorem isSolid_of_isLiteral {cs : List Char} (h : IsLiteral cs) : cs.all isSolid = true := by
  have hdigits : ∀ {ds : List Char}, Json.AreDigits ds → ds.all isSolid = true := fun hds =>
    List.all_eq_true.2 fun c hc => isSolid_of_isDecimal (hds.2 c hc)
  cases h with
  | null => decide
  | true => decide
  | false => decide
  | number hsign hwhole hfraction hexponent =>
    simp only [List.all_append, Bool.and_eq_true]
    refine ⟨⟨⟨?_, hdigits hwhole.1⟩, ?_⟩, ?_⟩
    · obtain rfl | rfl : _ = [] ∨ _ = ['-'] := by simpa using hsign
      · rfl
      · decide
    · cases hfraction with
      | none => rfl
      | some ds hds => exact Bool.and_eq_true_iff.2 ⟨by decide, hdigits hds⟩
    · cases hexponent with
      | none => rfl
      | some letter sign ds hletter hsign hds =>
        rw [List.all_cons, List.all_append, hdigits hds, Bool.and_true, Bool.and_eq_true]
        have hletters : ['e', 'E'].all isSolid = true := by decide
        have hsigns : [[], ['+'], ['-']].all (·.all isSolid) = true := by decide
        exact ⟨List.all_eq_true.1 hletters letter hletter, List.all_eq_true.1 hsigns sign hsign⟩

/-- A literal begins with a letter or a digit, or with a sign before a digit. -/
theorem exists_cons_of_isLiteral {cs : List Char} (h : IsLiteral cs) :
    ∃ d rest, cs = d :: rest ∧ (d ∈ ['n', 't', 'f', '-'] ∨ Digits.isDecimal d = true) ∧
      (d = '-' → ∃ e others, rest = e :: others ∧ Digits.isDecimal e = true) := by
  cases h with
  | null => exact ⟨_, _, rfl, .inl (by decide), fun hsign => absurd hsign (by decide)⟩
  | true => exact ⟨_, _, rfl, .inl (by decide), fun hsign => absurd hsign (by decide)⟩
  | false => exact ⟨_, _, rfl, .inl (by decide), fun hsign => absurd hsign (by decide)⟩
  | @number sign whole _ _ hsign hwhole _ _ =>
    obtain ⟨⟨hne, hdigits⟩, -⟩ := hwhole
    cases whole with
    | nil => exact absurd rfl hne
    | cons d whole =>
      have hd := hdigits d List.mem_cons_self
      obtain rfl | rfl : sign = [] ∨ sign = ['-'] := by simpa using hsign
      · refine ⟨d, _, rfl, .inr hd, fun hsign => ?_⟩
        rw [hsign] at hd
        exact absurd hd (by decide)
      · exact ⟨'-', _, rfl, .inl (by decide), fun _ => ⟨d, _, rfl, hd⟩⟩

/-- The characters with which a token other than a literal begins. -/
def indicators : List Char :=
  ['%', '.', '[', '{', ']', '}', ',', '?', ':', '*', '&', '!', '|', '>', '\'', '"', '#', '@', '`']

theorem not_mem_indicators {d : Char}
    (h : d ∈ ['n', 't', 'f', '-'] ∨ Digits.isDecimal d = true) : d ∉ indicators := by
  intro hd
  have hall : indicators.all
      (fun c => !(['n', 't', 'f', '-'].contains c) && !Digits.isDecimal c) = true := by decide
  have hnot := List.all_eq_true.1 hall d hd
  obtain hword | hdigit := h
  · rw [List.contains_iff_mem.2 hword] at hnot
    cases hnot
  · rw [hdigit, Bool.not_true, Bool.and_false] at hnot
    cases hnot

/-- The characters behind an item between brackets. -/
def closers : List Char := [',', ']', '}']

theorem beginsToken_of_mem_closers {e : Char} (he : e ∈ closers) (rest : List Char) :
    BeginsToken (e :: rest) ∧ isFlowIndicator e = true ∧ e ≠ '-' ∧ e ≠ '.' := by
  simp only [closers, List.mem_cons, List.not_mem_nil, or_false] at he
  obtain rfl | rfl | rfl := he <;> exact ⟨by simp [BeginsToken, isBlank, isBreak], by decide⟩

/-- Solid characters are taken up to the first blank, or the end of the item. -/
theorem plainWord?_of_isSolid {cs rest : List Char} (h : cs.all isSolid = true)
    (hrest : ∀ d ∈ rest.head?, isBlank d = true ∨ isBreak d = true ∨ isFlowIndicator d = true)
    {fuel : Nat} (hfuel : cs.length < fuel) {c : Cursor} (hc : c.rest = cs ++ rest) :
    ∃ d, d.rest = rest ∧ plainWord? true fuel c = some (cs, d) := by
  induction cs generalizing c fuel with
  | nil =>
    obtain ⟨fuel, rfl⟩ : ∃ k, fuel = k + 1 := ⟨fuel - 1, by omega⟩
    refine ⟨c, hc, ?_⟩
    cases hpeek : c.peek with
    | none => simp [plainWord?, hpeek]
    | some d =>
      obtain hblank | hbreak | hflow := hrest d (by rwa [Cursor.peek, hc] at hpeek)
      · simp [plainWord?, hpeek, hblank]
      · simp [plainWord?, hpeek, hbreak]
      · have hcolon : d ≠ ':' := by
          rintro rfl
          simp [isFlowIndicator] at hflow
        simp [plainWord?, hpeek, hflow, hcolon]
  | cons x cs ih =>
    obtain ⟨fuel, rfl⟩ : ∃ k, fuel = k + 1 := ⟨fuel - 1, by omega⟩
    rw [List.all_cons, Bool.and_eq_true] at h
    obtain ⟨d, hbehind, hread⟩ := ih h.2 (Nat.lt_of_succ_lt_succ hfuel) (Cursor.rest_advance hc)
    have hpeek : c.peek = some x := Cursor.peek_of_rest hc
    have hx := h.1
    simp only [isSolid, Bool.and_eq_true, Bool.not_eq_true', decide_eq_true_eq] at hx
    refine ⟨d, hbehind, ?_⟩
    simp [plainWord?, hpeek, hx, hread]

theorem atMarker_of_rest {c : Cursor} {d : Char} {rest : List Char} (h : c.rest = d :: rest)
    {x : Char} (hx : d = x → rest.head? ≠ some x) : c.atMarker x = false := by
  rw [Cursor.atMarker, h]
  cases rest with
  | nil => simp
  | cons e rest =>
    have hne : d = x → e ≠ x := fun hd he => hx hd (by simp [he])
    simpa using fun _ hd he => absurd he (hne hd)

theorem atDocumentMarker_of_rest {c : Cursor} {d : Char} {rest : List Char}
    (h : c.rest = d :: rest) (hdash : d = '-' → rest.head? ≠ some '-') (hdot : d ≠ '.') :
    c.atDocumentMarker = false := by
  rw [Cursor.atDocumentMarker, atMarker_of_rest h hdash,
    atMarker_of_rest h fun hd => absurd hd hdot, Bool.or_false]

/-- Behind a literal stands nothing more of a plain scalar. -/
theorem plainWords?_closer {e : Char} (he : e ∈ closers) {tail : List Char} {c : Cursor}
    (hc : c.rest = e :: tail) {fuel : Nat} (hfuel : 0 < fuel) (f : Fold) :
    plainWords? true 0 fuel f c = some ([], f.broken, c) := by
  obtain ⟨fuel, rfl⟩ : ∃ k, fuel = k + 1 := ⟨fuel - 1, by omega⟩
  obtain ⟨hbegins, hflow, hdash, hdot⟩ := beginsToken_of_mem_closers he tail
  obtain ⟨hblank, hbreak, hcomment, -⟩ := hbegins e rfl
  have hpeek : c.peek = some e := Cursor.peek_of_rest hc
  have hmarker := atDocumentMarker_of_rest hc (fun h => absurd h hdash) hdot
  have hword : plainWord? true (c.rest.length + 1) c = some ([], c) := by
    have hcolon : e ≠ ':' := by
      rintro rfl
      simp [isFlowIndicator] at hflow
    simp [plainWord?, hpeek, hflow, hcolon]
  simp [plainWords?, hmarker, Cursor.at?, hpeek, hcomment, hword, hblank, hbreak]

/-- Behind a literal stands a blank, or the end of the item. -/
theorem head?_behindLiteral {blanks : List Char} (hb : AreBlanks blanks) {e : Char}
    (he : e ∈ closers) (tail : List Char) : ∀ d ∈ (blanks ++ e :: tail).head?,
      isBlank d = true ∨ isBreak d = true ∨ isFlowIndicator d = true := by
  intro d hd
  cases blanks with
  | nil =>
    obtain rfl : e = d := Option.some.inj hd
    exact .inr (.inr (beginsToken_of_mem_closers he tail).2.1)
  | cons b blanks =>
    obtain rfl : b = d := Option.some.inj hd
    exact (isBlank_or_isBreak (hb _ List.mem_cons_self)).imp_right .inl

/-- A literal begins neither a document nor a comment. -/
theorem begins_of_isLiteral {cs rest : List Char} (h : IsLiteral cs) {c : Cursor}
    (hc : c.rest = cs ++ rest) : c.atDocumentMarker = false ∧ c.at? '#' = false := by
  obtain ⟨x, others, rfl, hx, hsign⟩ := exists_cons_of_isLiteral h
  have hindicator : x ≠ '.' ∧ x ≠ '#' := by
    constructor <;> rintro rfl <;> exact not_mem_indicators hx (by decide)
  refine ⟨atDocumentMarker_of_rest hc (fun hdash => ?_) hindicator.1, ?_⟩
  · obtain ⟨y, digits, rfl, hy⟩ := hsign hdash
    rintro ⟨⟩
    exact absurd hy (by decide)
  · simp [Cursor.at?, Cursor.peek, hc, hindicator.2]

/-- A literal between brackets is taken for a plain scalar, with the blanks behind it. -/
theorem plain?_literal {cs : List Char} (h : IsLiteral cs) {blanks : List Char}
    (hb : AreBlanks blanks) {e : Char} (he : e ∈ closers) {tail : List Char} {c : Cursor}
    (hc : c.rest = cs ++ (blanks ++ e :: tail)) :
    ∃ broken d, d.rest = e :: tail ∧ plain? true 0 c = some (cs, broken, d) := by
  obtain ⟨hbegins, -⟩ := beginsToken_of_mem_closers he tail
  obtain ⟨d, hbehind, hword⟩ := plainWord?_of_isSolid (isSolid_of_isLiteral h)
    (head?_behindLiteral hb he tail)
    (show _ < c.rest.length + 1 by rw [hc, List.length_append]; omega) hc
  obtain ⟨hmarker, hcomment⟩ := begins_of_isLiteral h hc
  cases blanks with
  | nil =>
    have hpeek : d.peek = some e := Cursor.peek_of_rest hbehind
    obtain ⟨hblank, hbreak, -⟩ := hbegins e rfl
    refine ⟨false, d, hbehind, ?_⟩
    simp [plain?, plainWords?, hmarker, hcomment, hword, hpeek, hblank, hbreak, Fold.text,
      Fold.none]
  | cons b blanks =>
    have hpeek : d.peek = some b := Cursor.peek_of_rest hbehind
    obtain ⟨g, f, hread, -, hrest⟩ := Fold.exists_read? hb hbegins
      (show _ < d.rest.length + 1 by rw [hbehind, List.length_append]; omega) Fold.none hbehind
    have hbroken : (isBlank b || isBreak b) = true := by
      simpa using isBlank_or_isBreak (hb b List.mem_cons_self)
    have hne : 0 < c.rest.length := by
      rw [hc, List.length_append, List.length_append, List.length_cons]
      omega
    have hlast := plainWords?_closer he hrest hne g
    have hnone : Fold.none.text = [] := rfl
    refine ⟨g.broken, f, hrest, ?_⟩
    simp [plain?, plainWords?, hmarker, hcomment, hword, hpeek, hbroken, hnone, hread, hlast]

end ServiceContract.Yaml
